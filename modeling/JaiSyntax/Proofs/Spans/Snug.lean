import JaiSyntax.Proofs.Lossless
import JaiSyntax.Proofs.Reading.Frame
/-!
Snug nodes. A snug node spans from its first child to its last, of which there is one at least, and
starts with something significant; unless it is an error, it ends with something significant too.
Deprecation notices are snug, and a snug expression stays snug when it is read as a type.
-/

set_option autoImplicit false

namespace JaiSyntax

structure Node.IsSnug (node : Node) : Prop where
  span : node.span = spanOf node.children 0
  first : node.children.head?.map Child.isSignificant = some true
  last : node.kind ≠ .error → node.children.getLast?.map Child.isSignificant = some true

theorem Node.spanOf_of_some {children : List Child} (some : children ≠ []) (position : Nat) :
    spanOf children position = spanOf children 0 := by
  obtain ⟨first, rest, rfl⟩ := List.exists_cons_of_ne_nil some
  rfl

theorem Node.IsSnug.ne_nil {node : Node} (snug : node.IsSnug) : node.children ≠ [] := by
  intro none
  have first := snug.first
  rw [none] at first
  cases first

theorem Node.isSnug_build {kind : NodeKind} {children : List Child} {position : Nat}
    (first : children.head?.map Child.isSignificant = some true)
    (last : kind ≠ .error → children.getLast?.map Child.isSignificant = some true) :
    (Node.build kind children position).IsSnug := by
  refine ⟨spanOf_of_some ?_ position, first, last⟩
  rintro rfl
  cases first

/-! ### Deprecation notices -/

/-- Whether an extra that is a notice starts with a directive and ends with no layout. -/
def Extra.IsClosed : Extra → Prop
  | .token _ => True
  | .deprecated group =>
      (group.head?.map Token.kind = some .directive) ∧
        ∀ token ∈ group.getLast?, token.kind.isExtra = false

theorem isClosed_notice {token : Token} (deprecation : isDeprecation token = true)
    (rest : List Token) : (Extra.deprecated (token :: rest.take (noticeLength rest))).IsClosed := by
  have directive : token.kind = .directive := by
    simp only [isDeprecation, Token.isDirective, Bool.and_eq_true] at deprecation
    exact eq_of_beq deprecation.1
  refine ⟨congrArg some directive, fun last member => ?_⟩
  rw [List.getLast?_cons] at member
  cases ending : (rest.take (noticeLength rest)).getLast? with
  | none =>
      rw [ending] at member
      obtain rfl : token = last := Option.some_inj.mp member
      rw [directive]
      rfl
  | some other =>
      rw [ending] at member
      obtain rfl : other = last := Option.some_inj.mp member
      exact notice_ends rest other ending

theorem partTokens_closed (bound tokens : List Token) :
    (∀ extra ∈ (partTokens bound tokens).1, extra.IsClosed) ∧
      ∀ stop ∈ (partTokens bound tokens).2, ∀ extra ∈ stop.gap, extra.IsClosed := by
  obtain ⟨gap, stops⟩ := forall_partTokens Extra.IsClosed (fun _ _ => trivial)
    (fun token rest deprecation => isClosed_notice deprecation rest) bound tokens
  exact ⟨gap, fun stop member => (stops stop member).1⟩

theorem noticeChildren_ne_nil {string : Option (List Token)} {tokens : List Token}
    (some : tokens ≠ []) : noticeChildren string tokens ≠ [] := by
  intro none
  have leaves := leaves_noticeChildren string tokens
  rw [none] at leaves
  exact some (List.append_eq_nil_iff.mp leaves.symm).2

/-- A notice ends with a significant child if its tokens do. -/
theorem noticeChildren_ends (string : Option (List Token)) (tokens : List Token)
    (closed : ∀ token ∈ ((string.getD []).reverse ++ tokens).getLast?, token.kind.isExtra = false) :
    ∀ child ∈ (noticeChildren string tokens).getLast?, child.isSignificant = true := by
  induction tokens generalizing string with
  | nil =>
      intro child member
      rw [noticeChildren, List.getLast?_map] at member
      obtain ⟨token, last, rfl⟩ := Option.map_eq_some_iff.mp member
      rw [List.append_nil] at closed
      rw [Child.isSignificant, closed token last]
      rfl
  | cons token rest ih =>
      -- A child in front of the others is the last one only if there are no others.
      have ahead : ∀ {child : Child}, (rest = [] → child.isSignificant = true) →
          (∀ other ∈ (noticeChildren none rest).getLast?, other.isSignificant = true) →
          ∀ other ∈ (child :: noticeChildren none rest).getLast?, other.isSignificant = true := by
        intro child single later other member
        by_cases none : rest = []
        · rw [none, noticeChildren] at member
          cases member
          exact single none
        · rw [List.getLast?_cons_of_ne_nil (noticeChildren_ne_nil none)] at member
          exact later other member
      have behind : ∀ other ∈ rest.getLast?, other.kind.isExtra = false := by
        intro other member
        refine closed other ?_
        have some : rest ≠ [] := by
          rintro rfl
          cases member
        rw [List.getLast?_append_of_ne_nil _ (List.cons_ne_nil token rest),
          List.getLast?_cons_of_ne_nil some]
        exact member
      cases string with
      | none =>
          rw [noticeChildren]
          split
          · exact ih (some [token]) closed
          · refine ahead (fun none => ?_) (ih none behind)
            subst none
            rw [Child.isSignificant, closed token rfl]
            rfl
      | some parts =>
          rw [noticeChildren]
          split
          · exact ahead (fun _ => rfl) (ih none behind)
          · refine ih (some (token :: parts)) ?_
            simpa using closed

theorem snug_literal {opening closing : Token} (opens : opening.kind = .quote)
    (closes : closing.kind = .quote) (inner : List Token) (position : Nat) :
    (Node.build .string ((opening :: inner ++ [closing]).map (Child.leaf none)) position).IsSnug := by
  refine Node.isSnug_build ?_ (fun _ => ?_)
  · rw [List.cons_append, List.map_cons, List.head?_cons, Option.map_some, Child.isSignificant,
      opens]
    rfl
  · rw [List.getLast?_map, List.getLast?_concat, Option.map_some, Option.map_some,
      Child.isSignificant, closes]
    rfl

theorem Extra.IsClosed.snug {extra : Extra} (closed : extra.IsClosed) :
    extra.child.Throughout Node.IsSnug := by
  cases extra with
  | token single => exact throughout_leaf none single
  | deprecated group =>
      refine throughout_branch.mpr ⟨Node.isSnug_build ?_ (fun _ => ?_),
        forall_noticeChildren (throughout_leaf none) (fun opening closing inner opens closes =>
          throughout_branch.mpr ⟨snug_literal opens closes inner 0,
            forall_leaves (throughout_leaf none) _⟩) none group nofun⟩
      · cases group with
        | nil => cases closed.1
        | cons token rest =>
            have directive : token.kind = .directive := Option.some_inj.mp closed.1
            have other : (token.kind == .quote) = false := by
              rw [directive]
              rfl
            rw [noticeChildren, if_neg (by rw [other]; decide), List.head?_cons, Option.map_some,
              Child.isSignificant, directive]
            rfl
      · have some : noticeChildren none group ≠ [] := by
          refine noticeChildren_ne_nil ?_
          rintro rfl
          cases closed.1
        have ends := noticeChildren_ends none group closed.2
        rw [List.getLast?_eq_getLast_of_ne_nil some] at ends ⊢
        exact congrArg Option.some (ends _ rfl)

/-! ### Expressions read as types -/

theorem typeReading_kinds {kind : NodeKind} {reading : TypeReading}
    (found : typeReading? kind = some reading) :
    kind ≠ .error ∧
      (reading.kind != .deprecatedDirective) = (kind != .deprecatedDirective) := by
  unfold typeReading? at found
  split at found <;> simp at found <;> subst found <;> decide

theorem isSignificant_reinterpretChildren (select : Option Field → Option (Option Field))
    (children : List Child) :
    (reinterpretChildren select children).map Child.isSignificant =
      children.map Child.isSignificant := by
  induction children with
  | nil => rw [reinterpretChildren]
  | cons child rest ih =>
      cases child with
      | leaf field token => rw [reinterpretChildren, List.map_cons, ih, List.map_cons]
      | branch field kind span children =>
          rw [reinterpretChildren, List.map_cons, ih, List.map_cons]
          congr 1
          split
          · rfl
          split
          · rfl
          next reading found => exact (typeReading_kinds found).2

theorem snug_keptByReading : KeptByReading Node.IsSnug := by
  intro node reading position snug found
  have same := isSignificant_reinterpretChildren reading.select node.children
  refine Node.isSnug_build ?_ (fun _ => ?_)
  · rw [← List.head?_map, same, List.head?_map]
    exact snug.first
  · rw [← List.getLast?_map, same, List.getLast?_map]
    exact snug.last (typeReading_kinds found).1

theorem isSignificant_asParameterList (node : Node) :
    node.asParameterList.map Child.isSignificant = node.children.map Child.isSignificant := by
  unfold Node.asParameterList
  rw [List.map_map]
  refine List.map_congr_left (fun child _ => ?_)
  cases child with
  | leaf field token => rfl
  | branch field kind span children =>
      simp only [Function.comp, Child.node?, Node.reinterpretAsType]
      cases found : typeReading? kind with
      | none => rfl
      | some reading => exact (typeReading_kinds found).2

end JaiSyntax
