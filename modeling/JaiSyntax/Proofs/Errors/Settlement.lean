import JaiSyntax.Proofs.Layout.Independence
import JaiSyntax.Proofs.Reading.Frame
import JaiSyntax.Proofs.Reading.Keeping
/-!
Where recovery stops. An error node is a single invalid token, or what a part that failed has read and
then skipped: up to its last semicolon, or in front of a closing brace, the end of the file or, if that is
asked for, the start of a declaration.
-/

set_option autoImplicit false

namespace JaiSyntax

/-! ### What stands behind a node -/

mutual

/-- The tokens at the leaves of a child that are in no extra. -/
def Child.significantLeaves : Child → List Token
  | .leaf _ token => if token.kind.isExtra then [] else [token]
  | .branch _ kind _ children =>
      if kind == .deprecatedDirective then [] else Child.significantLeavesOfList children

def Child.significantLeavesOfList : List Child → List Token
  | [] => []
  | child :: rest => child.significantLeaves ++ Child.significantLeavesOfList rest

end

def Child.spansOfList (children : List Child) : List Span :=
  (Child.significantLeavesOfList children).map Token.span

mutual

/-- The nodes of a child, each with where the significant leaves behind it stand. -/
def Child.nodesBefore (behind : List Span) : Child → List (Node × List Span)
  | .leaf _ _ => []
  | .branch _ kind span children =>
      (⟨kind, span, children⟩, behind) :: Child.nodesBeforeOfList behind children

def Child.nodesBeforeOfList (behind : List Span) : List Child → List (Node × List Span)
  | [] => []
  | child :: rest =>
      child.nodesBefore (Child.spansOfList rest ++ behind) ++ Child.nodesBeforeOfList behind rest

end

def Node.nodesBefore (tree : Node) : List (Node × List Span) :=
  (tree, []) :: Child.nodesBeforeOfList [] tree.children

namespace Child

theorem significantLeavesOfList_append (first second : List Child) :
    significantLeavesOfList (first ++ second) =
      significantLeavesOfList first ++ significantLeavesOfList second := by
  induction first with
  | nil => rfl
  | cons child rest ih =>
      rw [List.cons_append, significantLeavesOfList, significantLeavesOfList, ih, List.append_assoc]

theorem spansOfList_append (first second : List Child) :
    spansOfList (first ++ second) = spansOfList first ++ spansOfList second := by
  rw [spansOfList, significantLeavesOfList_append, List.map_append]
  rfl

theorem spansOfList_cons (child : Child) (rest : List Child) :
    spansOfList (child :: rest) = spansOfList [child] ++ spansOfList rest :=
  spansOfList_append [child] rest

theorem spansOfList_extra {child : Child} (extra : child.isSignificant = false) :
    spansOfList [child] = [] := by
  cases child with
  | leaf field token =>
      have same : token.kind.isExtra = true := by simpa [isSignificant] using extra
      simp [spansOfList, significantLeavesOfList, significantLeaves, same]
  | branch field kind span children =>
      have same : kind = .deprecatedDirective := by simpa [isSignificant] using extra
      simp [spansOfList, significantLeavesOfList, significantLeaves, same]

theorem spansOfList_extras {children : List Child}
    (extras : ∀ child ∈ children, child.isSignificant = false) : spansOfList children = [] := by
  induction children with
  | nil => rfl
  | cons child rest ih =>
      obtain ⟨first, later⟩ := List.forall_mem_cons.mp extras
      rw [spansOfList_cons, spansOfList_extra first, ih later]
      rfl

theorem spansOfList_withField (field : Option Field) (child : Child) :
    spansOfList [child.withField field] = spansOfList [child] := by
  cases child <;> rfl

theorem spansOfList_branch (field : Option Field) {kind : NodeKind} (span : Span)
    (children : List Child) (ordinary : kind ≠ .deprecatedDirective) :
    spansOfList [.branch field kind span children] = spansOfList children := by
  simp [spansOfList, significantLeavesOfList, significantLeaves, ordinary]

theorem spansOfList_leaf (field : Option Field) {token : Token}
    (significant : token.kind.isExtra = false) : spansOfList [.leaf field token] = [token.span] := by
  simp [spansOfList, significantLeavesOfList, significantLeaves, significant]

theorem nodesBeforeOfList_append (behind : List Span) (first second : List Child) :
    nodesBeforeOfList behind (first ++ second) =
      nodesBeforeOfList (spansOfList second ++ behind) first ++ nodesBeforeOfList behind second := by
  induction first with
  | nil => rfl
  | cons child rest ih =>
      rw [List.cons_append, nodesBeforeOfList, nodesBeforeOfList, ih, spansOfList_append,
        List.append_assoc, List.append_assoc]

theorem nodesBeforeOfList_singleton (behind : List Span) (child : Child) :
    nodesBeforeOfList behind [child] = child.nodesBefore behind :=
  List.append_nil _

mutual

theorem map_nodesBefore (behind : List Span) (child : Child) :
    (child.nodesBefore behind).map Prod.fst = child.preorder := by
  cases child with
  | leaf field token => rfl
  | branch field kind span children =>
      rw [nodesBefore, preorder, List.map_cons, map_nodesBeforeOfList]

theorem map_nodesBeforeOfList (behind : List Span) (children : List Child) :
    (nodesBeforeOfList behind children).map Prod.fst = preorderOfList children := by
  cases children with
  | nil => rfl
  | cons child rest =>
      rw [nodesBeforeOfList, preorderOfList, List.map_append, map_nodesBefore, map_nodesBeforeOfList]

end

end Child

/-! ### Properties of nodes and what stands behind them -/

/-- Whether something holds of all nodes of some children with what stands behind each of them. -/
def Child.Settled (holds : Node → List Span → Prop) (behind : List Span) (children : List Child) :
    Prop :=
  ∀ entry ∈ Child.nodesBeforeOfList behind children, holds entry.1 entry.2

section Settled

variable {holds : Node → List Span → Prop} {behind : List Span}

theorem settled_nil : Child.Settled holds behind [] := List.forall_mem_nil _

theorem settled_append {first second : List Child} :
    Child.Settled holds behind (first ++ second) ↔
      Child.Settled holds (Child.spansOfList second ++ behind) first ∧
        Child.Settled holds behind second := by
  unfold Child.Settled
  rw [Child.nodesBeforeOfList_append, List.forall_mem_append]

theorem settled_leaf (field : Option Field) (token : Token) :
    Child.Settled holds behind [.leaf field token] := List.forall_mem_nil _

theorem settled_branch {field : Option Field} {kind : NodeKind} {span : Span}
    {children : List Child} :
    Child.Settled holds behind [.branch field kind span children] ↔
      holds ⟨kind, span, children⟩ behind ∧ Child.Settled holds behind children := by
  unfold Child.Settled
  rw [Child.nodesBeforeOfList_singleton, Child.nodesBefore, List.forall_mem_cons]

theorem settled_withField {field : Option Field} {child : Child} :
    Child.Settled holds behind [child.withField field] ↔ Child.Settled holds behind [child] := by
  cases child <;> exact Iff.rfl

theorem settled_of_throughout {ordinary : Node → Prop}
    (plain : ∀ node behind, ordinary node → holds node behind) {children : List Child}
    (all : ∀ child ∈ children, child.Throughout ordinary) : Child.Settled holds behind children := by
  intro entry member
  apply plain
  have inside : entry.1 ∈ (Child.nodesBeforeOfList behind children).map Prod.fst :=
    List.mem_map_of_mem member
  rw [Child.map_nodesBeforeOfList, Child.mem_preorderOfList] at inside
  obtain ⟨child, listed, within⟩ := inside
  exact all child listed entry.1 within

end Settled

/-- A change of some children that keeps their significant leaves and what holds of their nodes. -/
structure Mild (holds : Node → List Span → Prop) (before after : List Child) : Prop where
  spans : Child.spansOfList after = Child.spansOfList before
  settled : ∀ behind, Child.Settled holds behind before → Child.Settled holds behind after

namespace Mild

variable {holds : Node → List Span → Prop} {first second before after : List Child}

theorem refl (children : List Child) : Mild holds children children := ⟨rfl, fun _ => id⟩

theorem append (front : Mild holds first before) (back : Mild holds second after) :
    Mild holds (first ++ second) (before ++ after) := by
  constructor
  · rw [Child.spansOfList_append, Child.spansOfList_append, front.spans, back.spans]
  · intro behind settled
    rw [settled_append] at settled ⊢
    rw [back.spans]
    exact ⟨front.settled _ settled.1, back.settled behind settled.2⟩

theorem cons {child other : Child} (front : Mild holds [child] [other])
    (back : Mild holds before after) : Mild holds (child :: before) (other :: after) :=
  front.append back

theorem withField (field : Option Field) (child : Child) :
    Mild holds [child] [child.withField field] :=
  ⟨Child.spansOfList_withField field child, fun _ => settled_withField.mpr⟩

theorem replaceLastSignificant {change : Child → List Child}
    (mild : ∀ child, child.isSignificant = true → Mild holds [child] (change child))
    (latest : List Child) :
    Mild holds latest.reverse (replaceLastSignificant change latest).reverse := by
  induction latest with
  | nil => exact .refl []
  | cons child earlier ih =>
      rw [JaiSyntax.replaceLastSignificant, List.reverse_cons]
      by_cases significant : child.isSignificant = true
      · rw [if_pos significant, List.reverse_append, List.reverse_reverse]
        exact (refl _).append (mild child significant)
      · rw [if_neg significant, List.reverse_cons]
        exact ih.append (.refl [child])

/-- A node changes mildly to one of another kind with its children changed mildly, if neither kind is that
of extras. -/
theorem branch {kind other : NodeKind} (ordinary : kind ≠ .deprecatedDirective)
    (otherOrdinary : other ≠ .deprecatedDirective)
    (own : ∀ node behind, node.kind = other → holds node behind) (mild : Mild holds before after)
    (field newField : Option Field) (span newSpan : Span) :
    Mild holds [.branch field kind span before] [.branch newField other newSpan after] := by
  constructor
  · rw [Child.spansOfList_branch _ _ _ ordinary, Child.spansOfList_branch _ _ _ otherOrdinary,
      mild.spans]
  · intro behind settled
    rw [settled_branch] at settled ⊢
    exact ⟨own _ _ rfl, mild.settled behind settled.2⟩

end Mild

theorem typeReading_ordinary {kind : NodeKind} {reading : TypeReading}
    (found : typeReading? kind = some reading) :
    kind ≠ .deprecatedDirective ∧ reading.kind ≠ .deprecatedDirective ∧ reading.kind ≠ .error := by
  unfold typeReading? at found
  split at found <;> simp at found <;> subst found <;> decide

section Moves

variable {holds : Node → List Span → Prop}
  (plain : ∀ node behind, node.kind ≠ .error → holds node behind)

include plain

theorem mild_reinterpretChildren (select : Option Field → Option (Option Field))
    (children : List Child) : Mild holds children (reinterpretChildren select children) := by
  induction select, children using reinterpretChildren.induct with
  | case1 select =>
      rw [reinterpretChildren]
      exact .refl []
  | case2 select field token rest ih =>
      rw [reinterpretChildren]
      exact Mild.cons (.refl _) ih
  | case3 select field kind span children rest outer inner =>
      rw [reinterpretChildren]
      refine Mild.cons ?_ inner
      split
      · exact .refl _
      · next newField same =>
          split
          · exact .withField newField (.branch field kind span children)
          · next reading found =>
              obtain ⟨ordinary, other, valid⟩ := typeReading_ordinary found
              exact (outer reading).branch ordinary other
                (fun node behind same => plain node behind (same ▸ valid)) _ _ _ _

theorem mild_reinterpretAsType (field other : Option Field) (node : Node) :
    Mild holds [.ofNode field node] [.ofNode other node.reinterpretAsType] := by
  unfold Node.reinterpretAsType
  cases found : typeReading? node.kind with
  | none => exact .withField other (.ofNode field node)
  | some reading =>
      obtain ⟨ordinary, otherOrdinary, valid⟩ := typeReading_ordinary found
      exact (mild_reinterpretChildren plain reading.select node.children).branch ordinary otherOrdinary
        (fun node behind same => plain node behind (same ▸ valid)) _ _ _ _

theorem mild_asParameterList (field : Option Field) {node : Node}
    (ordinary : node.kind ≠ .deprecatedDirective) :
    Mild holds [.ofNode field node] node.asParameterList := by
  have parts (children : List Child) :
      Mild holds children (Node.mk node.kind node.span children).asParameterList := by
    induction children with
    | nil => exact .refl []
    | cons child rest ih =>
        refine Mild.cons ?_ ih
        cases child with
        | leaf role token => exact .refl _
        | branch role kind span children =>
            exact mild_reinterpretAsType plain role _ ⟨kind, span, children⟩
  have changed := parts node.children
  constructor
  · rw [Child.ofNode, Child.spansOfList_branch _ _ _ ordinary]
    exact changed.spans
  · intro behind settled
    exact changed.settled behind (settled_branch.mp settled).2

end Moves

/-! ### Segments -/

def TokenCursor.spans (cursor : TokenCursor) : List Span :=
  cursor.ahead.map (fun stop => stop.token.span)

namespace Segment

def spans (segment : Segment) : List Span :=
  Child.spansOfList segment.latest.reverse ++ segment.cursor.spans

def Settled (holds : Node → List Span → Prop) (segment : Segment) : Prop :=
  Child.Settled holds segment.cursor.spans segment.latest.reverse

/-- A segment that goes on from another one among some tokens, and settles what it adds. -/
structure Settles (holds : Node → List Span → Prop) (stops : List Stop) (earlier later : Segment) :
    Prop where
  proper : later.cursor.Proper
  spans : later.spans = earlier.spans
  suffix : later.cursor.ahead <:+ earlier.cursor.ahead
  settled : earlier.cursor.ahead <:+ stops → earlier.Settled holds → later.Settled holds

variable {holds : Node → List Span → Prop} {stops : List Stop} {segment inner : Segment}

theorem Settles.refl (proper : segment.cursor.Proper) : Settles holds stops segment segment :=
  ⟨proper, rfl, List.suffix_rfl, fun _ => id⟩

theorem Settles.trans {first second third : Segment} (front : Settles holds stops first second)
    (back : Settles holds stops second third) : Settles holds stops first third where
  proper := back.proper
  spans := back.spans.trans front.spans
  suffix := back.suffix.trans front.suffix
  settled inside settled := back.settled (front.suffix.trans inside) (front.settled inside settled)

theorem settles_mapLatest {change : List Child → List Child} (proper : segment.cursor.Proper)
    (mild : Mild holds segment.latest.reverse (change segment.latest).reverse) :
    Settles holds stops segment (segment.mapLatest change) where
  proper := proper
  spans := congrArg (· ++ segment.cursor.spans) mild.spans
  suffix := List.suffix_rfl
  settled _ := mild.settled segment.cursor.spans

theorem settles_report (proper : segment.cursor.Proper) (errors : List SyntaxError) :
    Settles holds stops segment { segment with reported := errors } :=
  ⟨proper, rfl, List.suffix_rfl, fun _ => id⟩

theorem Settles.after (settles : Settles holds stops segment.emptied inner) :
    Settles holds stops segment (inner.after segment) := by
  have ahead : Child.spansOfList inner.latest.reverse ++ inner.cursor.spans =
      segment.cursor.spans := settles.spans
  have latest : (inner.after segment).latest.reverse =
      segment.latest.reverse ++ inner.latest.reverse := List.reverse_append
  constructor
  · exact settles.proper
  · rw [Segment.spans, latest, Child.spansOfList_append, List.append_assoc]
    exact congrArg _ ahead
  · exact settles.suffix
  · intro inside settled
    have added : Child.Settled holds inner.cursor.spans inner.latest.reverse :=
      settles.settled inside settled_nil
    unfold Settled
    rw [latest, settled_append]
    have before : Child.Settled holds (Child.spansOfList inner.latest.reverse ++ inner.cursor.spans)
        segment.latest.reverse := ahead ▸ settled
    exact ⟨before, added⟩

theorem Settles.enclosed {kind : NodeKind} (settles : Settles holds stops segment inner)
    (ordinary : kind ≠ .deprecatedDirective) (position : Nat)
    (own : inner.cursor.ahead <:+ stops →
      holds (.build kind inner.latest.reverse position) inner.cursor.spans) :
    Settles holds stops segment (inner.enclosed kind position) := by
  refine settles.trans ⟨settles.proper, ?_, List.suffix_rfl, ?_⟩
  · exact congrArg (· ++ inner.cursor.spans) (Child.spansOfList_branch _ _ _ ordinary)
  · intro inside settled
    exact settled_branch.mpr ⟨own inside, settled⟩

section Moves

variable (plain : ∀ node behind, node.kind ≠ .error → holds node behind)

include plain

theorem settles_flush (proper : segment.cursor.Proper) :
    Settles holds stops segment segment.flush := by
  have latest : segment.flush.latest.reverse =
      segment.latest.reverse ++ segment.cursor.gap.map Extra.child := by
    simp [flush]
  have extras : Child.spansOfList (segment.cursor.gap.map Extra.child) = [] := by
    apply Child.spansOfList_extras
    intro child member
    obtain ⟨extra, listed, rfl⟩ := List.mem_map.mp member
    exact proper.gap extra listed
  constructor
  · exact proper.withoutGap
  · rw [spans, latest, Child.spansOfList_append, extras, List.append_nil]
    rfl
  · exact List.suffix_rfl
  · intro _ settled
    unfold Settled
    rw [latest, settled_append, extras]
    refine ⟨settled, settled_of_throughout (fun node behind => plain node behind) ?_⟩
    intro child member
    obtain ⟨extra, -, rfl⟩ := List.mem_map.mp member
    apply throughout_extra
    intro node incidental same
    rw [same] at incidental
    cases incidental

theorem settles_bumpAs (change : Token → Token) (proper : segment.cursor.Proper)
    (place : ∀ token, (change token).span = token.span)
    (kept : ∀ token, token.kind.isExtra = false → (change token).kind.isExtra = false) :
    Settles holds stops segment (segment.bumpAs change) := by
  have flushed : Settles holds stops segment segment.flush := settles_flush plain proper
  -- At the end nothing is taken; elsewhere the span of the token moves from those ahead to the leaves.
  cases ended : segment.cursor.isAtEnd with
  | true =>
      have same : segment.bumpAs change = segment.flush := by
        unfold bumpAs
        exact if_pos ended
      exact same ▸ flushed
  | false =>
      have same : (segment.bumpAs change).cursor = segment.bump.cursor := by
        rw [cursor_bumpAs, bump, cursor_bumpAs]
      have bumped := continues_bump proper
      obtain ⟨stop, rest, ahead, advanced⟩ := flushed.proper.advance_eq ended
      change segment.cursor.ahead = stop :: rest at ahead
      have current : segment.cursor.current = stop.token := by
        simp [TokenCursor.current, TokenCursor.peek, ahead]
      have moved : (segment.bumpAs change).cursor.spans =
          rest.map (fun stop => stop.token.span) := by
        rw [cursor_bumpAs, if_neg (Bool.eq_false_iff.mp ended)]
        exact congrArg (fun advanced => TokenCursor.spans advanced.2) advanced
      have front : segment.flush.cursor.spans =
          Child.spansOfList [.leaf none (change stop.token)] ++
            (segment.bumpAs change).cursor.spans := by
        have significant := (proper.ahead stop (by simp [ahead])).2
        rw [Child.spansOfList_leaf none (kept _ significant), place, moved]
        exact congrArg (List.map fun stop => stop.token.span) ahead
      have latest : (segment.bumpAs change).latest.reverse =
          segment.flush.latest.reverse ++ [.leaf none (change stop.token)] := by
        rw [latest_bumpAs proper ended, current, List.reverse_cons]
      refine flushed.trans ⟨same ▸ bumped.proper proper, ?_, same ▸ bumped.suffix, ?_⟩
      · rw [spans, spans, latest, front, Child.spansOfList_append, List.append_assoc]
      · intro _ settled
        unfold Settled at settled ⊢
        rw [latest, settled_append, ← front]
        exact ⟨settled, settled_leaf none _⟩

theorem settles_apply (proper : segment.cursor.Proper) (around : Surroundings) (move : Move) :
    Settles holds stops segment (segment.apply around move) := by
  have last {change : Child → List Child}
      (mild : ∀ child, child.isSignificant = true → Mild holds [child] (change child)) :
      Settles holds stops segment (segment.mapLatest (replaceLastSignificant change)) :=
    settles_mapLatest proper (.replaceLastSignificant mild segment.latest)
  cases move with
  | bump => exact settles_bumpAs plain id proper (fun _ => rfl) (fun _ => id)
  | bumpKeyword =>
      exact settles_bumpAs plain (fun token => token.retag .keyword) proper (fun _ => rfl)
        (fun _ _ => rfl)
  | tag field => exact last (fun child _ => .withField _ child)
  | reinterpretLast =>
      apply last
      intro child _
      cases child with
      | leaf field token => exact .refl _
      | branch field kind span children =>
          exact mild_reinterpretAsType plain field field ⟨kind, span, children⟩
  | spliceParameters =>
      apply last
      intro child significant
      cases child with
      | leaf field token => exact .refl _
      | branch field kind span children =>
          have ordinary : kind ≠ .deprecatedDirective := by
            simpa [Child.isSignificant] using significant
          have node : (Node.mk kind span children).kind ≠ .deprecatedDirective := ordinary
          exact mild_asParameterList plain field node
  | report complaint => exact settles_report proper _

theorem settles_bumps (proper : segment.cursor.Proper) (count : Nat) :
    Settles holds stops segment (segment.bumps count) := by
  induction count generalizing segment with
  | zero => exact .refl proper
  | succ count ih =>
      have first : Settles holds stops segment segment.bump :=
        settles_bumpAs plain id proper (fun _ => rfl) (fun _ => id)
      exact first.trans (ih first.proper)

end Moves

/-! ### Skipping to a synchronization point -/

/-- Whether skipping some tokens leads to where an error may end: it takes a semicolon last, or leads in
front of what ends one. -/
def Stops (resync : Bool) (segment : Segment) (count : Nat) : Prop :=
  settles? resync (segment.bumps count).cursor = some 0 ∨
    ∃ earlier, count = earlier + 1 ∧ (segment.bumps earlier).cursor.current.kind = .semicolon

theorem Stops.add {resync : Bool} {first second : Nat}
    (stops : (segment.bumps first).Stops resync second) : segment.Stops resync (first + second) := by
  unfold Stops at *
  rcases stops with settled | ⟨earlier, rfl, semicolon⟩
  · exact Or.inl (by rw [bumps_add, settled])
  · exact Or.inr ⟨first + earlier, rfl, by rw [bumps_add, semicolon]⟩

theorem settles?_of_end {resync : Bool} {cursor : TokenCursor} (ended : cursor.isAtEnd = true) :
    settles? resync cursor = some 0 := by
  have last : cursor.current.kind = .eof := beq_iff_eq.mp ended
  rw [settles?, last]
  rfl

theorem settles?_cases {resync : Bool} {cursor : TokenCursor} {count : Nat}
    (settled : settles? resync cursor = some count) :
    count = 0 ∨ (count = 1 ∧ cursor.current.kind = .semicolon) := by
  unfold settles? at settled
  split at settled
  · exact Or.inl (Option.some.inj settled).symm
  split at settled
  · next semicolon => exact Or.inr ⟨(Option.some.inj settled).symm, beq_iff_eq.mp semicolon⟩
  split at settled
  · exact Or.inl (Option.some.inj settled).symm
  · cases settled

/-- Skipping stops, for each step takes a token and the last one ends the file. -/
theorem synchronizeWithin_stops (resync : Bool) (bound : List Stop) (proper : segment.cursor.Proper)
    (enough : segment.cursor.ahead.length ≤ bound.length) :
    ∃ count, segment.Stops resync count ∧ ∀ base,
      (segment.onto base).synchronizeWithin resync bound = (segment.bumps count).onto base := by
  -- The bound is as long as what is ahead, so it runs out at the end of the file at the earliest.
  induction bound generalizing segment with
  | nil =>
      have none : segment.cursor.ahead = [] := List.eq_nil_of_length_eq_zero (Nat.le_zero.mp enough)
      have settled : settles? resync segment.cursor = some 0 :=
        settles?_of_end (proper.isAtEnd_iff.mpr none)
      refine ⟨0, Or.inl settled, fun base => ?_⟩
      rw [synchronizeWithin_onto, settled]
  | cons stop rest ih =>
      cases settled : settles? resync segment.cursor with
      | some count =>
          refine ⟨count, ?_, fun base => by rw [synchronizeWithin_onto, settled]⟩
          rcases settles?_cases settled with rfl | ⟨rfl, semicolon⟩
          · exact Or.inl settled
          · exact Or.inr ⟨0, rfl, semicolon⟩
      | none =>
          have more : segment.cursor.ahead ≠ [] := by
            intro none
            rw [settles?_of_end (proper.isAtEnd_iff.mpr none)] at settled
            cases settled
          obtain ⟨first, some, skipped⟩ := skipOne_alike (.refl segment.cursor)
          have continues := continues_bumps first proper
          have moved := position_bumps proper more (some more)
          have total := continues.position
          have shorter : (segment.bumps first).cursor.ahead.length ≤ rest.length := by
            rw [List.length_cons] at enough
            omega
          obtain ⟨second, reached, settles⟩ := ih (continues.proper proper) shorter
          refine ⟨first + second, reached.add, fun base => ?_⟩
          rw [synchronizeWithin_onto, settled, bumps_add, ← settles base, ← (skipped base).1]

/-- A part that failed is skipped to where an error may end. -/
theorem recover_stops (proper : segment.cursor.Proper) (resync : Bool) (around : Surroundings)
    (position : Nat) (error : SyntaxError) :
    ∃ count, (segment.mapLatest (List.map (Child.withField none))).Stops resync count ∧
      segment.recover resync around position error = segment.recovered around error count := by
  have cleared : (segment.mapLatest (List.map (Child.withField none))).cursor.Proper := proper
  obtain ⟨first, -, skipped⟩ := unstick_alike
    (.refl (segment.mapLatest (List.map (Child.withField none))).cursor) (segment.isStuck position)
  have moved := (continues_bumps first cleared).proper cleared
  obtain ⟨second, stops, settles⟩ := synchronizeWithin_stops resync _ moved (Nat.le_refl _)
  refine ⟨first + second, stops.add, ?_⟩
  unfold recover alone
  rw [recover_eq (dissolves_onto segment (.new .sourceFile)) around _ rfl rfl rfl resync position
    error (first + second), ofRoot_onto_new]
  rw [(skipped _).1, bumps_add]
  exact settles _

end Segment

/-! ### Synchronization points -/

/-- Whether a declaration starts with some tokens: a name and a double colon, in one piece or in two, or a
directive that starts one. -/
inductive StartsDeclaration : List Token → Prop where
  | fused {name colons : Token} {rest : List Token} (word : name.kind = .ident)
      (double : colons.kind = .colonColon) : StartsDeclaration (name :: colons :: rest)
  | apart {name first second : Token} {rest : List Token} (word : name.kind = .ident)
      (colon : first.kind = .colon) (again : second.kind = .colon) :
      StartsDeclaration (name :: first :: second :: rest)
  | directive {token : Token} {rest : List Token} (kind : token.kind = .directive)
      (known : token.text ∈ ["#import", "#load", "#run"]) : StartsDeclaration (token :: rest)

inductive Synchronizes (resync : Bool) : List Token → Prop where
  | ended : Synchronizes resync []
  | brace {token : Token} {rest : List Token} (closes : token.kind = .rBrace) :
      Synchronizes resync (token :: rest)
  | declaration {ahead : List Token} (enabled : resync = true) (starts : StartsDeclaration ahead) :
      Synchronizes resync ahead

def Node.IsInvalidToken (node : Node) : Prop :=
  ∃ field token, node.children = [.leaf field token] ∧ token.kind = .error

structure Node.IsRecovered (resync : Bool) (tokens : List Token) (node : Node) (behind : List Span) :
    Prop where
  unlabelled : ∀ child ∈ node.children, child.field? = none
  stops : (∃ front semicolon,
      Child.significantLeavesOfList node.children = front ++ [semicolon] ∧
        semicolon.kind = .semicolon) ∨
    ∃ ahead, ahead <:+ tokens ∧ ahead.map Token.span = behind ∧ Synchronizes resync ahead

theorem statementBoundary_cases {kind : TokenKind} (inside : statementBoundary.contains kind = true) :
    kind = .rBrace ∨ kind = .eof := by
  revert inside
  cases kind <;> decide

section Cursor

variable {cursor : TokenCursor}

theorem ahead_of_peek (proper : cursor.Proper) {distance : Nat} {kind : TokenKind}
    (same : (cursor.peek distance).kind = kind) (more : kind ≠ .eof) :
    cursor.ahead[distance]?.map Stop.token = some (cursor.peek distance) := by
  unfold TokenCursor.peek at same ⊢
  cases found : cursor.ahead[distance]? with
  | none =>
      rw [found] at same
      exact (more (same.symm.trans proper.endOfFile)).elim
  | some stop => rfl

theorem startsDeclaration_of_cursor (proper : cursor.Proper) (starts : cursor.isAtDeclaration = true) :
    StartsDeclaration (cursor.ahead.map Stop.token) := by
  have found {distance : Nat} {kind : TokenKind} (same : (cursor.peek distance).kind = kind)
      (more : kind ≠ .eof) :
      (cursor.ahead.map Stop.token)[distance]? = some (cursor.peek distance) := by
    rw [List.getElem?_map]
    exact ahead_of_peek proper same more
  unfold TokenCursor.isAtDeclaration at starts
  generalize cursor.ahead.map Stop.token = tokens at found
  split at starts
  · next word =>
      have name := found word TokenKind.noConfusion
      unfold doubleColonAt? at starts
      split at starts
      · next double =>
          have colons := found double TokenKind.noConfusion
          match tokens, name, colons with
          | _ :: _ :: rest, rfl, rfl => exact .fused word double
      · next colon =>
          split at starts
          · next again =>
              have second := beq_iff_eq.mp again
              have colons := found colon TokenKind.noConfusion
              have behind := found second TokenKind.noConfusion
              match tokens, name, colons, behind with
              | _ :: _ :: _ :: rest, rfl, rfl, rfl => exact .apart word colon second
          · cases starts
      · cases starts
  · next kind =>
      have first := found kind TokenKind.noConfusion
      match tokens, first with
      | _ :: rest, rfl => exact .directive kind (List.contains_iff_mem.mp starts)
  · cases starts

/-- Skipping ends where an error may end. -/
theorem synchronizes_of_settles {resync : Bool} (proper : cursor.Proper)
    (settled : Segment.settles? resync cursor = some 0) :
    Synchronizes resync (cursor.ahead.map Stop.token) := by
  unfold Segment.settles? at settled
  split at settled
  · next boundary =>
      rcases statementBoundary_cases boundary with brace | last
      · have first := ahead_of_peek proper brace TokenKind.noConfusion
        cases same : cursor.ahead with
        | nil => exact .ended
        | cons stop rest =>
            rw [same] at first
            have current : stop.token = cursor.current := Option.some.inj first
            have closes : stop.token.kind = .rBrace := current ▸ brace
            exact .brace closes
      · rw [proper.isAtEnd_iff.mp (beq_iff_eq.mpr last)]
        exact .ended
  split at settled
  · cases settled
  split at settled
  · next declaration =>
      obtain ⟨enabled, starts⟩ := Bool.and_eq_true_iff.mp declaration
      exact .declaration enabled (startsDeclaration_of_cursor proper starts)
  · cases settled

end Cursor

/-! ### Sources -/

namespace Segment

variable {resync : Bool} {stops : List Stop} {segment inner : Segment}

/-- Whether a node is no error, or is one that ends where it may. -/
def EndsWell (resync : Bool) (stops : List Stop) (node : Node) (behind : List Span) : Prop :=
  node.kind = .error → node.IsInvalidToken ∨ node.IsRecovered resync (stops.map Stop.token) behind

theorem endsWell_of_valid {node : Node} (valid : node.kind ≠ .error) (behind : List Span) :
    EndsWell resync stops node behind :=
  fun invalid => (valid invalid).elim

theorem unlabelled_bumps (proper : segment.cursor.Proper) (count : Nat)
    (bare : ∀ child ∈ segment.latest, child.field? = none) :
    ∀ child ∈ (segment.bumps count).latest, child.field? = none := by
  induction count generalizing segment with
  | zero => exact bare
  | succ count ih =>
      have flushed : ∀ child ∈ segment.flush.latest, child.field? = none := by
        intro child member
        rcases List.mem_append.mp member with extra | earlier
        · rw [List.mem_reverse, List.mem_map] at extra
          obtain ⟨extra, -, rfl⟩ := extra
          cases extra <;> rfl
        · exact bare child earlier
      apply ih ((continues_bump proper).proper proper)
      cases ended : segment.cursor.isAtEnd with
      | true =>
          have same : segment.bump = segment.flush := if_pos ended
          rw [same]
          exact flushed
      | false =>
          rw [bump, latest_bumpAs proper ended]
          exact List.forall_mem_cons.mpr ⟨rfl, flushed⟩

/-- The node of a part that failed ends where an error may end. -/
theorem endsWell_recovered (proper : segment.cursor.Proper) {count : Nat}
    (inside : (segment.bumps count).cursor.ahead <:+ stops) (reached : segment.Stops resync count)
    (bare : ∀ child ∈ segment.latest, child.field? = none) (position : Nat) :
    EndsWell resync stops (.build .error (segment.bumps count).latest.reverse position)
      (segment.bumps count).cursor.spans := by
  intro _
  apply Or.inr
  constructor
  · intro child member
    exact unlabelled_bumps proper count bare child (List.mem_reverse.mp member)
  · rcases reached with settled | ⟨earlier, rfl, semicolon⟩
    · have bumped := (continues_bumps count proper).proper proper
      exact Or.inr ⟨_, inside.map Stop.token, List.map_map, synchronizes_of_settles bumped settled⟩
    · -- The semicolon was taken last, so it is the last leaf of the node.
      have before := (continues_bumps earlier proper).proper proper
      have more : (segment.bumps earlier).cursor.isAtEnd = false := by
        rw [TokenCursor.isAtEnd, semicolon]
        rfl
      have last : (segment.bumps (earlier + 1)).latest.reverse =
          (segment.bumps earlier).flush.latest.reverse ++
            [.leaf none (segment.bumps earlier).cursor.current] := by
        rw [bumps_add]
        change (segment.bumps earlier).bump.latest.reverse = _
        rw [bump, latest_bumpAs before more, List.reverse_cons]
        rfl
      have leaf : Child.significantLeavesOfList
          [.leaf none (segment.bumps earlier).cursor.current] =
            [(segment.bumps earlier).cursor.current] := by
        have solid : (segment.bumps earlier).cursor.current.kind.isExtra = false := by
          rw [semicolon]
          rfl
        simp [Child.significantLeavesOfList, Child.significantLeaves, solid]
      refine Or.inl ⟨Child.significantLeavesOfList (segment.bumps earlier).flush.latest.reverse,
        (segment.bumps earlier).cursor.current, ?_, semicolon⟩
      rw [← leaf, ← Child.significantLeavesOfList_append]
      exact congrArg Child.significantLeavesOfList last

theorem settles_recover (proper : inner.cursor.Proper) (around : Surroundings) (position : Nat)
    (error : SyntaxError) :
    Settles (EndsWell resync stops) stops inner (inner.recover resync around position error) := by
  obtain ⟨count, reached, recovered⟩ := recover_stops proper resync around position error
  have mild (latest : List Child) : Mild (EndsWell resync stops) latest.reverse
      (latest.map (Child.withField none)).reverse := by
    rw [← List.map_reverse]
    induction latest.reverse with
    | nil => exact .refl []
    | cons child rest ih => exact Mild.cons (.withField none child) ih
  have cleared : Settles (EndsWell resync stops) stops inner
      (inner.mapLatest (List.map (Child.withField none))) :=
    settles_mapLatest proper (mild inner.latest)
  have unlabelled : ∀ child ∈ inner.latest.map (Child.withField none), child.field? = none := by
    intro child member
    obtain ⟨before, -, rfl⟩ := List.mem_map.mp member
    exact Child.field?_withField none before
  have plain (node : Node) (behind : List Span) (valid : node.kind ≠ .error) :
      EndsWell resync stops node behind := endsWell_of_valid valid behind
  have skipped : Settles (EndsWell resync stops) stops inner _ :=
    cleared.trans (settles_bumps plain cleared.proper count)
  rw [recovered]
  have enclosed : Settles (EndsWell resync stops) stops inner _ :=
    skipped.enclosed (NodeKind.noConfusion : NodeKind.error ≠ .deprecatedDirective)
      (inner.start around) (fun inside =>
        endsWell_recovered cleared.proper inside reached unlabelled (inner.start around))
  exact enclosed.trans (settles_report enclosed.proper _)

/-- Each step of a reading leaves error nodes that end where an error may end. -/
theorem settles_preserving (resync : Bool)
    (enter : Entry → Surroundings → Segment → Reading Unit) (stops : List Stop) :
    Preserving resync enter (fun earlier later =>
      earlier.cursor.Proper → Settles (EndsWell resync stops) stops earlier later) where
  refl _ proper := .refl proper
  trans front back proper := (front proper).trans (back (front proper).proper)
  apply around segment move _ proper :=
    settles_apply (fun _ behind valid => endsWell_of_valid valid behind) proper around move
  after kept proper := by
    have flushed : Settles (EndsWell resync stops) stops _ _ :=
      settles_flush (fun _ behind valid => endsWell_of_valid valid behind) proper
    exact flushed.trans (kept flushed.proper).after
  enclosed position common kept proper := by
    refine (kept proper).enclosed ?_ position (fun _ => endsWell_of_valid ?_ _)
    · rintro rfl
      cases common
    · rintro rfl
      cases common
  token := by
    intro segment position proper invalid bare empty _
    have bumped : Settles (EndsWell resync stops) stops segment segment.bump :=
      settles_bumpAs (fun _ behind valid => endsWell_of_valid valid behind) id proper (fun _ => rfl)
        (fun _ => id)
    have more : segment.cursor.isAtEnd = false := by
      rw [TokenCursor.isAtEnd, invalid]
      rfl
    -- Neither children nor extras stand in front of the token, so it is the only child.
    have nothing : segment.flush.latest = [] := by
      rw [flush, bare, empty]
      rfl
    have single : segment.bump.latest.reverse = [.leaf none segment.cursor.current] := by
      rw [bump, latest_bumpAs proper more, nothing]
      rfl
    exact bumped.enclosed NodeKind.noConfusion position
      (fun _ _ => Or.inl ⟨none, segment.cursor.current, single, invalid⟩)
  block position proper empty read kept start :=
    (kept start).enclosed NodeKind.noConfusion position
      (fun _ => endsWell_of_valid NodeKind.noConfusion _)
  quick position proper empty _ read kept start :=
    (kept start).enclosed NodeKind.noConfusion position
      (fun _ => endsWell_of_valid NodeKind.noConfusion _)
  recover around position error proper kept start :=
    (kept start).trans (settles_recover proper around position error)

end Segment

/-- An error node is a single invalid token, or its children have no fields and it ends with a semicolon or
in front of a closing brace, the end of the file or, if that is asked for, a declaration. -/
theorem parse_recovers_at_synchronization (options : ParseOptions) (source : List Char) :
    ∀ entry ∈ (parse options source).tree.nodesBefore, entry.1.kind = .error →
      entry.1.IsInvalidToken ∨
        entry.1.IsRecovered options.resyncOnDeclaration (significantTokens source) entry.2 := by
  obtain ⟨last, done, -, ended⟩ := sourceReading_done options.resyncOnDeclaration source
  have start := TokenCursor.ofTokens_proper (utf8Length source) (lex source).tokens
  have settles := sourceReading_preserves (fun depth => Segment.settles_preserving
    options.resyncOnDeclaration (readEntry options.resyncOnDeclaration depth)
      (TokenCursor.ofTokens (utf8Length source) (lex source).tokens).ahead) source done start
  have flushed := settles.trans (Segment.settles_flush
    (fun _ behind valid => Segment.endsWell_of_valid valid behind) settles.proper)
  have settled := flushed.settled List.suffix_rfl settled_nil
  -- Nothing is ahead at the end, so what stands behind a node is what the tree has behind it.
  have none : last.flush.cursor.spans = [] := by
    have nothing : last.cursor.ahead = [] := settles.proper.isAtEnd_iff.mp ended
    change last.cursor.ahead.map _ = []
    rw [nothing]
    rfl
  have same : readSource options.resyncOnDeclaration source = last.flush := by
    unfold readSource
    rw [done]
  rw [Segment.Settled, none] at settled
  rw [parse_tree, same]
  intro entry member invalid
  rcases List.mem_cons.mp member with rfl | below
  · cases invalid
  · exact settled entry below invalid

/-- Without a value for a variable, what follows is skipped up to the next declaration, the bracketed
part as a whole. -/
theorem parse_recovers_at_declaration :
    ∃ entry ∈ (parse {} "x := ) f(;) y :: 1;".toList).tree.nodesBefore,
      entry.1.kind = .error ∧ entry.2 ≠ [] ∧
        entry.1.IsRecovered true (significantTokens "x := ) f(;) y :: 1;".toList) entry.2 := by
  have found : ∃ entry ∈ (parse {} "x := ) f(;) y :: 1;".toList).tree.nodesBefore,
      entry.1.kind = .error ∧ entry.2 ≠ [] ∧ entry.1.children.length ≠ 1 := by
    decide +kernel
  obtain ⟨entry, member, invalid, more, long⟩ := found
  rcases parse_recovers_at_synchronization {} _ entry member invalid with single | recovered
  · obtain ⟨field, token, alone, -⟩ := single
    exact (long (congrArg List.length alone)).elim
  · exact ⟨entry, member, invalid, more, recovered⟩

end JaiSyntax
