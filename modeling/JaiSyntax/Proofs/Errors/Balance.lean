import Mathlib.Algebra.Ring.Nat
import JaiSyntax.Proofs.Lexer.Faults
import JaiSyntax.Proofs.Lossless
import JaiSyntax.Proofs.Reading.Keeping
import JaiSyntax.Proofs.Tree.Walk
/-!
Every error is reported. An error node is made either of an invalid token, for which the lexer reported
an error, or of a part that failed, whose error is reported with it. So the error nodes beyond the
invalid tokens are never more than the errors that the grammar reported.
-/

set_option autoImplicit false

namespace JaiSyntax

/-! ### Error nodes beyond invalid tokens -/

mutual

/-- The number of error nodes of a child less the number of its invalid tokens. -/
def Child.surplus : Child → Int
  | .leaf _ token => if token.kind = .error then -1 else 0
  | .branch _ kind _ children =>
      (if kind = .error then 1 else 0) + Child.surplusOfList children

def Child.surplusOfList : List Child → Int
  | [] => 0
  | child :: rest => child.surplus + Child.surplusOfList rest

end

namespace Child

mutual

theorem surplus_eq (child : Child) :
    child.surplus = (child.preorder.countP (fun node => node.kind == .error) : Int) -
      child.leaves.countP (fun token => token.kind == .error) := by
  cases child with
  | leaf field token =>
      by_cases invalid : token.kind = .error <;>
        simp [surplus, preorder, leaves, invalid]
  | branch field kind span children =>
      rw [surplus, preorder, leaves, surplusOfList_eq children, List.countP_cons]
      by_cases error : kind = .error
      · simp [error]
        omega
      · simp [error]

/-- The surplus counts the error nodes and the invalid tokens below some children. -/
theorem surplusOfList_eq (children : List Child) :
    surplusOfList children =
      ((preorderOfList children).countP (fun node => node.kind == .error) : Int) -
        (leavesOfList children).countP (fun token => token.kind == .error) := by
  cases children with
  | nil => rfl
  | cons child rest =>
      rw [surplusOfList, preorderOfList, leavesOfList, surplus_eq child, surplusOfList_eq rest,
        List.countP_append, List.countP_append]
      omega

end

@[simp] theorem surplusOfList_append (first second : List Child) :
    surplusOfList (first ++ second) = surplusOfList first + surplusOfList second := by
  induction first with
  | nil => simp [surplusOfList]
  | cons child rest ih => simp [surplusOfList, ih, Int.add_assoc]

@[simp] theorem surplusOfList_reverse (children : List Child) :
    surplusOfList children.reverse = surplusOfList children := by
  induction children with
  | nil => rfl
  | cons child rest ih => simp [surplusOfList, ih, Int.add_comm]

@[simp] theorem surplus_withField (field : Option Field) (child : Child) :
    (child.withField field).surplus = child.surplus := by
  cases child <;> rfl

theorem surplus_ofNode (field : Option Field) (kind : NodeKind) (children : List Child)
    (position : Nat) :
    (ofNode field (.build kind children position)).surplus =
      (if kind = .error then 1 else 0) + surplusOfList children :=
  rfl

theorem surplusOfList_map {change : Child → Child}
    (kept : ∀ child, (change child).surplus = child.surplus) (children : List Child) :
    surplusOfList (children.map change) = surplusOfList children := by
  induction children with
  | nil => rfl
  | cons child rest ih => rw [List.map_cons, surplusOfList, surplusOfList, kept, ih]

theorem surplusOfList_le {children : List Child}
    (each : ∀ child ∈ children, child.surplus ≤ 0) : surplusOfList children ≤ 0 := by
  induction children with
  | nil => exact Int.le_refl 0
  | cons child rest ih =>
      obtain ⟨first, later⟩ := List.forall_mem_cons.mp each
      rw [surplusOfList]
      have further := ih later
      omega

theorem surplus_leaf_le (field : Option Field) (token : Token) : (leaf field token).surplus ≤ 0 := by
  rw [surplus]
  split <;> omega

/-- Layout holds no error nodes. -/
theorem surplus_extra (extra : Extra) : extra.child.surplus ≤ 0 := by
  cases extra with
  | token single => exact surplus_leaf_le none single
  | deprecated group =>
      unfold Extra.child noticeNode
      rw [surplus_ofNode, if_neg (by decide), Int.zero_add]
      refine surplusOfList_le (forall_noticeChildren (surplus_leaf_le none) ?_ none group nofun)
      intro _ _ _ _ _
      rw [surplus_ofNode, if_neg (by decide), Int.zero_add]
      exact surplusOfList_le (forall_leaves (surplus_leaf_le none) _)

/-! ### Trees that are read anew -/

theorem typeReading?_error {kind : NodeKind} {reading : TypeReading}
    (found : typeReading? kind = some reading) : kind ≠ .error ∧ reading.kind ≠ .error := by
  unfold typeReading? at found
  split at found <;> simp at found <;> subst found <;> decide

theorem surplus_reinterpretChildren (select : Option Field → Option (Option Field))
    (children : List Child) :
    surplusOfList (reinterpretChildren select children) = surplusOfList children := by
  induction select, children using reinterpretChildren.induct with
  | case1 select => rw [reinterpretChildren]
  | case2 select field token rest ih =>
      rw [reinterpretChildren, surplusOfList, surplusOfList, ih]
  | case3 select field kind span children rest outer inner =>
      rw [reinterpretChildren, surplusOfList, surplusOfList, inner]
      congr 1
      split
      · rfl
      · split
        · rfl
        · next reading same =>
            obtain ⟨before, after⟩ := typeReading?_error same
            rw [surplus, surplus, if_neg before, if_neg after, outer reading]

/-- Reading a node as a type keeps its errors. -/
theorem surplus_reinterpretAsType (field : Option Field) (node : Node) :
    (ofNode field node.reinterpretAsType).surplus = (ofNode none node).surplus := by
  unfold Node.reinterpretAsType
  cases found : typeReading? node.kind with
  | none => rfl
  | some reading =>
      obtain ⟨before, after⟩ := typeReading?_error found
      change (ofNode field (.build reading.kind _ _)).surplus = _
      rw [surplus_ofNode, surplus_reinterpretChildren, if_neg after]
      change _ = (if node.kind = .error then 1 else 0) + surplusOfList node.children
      rw [if_neg before]

/-- Taking a node apart drops no more than the node itself. -/
theorem surplus_asParameterList (field : Option Field) (node : Node) :
    surplusOfList node.asParameterList ≤ (ofNode field node).surplus := by
  have kept : surplusOfList node.asParameterList = surplusOfList node.children := by
    refine surplusOfList_map (fun child => ?_) node.children
    cases child with
    | leaf field token => rfl
    | branch field kind span children =>
        exact surplus_reinterpretAsType (some .parameters) ⟨kind, span, children⟩
  rw [kept]
  change _ ≤ (if node.kind = .error then 1 else 0) + surplusOfList node.children
  split <;> omega

theorem surplus_replaceLast {change : Child → List Child}
    (less : ∀ child, surplusOfList (change child) ≤ child.surplus) (latest : List Child) :
    surplusOfList (replaceLastSignificant change latest) ≤ surplusOfList latest := by
  induction latest with
  | nil => exact Int.le_refl 0
  | cons child earlier ih =>
      have own := less child
      rw [replaceLastSignificant]
      split
      · rw [surplusOfList_append, surplusOfList_reverse, surplusOfList]
        omega
      · rw [surplusOfList, surplusOfList]
        omega

end Child

/-! ### Segments -/

namespace Segment

def surplus (segment : Segment) : Int := Child.surplusOfList segment.latest

/-- What was read since an earlier segment adds no more error nodes beyond invalid tokens than errors
that were reported since. -/
def Reports (earlier later : Segment) : Prop :=
  later.surplus + earlier.reported.length ≤ earlier.surplus + later.reported.length

variable {segment inner : Segment}

theorem surplus_flush (segment : Segment) : segment.flush.surplus ≤ segment.surplus := by
  have extras : Child.surplusOfList (segment.cursor.gap.map Extra.child).reverse ≤ 0 := by
    refine Child.surplusOfList_le (fun child member => ?_)
    rw [List.mem_reverse, List.mem_map] at member
    obtain ⟨extra, -, rfl⟩ := member
    exact Child.surplus_extra extra
  unfold surplus flush
  rw [Child.surplusOfList_append]
  omega

theorem reports_of_same (reported : inner.reported = segment.reported)
    (less : inner.surplus ≤ segment.surplus) : segment.Reports inner := by
  unfold Reports
  rw [reported]
  omega

theorem reports_bumpAs (segment : Segment) (change : Token → Token) :
    segment.Reports (segment.bumpAs change) := by
  have flushed := surplus_flush segment
  refine reports_of_same (reported_bumpAs segment change) ?_
  unfold bumpAs
  change Segment.surplus (if segment.flush.cursor.isAtEnd then _ else _) ≤ _
  split
  · exact flushed
  · exact Int.le_trans (Int.add_le_add (Child.surplus_leaf_le none _) flushed)
      (Int.le_of_eq (Int.zero_add _))

theorem reports_apply (around : Surroundings) (segment : Segment) (move : Move) :
    segment.Reports (segment.apply around move) := by
  cases move with
  | bump => exact reports_bumpAs segment id
  | bumpKeyword => exact reports_bumpAs segment _
  | tag field =>
      refine reports_of_same rfl (Child.surplus_replaceLast (fun child => ?_) segment.latest)
      rw [Child.surplusOfList, Child.surplus_withField]
      exact Int.le_of_eq (Int.add_zero _)
  | reinterpretLast =>
      refine reports_of_same rfl (Child.surplus_replaceLast (fun child => ?_) segment.latest)
      cases child with
      | leaf field token => exact Int.le_of_eq (Int.add_zero _)
      | branch field kind span children =>
          exact Int.le_of_eq ((Int.add_zero _).trans
            (Child.surplus_reinterpretAsType field ⟨kind, span, children⟩))
  | spliceParameters =>
      refine reports_of_same rfl (Child.surplus_replaceLast (fun child => ?_) segment.latest)
      cases child with
      | leaf field token => exact Int.le_of_eq (Int.add_zero _)
      | branch field kind span children =>
          exact Child.surplus_asParameterList field ⟨kind, span, children⟩
  | report complaint =>
      change segment.surplus + segment.reported.length ≤
        segment.surplus + (segment.errorOf around complaint :: segment.reported).length
      rw [List.length_cons]
      omega

theorem surplus_enclosed {kind : NodeKind} (position : Nat) (inner : Segment) :
    (inner.enclosed kind position).surplus =
      (if kind = .error then 1 else 0) + inner.surplus := by
  change Child.surplus _ + 0 = _
  rw [Child.surplus_ofNode, Child.surplusOfList_reverse, Int.add_zero]
  rfl

/-- A node other than an error node adds nothing. -/
theorem Reports.enclosed (reports : segment.Reports inner) {kind : NodeKind} (position : Nat)
    (other : kind ≠ .error) : segment.Reports (inner.enclosed kind position) := by
  unfold Reports at reports ⊢
  rw [surplus_enclosed, if_neg other, Int.zero_add]
  exact reports

theorem reports_keeping (resync : Bool)
    (enter : Entry → Surroundings → Segment → Reading Unit) : Keeping resync enter Reports where
  refl segment := Int.le_refl _
  trans := by
    unfold Reports
    intro first second third front back
    omega
  apply around segment move _ := reports_apply around segment move
  after := by
    intro segment inner reports
    have flushed := surplus_flush segment
    have joined : (inner.after segment.flush).surplus = inner.surplus + segment.flush.surplus :=
      Child.surplusOfList_append _ _
    unfold Reports at reports ⊢
    change inner.surplus + segment.reported.length ≤ 0 + inner.reported.length at reports
    rw [joined]
    change _ ≤ segment.surplus + (inner.reported.length : Int)
    omega
  enclosed position common reports :=
    reports.enclosed position (fun error => by rw [error] at common; cases common)
  token := by
    intro segment position proper invalid none
    have more : segment.cursor.isAtEnd = false := by
      rw [TokenCursor.isAtEnd, invalid]
      rfl
    have flushed := surplus_flush segment
    have token : segment.bump.surplus = -1 + segment.flush.surplus := by
      unfold surplus bump
      rw [latest_bumpAs proper more, Child.surplusOfList, Child.surplus]
      simp [invalid]
    refine reports_of_same (reported_bumpAs segment id) ?_
    rw [surplus_enclosed, token, if_pos rfl]
    omega
  block position _ _ _ reports := reports.enclosed position (by decide)
  quick position _ _ _ _ reports := reports.enclosed position (by decide)
  cleared := by
    intro segment inner reports
    have same : (inner.mapLatest (List.map (Child.withField none))).surplus = inner.surplus :=
      Child.surplusOfList_map (Child.surplus_withField none) inner.latest
    unfold Reports at reports ⊢
    rw [same]
    exact reports
  failed := by
    intro segment inner position error reports
    have added : Segment.surplus { inner.enclosed .error position with
        reported := error :: inner.reported } = 1 + inner.surplus :=
      surplus_enclosed position inner
    unfold Reports at reports ⊢
    rw [added, List.length_cons]
    omega

end Segment

/-! ### The errors of a source -/

/-- A source has no more error nodes beyond its invalid tokens than errors of the grammar. -/
theorem readSource_reports (resync : Bool) (source : List Char) :
    (readSource resync source).surplus ≤ (readSource resync source).reported.length := by
  obtain ⟨last, done, -, -⟩ := sourceReading_done resync source
  have reports : Segment.Reports _ last :=
    sourceReading_keeps (fun depth => Segment.reports_keeping resync (readEntry resync depth))
      source done
  have start : (Segment.initial (utf8Length source) (lex source).tokens).surplus = 0 := rfl
  have flushed := Segment.surplus_flush last
  unfold Segment.Reports at reports
  rw [start] at reports
  change _ + 0 ≤ _ at reports
  unfold readSource
  rw [done]
  change last.flush.surplus ≤ last.reported.length
  omega

theorem parse_errors (options : ParseOptions) (source : List Char) :
    (parse options source).errors =
      match options.maxErrors with
      | none => sortErrors (lex source).errors
          (readSource options.resyncOnDeclaration source).reported
      | some limit => limitErrors (utf8Length source) limit (sortErrors (lex source).errors
          (readSource options.resyncOnDeclaration source).reported) :=
  congrArg (fun state : ParserState => match options.maxErrors with
    | none => sortErrors (lex source).errors state.reported
    | some limit => limitErrors (utf8Length source) limit
        (sortErrors (lex source).errors state.reported))
    (parsed_eq options.resyncOnDeclaration source)

theorem limitErrors_eq_nil {size limit : Nat} {errors : List SyntaxError}
    (none : limitErrors size limit errors = []) : errors = [] := by
  unfold limitErrors at none
  split at none
  · exact none
  · simp at none

theorem sortErrors_perm (lexical : List LexError) (reported : List SyntaxError) :
    (sortErrors lexical reported).Perm (lexical.map SyntaxError.ofLexError ++ reported.reverse) :=
  List.mergeSort_perm _ _

/-- A source without errors has neither lexical errors nor errors of the grammar, however many of them may
be reported. -/
theorem silent_of_errors {options : ParseOptions} {source : List Char}
    (silent : (parse options source).errors = []) :
    (lex source).errors = [] ∧ (readSource options.resyncOnDeclaration source).reported = [] := by
  have sorted : sortErrors (lex source).errors
      (readSource options.resyncOnDeclaration source).reported = [] := by
    rw [parse_errors] at silent
    split at silent
    · exact silent
    · exact limitErrors_eq_nil silent
  have none := (sortErrors_perm _ _).symm.trans (.of_eq sorted)
  have both := List.perm_nil.mp none
  simpa using both

theorem category_ofLexError (error : LexError) :
    (SyntaxError.ofLexError error).category = .lexical := by
  rcases error with ⟨span, fault⟩
  cases fault <;> rfl

/-- The errors of the lexer stay among the lexical errors. -/
theorem length_lexical_le (lexical : List LexError) (reported : List SyntaxError) :
    lexical.length ≤
      (sortErrors lexical reported).countP (fun error => error.category == .lexical) := by
  rw [(sortErrors_perm lexical reported).countP_eq, List.countP_append]
  have all : (lexical.map SyntaxError.ofLexError).countP
      (fun error => error.category == .lexical) = lexical.length := by
    rw [List.countP_map, List.countP_eq_length]
    intro error _
    simp [category_ofLexError]
  omega

theorem KeptTokens.invalid_eq {tokens kept : List Token} (same : KeptTokens tokens kept) :
    kept.countP (fun token => token.kind == .error) =
      tokens.countP (fun token => token.kind == .error) := by
  induction same with
  | nil => rfl
  | cons head _ ih =>
      rw [List.countP_cons, List.countP_cons, ih]
      rcases head with rfl | ⟨word, rfl⟩
      · rfl
      · simp [word, Token.retag]

/-- Without error nodes and invalid tokens, no node of a tree is erroneous. -/
theorem Node.hasError_eq_false {node : Node}
    (valid : node.preorder.countP (fun inner => inner.kind == .error) = 0)
    (tokens : node.leaves.countP (fun token => token.kind == .error) = 0) :
    node.hasError = false := by
  rw [List.countP_eq_zero] at valid tokens
  rw [← Bool.not_eq_true, Node.hasError_iff]
  rintro (⟨inner, member, error⟩ | ⟨token, member, invalid⟩)
  · exact valid inner member (beq_iff_eq.mpr error)
  · exact tokens token member (beq_iff_eq.mpr invalid)

/-- No error is silent: where the number of errors is not limited, the error nodes of a tree are at most
as many as the errors of its source, and its invalid tokens at most as many as the lexical errors. A tree
of a source without errors holds no error at all. -/
theorem parse_reports_errors (resync : Bool) (source : List Char) :
    (parse ⟨none, resync⟩ source).tree.preorder.countP (fun node => node.kind == .error) ≤
        (parse ⟨none, resync⟩ source).errors.length ∧
      (parse ⟨none, resync⟩ source).tree.leaves.countP (fun token => token.kind == .error) ≤
        (parse ⟨none, resync⟩ source).errors.countP (fun error => error.category == .lexical) ∧
      ((parse ⟨none, resync⟩ source).errors = [] →
        (parse ⟨none, resync⟩ source).tree.hasError = false) := by
  have tokens : (parse ⟨none, resync⟩ source).tree.leaves.countP
      (fun token => token.kind == .error) ≤ (lex source).errors.length := by
    rw [(leaves_kept ⟨none, resync⟩ source).invalid_eq]
    exact lex_reports_invalid source
  have lexical := length_lexical_le (lex source).errors (readSource resync source).reported
  have total : (parse ⟨none, resync⟩ source).errors.length =
      (lex source).errors.length + (readSource resync source).reported.length := by
    rw [parse_errors, (sortErrors_perm _ _).length_eq]
    simp
  have nodes : (parse ⟨none, resync⟩ source).tree.preorder.countP (fun node => node.kind == .error) ≤
      (parse ⟨none, resync⟩ source).errors.length := by
    have balance := readSource_reports resync source
    have surplus := Child.surplusOfList_eq (readSource resync source).latest.reverse
    rw [Child.surplusOfList_reverse] at surplus
    have invalid : Child.leavesOfList (readSource resync source).latest.reverse =
        (parse ⟨none, resync⟩ source).tree.leaves := by
      rw [parse_tree]
      rfl
    have below : (parse ⟨none, resync⟩ source).tree.preorder.countP
          (fun node => node.kind == .error) =
        (Child.preorderOfList (readSource resync source).latest.reverse).countP
          (fun node => node.kind == .error) := by
      rw [parse_tree]
      rfl
    change Child.surplusOfList _ ≤ _ at balance
    rw [below]
    rw [invalid] at surplus
    omega
  refine ⟨nodes, ?_, fun none => ?_⟩
  · rw [parse_errors]
    exact tokens.trans lexical
  · rw [none] at nodes total
    have noErrors : (lex source).errors.length = 0 := by
      rw [List.length_nil] at total
      omega
    exact Node.hasError_eq_false (Nat.le_zero.mp nodes) (Nat.le_zero.mp (noErrors ▸ tokens))

end JaiSyntax
