import JaiSyntax.Parse
import JaiSyntax.Proofs.Locality.Shift
/-!
The order of errors. Sorting by where errors start keeps apart those in front of a place and those
behind it, so that the errors of two sources one after another are sorted each by themselves.
-/

set_option autoImplicit false

namespace JaiSyntax

/-! ### Stable sorting -/

theorem takeWhile_append_of_fails {α : Type} {holds : α → Bool} (front : List α) {back : List α}
    (fails : ∀ other ∈ back, holds other = false) :
    (front ++ back).takeWhile holds = front.takeWhile holds ∧
      (front ++ back).dropWhile holds = front.dropWhile holds ++ back := by
  induction front with
  | nil =>
      cases back with
      | nil => exact ⟨rfl, rfl⟩
      | cons next rest => simp [fails next List.mem_cons_self]
  | cons first rest ih =>
      rw [List.cons_append, List.takeWhile_cons, List.takeWhile_cons, List.dropWhile_cons,
        List.dropWhile_cons, ih.1, ih.2]
      constructor
      · rfl
      · split <;> rfl

section Sorting

variable {α : Type} {le : α → α → Bool}
  (trans : ∀ first second third, le first second = true → le second third = true →
    le first third = true)
  (total : ∀ first second, (le first second || le second first) = true)

include trans total

/-- The first of some elements is put in front of the first sorted one that it is not behind. -/
theorem mergeSort_cons_insert (first : α) (rest : List α) :
    (first :: rest).mergeSort le =
      (rest.mergeSort le).takeWhile (fun other => !le first other) ++
        first :: (rest.mergeSort le).dropWhile (fun other => !le first other) := by
  obtain ⟨before, after, whole, sorted, behind⟩ := List.mergeSort_cons trans total first rest
  have ordered := List.pairwise_mergeSort trans total (first :: rest)
  rw [whole, List.pairwise_append, List.pairwise_cons] at ordered
  have stops : ∀ other ∈ after, (!le first other) = false := fun other member => by
    rw [ordered.2.1.1 other member]
    rfl
  rw [whole, sorted, List.takeWhile_append_of_pos behind, List.dropWhile_append_of_pos behind]
  cases after with
  | nil => simp
  | cons next after =>
      have here := stops next List.mem_cons_self
      simp [here]

/-- Elements of two sorts, the early ones of which are all in front of the others, are sorted each by
themselves. -/
theorem mergeSort_parts {early : α → Bool}
    (apart : ∀ first second, early first = true → early second = false →
      le first second = true ∧ le second first = false) (list : List α) :
    list.mergeSort le =
      (list.filter early).mergeSort le ++ (list.filter (fun other => !early other)).mergeSort le := by
  induction list with
  | nil => simp
  | cons first rest ih =>
      have front : ∀ other ∈ (rest.filter early).mergeSort le, early other = true := by
        intro other member
        exact (List.mem_filter.mp ((List.mergeSort_perm _ _).mem_iff.mp member)).2
      have back : ∀ other ∈ (rest.filter (fun other => !early other)).mergeSort le,
          early other = false := by
        intro other member
        simpa using (List.mem_filter.mp ((List.mergeSort_perm _ _).mem_iff.mp member)).2
      rw [mergeSort_cons_insert trans total, ih]
      cases kind : early first with
      | true =>
          have stops : ∀ other ∈ (rest.filter (fun other => !early other)).mergeSort le,
              (!le first other) = false := fun other member => by
            rw [(apart first other kind (back other member)).1]
            rfl
          obtain ⟨taken, dropped⟩ := takeWhile_append_of_fails
            ((rest.filter early).mergeSort le) stops
          rw [List.filter_cons_of_pos kind, List.filter_cons_of_neg (by simp [kind]),
            mergeSort_cons_insert trans total first (rest.filter early), taken, dropped,
            List.append_assoc, List.cons_append]
      | false =>
          have goesOn : ∀ other ∈ (rest.filter early).mergeSort le, (!le first other) = true :=
            fun other member => by
              rw [(apart other first (front other member) kind).2]
              rfl
          rw [List.filter_cons_of_neg (by simp [kind]), List.filter_cons_of_pos (by simp [kind]),
            mergeSort_cons_insert trans total first (rest.filter (fun other => !early other)),
            List.takeWhile_append_of_pos goesOn, List.dropWhile_append_of_pos goesOn,
            List.append_assoc]

end Sorting

/-! ### Errors -/

def SyntaxError.startsBefore (bound : Nat) (error : SyntaxError) : Bool :=
  decide (error.span.start < bound)

theorem startOrder_trans (first second third : SyntaxError)
    (near : decide (first.span.start ≤ second.span.start) = true)
    (far : decide (second.span.start ≤ third.span.start) = true) :
    decide (first.span.start ≤ third.span.start) = true :=
  decide_eq_true (Nat.le_trans (of_decide_eq_true near) (of_decide_eq_true far))

theorem startOrder_total (first second : SyntaxError) :
    (decide (first.span.start ≤ second.span.start) ||
      decide (second.span.start ≤ first.span.start)) = true := by
  rw [Bool.or_eq_true, decide_eq_true_eq, decide_eq_true_eq]
  exact Nat.le_total _ _

/-- Errors by where they start are those before a place and then the others. -/
theorem mergeSort_startsBefore (bound : Nat) (errors : List SyntaxError) :
    errors.mergeSort (fun left right => left.span.start ≤ right.span.start) =
      (errors.filter (SyntaxError.startsBefore bound)).mergeSort
          (fun left right => left.span.start ≤ right.span.start) ++
        (errors.filter (fun error => !error.startsBefore bound)).mergeSort
          (fun left right => left.span.start ≤ right.span.start) := by
  apply mergeSort_parts startOrder_trans startOrder_total
  intro first second near far
  simp only [SyntaxError.startsBefore, decide_eq_true_eq, decide_eq_false_iff_not] at near far ⊢
  omega

/-- The errors that start before a place are sorted by themselves, and so are those moved behind it. -/
theorem sortErrors_append {bound : Nat} {lexical : List LexError} {reported : List SyntaxError}
    (lexicalNear : ∀ error ∈ lexical, error.span.start < bound)
    (reportedNear : ∀ error ∈ reported, error.span.start < bound) (laterLexical : List LexError)
    (laterReported : List SyntaxError) :
    sortErrors (lexical ++ laterLexical.map (LexError.shift bound))
        (laterReported.map (SyntaxError.shift bound) ++ reported) =
      sortErrors lexical reported ++
        (sortErrors laterLexical laterReported).map (SyntaxError.shift bound) := by
  have near {errors : List SyntaxError} (starts : ∀ error ∈ errors, error.span.start < bound) :
      errors.filter (SyntaxError.startsBefore bound) = errors ∧
        errors.filter (fun error => !error.startsBefore bound) = [] := by
    constructor
    · exact List.filter_eq_self.mpr (fun error member => decide_eq_true (starts error member))
    · apply List.filter_eq_nil_iff.mpr
      intro error member
      simpa [SyntaxError.startsBefore] using starts error member
  have far (errors : List SyntaxError) :
      (errors.map (SyntaxError.shift bound)).filter (SyntaxError.startsBefore bound) = [] ∧
        (errors.map (SyntaxError.shift bound)).filter (fun error => !error.startsBefore bound) =
          errors.map (SyntaxError.shift bound) := by
    have starts : ∀ error ∈ errors.map (SyntaxError.shift bound), bound ≤ error.span.start := by
      intro error member
      obtain ⟨earlier, -, rfl⟩ := List.mem_map.mp member
      exact Nat.le_add_left bound earlier.span.start
    constructor
    · apply List.filter_eq_nil_iff.mpr
      intro error member
      simpa [SyntaxError.startsBefore] using starts error member
    · apply List.filter_eq_self.mpr
      intro error member
      simpa [SyntaxError.startsBefore] using starts error member
  have faults : ∀ error ∈ lexical.map SyntaxError.ofLexError, error.span.start < bound := by
    intro error member
    obtain ⟨fault, known, rfl⟩ := List.mem_map.mp member
    exact lexicalNear fault known
  have complaints : ∀ error ∈ reported.reverse, error.span.start < bound := fun error member =>
    reportedNear error (List.mem_reverse.mp member)
  have moved : (laterLexical.map (LexError.shift bound)).map SyntaxError.ofLexError =
      (laterLexical.map SyntaxError.ofLexError).map (SyntaxError.shift bound) := by
    rw [List.map_map, List.map_map]
    rfl
  have backwards : (laterReported.map (SyntaxError.shift bound) ++ reported).reverse =
      reported.reverse ++ laterReported.reverse.map (SyntaxError.shift bound) := by
    rw [List.reverse_append, List.map_reverse]
  unfold sortErrors
  rw [List.map_append, moved, backwards, mergeSort_startsBefore bound]
  simp only [List.filter_append, (near faults).1, (near faults).2, (near complaints).1,
    (near complaints).2, (far _).1, (far _).2, List.append_nil, List.nil_append]
  rw [← List.map_append]
  congr 1
  apply (List.map_mergeSort _).symm
  intro first _ second _
  simp [SyntaxError.shift, Span.shift]

end JaiSyntax
