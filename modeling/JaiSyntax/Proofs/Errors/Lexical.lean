import JaiSyntax.Command.Report
import JaiSyntax.Proofs.Errors.Balance
import JaiSyntax.Proofs.Errors.Order
import JaiSyntax.Proofs.Layout.Independence
import JaiSyntax.Proofs.Lexer.Reports
/-!
The lexical errors of a parse. The lexer finds its errors in the order of their starts, so that sorting
them together with those of the grammar keeps that order; and no production reports a lexical error.
-/

set_option autoImplicit false

namespace JaiSyntax

theorem readSource_structural (resync : Bool) (source : List Char) :
    ∀ error ∈ (readSource resync source).reported, error.category ≠ .lexical :=
  (readSource_alike resync rfl).leftStructural

/-- Lexical errors that come in the order of their starts keep it among the sorted errors. -/
theorem sublist_sortErrors {lexical : List LexError}
    (ordered : lexical.Pairwise (fun earlier later => earlier.span.start < later.span.start))
    (reported : List SyntaxError) :
    (lexical.map SyntaxError.ofLexError).Sublist (sortErrors lexical reported) := by
  apply List.sublist_mergeSort startOrder_trans startOrder_total
  · apply List.pairwise_map.mpr
    exact ordered.imp (fun before => decide_eq_true (Nat.le_of_lt before))
  · exact List.sublist_append_left _ _

theorem filter_lexical_map (lexical : List LexError) :
    (lexical.map SyntaxError.ofLexError).filter (fun error => error.category == .lexical) =
      lexical.map SyntaxError.ofLexError := by
  rw [List.filter_eq_self]
  intro error member
  obtain ⟨found, -, rfl⟩ := List.mem_map.mp member
  exact beq_iff_eq.mpr (category_ofLexError found)

/-- Among sorted errors the lexical ones are those that the lexer found, in its order. -/
theorem filter_lexical_sortErrors {lexical : List LexError} {reported : List SyntaxError}
    (ordered : lexical.Pairwise (fun earlier later => earlier.span.start < later.span.start))
    (structural : ∀ error ∈ reported, error.category ≠ .lexical) :
    (sortErrors lexical reported).filter (fun error => error.category == .lexical) =
      lexical.map SyntaxError.ofLexError := by
  have kept := (sublist_sortErrors ordered reported).filter
    (fun error => error.category == .lexical)
  rw [filter_lexical_map] at kept
  have none : reported.reverse.filter (fun error => error.category == .lexical) = [] := by
    rw [List.filter_eq_nil_iff]
    intro error member
    simpa using structural error (List.mem_reverse.mp member)
  have lengths := ((sortErrors_perm lexical reported).filter
    (fun error => error.category == .lexical)).length_eq
  rw [List.filter_append, filter_lexical_map, none, List.append_nil] at lengths
  exact (kept.eq_of_length lengths.symm).symm

/-- Without a limit, the lexical errors of a parse are the errors of the lexer in their order, which are
all that the command for tokens reports of the source. -/
theorem parse_lexical_errors (resync : Bool) (source : List Char) (options : Options)
    (path : String) :
    (parse ⟨none, resync⟩ source).errors.filter (fun error => error.category == .lexical) =
        (lex source).errors.map SyntaxError.ofLexError ∧
      ({ options with command := .lex }.process path source).errors =
        (parse ⟨none, resync⟩ source).errors.filter (fun error => error.category == .lexical) := by
  have listed : (parse ⟨none, resync⟩ source).errors.filter
      (fun error => error.category == .lexical) =
        (lex source).errors.map SyntaxError.ofLexError := by
    rw [parse_errors]
    exact filter_lexical_sortErrors (lexErrors_ordered source) (readSource_structural resync source)
  exact ⟨listed, listed.symm⟩

end JaiSyntax
