import JaiSyntax.Proofs.Lexer.Reports
/-!
Faults of the lexer. Wherever lexemes are reported as they should be, those of kind `error` are at most as
many as those with a fault, so that every invalid token of a source is matched by a lexical error.
-/

set_option autoImplicit false

namespace JaiSyntax

def invalidCount (pieces : List Lexeme) : Nat := pieces.countP (fun piece => piece.kind == .error)

def faultCount (pieces : List Lexeme) : Nat := pieces.countP (fun piece => piece.problem.isSome)

/-- Lexemes with a fault for each invalid one. -/
def Accounts (pieces : List Lexeme) : Prop := invalidCount pieces ≤ faultCount pieces

/-- One where lexemes stand behind the delimiter of a heredoc that is never closed: its body is invalid, and
the fault is found at the delimiter. -/
def openHeredocs (before : Option TokenKind) (pieces : List Lexeme) : Nat :=
  if before = some .heredocStart ∧ nextKind .heredocBody pieces ≠ some .heredocEnd then 1 else 0

namespace Lexeme.Fits

variable {before : Option TokenKind} {piece : Lexeme} {rest : List Lexeme}

theorem problem_isSome (fits : piece.Fits before rest)
    (faulty : (piece.place 0 before rest).IsFaulty) : piece.problem.isSome = true := by
  unfold Fits at fits
  cases found : piece.problem with
  | none =>
      rw [found] at fits
      exact absurd faulty (fits 0)
  | some problem => rfl

/-- An invalid lexeme has a fault, or is the body of a heredoc whose delimiter has one. -/
theorem invalid_le (fits : piece.Fits before rest) :
    (if piece.kind == .error then 1 else 0) ≤
      (if piece.problem.isSome then 1 else 0) + openHeredocs before (piece :: rest) := by
  by_cases invalid : piece.kind = .error
  · by_cases inside : before = some .heredocStart
    · have next : nextKind .heredocBody (piece :: rest) ≠ some .heredocEnd := by
        rw [nextKind_cons_of_ne rest (by rw [invalid]; decide), invalid]
        decide
      have opened : openHeredocs before (piece :: rest) = 1 := if_pos ⟨inside, next⟩
      rw [opened]
      split <;> omega
    · rw [if_pos (fits.problem_isSome (Or.inl ⟨invalid, inside⟩))]
      split <;> omega
  · rw [if_neg (fun same => invalid (beq_iff_eq.mp same))]
    exact Nat.zero_le _

/-- The delimiter of a heredoc that is never closed is no invalid lexeme and has a fault. -/
theorem open_le (fits : piece.Fits before rest) :
    (if piece.kind == .error then 1 else 0) + openHeredocs (some piece.kind) rest ≤
      (if piece.problem.isSome then 1 else 0) + openHeredocs before (piece :: rest) := by
  -- The fault of the delimiter pays for the body behind it.
  by_cases opens : some piece.kind = some .heredocStart ∧
      nextKind .heredocBody rest ≠ some .heredocEnd
  · have kind : piece.kind = .heredocStart := Option.some.inj opens.1
    have faulty : (piece.place 0 before rest).IsFaulty := Or.inr (Or.inl ⟨kind, opens.2⟩)
    rw [openHeredocs, if_pos opens, if_pos (fits.problem_isSome faulty), kind]
    exact Nat.le_add_right 1 _
  · rw [openHeredocs, if_neg opens]
    exact fits.invalid_le

end Lexeme.Fits

/-- Lexemes that fit where they stand have a fault for each invalid one, but for the body of a heredoc that
is open in front of them. -/
theorem Sound.invalidCount_le {before : Option TokenKind} {pieces : List Lexeme}
    (sound : Sound before pieces) :
    invalidCount pieces ≤ faultCount pieces + openHeredocs before pieces := by
  induction pieces generalizing before with
  | nil => exact Nat.zero_le _
  | cons piece rest ih =>
      obtain ⟨fits, later⟩ := sound
      have first := fits.open_le
      have further := ih later
      unfold invalidCount faultCount at *
      rw [List.countP_cons, List.countP_cons]
      omega

/-- The invalid lexemes of a source are at most as many as its faults. -/
theorem accounts_lexemes (source : List Char) : Accounts (lexemes source) := by
  have sound : Sound none (lexemes source) := sound_lexemesFrom source source none (by decide)
  have outside : openHeredocs none (lexemes source) = 0 :=
    if_neg (fun opens => Option.some_ne_none _ opens.1.symm)
  have counted := sound.invalidCount_le
  rw [outside] at counted
  exact counted

/-! ### Tokens and errors -/

theorem invalid_tokensFrom (offset : Nat) (pieces : List Lexeme) :
    (tokensFrom offset pieces).countP (fun token => token.kind == .error) =
      invalidCount pieces := by
  induction pieces generalizing offset with
  | nil => rfl
  | cons piece rest ih =>
      rw [tokensFrom, List.countP_cons, ih, invalidCount, invalidCount, List.countP_cons]

theorem length_lexErrorsFrom (offset : Nat) (pieces : List Lexeme) :
    (lexErrorsFrom offset pieces).length = faultCount pieces := by
  induction pieces generalizing offset with
  | nil => rfl
  | cons piece rest ih =>
      unfold faultCount at ih ⊢
      rw [lexErrorsFrom, List.countP_cons]
      cases piece.problem with
      | none => exact ih _
      | some problem => simpa using ih _

/-- Every invalid token of a source is matched by a lexical error. -/
theorem lex_reports_invalid (source : List Char) :
    (contentTokens source).countP (fun token => token.kind == .error) ≤
      (lex source).errors.length := by
  have errors : (lex source).errors.length = faultCount (lexemes source) :=
    length_lexErrorsFrom 0 _
  rw [contentTokens_eq, invalid_tokensFrom, errors]
  exact accounts_lexemes source

end JaiSyntax
