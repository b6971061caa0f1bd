import JaiSyntax.Proofs.Scanner.Agreement
/-!
What every call of a scanner keeps, wherever in a source it starts: it ends, it reads no further than one
byte past the end, and it stops on a whole character. Only the end of the source, and never a zero
character inside it, counts as the end.
-/

set_option autoImplicit false

namespace JaiSyntax.Buffer

open SourceUnit

variable {text : List Char} {answer : Type}

variable {before : List Char} {run : Option (answer × Nat)} {scanned : answer × Nat} {count : Nat}

def offsetAfter (before text : List Char) (count : Nat) : Nat :=
  utf8Length (before ++ text.take count)

theorem lt_offsetAfter (before : List Char) (some : 0 < count) (more : text ≠ []) :
    utf8Length before < offsetAfter before text count := by
  have taken : text.take count ≠ [] := by
    intro none
    rcases List.take_eq_nil_iff.mp none with zero | empty
    · omega
    · exact more empty
  rw [offsetAfter, utf8Length_append]
  exact Nat.lt_add_of_pos_right (utf8Length_pos taken)

theorem offsetAfter_all (before : List Char) (all : text.length ≤ count) :
    offsetAfter before text count = utf8Length (before ++ text) := by
  rw [offsetAfter, List.take_of_length_le all]

/-- A scan of `before ++ text` from the end of `before` on. It has a result, so it has ended and has read
nothing out of bounds; the result is what the scanner of the text makes of it; and it stops on a whole
character, not before its start and not past the end. -/
structure Safe (before text : List Char) (run : Option (answer × Nat)) (scanned : answer × Nat) :
    Prop where
  runs : run = some (scanned.1, offsetAfter before text scanned.2)
  least : utf8Length before ≤ offsetAfter before text scanned.2
  most : offsetAfter before text scanned.2 ≤ utf8Length (before ++ text)
  boundary : IsBoundary (before ++ text) (offsetAfter before text scanned.2)

theorem safe_of_runs
    (runs : run = some (scanned.1, utf8Length before + utf8Length (text.take scanned.2))) :
    Safe before text run scanned where
  runs := by rw [runs, offsetAfter, utf8Length_append]
  least := by
    rw [offsetAfter, utf8Length_append]
    exact Nat.le_add_right _ _
  most := by
    have whole := congrArg utf8Length (List.take_append_drop scanned.2 text)
    rw [utf8Length_append] at whole
    rw [offsetAfter, utf8Length_append, utf8Length_append]
    omega
  boundary := ⟨before ++ text.take scanned.2, text.drop scanned.2,
    by rw [List.append_assoc, List.take_append_drop], rfl⟩

theorem Agrees.safe (agrees : Agrees (utf8Length before) 0 text scanned run) :
    Safe before text run scanned := by
  obtain ⟨count, inside, same, runs⟩ := agrees
  rw [Nat.zero_add] at same
  refine safe_of_runs ?_
  rw [same]
  exact runs

/-- A scan that covers `count` characters stops at the end, or before a character that passes a test. -/
def EndsBefore (test : Char → Bool) (before text : List Char) (count : Nat) : Prop :=
  offsetAfter before text count = utf8Length (before ++ text) ∨
    ∃ next after, text.drop count = next :: after ∧ test next = true

theorem endsBefore_of_drop {test : Char → Bool} (before : List Char)
    (passes : ∀ next after, text.drop count = next :: after → test next = true) :
    EndsBefore test before text count := by
  cases left : text.drop count with
  | nil => exact Or.inl (offsetAfter_all before (List.drop_eq_nil_iff.mp left))
  | cons next after => exact Or.inr ⟨next, after, left, passes next after left⟩

theorem runLength_endsBefore (test : Char → Bool) (before text : List Char) :
    EndsBefore (fun unit => !test unit) before text (runLength test text) := by
  refine endsBefore_of_drop before ?_
  intro next after left
  rw [head_drop_runLength left]
  rfl

theorem lineCommentFrom_stops (escaped : Bool) (covered : Nat) (text : List Char) :
    ∃ count, JaiSyntax.lineCommentFrom escaped covered text = covered + count ∧
      ∀ next after, text.drop count = next :: after → is '\n' next = true := by
  fun_induction JaiSyntax.lineCommentFrom escaped covered text with
  | case1 escaped covered => exact ⟨0, rfl, fun _ _ none => (List.cons_ne_nil _ _ none.symm).elim⟩
  | case2 escaped covered character rest backslash ih =>
      obtain ⟨count, same, stops⟩ := ih
      exact ⟨count + 1, by omega, stops⟩
  | case3 covered character plain =>
      exact ⟨1, rfl, fun _ _ none => (List.cons_ne_nil _ _ none.symm).elim⟩
  | case4 covered character plain second after breaks ih =>
      obtain ⟨count, same, stops⟩ := ih
      exact ⟨count + 2, by omega, stops⟩
  | case5 covered character plain second after whole ih =>
      obtain ⟨count, same, stops⟩ := ih
      exact ⟨count + 1, by omega, stops⟩
  | case6 escaped covered character after plain fresh feed =>
      refine ⟨0, rfl, ?_⟩
      intro next more same
      rw [← (List.cons.inj same).1]
      exact feed
  | case7 escaped covered character after plain fresh inside ih =>
      obtain ⟨count, same, stops⟩ := ih
      exact ⟨count + 1, by omega, stops⟩

/-- A line comment ends before a line feed. -/
theorem lineComment_endsBefore (before : List Char) {rest : List Char} :
    EndsBefore (is '\n') before ('/' :: '/' :: rest)
      (JaiSyntax.lineComment ('/' :: '/' :: rest)) := by
  obtain ⟨count, same, stops⟩ := lineCommentFrom_stops false 2 rest
  refine endsBefore_of_drop before ?_
  intro next after left
  refine stops next after ?_
  rw [JaiSyntax.lineComment, List.drop_succ_cons, List.drop_succ_cons, List.drop_zero, same,
    Nat.add_comm] at left
  exact left

theorem escapeAfterBackslash_pos (character : Char) (rest : List Char) :
    0 < (JaiSyntax.escapeAfterBackslash (character :: rest)).2 := by
  have octal (digit : isOctalDigit character = true) :
      0 < runLength isOctalDigit ((character :: rest).take 3) := by
    simp [runLength, digit]
  have single : 0 < max (lineBreakLength (character :: rest))
      (characterLength (character :: rest)) := by
    have one : characterLength (character :: rest) = 1 := rfl
    omega
  rw [JaiSyntax.escapeAfterBackslash]
  simp only [JaiSyntax.fixedHexEscape, JaiSyntax.bracedEscape]
  grind

def delimiterScan (before text : List Char) : Option (Nat × Nat) × Nat :=
  let (blanks, size) := JaiSyntax.heredocDelimiter text
  (if 0 < size then
      some (offsetAfter before text blanks, offsetAfter before text (blanks + size))
    else none, blanks + size)

section Contracts

variable (before text : List Char)

/-- A block comment takes its opener at least; one that is not closed runs to the end. -/
structure BlockCommentSafe : Prop where
  safe : Safe before text (blockComment (utf8Bytes (before ++ text)) (utf8Length before))
    (JaiSyntax.blockComment text)
  advances : utf8Length before < offsetAfter before text (JaiSyntax.blockComment text).2
  ended : ∀ depth, (JaiSyntax.blockComment text).1 = .unterminated depth →
    offsetAfter before text (JaiSyntax.blockComment text).2 = utf8Length (before ++ text)

/-- A line comment takes its opener at least, and ends before a line feed or at the end. -/
structure LineCommentSafe : Prop where
  safe : Safe before text (lineComment (utf8Bytes (before ++ text)) (utf8Length before))
    ((), JaiSyntax.lineComment text)
  advances : utf8Length before < offsetAfter before text (JaiSyntax.lineComment text)
  ended : EndsBefore (is '\n') before text (JaiSyntax.lineComment text)

/-- A string goes on by a piece until the text ends. Plain content ends before another piece, and only
the last backslash of a text stands alone. -/
structure StringPieceSafe : Prop where
  safe : Safe before text (stringPiece (utf8Bytes (before ++ text)) (utf8Length before))
    (JaiSyntax.stringPiece text)
  advances : utf8Length before < offsetAfter before text (JaiSyntax.stringPiece text).2 ∨
    text = [] ∧ (JaiSyntax.stringPiece text).1 = .endOfInput
  ended : (JaiSyntax.stringPiece text).1 = .endOfInput →
    offsetAfter before text (JaiSyntax.stringPiece text).2 = utf8Length (before ++ text)
  content : (JaiSyntax.stringPiece text).1 = .content →
    EndsBefore (fun unit => !isPlainContent unit) before text (JaiSyntax.stringPiece text).2
  alone : ∀ form, JaiSyntax.stringPiece text = (.escape form, 1) →
    offsetAfter before text 1 = utf8Length (before ++ text)

/-- A heredoc delimiter, or the search for one, ends before white space or at the end. -/
structure HeredocDelimiterSafe : Prop where
  safe : Safe before text (heredocDelimiter (utf8Bytes (before ++ text)) (utf8Length before))
    (delimiterScan before text)
  ended : EndsBefore isSpace before text (delimiterScan before text).2

/-- A heredoc body goes on until the text ends. One that is not closed runs to the end, and one that is
closed stops before its delimiter. -/
structure HeredocBodySafe (delimiter : List Char) : Prop where
  safe : Safe before text
    (heredocBody (utf8Bytes (before ++ text)) (utf8Bytes delimiter) (utf8Length before))
    (JaiSyntax.heredocBody delimiter text)
  advances : utf8Length before < offsetAfter before text (JaiSyntax.heredocBody delimiter text).2 ∨
    text = [] ∧ (JaiSyntax.heredocBody delimiter text).1 = false
  ended : (JaiSyntax.heredocBody delimiter text).1 = false →
    offsetAfter before text (JaiSyntax.heredocBody delimiter text).2 = utf8Length (before ++ text)
  closed : (JaiSyntax.heredocBody delimiter text).1 = true →
    delimiter <+: text.drop (JaiSyntax.heredocBody delimiter text).2

/-- What holds of every call of a scanner from the end of `before` on in the source `before ++ text`. -/
structure ScannersSafe : Prop where
  /-- The furthest read, one byte past the end, is inside the buffer. -/
  inBuffer : (utf8Bytes (before ++ text)).length + 1 < (padded (utf8Bytes (before ++ text))).length
  blockComment : ['/', '*'] <+: text → BlockCommentSafe before text
  lineComment : ['/', '/'] <+: text → LineCommentSafe before text
  stringPiece : StringPieceSafe before text
  heredocDelimiter : HeredocDelimiterSafe before text
  heredocBody : ∀ delimiter : List Char, HeredocBodySafe before text delimiter

end Contracts

theorem blockComment_safe (before rest : List Char) :
    BlockCommentSafe before ('/' :: '*' :: rest) where
  safe := (blockComment_agrees (.of_append _ _)).safe
  advances := by
    have least : 2 ≤ (JaiSyntax.blockComment ('/' :: '*' :: rest)).2 := blockCommentFrom_le 1 2 rest
    exact lt_offsetAfter before (by omega) (List.cons_ne_nil _ _)
  ended depth unclosed := by
    have scanned : JaiSyntax.blockCommentFrom 1 2 rest =
        (.unterminated depth, (JaiSyntax.blockCommentFrom 1 2 rest).2) := Prod.ext unclosed rfl
    have all := blockCommentFrom_unclosed scanned
    refine offsetAfter_all before (Nat.le_of_eq ?_)
    rw [List.length_cons, List.length_cons, Nat.add_assoc, Nat.add_comm]
    exact all.symm

theorem lineComment_safe (before rest : List Char) :
    LineCommentSafe before ('/' :: '/' :: rest) where
  safe := (lineComment_agrees (.of_append _ _)).safe
  advances := by
    have least : 2 ≤ JaiSyntax.lineComment ('/' :: '/' :: rest) := lineCommentFrom_le false 2 rest
    exact lt_offsetAfter before (by omega) (List.cons_ne_nil _ _)
  ended := lineComment_endsBefore before

/-- The content of a string, by its first character. -/
theorem stringPiece_cons (character : Char) (rest : List Char) :
    JaiSyntax.stringPiece (character :: rest) = (.close, 1) ∨
    JaiSyntax.stringPiece (character :: rest) =
      (.escape (JaiSyntax.escapeAfterBackslash rest).1,
        (JaiSyntax.escapeAfterBackslash rest).2 + 1) ∨
    JaiSyntax.stringPiece (character :: rest) = (.lineBreak, 1) ∨
    JaiSyntax.stringPiece (character :: rest) =
      (.content, runLength isPlainContent (character :: rest)) := by
  rw [JaiSyntax.stringPiece]
  grind

theorem stringPiece_safe (before text : List Char) : StringPieceSafe before text := by
  have safe := (stringPiece_agrees (.of_append before text)).safe
  cases text with
  | nil =>
      have all : offsetAfter before [] 0 = utf8Length (before ++ []) :=
        offsetAfter_all before (Nat.le_refl 0)
      exact ⟨safe, Or.inr ⟨rfl, rfl⟩, fun _ => all, StringPiece.noConfusion,
        fun _ same => StringPiece.noConfusion (congrArg Prod.fst same)⟩
  | cons character rest =>
      have advances := lt_offsetAfter before (stringPiece_pos character rest)
        (List.cons_ne_nil character rest)
      refine ⟨safe, Or.inl advances, ?_, ?_, ?_⟩
      · intro ended
        rcases stringPiece_cons character rest with same | same | same | same <;>
          · rw [same] at ended
            cases ended
      · intro content
        rcases stringPiece_cons character rest with same | same | same | same
        · rw [same] at content
          cases content
        · rw [same] at content
          cases content
        · rw [same] at content
          cases content
        · rw [same]
          exact runLength_endsBefore isPlainContent before (character :: rest)
      · intro form alone
        rcases stringPiece_cons character rest with same | same | same | same
        · cases same.symm.trans alone
        · have none : (JaiSyntax.escapeAfterBackslash rest).2 = 0 :=
            Nat.succ.inj (congrArg Prod.snd (same.symm.trans alone))
          cases rest with
          | nil => exact offsetAfter_all before (Nat.le_refl 1)
          | cons next after =>
              have positive := escapeAfterBackslash_pos next after
              omega
        · cases same.symm.trans alone
        · cases congrArg Prod.fst (same.symm.trans alone)

theorem heredocDelimiter_safe (before text : List Char) : HeredocDelimiterSafe before text := by
  have run := heredocDelimiter_run (.of_append before text) (Prod.eta _).symm
  constructor
  · refine safe_of_runs ?_
    rw [run]
    simp only [delimiterScan, offsetAfter, utf8Length_append]
  · have word := runLength_endsBefore (fun unit => !isSpace unit) before
      (text.drop (runLength isBlank text))
    refine endsBefore_of_drop before ?_
    intro next after left
    have left' : (text.drop (runLength isBlank text)).drop
        (runLength (fun unit => !isSpace unit) (text.drop (runLength isBlank text))) =
          next :: after := by
      rw [List.drop_drop]
      exact left
    have fails := head_drop_runLength left'
    simpa using fails

theorem heredocBody_safe (before text delimiter : List Char) :
    HeredocBodySafe before text delimiter := by
  have safe := (heredocBodyFrom_agrees (.of_append before text) delimiter 0).safe
  cases closed : JaiSyntax.heredocBody delimiter text with
  | mk terminated count =>
  cases terminated with
  | false =>
      have all : count = text.length := by
        rw [heredocBodyFrom_unclosed closed, Nat.zero_add]
      have ended : offsetAfter before text count = utf8Length (before ++ text) :=
        offsetAfter_all before (Nat.le_of_eq all.symm)
      refine ⟨safe, ?_, ?_, ?_⟩
      · rw [closed]
        cases text with
        | nil => exact Or.inr ⟨rfl, rfl⟩
        | cons character rest =>
            exact Or.inl (lt_offsetAfter before (by rw [all]; exact Nat.succ_pos _)
              (List.cons_ne_nil _ _))
      · intro _
        rw [closed]
        exact ended
      · intro terminated
        rw [closed] at terminated
        cases terminated
  | true =>
      have front := (heredocBodyFrom_delimiter 0 text count closed).2
      have positive := heredocBodyFrom_blanks closed
      refine ⟨safe, ?_, ?_, ?_⟩
      · have more : text ≠ [] := by
          rintro rfl
          cases closed
        rw [closed]
        exact Or.inl (lt_offsetAfter before (Nat.zero_lt_of_lt positive) more)
      · intro unclosed
        rw [closed] at unclosed
        cases unclosed
      · intro _
        rw [closed]
        exact front

/-- Every scanner is safe wherever it is called. -/
theorem scanners_safe (before text : List Char) : ScannersSafe before text where
  inBuffer := by
    have room := lt_paddedLength (utf8Bytes (before ++ text)).length
    rw [padded, List.length_append, List.length_replicate]
    omega
  blockComment := by
    rintro ⟨rest, rfl⟩
    exact blockComment_safe before rest
  lineComment := by
    rintro ⟨rest, rfl⟩
    exact lineComment_safe before rest
  stringPiece := stringPiece_safe before text
  heredocDelimiter := heredocDelimiter_safe before text
  heredocBody := heredocBody_safe before text

end JaiSyntax.Buffer
