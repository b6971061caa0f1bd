import JaiSyntax.Proofs.Expression.Operand
/-!
Statements as they are before they are written. A branch with an alternative is written with `else` behind
its consequence, so that the consequence must not end with a branch that would take the `else` for itself.
-/

set_option autoImplicit false

namespace JaiSyntax

/-- A term with parentheses around every operand that needs them. -/
abbrev Expression := { term : Term // term.Grouped }

def SourceWord.keyword (text : String) : SourceWord := ⟨.ident, text⟩

def SourceWord.keywordLeaf (text : String) : Skeleton := .leaf none .keyword text

inductive LoopJump where
  | out
  | next

namespace LoopJump

def text : LoopJump → String
  | .out => "break"
  | .next => "continue"

def kind : LoopJump → NodeKind
  | .out => .breakStatement
  | .next => .continueStatement

end LoopJump

mutual

inductive Statement where
  | expression (value : Expression)
  | assignment (target : Name) (value : Expression)
  | declaration (name : Name) (value : Expression)
  | returned (value : Option Expression)
  | jump (jump : LoopJump) (label : Option Name)
  | deferred (body : Statement)
  | block (statements : Statements)
  | loop (condition : Expression) (body : Statements)
  | branch (condition : Expression) (consequence : Statement)
  | choice (condition : Expression) (consequence alternative : Statement)

inductive Statements where
  | none
  | cons (first : Statement) (rest : Statements)

end

def valueWords : Option Expression → List SourceWord
  | none => []
  | some value => value.1.words

def labelWords : Option Name → List SourceWord
  | none => []
  | some label => [label.word]

mutual

/-- The words of a statement, with the semicolon behind it where it needs one. -/
def Statement.words : Statement → List SourceWord
  | .expression value => value.1.words ++ [.fixed .semicolon]
  | .assignment target value =>
      target.word :: .fixed .eq :: (value.1.words ++ [.fixed .semicolon])
  | .declaration name value =>
      name.word :: .fixed .colon :: .fixed .eq :: (value.1.words ++ [.fixed .semicolon])
  | .returned value => .keyword "return" :: (valueWords value ++ [.fixed .semicolon])
  | .jump jump label => .keyword jump.text :: (labelWords label ++ [.fixed .semicolon])
  | .deferred body => .keyword "defer" :: body.words
  | .block statements => .fixed .lBrace :: (statements.words ++ [.fixed .rBrace])
  | .loop condition body =>
      .keyword "while" ::
        (condition.1.words ++ .fixed .lBrace :: (body.words ++ [.fixed .rBrace]))
  | .branch condition consequence =>
      .keyword "if" :: (condition.1.words ++ .keyword "then" :: consequence.words)
  | .choice condition consequence alternative =>
      .keyword "if" :: (condition.1.words ++ .keyword "then" ::
        (consequence.words ++ .keyword "else" :: alternative.words))

def Statements.words : Statements → List SourceWord
  | .none => []
  | .cons first rest => first.words ++ rest.words

end

def valueSkeletons : Option Expression → List Skeleton
  | none => []
  | some value => [value.1.skeleton.withField (some .value)]

def labelSkeletons : Option Name → List Skeleton
  | none => []
  | some label => [label.word.leaf (some .label)]

def terminated (field : Option Field) (node : Skeleton) : List Skeleton :=
  [node.withField field, (SourceWord.fixed .semicolon).leaf none]

mutual

def Statement.skeletons (field : Option Field) : Statement → List Skeleton
  | .expression value => terminated field value.1.skeleton
  | .assignment target value =>
      terminated field (.branch none .assignmentStatement
        [(Term.name target).skeleton.withField (some .left),
          (SourceWord.fixed .eq).leaf (some .operator),
          value.1.skeleton.withField (some .right)])
  | .declaration name value =>
      terminated field (.branch none .variableDeclaration
        [name.word.leaf (some .name), (SourceWord.fixed .colon).leaf none,
          (SourceWord.fixed .eq).leaf none, value.1.skeleton.withField (some .value)])
  | .returned value =>
      terminated field (.branch none .returnStatement
        (SourceWord.keywordLeaf "return" :: valueSkeletons value))
  | .jump jump label =>
      terminated field (.branch none jump.kind
        (SourceWord.keywordLeaf jump.text :: labelSkeletons label))
  | .deferred body =>
      [.branch field .deferStatement
        (SourceWord.keywordLeaf "defer" :: body.skeletons (some .body))]
  | .block statements =>
      [.branch field .block ((SourceWord.fixed .lBrace).leaf none ::
        (statements.skeletons ++ [(SourceWord.fixed .rBrace).leaf none]))]
  | .loop condition body =>
      [.branch field .whileStatement
        [SourceWord.keywordLeaf "while", condition.1.skeleton.withField (some .condition),
          .branch (some .body) .block ((SourceWord.fixed .lBrace).leaf none ::
            (body.skeletons ++ [(SourceWord.fixed .rBrace).leaf none]))]]
  | .branch condition consequence =>
      [.branch field .ifStatement
        (SourceWord.keywordLeaf "if" :: condition.1.skeleton.withField (some .condition) ::
          SourceWord.keywordLeaf "then" :: consequence.skeletons (some .consequence))]
  | .choice condition consequence alternative =>
      [.branch field .ifStatement
        (SourceWord.keywordLeaf "if" :: condition.1.skeleton.withField (some .condition) ::
          SourceWord.keywordLeaf "then" :: (consequence.skeletons (some .consequence) ++
            SourceWord.keywordLeaf "else" :: alternative.skeletons (some .alternative)))]

def Statements.skeletons : Statements → List Skeleton
  | .none => []
  | .cons first rest => first.skeletons none ++ rest.skeletons

end

/-- Whether a statement ends with a branch without an alternative, which takes an `else` behind it. -/
def Statement.TakesElse : Statement → Prop
  | .deferred body => body.TakesElse
  | .branch _ _ => True
  | .choice _ _ alternative => alternative.TakesElse
  | _ => False

mutual

/-- Whether no branch with an alternative has a consequence that would take its `else`. -/
def Statement.Nearest : Statement → Prop
  | .deferred body => body.Nearest
  | .block statements => statements.Nearest
  | .loop _ body => body.Nearest
  | .branch _ consequence => consequence.Nearest
  | .choice _ consequence alternative =>
      ¬ consequence.TakesElse ∧ consequence.Nearest ∧ alternative.Nearest
  | _ => True

def Statements.Nearest : Statements → Prop
  | .none => True
  | .cons first rest => first.Nearest ∧ rest.Nearest

end

/-! ### First words -/

def SourceWord.IsElse (word : SourceWord) : Prop := word.kind = .ident ∧ word.text = "else"

def SourceWord.Opens (word : SourceWord) : Prop :=
  word.kind ∈ .ident :: .int :: .lParen :: .lBrace :: unaryTokens ∧ ¬ word.IsElse

theorem SourceWord.Starts.opens {word : SourceWord} (starts : word.Starts) : word.Opens := by
  constructor
  · have kinds : ∀ kind ∈ TokenKind.ident :: .int :: .lParen :: unaryTokens,
        kind ∈ TokenKind.ident :: .int :: .lParen :: .lBrace :: unaryTokens := by
      decide
    exact kinds _ starts.kind
  · rintro ⟨ident, text⟩
    rcases starts with ⟨-, free⟩ | other
    · exact free (text ▸ by decide)
    · rw [ident] at other
      exact absurd other (by decide)

theorem SourceWord.opens_keyword {text : String} (other : text ≠ "else") :
    (SourceWord.keyword text).Opens :=
  ⟨List.mem_cons_self, fun isElse => other isElse.2⟩

theorem SourceWord.Opens.kind_ne {word : SourceWord} (opens : word.Opens) {kinds : List TokenKind}
    (apart : ∀ kind ∈ TokenKind.ident :: .int :: .lParen :: .lBrace :: unaryTokens, kind ∉ kinds) :
    word.kind ∉ kinds :=
  apart _ opens.1

theorem Statement.words_eq (statement : Statement) : ∃ first more,
    statement.words = first :: more ∧ first.Opens := by
  cases statement with
  | expression value =>
      obtain ⟨first, more, words, starts, -⟩ := value.1.words_eq
      exact ⟨first, _, by rw [Statement.words, words, List.cons_append], starts.opens⟩
  | assignment target value => exact ⟨_, _, rfl, target.starts_word.opens⟩
  | declaration name value => exact ⟨_, _, rfl, name.starts_word.opens⟩
  | returned value => exact ⟨_, _, rfl, SourceWord.opens_keyword (by decide)⟩
  | jump jump label =>
      refine ⟨_, _, rfl, SourceWord.opens_keyword ?_⟩
      cases jump <;> decide
  | deferred body => exact ⟨_, _, rfl, SourceWord.opens_keyword (by decide)⟩
  | block statements =>
      exact ⟨_, _, rfl, by decide, fun isElse => TokenKind.noConfusion isElse.1⟩
  | loop condition body => exact ⟨_, _, rfl, SourceWord.opens_keyword (by decide)⟩
  | branch condition consequence => exact ⟨_, _, rfl, SourceWord.opens_keyword (by decide)⟩
  | choice condition consequence alternative =>
      exact ⟨_, _, rfl, SourceWord.opens_keyword (by decide)⟩

/-! ### Words without doubles -/

/-- Words with neither a double arrow nor a double colon, be it written apart. -/
structure Undoubled (words : List SourceWord) : Prop where
  kinds : ∀ word ∈ words, word.kind ∉ [TokenKind.fatArrow, .colonColon]
  apart : ∀ distance, SourceWord.kindAt words distance = .colon →
    SourceWord.kindAt words (distance + 1) ≠ .colon

namespace Undoubled

variable {word : SourceWord} {words rest : List SourceWord}

theorem nil : Undoubled [] := ⟨List.forall_mem_nil _, fun _ _ => TokenKind.noConfusion⟩

theorem noQuick (undoubled : Undoubled words) : ∀ word ∈ words, word.kind ≠ .fatArrow :=
  fun word member => List.ne_of_not_mem_cons (undoubled.kinds word member)

theorem quiet (undoubled : Undoubled words) (noArrow : SourceWord.kindAt words 0 ≠ .arrow) :
    Quiet words :=
  ⟨undoubled.noQuick, noArrow⟩

theorem cons (plain : word.kind ∉ [TokenKind.fatArrow, .colonColon, .colon])
    (back : Undoubled rest) : Undoubled (word :: rest) := by
  simp only [List.mem_cons, List.not_mem_nil, or_false, not_or] at plain
  obtain ⟨noArrow, noDouble, noColon⟩ := plain
  constructor
  · refine List.forall_mem_cons.mpr ⟨?_, back.kinds⟩
    simpa using And.intro noArrow noDouble
  · intro distance colon
    cases distance with
    | zero => exact absurd colon noColon
    | succ distance => exact back.apart distance colon

/-- A colon in front of an equals sign is single. -/
theorem colon (back : Undoubled rest) : Undoubled (.fixed .colon :: .fixed .eq :: rest) := by
  have assigned : Undoubled (.fixed .eq :: rest) := back.cons (by decide)
  constructor
  · exact List.forall_mem_cons.mpr ⟨by decide, assigned.kinds⟩
  · intro distance colon
    cases distance with
    | zero => exact TokenKind.noConfusion
    | succ distance => exact assigned.apart distance colon

theorem append (plain : ∀ word ∈ words, word.kind ∉ [TokenKind.fatArrow, .colonColon, .colon])
    (back : Undoubled rest) : Undoubled (words ++ rest) := by
  induction words with
  | nil => exact back
  | cons word more ih =>
      obtain ⟨first, later⟩ := List.forall_mem_cons.mp plain
      exact (ih later).cons first

theorem term (term : Term) (back : Undoubled rest) : Undoubled (term.words ++ rest) := by
  have fixed : ∀ kind ∈ termKinds, kind ∉ [TokenKind.fatArrow, .colonColon, .colon] := by
    decide
  apply back.append
  intro word member
  cases term.words_ofTerm word member with
  | name name =>
      change TokenKind.ident ∉ _
      decide
  | numeral numeral =>
      change TokenKind.int ∉ _
      decide
  | fixed known => exact fixed _ known

/-- No double colon stands anywhere ahead. -/
theorem doubleColonAt?_eq (undoubled : Undoubled words) (distance : Nat) :
    doubleColonAt? (SourceWord.kindAt words) distance = none := by
  have noDouble : SourceWord.kindAt words distance ≠ .colonColon :=
    SourceWord.kindAt_ne TokenKind.noConfusion
      (fun word member => List.ne_of_not_mem_cons
        (List.not_mem_of_not_mem_cons (undoubled.kinds word member))) distance
  unfold doubleColonAt?
  by_cases colon : SourceWord.kindAt words distance = .colon
  · have single := undoubled.apart distance colon
    simp [colon, single]
  · split
    · next same => exact absurd same noDouble
    · next same => exact absurd same colon
    · rfl

end Undoubled

theorem Undoubled.fixed {kind : TokenKind}
    (plain : kind ∉ [TokenKind.fatArrow, .colonColon, .colon]) {rest : List SourceWord}
    (back : Undoubled rest) : Undoubled (.fixed kind :: rest) :=
  back.cons plain

theorem Undoubled.braced {rest : List SourceWord} (back : Undoubled rest) :
    Undoubled (.fixed .rBrace :: rest) :=
  back.fixed (by decide)

theorem Undoubled.braces {words rest : List SourceWord} (inside : Undoubled (words ++ .fixed .rBrace :: rest)) :
    Undoubled (.fixed .lBrace :: (words ++ .fixed .rBrace :: rest)) :=
  inside.fixed (by decide)

theorem Undoubled.semicolon {rest : List SourceWord} (back : Undoubled rest) :
    Undoubled (.fixed .semicolon :: rest) :=
  back.fixed (by decide)

theorem Undoubled.keyword (text : String) {rest : List SourceWord} (back : Undoubled rest) :
    Undoubled (.keyword text :: rest) := by
  have plain : TokenKind.ident ∉ [TokenKind.fatArrow, .colonColon, .colon] := by decide
  exact back.cons plain

mutual

theorem Statement.undoubled (statement : Statement) {rest : List SourceWord}
    (back : Undoubled rest) : Undoubled (statement.words ++ rest) := by
  cases statement with
  | expression value =>
      rw [Statement.words, List.append_assoc]
      exact back.semicolon.term value.1
  | assignment target value =>
      rw [Statement.words, List.cons_append, List.cons_append, List.append_assoc]
      exact ((back.semicolon.term value.1).fixed (by decide)).keyword _
  | declaration name value =>
      rw [Statement.words, List.cons_append, List.cons_append, List.cons_append, List.append_assoc]
      exact (back.semicolon.term value.1).colon.keyword _
  | returned value =>
      rw [Statement.words, List.cons_append, List.append_assoc]
      apply Undoubled.keyword
      cases value with
      | none => exact back.semicolon
      | some value => exact back.semicolon.term value.1
  | jump jump label =>
      rw [Statement.words, List.cons_append, List.append_assoc]
      apply Undoubled.keyword
      cases label with
      | none => exact back.semicolon
      | some label => exact back.semicolon.keyword _
  | deferred body => exact (body.undoubled back).keyword _
  | block statements =>
      rw [Statement.words, List.cons_append, List.append_assoc]
      exact (statements.undoubled back.braced).braces
  | loop condition body =>
      rw [Statement.words, List.cons_append, List.append_assoc, List.cons_append, List.append_assoc]
      have braces := (body.undoubled back.braced).braces
      exact (Undoubled.term condition.1 braces).keyword _
  | branch condition consequence =>
      rw [Statement.words, List.cons_append, List.append_assoc, List.cons_append]
      exact (Undoubled.term condition.1 ((consequence.undoubled back).keyword _)).keyword _
  | choice condition consequence alternative =>
      rw [Statement.words, List.cons_append, List.append_assoc, List.cons_append, List.append_assoc,
        List.cons_append]
      have chosen := consequence.undoubled ((alternative.undoubled back).keyword "else")
      exact (Undoubled.term condition.1 (chosen.keyword _)).keyword _

theorem Statements.undoubled (statements : Statements) {rest : List SourceWord}
    (back : Undoubled rest) : Undoubled (statements.words ++ rest) := by
  cases statements with
  | none => exact back
  | cons first later =>
      rw [Statements.words, List.append_assoc]
      exact first.undoubled (later.undoubled back)

end

end JaiSyntax
