import JaiSyntax.Proofs.Statement.Production
/-!
Statements are read back. An `else` is read into the innermost branch that is still without one, so that a
statement that would take it must not stand in front of it.
-/

set_option autoImplicit false

namespace JaiSyntax

open Production

/-- Words behind a statement that no branch in it takes for an alternative of its own. -/
def ElseFree (rest : List SourceWord) : Prop := ∀ word ∈ rest.head?, ¬ word.IsElse

theorem ElseFree.nil : ElseFree [] := by
  intro word member
  cases member

theorem ElseFree.cons {word : SourceWord} (other : ¬ word.IsElse) (rest : List SourceWord) :
    ElseFree (word :: rest) := by
  intro first same
  cases same
  exact other

def Statement.IsRead (resync : Bool) (depth : Nat) (statement : Statement) : Prop :=
  ∀ field context rest built, Undoubled rest → (statement.TakesElse → ElseFree rest) →
    (substatement field).Takes resync (readEntry resync depth) context
      ⟨statement.words ++ rest, built⟩ () ⟨rest, (statement.skeletons field).reverse ++ built⟩

def Statements.AreRead (resync : Bool) (depth : Nat) (statements : Statements) : Prop :=
  ∀ (condition : View → Bool) rest built last,
    (∀ view : View, view.kind ∉ [TokenKind.rBrace, .eof] → condition view = true) →
    Undoubled rest → ElseFree rest →
    (listStep condition).Loops resync (readEntry resync depth) .none
      ⟨rest, statements.skeletons.reverse ++ built⟩ last →
    (listStep condition).Loops resync (readEntry resync depth) .none
      ⟨statements.words ++ rest, built⟩ last

theorem Term.skeleton_eq (term : Term) : ∃ kind children,
    term.skeleton = .branch none kind children ∧ terminatorOf kind = .semicolon := by
  cases term <;> exact ⟨_, _, rfl, rfl⟩

namespace Statement

variable {resync : Bool} {depth : Nat} {statement : Statement}

/-- No statement starts with what ends a list of statements or with a lone semicolon. -/
theorem starts (statement : Statement) (rest : List SourceWord) :
    SourceWord.kindAt (statement.words ++ rest) 0 ∉ [TokenKind.semicolon, .rBrace, .eof] := by
  obtain ⟨first, more, words, opens⟩ := statement.words_eq
  rw [words]
  exact opens.kind_ne (by decide)

theorem starts_elseFree (statement : Statement) (rest : List SourceWord) :
    ElseFree (statement.words ++ rest) := by
  obtain ⟨first, more, words, opens⟩ := statement.words_eq
  rw [words]
  exact .cons opens.2 _

/-- A statement of the semicolon class is read with its semicolon. -/
theorem isRead_terminated {kind : NodeKind} {children : List Skeleton}
    (semicolon : terminatorOf kind = .semicolon)
    (skeletons : ∀ field, statement.skeletons field = terminated field (.branch none kind children))
    (entered : ∀ context rest built, Undoubled rest →
      statementEntry.Takes resync (readEntry resync depth) context ⟨statement.words ++ rest, built⟩ ()
        ⟨.fixed .semicolon :: rest, .branch none kind children :: built⟩) :
    statement.IsRead resync (depth + 1) := by
  intro field context rest built undoubled _
  rw [skeletons]
  exact takes_substatement field (List.ne_of_not_mem_cons (statement.starts rest))
    (takes_entry .statement (entered context rest built undoubled)) (takes_terminator semicolon)

/-- A statement that ends with its own brace or with another statement. -/
theorem isRead_closed {kind : NodeKind} {children : List Skeleton}
    (self : terminatorOf kind = .selfTerminated)
    (skeletons : ∀ field, statement.skeletons field = [.branch field kind children])
    (entered : ∀ context rest built, Undoubled rest → (statement.TakesElse → ElseFree rest) →
      statementEntry.Takes resync (readEntry resync depth) context ⟨statement.words ++ rest, built⟩ ()
        ⟨rest, .branch none kind children :: built⟩) :
    statement.IsRead resync (depth + 1) := by
  intro field context rest built undoubled free
  rw [skeletons]
  exact takes_substatement field (List.ne_of_not_mem_cons (statement.starts rest))
    (takes_entry .statement (entered context rest built undoubled free)) (skips_terminator self)

/-! ### Statements with a semicolon -/

theorem isRead_expression {value : Expression} (deep : value.1.words.length ≤ depth) :
    (Statement.expression value).IsRead resync (depth + 2) := by
  obtain ⟨kind, children, skeleton, semicolon⟩ := value.1.skeleton_eq
  have same (field : Option Field) : (Statement.expression value).skeletons field =
      terminated field (.branch none kind children) := by
    rw [skeletons, skeleton]
  refine isRead_terminated semicolon same (fun context rest built undoubled => ?_)
  have plain : TokenKind.semicolon ∉ [TokenKind.colon, .colonColon, .comma] := by decide
  rw [words, List.append_assoc, ← skeleton]
  exact statementEntry_takes_expression undoubled.semicolon plain
    (expressionStatement_takes_value (value.takes_semicolon resync deep undoubled))

theorem isRead_assignment {target : Name} {value : Expression}
    (deep : value.1.words.length + 1 ≤ depth) :
    (Statement.assignment target value).IsRead resync (depth + 2) := by
  refine isRead_terminated rfl (fun _ => rfl) (fun context rest built undoubled => ?_)
  have plain : TokenKind.eq ∉ [TokenKind.colon, .colonColon, .comma] := by decide
  have boundary : TokenKind.eq ∈ boundaryKinds := by decide
  have behind : Undoubled (.fixed .eq :: (value.1.words ++ .fixed .semicolon :: rest)) :=
    (undoubled.semicolon.term value.1).fixed (by decide)
  have targeted := Expression.takes resync ⟨.name target, trivial⟩
    (Nat.le_trans (Nat.le_add_left 1 _) deep) behind boundary
  have valued := value.takes_semicolon resync (Nat.le_of_succ_le deep) undoubled
  have entered : statementEntry.Takes resync (readEntry resync (depth + 1)) context ⟨_, built⟩ () _ :=
    statementEntry_takes_expression behind plain
      (expressionStatement_takes_assignment targeted valued)
  rw [words, List.cons_append, List.cons_append, List.append_assoc]
  exact entered

theorem isRead_declaration {name : Name} {value : Expression}
    (deep : value.1.words.length ≤ depth) :
    (Statement.declaration name value).IsRead resync (depth + 2) := by
  refine isRead_terminated rfl (fun _ => rfl) (fun context rest built undoubled => ?_)
  have valued := value.takes_semicolon resync deep undoubled
  have tail : (declarationTail true).Takes resync (readEntry resync (depth + 1)) context
      ⟨_, [name.word.leaf (some .name)]⟩ _ _ :=
    takes_typedTail TokenKind.noConfusion (typedDefinition_takes_value
      (takes_commaSeparated (valued.tagged .value) TokenKind.noConfusion))
  rw [words, List.cons_append, List.cons_append, List.cons_append, List.append_assoc]
  exact statementEntry_takes_declaration rfl List.mem_cons_self
    (takes_declaration TokenKind.noConfusion (by decide) tail)

theorem isRead_returned {value : Option Expression} (deep : (valueWords value).length ≤ depth) :
    (Statement.returned value).IsRead resync (depth + 2) := by
  refine isRead_terminated rfl (fun _ => rfl) (fun context rest built undoubled => ?_)
  have valued (inner : Expression) (same : value = some inner) :
      Production.expression.TakesTerm resync (readEntry resync (depth + 1)) inner.1
        (.fixed .semicolon :: rest) := by
    subst same
    exact inner.takes_semicolon resync deep undoubled
  rw [words, List.cons_append, List.append_assoc]
  refine statementEntry_takes_word ?_ (takes_returnJump valued)
  cases value with
  | none =>
      change TokenKind.semicolon ∉ _
      decide
  | some value =>
      obtain ⟨first, more, words, starts, -⟩ := value.1.words_eq
      rw [valueWords, words]
      exact starts.opens.kind_ne (by decide)

theorem isRead_jump {jump : LoopJump} {label : Option Name} :
    (Statement.jump jump label).IsRead resync (depth + 1) := by
  have semicolon : terminatorOf jump.kind = .semicolon := by
    cases jump <;> rfl
  have named : wordStatement jump.text = loopJump jump.kind := by
    cases jump <;> rfl
  refine isRead_terminated semicolon (fun _ => rfl) (fun context rest built undoubled => ?_)
  rw [words, List.cons_append, List.append_assoc]
  refine statementEntry_takes_word ?_ (named ▸ takes_loopJump jump label)
  cases label with
  | none =>
      change TokenKind.semicolon ∉ _
      decide
  | some label =>
      change TokenKind.ident ∉ _
      decide

/-! ### Statements that end by themselves -/

theorem IsRead.deferred {body : Statement} (read : body.IsRead resync depth) :
    (Statement.deferred body).IsRead resync (depth + 1) := by
  refine isRead_closed rfl (fun _ => rfl) (fun context rest built undoubled free => ?_)
  have taken := read (some .body) context rest [SourceWord.keywordLeaf "defer"] undoubled free
  have plain : SourceWord.kindAt (body.words ++ rest) 0 ∉
      [TokenKind.colon, .colonColon, .comma] := by
    obtain ⟨first, more, words, opens⟩ := body.words_eq
    rw [words]
    exact opens.kind_ne (by decide)
  have deferring : Production.deferred.Takes resync (readEntry resync depth) context ⟨_, built⟩ () _ :=
    takes_deferred taken
  rw [List.reverse_append, List.reverse_reverse] at deferring
  exact statementEntry_takes_word plain deferring

theorem isRead_block {statements : Statements} (areRead : statements.AreRead resync depth) :
    (Statement.block statements).IsRead resync (depth + 1) := by
  refine isRead_closed rfl (fun _ => rfl) (fun context rest built undoubled _ => ?_)
  have ended (built : List Skeleton) (view : View)
      (sees : view.Sees .none ⟨.fixed .rBrace :: rest, built⟩) :
      (!view.endsAt .rBrace) = false := by
    rw [View.endsAt, View.isAt, sees.kind]
    rfl
  have goesOn (view : View) (other : view.kind ∉ [TokenKind.rBrace, .eof]) :
      (!view.endsAt .rBrace) = true := by
    simpa [View.endsAt, View.isAtEnd, View.isAt] using other
  have loops := areRead _ (.fixed .rBrace :: rest) [(SourceWord.fixed .lBrace).leaf none] _ goesOn
    undoubled.braced (.cons (fun isElse => TokenKind.noConfusion isElse.1) _)
    (loops_listed_stop (ended _))
  rw [words, List.cons_append, List.append_assoc]
  exact takes_bind (takes_look (fun _ sees => sees.kind)) (takes_block loops)

theorem isRead_loop {condition : Expression} {body : Statements}
    (deep : condition.1.words.length ≤ depth) (areRead : body.AreRead resync depth) :
    (Statement.loop condition body).IsRead resync (depth + 2) := by
  refine isRead_closed rfl (fun _ => rfl) (fun context rest built undoubled _ => ?_)
  have boundary : TokenKind.lBrace ∈ boundaryKinds := by decide
  have behind := (body.undoubled undoubled.braced).braces
  have conditioned := condition.takes resync deep behind boundary
  have taken := isRead_block areRead (some .body) context rest
    [condition.1.skeleton.withField (some .condition), SourceWord.keywordLeaf "while"] undoubled
    False.elim
  rw [words, List.cons_append, List.append_assoc] at taken
  have looping : whileLoop.Takes resync (readEntry resync (depth + 1)) context ⟨_, built⟩ () _ :=
    takes_whileLoop conditioned TokenKind.noConfusion taken
  obtain ⟨first, more, front, starts, -⟩ := condition.1.words_eq
  have plain : SourceWord.kindAt (condition.1.words ++ .fixed .lBrace :: (body.words ++
      .fixed .rBrace :: rest)) 0 ∉ [TokenKind.colon, .colonColon, .comma] := by
    rw [front]
    exact starts.opens.kind_ne (by decide)
  rw [words, List.cons_append, List.append_assoc, List.cons_append, List.append_assoc]
  exact statementEntry_takes_word plain looping

/-- A branch is read once its alternatives are. -/
theorem isRead_alternatives {condition : Expression} {behind : List SourceWord}
    {chosen : List Skeleton} (deep : condition.1.words.length ≤ depth)
    (words : statement.words = .keyword "if" :: (condition.1.words ++ .keyword "then" :: behind))
    (skeletons : ∀ field, statement.skeletons field = [.branch field .ifStatement
      (SourceWord.keywordLeaf "if" :: condition.1.skeleton.withField (some .condition) ::
        SourceWord.keywordLeaf "then" :: chosen)])
    (undoubled : ∀ rest, Undoubled rest → Undoubled (behind ++ rest))
    (taken : ∀ context rest built, Undoubled rest → (statement.TakesElse → ElseFree rest) →
      alternatives.Takes resync (readEntry resync (depth + 1)) context ⟨behind ++ rest, built⟩ ()
        ⟨rest, chosen.reverse ++ built⟩) :
    statement.IsRead resync (depth + 2) := by
  refine isRead_closed rfl skeletons (fun context rest built silent free => ?_)
  have boundary : TokenKind.ident ∈ boundaryKinds := by decide
  have conditioned := condition.takes resync deep ((undoubled rest silent).keyword "then") boundary
  have branching : Production.branch.Takes resync (readEntry resync (depth + 1)) context
      ⟨_, built⟩ () _ :=
    takes_branch conditioned (taken context rest _ silent free)
  rw [List.reverse_append, List.reverse_reverse] at branching
  obtain ⟨first, more, front, starts, -⟩ := condition.1.words_eq
  have plain : SourceWord.kindAt (condition.1.words ++ .keyword "then" :: (behind ++ rest)) 0 ∉
      [TokenKind.colon, .colonColon, .comma] := by
    rw [front]
    exact starts.opens.kind_ne (by decide)
  rw [words, List.cons_append, List.append_assoc, List.cons_append]
  exact statementEntry_takes_word plain branching

theorem IsRead.branch {condition : Expression} {consequence : Statement}
    (deep : condition.1.words.length ≤ depth) (read : consequence.IsRead resync (depth + 1)) :
    (Statement.branch condition consequence).IsRead resync (depth + 2) := by
  refine isRead_alternatives deep rfl (fun _ => rfl) (fun _ back => consequence.undoubled back)
    (fun context rest built undoubled free => ?_)
  have alone := free trivial
  exact takes_seq (read (some .consequence) context rest built undoubled (fun _ => alone))
    (takes_bind (skips_eatWord alone) (takes_pure () _))

/-- The `else` of a branch is left to it by its consequence. -/
theorem IsRead.choice {condition : Expression} {consequence alternative : Statement}
    (deep : condition.1.words.length ≤ depth) (left : ¬ consequence.TakesElse)
    (read : consequence.IsRead resync (depth + 1))
    (otherwise : alternative.IsRead resync (depth + 1)) :
    (Statement.choice condition consequence alternative).IsRead resync (depth + 2) := by
  refine isRead_alternatives deep rfl (fun _ => rfl) (fun rest back => ?_)
    (fun context rest built undoubled free => ?_)
  · rw [List.append_assoc]
    exact consequence.undoubled ((alternative.undoubled back).keyword "else")
  · have consequent := read (some .consequence) context
      (.keyword "else" :: (alternative.words ++ rest)) built
      ((alternative.undoubled undoubled).keyword "else") (fun takes => absurd takes left)
    have chosen : alternatives.Takes resync (readEntry resync (depth + 1)) context _ () _ :=
      takes_seq consequent (takes_bind (takes_eatWord "else")
        (otherwise (some .alternative) context rest _ undoubled free))
    simpa only [List.append_assoc, List.cons_append, List.reverse_append, List.reverse_cons,
      List.nil_append] using chosen

end Statement

/-! ### All statements -/

theorem Statements.areRead_none {resync : Bool} {depth : Nat} :
    Statements.none.AreRead resync depth :=
  fun _ _ _ _ _ _ _ loops => loops

theorem Statements.areRead_cons {resync : Bool} {depth : Nat} {first : Statement}
    {later : Statements} (read : first.IsRead resync depth) (areRead : later.AreRead resync depth) :
    (Statements.cons first later).AreRead resync depth := by
  intro condition rest built last goesOn undoubled free loops
  have behind := later.undoubled undoubled
  have noElse : ElseFree (later.words ++ rest) := by
    cases later with
    | none => exact free
    | cons next others =>
        rw [Statements.words, List.append_assoc]
        exact next.starts_elseFree _
  have taken := read Option.none .none (later.words ++ rest) [] behind (fun _ => noElse)
  have further := areRead condition rest ((first.skeletons Option.none).reverse ++ built) last goesOn
    undoubled free
  have starting := first.starts (later.words ++ rest)
  have shorter : (later.words ++ rest).length < (first.words ++ (later.words ++ rest)).length := by
    obtain ⟨word, more, words, -⟩ := first.words_eq
    simp only [words, List.cons_append, List.length_cons, List.length_append]
    omega
  rw [Statements.words, List.append_assoc]
  refine loops_listed (fun view sees => goesOn view ?_) (List.ne_of_not_mem_cons starting) taken
    shorter ?_
  · rw [sees.kind]
    exact List.not_mem_of_not_mem_cons starting
  · rw [List.append_nil]
    refine further ?_
    rwa [Statements.skeletons, List.reverse_append, List.append_assoc] at loops

mutual

/-- Every statement whose branches leave their `else` to the nearest one is read back, if entries nest
deep enough. -/
theorem Statement.isRead (resync : Bool) (statement : Statement) (nearest : statement.Nearest)
    (depth : Nat) (deep : 2 * statement.words.length ≤ depth) : statement.IsRead resync depth := by
  obtain ⟨first, more, words, -⟩ := statement.words_eq
  have some : 0 < statement.words.length := by
    rw [words]
    exact Nat.succ_pos _
  obtain ⟨shallower, rfl⟩ : ∃ shallower, depth = shallower + 2 := ⟨depth - 2, by omega⟩
  clear words some
  cases statement with
  | expression value =>
      simp only [Statement.words, List.length_cons, List.length_append, List.length_nil] at deep
      exact Statement.isRead_expression (by omega)
  | assignment target value =>
      simp only [Statement.words, List.length_cons, List.length_append, List.length_nil] at deep
      exact Statement.isRead_assignment (by omega)
  | declaration name value =>
      simp only [Statement.words, List.length_cons, List.length_append, List.length_nil] at deep
      exact Statement.isRead_declaration (by omega)
  | returned value =>
      simp only [Statement.words, List.length_cons, List.length_append, List.length_nil] at deep
      exact Statement.isRead_returned (by omega)
  | jump jump label => exact Statement.isRead_jump
  | deferred body =>
      rw [Statement.words, List.length_cons] at deep
      exact (body.isRead resync nearest _ (by omega)).deferred
  | block statements =>
      simp only [Statement.words, List.length_cons, List.length_append, List.length_nil] at deep
      exact Statement.isRead_block (statements.areRead resync nearest _ (by omega))
  | loop condition body =>
      simp only [Statement.words, List.length_cons, List.length_append, List.length_nil] at deep
      exact Statement.isRead_loop (by omega) (body.areRead resync nearest _ (by omega))
  | branch condition consequence =>
      rw [Statement.words, List.length_cons, List.length_append, List.length_cons] at deep
      exact (consequence.isRead resync nearest _ (by omega)).branch (by omega)
  | choice condition consequence alternative =>
      rw [Statement.words, List.length_cons, List.length_append, List.length_cons,
        List.length_append, List.length_cons] at deep
      obtain ⟨left, first, second⟩ := nearest
      exact (consequence.isRead resync first _ (by omega)).choice (by omega) left
        (alternative.isRead resync second _ (by omega))

theorem Statements.areRead (resync : Bool) (statements : Statements) (nearest : statements.Nearest)
    (depth : Nat) (deep : 2 * statements.words.length ≤ depth) :
    statements.AreRead resync depth := by
  cases statements with
  | none => exact Statements.areRead_none
  | cons first later =>
      rw [Statements.words, List.length_append] at deep
      exact Statements.areRead_cons (first.isRead resync nearest.1 _ (by omega))
        (later.areRead resync nearest.2 _ (by omega))

end

end JaiSyntax
