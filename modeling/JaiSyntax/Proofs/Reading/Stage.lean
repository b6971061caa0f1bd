import JaiSyntax.Proofs.Layout.Independence
/-!
Stages of a reading: the words ahead and the skeletons that were built, the latest first. A production
takes one stage to another if it does so wherever it is read, without an error.
-/

set_option autoImplicit false

namespace JaiSyntax

structure SourceWord where
  kind : TokenKind
  text : String
  deriving DecidableEq

namespace SourceWord

def fixed (kind : TokenKind) : SourceWord := ⟨kind, kind.description⟩

@[simp] theorem kind_fixed (kind : TokenKind) : (fixed kind).kind = kind := rfl

def leaf (word : SourceWord) (field : Option Field) : Skeleton := .leaf field word.kind word.text

def kindAt (words : List SourceWord) (distance : Nat) : TokenKind :=
  (words[distance]?.map SourceWord.kind).getD .eof

@[simp] theorem kindAt_cons_zero (word : SourceWord) (rest : List SourceWord) :
    kindAt (word :: rest) 0 = word.kind := rfl

@[simp] theorem kindAt_cons_succ (word : SourceWord) (rest : List SourceWord) (distance : Nat) :
    kindAt (word :: rest) (distance + 1) = kindAt rest distance := rfl

end SourceWord

def Token.word (token : Token) : SourceWord := ⟨token.kind, token.text⟩

def Stop.word (stop : Stop) : SourceWord := stop.token.word

structure Stage where
  words : List SourceWord
  built : List Skeleton

/-- A segment at a stage, without an error so far. -/
structure Segment.At (segment : Segment) (stage : Stage) : Prop where
  proper : segment.cursor.Proper
  words : segment.cursor.ahead.map Stop.word = stage.words
  built : Child.skeletonsOfList segment.latest = stage.built
  silent : segment.reported = []

structure View.Sees (view : View) (context : Context) (stage : Stage) : Prop where
  context : view.context = context
  kinds : ∀ distance, view.kindAt distance = SourceWord.kindAt stage.words distance
  texts : ∀ distance word, stage.words[distance]? = some word → view.textAt distance = word.text
  last : ∀ skeleton earlier, stage.built = skeleton :: earlier →
    view.lastNode = skeleton.nodeKind?

def Reading.Reaches {α : Type} (reading : Reading α) (value : α) (stage : Stage) : Prop :=
  ∃ segment, reading = .done value segment ∧ segment.At stage

namespace Segment.At

variable {segment : Segment} {stage : Stage}

theorem sees (here : segment.At stage) (around : Surroundings) :
    (segment.view around).Sees around.context stage := by
  refine ⟨rfl, fun distance => ?_, fun distance word found => ?_, fun skeleton earlier built => ?_⟩
  · change (segment.cursor.peek distance).kind = _
    unfold TokenCursor.peek SourceWord.kindAt
    rw [← here.words, List.getElem?_map]
    cases segment.cursor.ahead[distance]? with
    | none => exact here.proper.endOfFile
    | some stop => rfl
  · change (segment.cursor.peek distance).text = _
    unfold TokenCursor.peek
    rw [← here.words, List.getElem?_map] at found
    cases same : segment.cursor.ahead[distance]? with
    | none =>
        rw [same] at found
        cases found
    | some stop =>
        rw [same] at found
        cases found
        rfl
  · change lastKindAfter around.before segment.latest = _
    rw [lastKindAfter_skeletons, here.built, built]

theorem flush (here : segment.At stage) : segment.flush.At stage :=
  ⟨here.proper.withoutGap, here.words, by rw [skeletons_flush here.proper, here.built],
    here.silent⟩

theorem emptied (here : segment.At stage) : segment.emptied.At ⟨stage.words, []⟩ :=
  ⟨here.proper, here.words, rfl, here.silent⟩

theorem after {earlier : Segment} {before : List Skeleton} (here : segment.At stage)
    (built : Child.skeletonsOfList earlier.latest = before) :
    (segment.after earlier).At ⟨stage.words, stage.built ++ before⟩ := by
  refine ⟨here.proper, here.words, ?_, here.silent⟩
  rw [Segment.after, Child.skeletonsOfList_append, here.built, built]

theorem enclosed (here : segment.At stage) {kind : NodeKind} (significant : kind ≠ .deprecatedDirective)
    (position : Nat) :
    (segment.enclosed kind position).At ⟨stage.words, [.branch none kind stage.built.reverse]⟩ := by
  refine ⟨here.proper, here.words, ?_, here.silent⟩
  simp [Segment.enclosed, Child.skeletonsOfList_cons, Child.ofNode, Child.isSignificant,
    Node.build, Child.skeleton, Child.skeletonsOfList_reverse, here.built, significant]

/-- Consuming a word, as a token of a kind that is no extra. -/
theorem bumpAs {word : SourceWord} {rest : List SourceWord} {built : List Skeleton}
    (here : segment.At ⟨word :: rest, built⟩) (change : Token → Token) {changed : SourceWord}
    (same : ∀ token : Token, token.word = word → (change token).word = changed)
    (kept : word.kind.isExtra = false → changed.kind.isExtra = false) :
    (segment.bumpAs change).At ⟨rest, changed.leaf none :: built⟩ := by
  have words := here.words
  have latest := here.flush.built
  cases ahead : segment.cursor.ahead with
  | nil =>
      rw [ahead] at words
      cases words
  | cons stop more =>
      rw [ahead, List.map_cons] at words
      obtain ⟨rfl, rfl⟩ := List.cons.inj words
      have significant := here.proper.ahead stop (by simp [ahead])
      have proper := (continues_bump here.proper).proper here.proper
      have notEnd : segment.flush.cursor.isAtEnd = false := by
        simp [TokenCursor.isAtEnd, TokenCursor.current, TokenCursor.peek, Segment.flush, ahead,
          significant.1]
      have bumped (change : Token → Token) : segment.bumpAs change = { segment.flush with
          cursor := { segment.flush.cursor with
            gap := stop.gap
            ahead := more
            position := segment.cursor.position + 1
            previous := stop.token }
          latest := .leaf none (change stop.token) :: segment.flush.latest } := by
        unfold Segment.bumpAs
        simp only [notEnd, Bool.false_eq_true, if_false]
        simp [TokenCursor.advance, Segment.flush, ahead]
      have read : (change stop.token).word = changed := same stop.token rfl
      have plain : (change stop.token).kind.isExtra = false :=
        (congrArg (fun word => word.kind.isExtra) read).trans (kept significant.2)
      rw [Segment.bump, bumped id] at proper
      rw [bumped change]
      refine ⟨proper, rfl, ?_, here.silent⟩
      rw [Child.skeletonsOfList_cons, if_pos (by simp [Child.isSignificant, plain]), latest, ← read]
      rfl

theorem bump {word : SourceWord} {rest : List SourceWord} {built : List Skeleton}
    (here : segment.At ⟨word :: rest, built⟩) :
    segment.bump.At ⟨rest, word.leaf none :: built⟩ :=
  here.bumpAs id (fun _ same => same) id

/-- A word that is consumed as one of the grammar. -/
theorem bumpKeyword {word : SourceWord} {rest : List SourceWord} {built : List Skeleton}
    (here : segment.At ⟨word :: rest, built⟩) :
    (segment.bumpAs (fun token => token.retag .keyword)).At
      ⟨rest, .leaf none .keyword word.text :: built⟩ := by
  have same (token : Token) (spelled : token.word = word) :
      (token.retag .keyword).word = ⟨.keyword, word.text⟩ := by
    rw [← spelled]
    rfl
  exact here.bumpAs _ same (fun _ => rfl)

/-- Changing the last child changes the last skeleton. -/
theorem replaceLast {words : List SourceWord} {skeleton : Skeleton} {earlier : List Skeleton}
    (here : segment.At ⟨words, skeleton :: earlier⟩) (change : Child → List Child)
    (changeSkeleton : Skeleton → List Skeleton)
    (same : ∀ child, child.isSignificant = true →
      Child.skeletonsOfList (change child) = changeSkeleton child.skeleton) :
    (segment.mapLatest (replaceLastSignificant change)).At
      ⟨words, (changeSkeleton skeleton).reverse ++ earlier⟩ := by
  refine ⟨here.proper, here.words, ?_, here.silent⟩
  change Child.skeletonsOfList (replaceLastSignificant change segment.latest) = _
  rw [Child.skeletonsOfList_replaceLast change changeSkeleton same, here.built]

variable {words : List SourceWord} {skeleton : Skeleton} {earlier : List Skeleton}

theorem tag (here : segment.At ⟨words, skeleton :: earlier⟩) (around : Surroundings)
    (field : Field) :
    (segment.apply around (.tag field)).At ⟨words, skeleton.withField (some field) :: earlier⟩ := by
  refine here.replaceLast _ (fun last => [last.withField (some field)]) (fun child significant => ?_)
  rw [Child.skeletonsOfList_cons, if_pos ((isSignificant_withField _ child).trans significant),
    Child.skeleton_withField]
  rfl

theorem reinterpret (here : segment.At ⟨words, skeleton :: earlier⟩) (around : Surroundings) :
    (segment.apply around .reinterpretLast).At ⟨words, skeleton.reinterpreted :: earlier⟩ :=
  here.replaceLast _ (fun last => [last.reinterpreted])
    (fun _ => Child.skeletonsOfList_reinterpreted)

theorem splice (here : segment.At ⟨words, skeleton :: earlier⟩) (around : Surroundings) :
    (segment.apply around .spliceParameters).At ⟨words, skeleton.spliced.reverse ++ earlier⟩ :=
  here.replaceLast _ Skeleton.spliced (fun _ => Child.skeletonsOfList_spliced)

end Segment.At

namespace Production

variable {resync : Bool} {enter : Entry → Surroundings → Segment → Reading Unit} {context : Context}
  {α β : Type}

/-- A production that yields `value` and ends at `last` wherever it is read at `first` in a context. -/
def Takes (resync : Bool) (enter : Entry → Surroundings → Segment → Reading Unit)
    (context : Context) (production : Production α) (first : Stage) (value : α) (last : Stage) :
    Prop :=
  ∀ around segment, around.context = context → segment.At first →
    (production.read resync enter around segment).Reaches value last

/-- A loop that ends at `last` if it is read at `first` and may go on as often as words are ahead. -/
def Loops (resync : Bool) (enter : Entry → Surroundings → Segment → Reading Unit)
    (context : Context) (body : Production Bool) (first last : Stage) : Prop :=
  ∀ around segment (bound : List Stop), around.context = context → segment.At first →
    first.words.length ≤ bound.length →
    (Reading.iterate (body.read resync enter around) bound segment).Reaches () last

variable {first middle last : Stage} {value : α} {result : β}

theorem takes_pure (value : α) (stage : Stage) :
    (Pure.pure value : Production α).Takes resync enter context stage value stage := by
  intro around segment same here
  exact ⟨segment, read_pure resync enter value around segment, here⟩

theorem takes_bind {production : Production α} {next : α → Production β}
    (front : production.Takes resync enter context first value middle)
    (back : (next value).Takes resync enter context middle result last) :
    (production >>= next).Takes resync enter context first result last := by
  intro around segment same here
  obtain ⟨reached, read, there⟩ := front around segment same here
  rw [read_bind, read]
  exact back around reached same there

theorem takes_seq {production : Production Unit} {next : Unit → Production β}
    (front : production.Takes resync enter context first () middle)
    (back : (next ()).Takes resync enter context middle result last) :
    (production >>= next).Takes resync enter context first result last :=
  takes_bind front back

theorem takes_look {seen : View → α} (shown : ∀ view : View, view.Sees context first → seen view = value) :
    (look seen).Takes resync enter context first value first := by
  intro around segment same here
  refine ⟨segment, ?_, here⟩
  rw [read_look, shown _ (same ▸ here.sees around)]

theorem takes_bump (word : SourceWord) (rest : List SourceWord) (built : List Skeleton) :
    bump.Takes resync enter context ⟨word :: rest, built⟩ () ⟨rest, word.leaf none :: built⟩ := by
  intro around segment same here
  exact ⟨segment.bump, read_act resync enter .bump around segment, here.bump⟩

theorem takes_bumpKeyword (word : SourceWord) (rest : List SourceWord) (built : List Skeleton) :
    bumpKeyword.Takes resync enter context ⟨word :: rest, built⟩ ()
      ⟨rest, .leaf none .keyword word.text :: built⟩ := by
  intro around segment same here
  exact ⟨_, read_act resync enter .bumpKeyword around segment, here.bumpKeyword⟩

theorem takes_tag (field : Field) (words : List SourceWord) (skeleton : Skeleton)
    (earlier : List Skeleton) :
    (tag field).Takes resync enter context ⟨words, skeleton :: earlier⟩ ()
      ⟨words, skeleton.withField (some field) :: earlier⟩ := by
  intro around segment same here
  exact ⟨_, read_act resync enter (.tag field) around segment, here.tag around field⟩

theorem takes_reinterpretLast (words : List SourceWord) (skeleton : Skeleton)
    (earlier : List Skeleton) :
    (act .reinterpretLast).Takes resync enter context ⟨words, skeleton :: earlier⟩ ()
      ⟨words, skeleton.reinterpreted :: earlier⟩ := by
  intro around segment same here
  exact ⟨_, read_act resync enter .reinterpretLast around segment, here.reinterpret around⟩

theorem takes_spliceParameters (words : List SourceWord) (skeleton : Skeleton)
    (earlier : List Skeleton) :
    (act .spliceParameters).Takes resync enter context ⟨words, skeleton :: earlier⟩ ()
      ⟨words, skeleton.spliced.reverse ++ earlier⟩ := by
  intro around segment same here
  exact ⟨_, read_act resync enter .spliceParameters around segment, here.splice around⟩

theorem takes_within {production : Production α} (change : Context → Context)
    (taken : production.Takes resync enter (change context) first value last) :
    (within change production).Takes resync enter context first value last := by
  intro around segment same here
  rw [read_within]
  exact taken _ segment (congrArg change same) here

theorem takes_node {production : Production α} {words rest : List SourceWord}
    {built inner : List Skeleton} {kind : NodeKind} (significant : kind ≠ .deprecatedDirective)
    (taken : production.Takes resync enter context ⟨words, []⟩ value ⟨rest, inner⟩) :
    (node kind production).Takes resync enter context ⟨words, built⟩ value
      ⟨rest, .branch none kind inner.reverse :: built⟩ := by
  intro around segment same here
  obtain ⟨reached, read, there⟩ := taken around.first _ same here.flush.emptied
  rw [read_node, read]
  exact ⟨_, rfl, (there.enclosed significant _).after here.flush.built⟩

theorem takes_marked {production : Production α} {words rest : List SourceWord}
    {built inner : List Skeleton}
    (taken : production.Takes resync enter context ⟨words, []⟩ value ⟨rest, inner⟩) :
    (marked production).Takes resync enter context ⟨words, built⟩ value ⟨rest, inner ++ built⟩ := by
  intro around segment same here
  obtain ⟨reached, read, there⟩ := taken (segment.flush.atMark around) _ same here.flush.emptied
  rw [read_marked, read]
  exact ⟨_, rfl, there.after here.flush.built⟩

theorem takes_wrap {production : Production α} {kind : NodeKind}
    (significant : kind ≠ .deprecatedDirective)
    (taken : production.Takes resync enter context first value last) :
    (wrap kind production).Takes resync enter context first value
      ⟨last.words, [.branch none kind last.built.reverse]⟩ := by
  intro around segment same here
  obtain ⟨reached, read, there⟩ := taken around.first segment same here
  rw [read_wrap, read]
  exact ⟨_, rfl, there.enclosed significant _⟩

theorem takes_guarded {production : Production Unit} {words rest : List SourceWord}
    {built inner : List Skeleton}
    (taken : production.Takes resync enter context ⟨words, []⟩ () ⟨rest, inner⟩) :
    (guarded production).Takes resync enter context ⟨words, built⟩ () ⟨rest, inner ++ built⟩ := by
  intro around segment same here
  obtain ⟨reached, read, there⟩ := taken (segment.flush.following around) _ same here.flush.emptied
  rw [read_guarded, read]
  exact ⟨_, rfl, there.after here.flush.built⟩

theorem takes_opened {production : Production α}
    (taken : production.Takes resync enter context first value last) :
    (opened production).Takes resync enter context first value last := by
  intro around segment same here
  rw [read]
  exact taken _ segment same here

/-- What an entry stands for is read one level deeper. -/
theorem takes_entry (entry : Entry) {depth : Nat} {first last : Stage}
    (taken : (ofEntry entry).Takes resync (readEntry resync depth) context first () last) :
    (Production.enter entry).Takes resync (readEntry resync (depth + 1)) context first () last := by
  intro around segment same here
  rw [read_enter]
  exact taken around segment same here

theorem takes_then {condition : View → Bool} {body otherwise : Production α}
    (shown : ∀ view : View, view.Sees context first → condition view = true)
    (taken : body.Takes resync enter context first value last) :
    (look condition >>= fun holds => if holds then body else otherwise).Takes resync enter context first
      value last :=
  takes_bind (takes_look shown) taken

theorem takes_else {condition : View → Bool} {body otherwise : Production α}
    (shown : ∀ view : View, view.Sees context first → condition view = false)
    (taken : otherwise.Takes resync enter context first value last) :
    (look condition >>= fun holds => if holds then body else otherwise).Takes resync enter context first
      value last :=
  takes_bind (takes_look shown) taken

/-! ### Loops -/

theorem loops_stop {body : Production Bool} (stops : body.Takes resync enter context first false last) :
    body.Loops resync enter context first last := by
  intro around segment bound same here enough
  obtain ⟨reached, read, there⟩ := stops around segment same here
  refine ⟨reached, ?_, there⟩
  rw [Reading.iterate.eq_def]
  simp only [read]

theorem loops_step {body : Production Bool} (goesOn : body.Takes resync enter context first true middle)
    (shorter : middle.words.length < first.words.length)
    (later : body.Loops resync enter context middle last) : body.Loops resync enter context first last := by
  intro around segment bound same here enough
  obtain ⟨reached, read, there⟩ := goesOn around segment same here
  cases bound with
  | nil => exact absurd (Nat.lt_of_lt_of_le shorter enough) (Nat.not_lt_zero _)
  | cons stop bound =>
      rw [Reading.iterate.eq_def]
      simp only [read]
      exact later around reached bound same there
        (Nat.le_of_lt_succ (Nat.lt_of_lt_of_le shorter enough))

theorem takes_repeatedly {body : Production Bool} (loops : body.Loops resync enter context first last) :
    (repeatedly body).Takes resync enter context first () last := by
  intro around segment same here
  rw [read_repeatedly]
  refine loops around segment _ same here (Nat.le_of_eq ?_)
  rw [← here.words, List.length_map]

/-! ### Tokens -/

variable {words rest : List SourceWord} {word : SourceWord} {built : List Skeleton} {stage : Stage}

theorem takes_check (kind : TokenKind) :
    (check kind).Takes resync enter context stage (SourceWord.kindAt stage.words 0 == kind) stage :=
  takes_look (fun _ sees => congrArg (· == kind) (sees.kinds 0))

theorem takes_onlyIf {condition : View → Bool} {body : Production Unit}
    (shown : ∀ view : View, view.Sees context first → condition view = true)
    (taken : body.Takes resync enter context first () last) :
    (onlyIf condition body).Takes resync enter context first () last :=
  takes_bind (takes_look shown) taken

theorem skips_onlyIf {condition : View → Bool} {body : Production Unit}
    (shown : ∀ view : View, view.Sees context stage → condition view = false) :
    (onlyIf condition body).Takes resync enter context stage () stage :=
  takes_bind (takes_look shown) (takes_pure () stage)

theorem takes_eat {kind : TokenKind} (same : word.kind = kind) :
    (eat kind).Takes resync enter context ⟨word :: rest, built⟩ true ⟨rest, word.leaf none :: built⟩ := by
  refine takes_bind (takes_check kind) ?_
  rw [SourceWord.kindAt_cons_zero, same, beq_self_eq_true]
  exact takes_bind (takes_bump word rest built) (takes_pure true _)

theorem skips_eat {kind : TokenKind} (other : SourceWord.kindAt stage.words 0 ≠ kind) :
    (eat kind).Takes resync enter context stage false stage := by
  refine takes_bind (takes_check kind) ?_
  rw [beq_false_of_ne other]
  exact takes_pure false stage

theorem takes_expect {kind : TokenKind} (same : word.kind = kind) :
    (expect kind).Takes resync enter context ⟨word :: rest, built⟩ () ⟨rest, word.leaf none :: built⟩ :=
  takes_bind (takes_eat same) (takes_pure () _)

theorem takes_bumpTagged (field : Field) :
    (bumpTagged field).Takes resync enter context ⟨word :: rest, built⟩ ()
      ⟨rest, word.leaf (some field) :: built⟩ :=
  takes_bind (takes_bump word rest built) (takes_tag field rest (word.leaf none) built)

theorem takes_expectName (named : word.kind = .ident) (field : Field) :
    (expectName field).Takes resync enter context ⟨word :: rest, built⟩ ()
      ⟨rest, word.leaf (some field) :: built⟩ := by
  refine takes_bind (takes_check .ident) ?_
  rw [SourceWord.kindAt_cons_zero, named]
  exact takes_bumpTagged field

theorem takes_discard {production : Production α}
    (taken : production.Takes resync enter context first value last) :
    (discard production).Takes resync enter context first () last :=
  takes_bind taken (takes_pure () last)

theorem loops_asLongAs_stop {condition : View → Bool} {body : Production Unit}
    (shown : ∀ view : View, view.Sees context stage → condition view = false) :
    (asLongAs condition body).Takes resync enter context stage () stage :=
  takes_repeatedly (loops_stop (takes_bind (takes_look shown) (takes_pure false stage)))

theorem takes_commaSeparated {item : Production Unit}
    (taken : item.Takes resync enter context first () last)
    (other : SourceWord.kindAt last.words 0 ≠ .comma) :
    (commaSeparated item).Takes resync enter context first () last :=
  takes_bind taken (takes_repeatedly (loops_stop (takes_bind (skips_eat other)
    (takes_pure false last))))

/-! ### Lists in parentheses -/

/-- What stands behind an item of a list in parentheses: a comma, or nothing behind the last one. -/
def Separated (separator more : List SourceWord) : Prop :=
  separator = [.fixed .comma] ∨ separator = [] ∧ SourceWord.kindAt more 0 = .rParen

theorem takes_commaBefore {separator more : List SourceWord} (separated : Separated separator more) :
    (commaBefore .rParen).Takes resync enter context ⟨separator ++ more, built⟩ ()
      ⟨more, (separator.map (SourceWord.leaf · none)).reverse ++ built⟩ := by
  rcases separated with rfl | ⟨rfl, closes⟩
  · refine takes_onlyIf (fun view sees => ?_) (takes_expect rfl)
    rw [View.isAt, View.kind, sees.kinds 0]
    rfl
  · refine skips_onlyIf (fun view sees => ?_)
    rw [View.isAt, View.kind, sees.kinds 0]
    exact congrArg (fun kind => !(kind == TokenKind.rParen)) closes

end Production

/-! ### Sources -/

/-- A source without lexical errors that is written with some words, whatever stands between them. -/
structure Spells (source : List Char) (words : List SourceWord) : Prop where
  sound : (lex source).errors = []
  words : (significantTokens source).map Token.word = words

namespace Spells

variable {source : List Char} {words : List SourceWord}

theorem initial_at (spells : Spells source words) :
    (Segment.initial (utf8Length source) (lex source).tokens).At ⟨words, []⟩ := by
  refine ⟨TokenCursor.ofTokens_proper _ _, ?_, rfl, rfl⟩
  have same := spells.words
  rw [significantTokens, List.map_map] at same
  exact same

theorem nestingOf_eq (spells : Spells source words) : nestingOf source = 3 * (words.length + 1) := by
  have lengths := congrArg List.length spells.initial_at.words
  rw [List.length_map] at lengths
  exact congrArg (fun length => 3 * (length + 1)) lengths

/-- A source whose words are all taken is parsed without an error. -/
theorem parse (spells : Spells source words) (options : ParseOptions) {built : List Skeleton}
    (taken : Production.sourceFile.Takes options.resyncOnDeclaration
      (readEntry options.resyncOnDeclaration (3 * (words.length + 1))) .none ⟨words, []⟩ ()
      ⟨[], built⟩) :
    (JaiSyntax.parse options source).errors = [] ∧
      (JaiSyntax.parse options source).tree.skeleton = .branch none .sourceFile built.reverse := by
  obtain ⟨last, read, there⟩ := taken .outermost _ rfl spells.initial_at
  have reached : readSource options.resyncOnDeclaration source = last.flush := by
    unfold readSource sourceReading
    rw [spells.nestingOf_eq, read]
  constructor
  · have silent : ((ParserState.initial (utf8Length source) (lex source).tokens).parsed
        options.resyncOnDeclaration).reported = [] := by
      rw [parsed_eq, reached]
      exact there.flush.silent
    have none : sortErrors [] [] = [] := List.mergeSort_nil
    simp only [JaiSyntax.parse, silent, spells.sound, none]
    cases options.maxErrors <;> rfl
  · rw [parse_tree, reached]
    simp only [Node.skeleton, Node.build, Child.skeletonsOfList_reverse, there.flush.built]

end Spells

end JaiSyntax
