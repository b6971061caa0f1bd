import JaiSyntax.Proofs.Layout.Skeleton
import JaiSyntax.Proofs.Reading.Source
/-!
Layout decides nothing. Two sources with the same significant tokens are read in step: at every place
both readings see the same view, so they take the same moves, and what they read differs in spans and
extras only.
-/

set_option autoImplicit false

namespace JaiSyntax

/-- What of an error does not depend on places. -/
def SyntaxError.content (error : SyntaxError) : ErrorCode × String × Option NodeKind :=
  (error.code, error.message, error.context)

theorem category_of_complaint (complaint : Complaint) (current previous : Token) (opener : Span) :
    (complaint.toError current previous opener).category ≠ .lexical := by
  cases complaint with
  | expected expectation => cases expectation <;> simp [Complaint.toError, SyntaxError.plain,
      SyntaxError.category, Expectation.code, ErrorCode.category]
  | _ => simp [Complaint.toError, SyntaxError.plain, SyntaxError.category, ErrorCode.category]

theorem content_of_complaint (complaint : Complaint) {current other : Token}
    (same : TokenCursor.SameToken current other) (previous otherPrevious : Token)
    (opener otherOpener : Span) :
    (complaint.toError current previous opener).content =
      (complaint.toError other otherPrevious otherOpener).content := by
  have found : foundWords current = foundWords other := by
    unfold foundWords
    rw [same.1, same.2]
  cases complaint <;>
    simp [Complaint.toError, SyntaxError.plain, SyntaxError.content, found]

/-! ### Segments that are alike -/

structure Surroundings.Alike (left right : Surroundings) : Prop where
  context : left.context = right.context
  before : left.before = right.before

theorem Surroundings.Alike.first {left right : Surroundings} (alike : left.Alike right) :
    left.first.Alike right.first :=
  ⟨alike.context, rfl⟩

/-- Segments with the same skeletons, before the same tokens and after errors of the same content. -/
structure Segment.Alike (left right : Segment) : Prop where
  cursor : left.cursor.Alike right.cursor
  leftProper : left.cursor.Proper
  rightProper : right.cursor.Proper
  skeletons : Child.skeletonsOfList left.latest = Child.skeletonsOfList right.latest
  reported : left.reported.map SyntaxError.content = right.reported.map SyntaxError.content
  leftStructural : ∀ error ∈ left.reported, error.category ≠ .lexical
  rightStructural : ∀ error ∈ right.reported, error.category ≠ .lexical

def AlikeErrors (left right : SyntaxError) : Prop :=
  left.content = right.content ∧ left.category ≠ .lexical ∧ right.category ≠ .lexical

/-- Readings with the same value and segments that are alike, or both failed. -/
def Reading.Alike {α : Type} (left right : Reading α) : Prop :=
  match left, right with
  | .done value segment, .done other later => value = other ∧ segment.Alike later
  | .failed error segment, .failed other later => AlikeErrors error other ∧ segment.Alike later
  | _, _ => False

namespace Segment

variable {left right : Segment} {around other : Surroundings}

theorem lastKindAfter_skeletons (before : Option NodeKind) (latest : List Child) :
    lastKindAfter before latest =
      match Child.skeletonsOfList latest with
      | [] => before
      | last :: _ => last.nodeKind? := by
  unfold lastKindAfter
  induction latest with
  | nil => rfl
  | cons child earlier ih =>
      rw [List.find?_cons, Child.skeletonsOfList_cons]
      cases child.isSignificant with
      | true => exact (Child.nodeKind?_skeleton child).symm
      | false => exact ih

theorem Alike.lastKind (alike : left.Alike right) (before : Option NodeKind) :
    lastKindAfter before left.latest = lastKindAfter before right.latest := by
  rw [lastKindAfter_skeletons, lastKindAfter_skeletons, alike.skeletons]

theorem Alike.view (alike : left.Alike right) (places : around.Alike other) :
    left.view around = right.view other := by
  unfold Segment.view
  rw [alike.lastKind, places.context, places.before, alike.cursor.previous]
  congr 1
  · exact funext (fun distance => (alike.cursor.peek distance).1)
  · exact funext (fun distance => (alike.cursor.peek distance).2)

theorem skeletons_flush {segment : Segment} (proper : segment.cursor.Proper) :
    Child.skeletonsOfList segment.flush.latest = Child.skeletonsOfList segment.latest := by
  rw [flush, Child.skeletonsOfList_append, Child.skeletonsOfList_extras, List.nil_append]
  intro child member
  rw [List.mem_reverse, List.mem_map] at member
  obtain ⟨extra, inGap, rfl⟩ := member
  exact proper.gap extra inGap

theorem Alike.flush (alike : left.Alike right) : left.flush.Alike right.flush :=
  ⟨alike.cursor.withoutGap _ _, alike.leftProper.withoutGap, alike.rightProper.withoutGap,
    by rw [skeletons_flush alike.leftProper, skeletons_flush alike.rightProper, alike.skeletons],
    alike.reported, alike.leftStructural, alike.rightStructural⟩

theorem Alike.emptied (alike : left.Alike right) : left.emptied.Alike right.emptied :=
  ⟨alike.cursor, alike.leftProper, alike.rightProper, rfl, alike.reported, alike.leftStructural,
    alike.rightStructural⟩

theorem Alike.after {leftEarlier rightEarlier : Segment} (alike : left.Alike right)
    (earlier : leftEarlier.Alike rightEarlier) :
    (left.after leftEarlier).Alike (right.after rightEarlier) := by
  refine ⟨alike.cursor, alike.leftProper, alike.rightProper, ?_, alike.reported,
    alike.leftStructural, alike.rightStructural⟩
  rw [Segment.after, Segment.after, Child.skeletonsOfList_append, Child.skeletonsOfList_append,
    alike.skeletons, earlier.skeletons]

theorem Alike.enclosed (alike : left.Alike right) (kind : NodeKind) (first second : Nat) :
    (left.enclosed kind first).Alike (right.enclosed kind second) := by
  refine ⟨alike.cursor, alike.leftProper, alike.rightProper, ?_, alike.reported,
    alike.leftStructural, alike.rightStructural⟩
  have same : Child.skeletonsOfList left.latest.reverse =
      Child.skeletonsOfList right.latest.reverse := by
    rw [Child.skeletonsOfList_reverse, Child.skeletonsOfList_reverse, alike.skeletons]
  simp only [Segment.enclosed, Child.skeletonsOfList_cons, Child.ofNode, Child.isSignificant,
    Node.build, Child.skeleton, same]
  rfl

theorem Alike.report (alike : left.Alike right) {error otherError : SyntaxError}
    (errors : AlikeErrors error otherError) :
    Segment.Alike { left with reported := error :: left.reported }
      { right with reported := otherError :: right.reported } := by
  refine ⟨alike.cursor, alike.leftProper, alike.rightProper, alike.skeletons, ?_, ?_, ?_⟩
  · rw [List.map_cons, List.map_cons, errors.1, alike.reported]
  · intro found member
    rcases List.mem_cons.mp member with rfl | earlier
    · exact errors.2.1
    · exact alike.leftStructural found earlier
  · intro found member
    rcases List.mem_cons.mp member with rfl | earlier
    · exact errors.2.2
    · exact alike.rightStructural found earlier

theorem Alike.errorOf (alike : left.Alike right) (complaint : Complaint) :
    AlikeErrors (left.errorOf around complaint) (right.errorOf other complaint) :=
  ⟨content_of_complaint complaint alike.cursor.current _ _ _ _,
    category_of_complaint complaint _ _ _, category_of_complaint complaint _ _ _⟩

/-! ### Moves -/

theorem Alike.replaceLast (alike : left.Alike right) (change : Child → List Child)
    (changeSkeleton : Skeleton → List Skeleton)
    (same : ∀ child, child.isSignificant = true →
      Child.skeletonsOfList (change child) = changeSkeleton child.skeleton) :
    (left.mapLatest (replaceLastSignificant change)).Alike
      (right.mapLatest (replaceLastSignificant change)) := by
  refine ⟨alike.cursor, alike.leftProper, alike.rightProper, ?_, alike.reported,
    alike.leftStructural, alike.rightStructural⟩
  simp only [mapLatest, Child.skeletonsOfList_replaceLast change changeSkeleton same,
    alike.skeletons]

/-- Consuming a token, when it is made no extra and its place does not matter. -/
theorem Alike.bumpAs (alike : left.Alike right) (change : Token → Token)
    (kept : ∀ token other, TokenCursor.SameToken token other →
      (change token).kind = (change other).kind ∧ (change token).text = (change other).text)
    (leftProper : (left.bumpAs change).cursor.Proper)
    (rightProper : (right.bumpAs change).cursor.Proper) :
    (left.bumpAs change).Alike (right.bumpAs change) := by
  have flushed := alike.flush
  have ends := flushed.cursor.isAtEnd
  have reported : ∀ segment : Segment, (segment.bumpAs change).reported = segment.reported := by
    intro segment
    unfold Segment.bumpAs
    change (if segment.flush.cursor.isAtEnd then _ else _ : Segment).reported = _
    split <;> rfl
  refine ⟨alike_bumpAs alike.cursor change change, leftProper, rightProper, ?_, ?_, ?_, ?_⟩
  · unfold Segment.bumpAs
    simp only [ends]
    split
    · exact flushed.skeletons
    · next more =>
        have token : TokenCursor.SameToken left.flush.cursor.advance.1
            right.flush.cursor.advance.1 := flushed.cursor.advance_token
        have same := kept _ _ token
        simp only
        rw [← List.singleton_append, Child.skeletonsOfList_append,
          Child.skeletonsOfList_leaf none same.1 same.2, flushed.skeletons,
          ← Child.skeletonsOfList_append, List.singleton_append]
  · rw [reported, reported, alike.reported]
  · rw [reported]
    exact alike.leftStructural
  · rw [reported]
    exact alike.rightStructural

theorem Alike.bump (alike : left.Alike right) : left.bump.Alike right.bump :=
  alike.bumpAs id (fun _ _ same => same) ((continues_bump alike.leftProper).proper alike.leftProper)
    ((continues_bump alike.rightProper).proper alike.rightProper)

theorem Alike.bumps (alike : left.Alike right) (count : Nat) :
    (left.bumps count).Alike (right.bumps count) := by
  induction count generalizing left right with
  | zero => exact alike
  | succ count ih => exact ih alike.bump

theorem proper_bumpAs {segment : Segment} (proper : segment.cursor.Proper)
    (change : Token → Token) : (segment.bumpAs change).cursor.Proper := by
  have same : (segment.bumpAs change).cursor = segment.bump.cursor := by
    rw [Segment.bump, cursor_bumpAs, cursor_bumpAs]
  rw [same]
  exact (continues_bump proper).proper proper

theorem Alike.apply (alike : left.Alike right) (move : Move) :
    (left.apply around move).Alike (right.apply other move) := by
  cases move with
  | bump => exact alike.bump
  | bumpKeyword =>
      exact alike.bumpAs (fun token => token.retag .keyword) (fun _ _ same => ⟨rfl, same.2⟩)
        (proper_bumpAs alike.leftProper _) (proper_bumpAs alike.rightProper _)
  | tag field =>
      refine alike.replaceLast _ (fun skeleton => [skeleton.withField (some field)]) ?_
      intro child significant
      rw [Child.skeletonsOfList_cons, isSignificant_withField, if_pos significant,
        Child.skeleton_withField]
      rfl
  | reinterpretLast =>
      exact alike.replaceLast _ (fun skeleton => [skeleton.reinterpreted])
        (fun _ => Child.skeletonsOfList_reinterpreted)
  | spliceParameters =>
      exact alike.replaceLast _ Skeleton.spliced (fun _ => Child.skeletonsOfList_spliced)
  | report complaint => exact alike.report (alike.errorOf complaint)

/-! ### Recovery -/

theorem Alike.recover (alike : left.Alike right) (resync : Bool) (position : Nat)
    {error otherError : SyntaxError} (errors : AlikeErrors error otherError) :
    (left.recover resync around position error).Alike
      (right.recover resync other position otherError) := by
  obtain ⟨count, -, recovers, -⟩ := recover_alone alike.cursor resync position
  rw [(recovers around error).1, (recovers other otherError).2]
  have cleared : (left.mapLatest (List.map (Child.withField none))).Alike
      (right.mapLatest (List.map (Child.withField none))) := by
    refine ⟨alike.cursor, alike.leftProper, alike.rightProper, ?_, alike.reported,
      alike.leftStructural, alike.rightStructural⟩
    simp only [mapLatest, Child.skeletonsOfList_withoutFields, alike.skeletons]
  exact ((cleared.bumps count).enclosed .error _ _).report errors

end Segment

/-! ### Readings -/

namespace Reading

variable {α β : Type}

theorem Alike.andThen {left right : Reading α} {next other : α → Segment → Reading β}
    (alike : left.Alike right)
    (further : ∀ value segment later, segment.Alike later →
      (next value segment).Alike (other value later)) :
    (left.andThen next).Alike (right.andThen other) := by
  cases left with
  | done value segment =>
      cases right with
      | done same later =>
          obtain ⟨rfl, alikeSegments⟩ := alike
          exact further value segment later alikeSegments
      | failed error later => cases alike
  | failed error segment =>
      cases right with
      | done same later => cases alike
      | failed same later => exact alike

theorem Alike.after {left right : Reading α} {earlier otherEarlier : Segment}
    (alike : left.Alike right) (before : earlier.Alike otherEarlier) :
    (left.after earlier).Alike (right.after otherEarlier) := by
  cases left with
  | done value segment =>
      cases right with
      | done same later => exact ⟨alike.1, alike.2.after before⟩
      | failed error later => cases alike
  | failed error segment =>
      cases right with
      | done same later => cases alike
      | failed same later => exact ⟨alike.1, alike.2.after before⟩

theorem Alike.enclosed {left right : Reading α} (alike : left.Alike right) (kind : NodeKind)
    (first second : Nat) : (left.enclosed kind first).Alike (right.enclosed kind second) := by
  cases left with
  | done value segment =>
      cases right with
      | done same later => exact ⟨alike.1, alike.2.enclosed kind first second⟩
      | failed error later => cases alike
  | failed error segment =>
      cases right with
      | done same later => cases alike
      | failed same later => exact alike

theorem alike_iterate {step other : Segment → Reading Bool}
    (round : ∀ left right, left.Alike right → (step left).Alike (other right))
    {bound otherBound : List Stop} (same : bound.length = otherBound.length)
    {left right : Segment} (alike : left.Alike right) :
    (iterate step bound left).Alike (iterate other otherBound right) := by
  induction bound generalizing otherBound left right with
  | nil =>
      have none : otherBound = [] := List.length_eq_zero_iff.mp same.symm
      subst none
      have taken := round left right alike
      unfold iterate
      generalize step left = first at taken
      generalize other right = second at taken
      cases first with
      | done goesOn segment =>
          cases second with
          | done otherGoesOn later =>
              obtain ⟨rfl, alikeSegments⟩ := taken
              cases goesOn <;> exact ⟨rfl, alikeSegments⟩
          | failed error later => cases taken
      | failed error segment =>
          cases second with
          | done otherGoesOn later => cases taken
          | failed otherError later => exact taken
  | cons stop rest ih =>
      cases otherBound with
      | nil => cases same
      | cons otherStop otherRest =>
          have taken := round left right alike
          unfold iterate
          generalize step left = first at taken
          generalize other right = second at taken
          cases first with
          | done goesOn segment =>
              cases second with
              | done otherGoesOn later =>
                  obtain ⟨rfl, alikeSegments⟩ := taken
                  cases goesOn with
                  | false => exact ⟨rfl, alikeSegments⟩
                  | true => exact ih (Nat.succ.inj same) alikeSegments
              | failed error later => cases taken
          | failed error segment =>
              cases second with
              | done otherGoesOn later => cases taken
              | failed otherError later => exact taken

end Reading

def EntriesAlike (enter : Entry → Surroundings → Segment → Reading Unit) : Prop :=
  ∀ entry left right around other, left.Alike right → around.Alike other →
    (enter entry around left).Alike (enter entry other right)

/-- A production reads alike segments alike. -/
theorem Production.read_alike {α : Type} (production : Production α) (resync : Bool)
    {enter : Entry → Surroundings → Segment → Reading Unit} (entries : EntriesAlike enter)
    {left right : Segment} {around other : Surroundings} (alike : left.Alike right)
    (places : around.Alike other) :
    (production.read resync enter around left).Alike
      (production.read resync enter other right) := by
  induction production generalizing left right around other with
  | pure value => exact ⟨rfl, alike⟩
  | bind first next ihFirst ihNext =>
      rw [read, read]
      exact (ihFirst alike places).andThen
        (fun value segment later reached => ihNext value reached places)
  | look seen => exact ⟨by rw [alike.view places], alike⟩
  | act move => exact ⟨rfl, alike.apply move⟩
  | refuse complaint => exact ⟨alike.errorOf complaint, alike⟩
  | within change body ih =>
      rw [read, read]
      exact ih alike ⟨by rw [places.context], places.before⟩
  | node kind body ih =>
      rw [read, read]
      exact ((ih alike.flush.emptied places.first).enclosed kind _ _).after alike.flush
  | marked body ih =>
      rw [read, read]
      have inside : (left.flush.atMark around).Alike (right.flush.atMark other) := by
        refine ⟨places.context, ?_⟩
        change lastKindAfter around.before left.flush.latest =
          lastKindAfter other.before right.flush.latest
        rw [alike.flush.lastKind, places.before]
      exact (ih alike.flush.emptied inside).after alike.flush
  | wrap kind body ih =>
      rw [read, read]
      exact (ih alike places.first).enclosed kind _ _
  | opened body ih =>
      rw [read, read]
      exact ih alike ⟨places.context, places.before⟩
  | guarded body ih =>
      rw [read, read]
      have inside : (left.flush.following around).Alike (right.flush.following other) := by
        refine ⟨places.context, ?_⟩
        change lastKindAfter around.before left.flush.latest =
          lastKindAfter other.before right.flush.latest
        rw [alike.flush.lastKind, places.before]
      have tried := ih alike.flush.emptied inside
      generalize body.read resync enter (left.flush.following around) left.flush.emptied = first
        at tried
      generalize body.read resync enter (right.flush.following other) right.flush.emptied = second
        at tried
      cases first with
      | done value segment =>
          cases second with
          | done same later => exact ⟨rfl, tried.2.after alike.flush⟩
          | failed error later => cases tried
      | failed error segment =>
          cases second with
          | done same later => cases tried
          | failed same later =>
              refine ⟨rfl, Segment.Alike.after ?_ alike.flush⟩
              rw [alike.flush.cursor.position]
              exact tried.2.recover resync _ tried.1
  | repeatedly body ih =>
      rw [read, read]
      exact Reading.alike_iterate (fun _ _ reached => ih reached places) alike.cursor.length alike
  | enter entry => exact entries entry left right around other alike places

theorem readEntry_alike (resync : Bool) (depth : Nat) : EntriesAlike (readEntry resync depth) := by
  induction depth with
  | zero =>
      intro entry left right around other alike places
      exact ⟨alike.errorOf _, alike⟩
  | succ depth ih =>
      intro entry left right around other alike places
      exact (Production.ofEntry entry).read_alike resync ih alike places

/-! ### Sources -/

/-- The tokens of a source that are neither layout nor remarks nor in a deprecation notice. -/
def significantTokens (source : List Char) : List Token :=
  (TokenCursor.ofTokens (utf8Length source) (lex source).tokens).ahead.map Stop.token

def Token.content (token : Token) : TokenKind × String := (token.kind, token.text)

theorem sameTokens_of_content {left right : List Stop}
    (same : (left.map Stop.token).map Token.content = (right.map Stop.token).map Token.content) :
    List.Forall₂ (fun first second => TokenCursor.SameToken first.token second.token)
      left right := by
  induction left generalizing right with
  | nil =>
      cases right with
      | nil => exact .nil
      | cons stop rest => cases same
  | cons stop rest ih =>
      cases right with
      | nil => cases same
      | cons other otherRest =>
          simp only [List.map_cons, List.cons.injEq, Token.content, Prod.mk.injEq] at same
          exact .cons same.1 (ih same.2)

variable {first second : List Char}

theorem initial_alike
    (same : (significantTokens first).map Token.content =
      (significantTokens second).map Token.content) :
    (Segment.initial (utf8Length first) (lex first).tokens).Alike
      (Segment.initial (utf8Length second) (lex second).tokens) := by
  refine ⟨⟨sameTokens_of_content same, rfl, rfl, rfl, rfl⟩, TokenCursor.ofTokens_proper _ _,
    TokenCursor.ofTokens_proper _ _, rfl, rfl, ?_, ?_⟩
  all_goals exact fun _ member => (List.not_mem_nil member).elim

theorem readSource_alike (resync : Bool)
    (same : (significantTokens first).map Token.content =
      (significantTokens second).map Token.content) :
    (readSource resync first).Alike (readSource resync second) := by
  have start := initial_alike same
  have depth : nestingOf first = nestingOf second := by
    have lengths := start.cursor.length
    change 3 * (_ + 1) = 3 * (_ + 1)
    exact congrArg (fun length => 3 * (length + 1)) lengths
  have readings : (sourceReading resync first).Alike (sourceReading resync second) := by
    unfold sourceReading
    rw [depth]
    exact Production.sourceFile.read_alike resync (readEntry_alike resync _) start ⟨rfl, rfl⟩
  unfold readSource
  generalize sourceReading resync first = left at readings
  generalize sourceReading resync second = right at readings
  cases left with
  | done value segment =>
      cases right with
      | done other later => exact readings.2.flush
      | failed error later => cases readings
  | failed error segment =>
      cases right with
      | done other later => cases readings
      | failed other later => exact readings.2.flush

/-- The errors of a parse without a limit that are not lexical are those that its productions
reported. -/
theorem structural_errors (resync : Bool) (source : List Char)
    (structural : ∀ error ∈ (readSource resync source).reported, error.category ≠ .lexical) :
    ((parse ⟨none, resync⟩ source).errors.filter (fun error => error.category != .lexical)).Perm
      (readSource resync source).reported := by
  have errors : (parse ⟨none, resync⟩ source).errors =
      sortErrors (lex source).errors (readSource resync source).reported := by
    change sortErrors (lex source).errors
      ((ParserState.initial (utf8Length source) (lex source).tokens).parsed resync).reported = _
    rw [parsed_eq]
    rfl
  have lexical : ((lex source).errors.map SyntaxError.ofLexError).filter
      (fun error => error.category != .lexical) = [] := by
    rw [List.filter_eq_nil_iff]
    intro error member
    rw [List.mem_map] at member
    obtain ⟨found, -, rfl⟩ := member
    rcases found with ⟨span, fault⟩
    cases fault <;> simp [SyntaxError.ofLexError, SyntaxError.plain, SyntaxError.category,
      LexError.code, LexFault.code, ErrorCode.category]
  have kept : (readSource resync source).reported.reverse.filter
      (fun error => error.category != .lexical) = (readSource resync source).reported.reverse := by
    rw [List.filter_eq_self]
    intro error member
    simpa using structural error (List.mem_reverse.mp member)
  rw [errors, sortErrors]
  refine ((List.mergeSort_perm _ _).filter _).trans ?_
  rw [List.filter_append, lexical, kept, List.nil_append]
  exact List.reverse_perm _

/-- Two sources with the same significant tokens have the same tree but for spans and extras, and the
same errors but for lexical ones and places. -/
theorem parse_ignores_layout (resync : Bool) (first second : List Char)
    (same : (significantTokens first).map Token.content =
      (significantTokens second).map Token.content) :
    (parse ⟨none, resync⟩ first).tree.skeleton = (parse ⟨none, resync⟩ second).tree.skeleton ∧
      (((parse ⟨none, resync⟩ first).errors.filter
        (fun error => error.category != .lexical)).map SyntaxError.content).Perm
        (((parse ⟨none, resync⟩ second).errors.filter
          (fun error => error.category != .lexical)).map SyntaxError.content) := by
  have alike := readSource_alike resync same
  constructor
  · rw [parse_tree, parse_tree]
    simp only [Node.skeleton, Node.build, Child.skeletonsOfList_reverse, alike.skeletons]
  · have left := (structural_errors resync first alike.leftStructural).map SyntaxError.content
    have right := (structural_errors resync second alike.rightStructural).map SyntaxError.content
    rw [alike.reported] at left
    exact left.trans right.symm

/-- A comment between the tokens of a declaration, and a deprecation notice before it. -/
theorem parse_ignores_comment :
    (significantTokens "x := 1;".toList).map Token.content =
        (significantTokens "#deprecated x/**/:\n= 1 ;".toList).map Token.content ∧
      (parse ⟨none, true⟩ "x := 1;".toList).tree.skeleton =
        (parse ⟨none, true⟩ "#deprecated x/**/:\n= 1 ;".toList).tree.skeleton := by
  have same : (significantTokens "x := 1;".toList).map Token.content =
      (significantTokens "#deprecated x/**/:\n= 1 ;".toList).map Token.content := by
    decide +kernel
  exact ⟨same, (parse_ignores_layout true _ _ same).1⟩

end JaiSyntax
