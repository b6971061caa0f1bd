import JaiSyntax.Proofs.Locality.Recovery
/-!
What a local production reads inside a longer source. It does there what it does in the source alone, and
ends where it was said to end.
-/

set_option autoImplicit false

namespace JaiSyntax

variable {embedding : Embedding} {horizon : Horizon} {setting : Setting} {origin size : Nat}
  {around other : Surroundings} {left right : Segment}

/-! ### Outlooks and segments -/

namespace Segment

/-- A token that is consumed is no node. -/
theorem lastKindAfter_bumpAs {segment : Segment} (more : segment.cursor.isAtEnd = false)
    (proper : segment.cursor.Proper) (before : Option NodeKind) {change : Token → Token}
    (kept : ∀ token : Token, token.kind.isExtra = false → (change token).kind.isExtra = false) :
    lastKindAfter before (segment.bumpAs change).latest = none := by
  have significant := kept _ (segment.current_significant proper more)
  rw [segment.latest_bumpAs proper more]
  simp [lastKindAfter, Child.isSignificant, significant, Child.node?]

/-- Consuming a token only adds to what was read. -/
theorem bumpAs_appends (segment : Segment) (proper : segment.cursor.Proper)
    (change : Token → Token) :
    ∃ further, (segment.bumpAs change).latest = further ++ segment.latest := by
  cases ended : segment.cursor.isAtEnd with
  | true =>
      rw [bumpAs_of_end ended]
      exact ⟨_, rfl⟩
  | false =>
      rw [latest_bumpAs proper ended]
      exact ⟨_ :: _, rfl⟩

end Segment

/-- What an outlook says of a segment and of the same segment of a longer source, inside an entry that
started at the token of number `origin` with `size` tokens ahead. -/
structure Outlook.Describes (outlook : Outlook horizon) (embedding : Embedding) (origin size : Nat)
    (around other : Surroundings) (left right : Segment) : Prop where
  view : outlook.view = left.view around
  embedded : left.Embedded embedding horizon outlook.past right
  taken : left.cursor.position = origin + outlook.taken
  size : outlook.taken + left.cursor.ahead.length = size
  lastNode : outlook.settled = true →
    lastKindAfter other.before right.latest = lastKindAfter around.before left.latest

namespace Outlook.Describes

variable {outlook : Outlook horizon}

theorem agrees (describes : outlook.Describes embedding origin size around other left right)
    (context : other.context = around.context) : outlook.Agrees (right.view other) := by
  have view := describes.view
  refine ⟨?_, ?_, ?_, ?_, ?_, ?_⟩
  · rw [view]
    exact context
  · rw [view]
    intro some
    have position := describes.taken
    exact describes.embedded.previous (by omega)
  · rw [view]
    exact describes.lastNode
  · intro notPast distance before
    rw [view] at before ⊢
    have embedded := describes.embedded.cursor
    rw [notPast] at embedded
    have same := embedded.peek distance before
    change (right.cursor.peek distance).kind = _ ∧ (right.cursor.peek distance).text = _
    rw [same]
    exact ⟨rfl, rfl⟩
  · intro past
    have embedded := describes.embedded
    rw [past] at embedded
    cases horizon with
    | file => exact embedded.cursor.elim
    | statement =>
        obtain ⟨-, -, -, ahead⟩ := embedded.cursor
        have none := embedding.noElse
        change (right.cursor.peek 0).isWord "else" = false
        rw [TokenCursor.peek_eq, ahead]
        cases same : embedding.tail with
        | nil => simp [Token.isWord, embedded.rightProper.endOfFile]
        | cons stop rest => exact none stop (by simp [same])
  · rintro rfl
    rw [view]
    have tokens := describes.embedded.cursor.peek_file
    constructor
    · funext distance
      exact (congrArg Token.kind (tokens distance) :)
    · funext distance
      exact (congrArg Token.text (tokens distance) :)

end Outlook.Describes

namespace Outlook.Describes

variable {outlook : Outlook horizon}

/-- The last node stays shared behind what is read alike. -/
theorem lastNode_append {before otherBefore : Option NodeKind} {latest : List Child}
    (shared : lastKindAfter otherBefore (latest.map (Child.shift embedding.offset)) =
      lastKindAfter before latest) (further : List Child) :
    lastKindAfter otherBefore ((further ++ latest).map (Child.shift embedding.offset)) =
      lastKindAfter before (further ++ latest) := by
  rw [List.map_append, Segment.lastKindAfter_append, Segment.lastKindAfter_append, shared,
    lastKindAfter_shift]

theorem bumpAs (describes : outlook.Describes embedding origin size around other left right)
    (notPast : outlook.past = false) (change : Token → Token)
    (commutes : ∀ token : Token,
      change (token.shift embedding.offset) = (change token).shift embedding.offset)
    (kept : ∀ token : Token, token.kind.isExtra = false → (change token).kind.isExtra = false) :
    ∃ reached : Outlook horizon,
      reached.Describes embedding origin size around other (left.bumpAs change)
        (right.bumpAs change) ∧
      outlook.Precedes reached ∧ outlook.Bumps reached := by
  have embedded := describes.embedded
  rw [notPast] at embedded
  have bumped := embedded.bumpAs change commutes
  have kind : outlook.view.kind = left.cursor.current.kind := by
    rw [describes.view]
    rfl
  have proper := embedded.leftProper
  have cursor : (left.bumpAs change).cursor = left.bump.cursor := by
    rw [Segment.bump, Segment.cursor_bumpAs, Segment.cursor_bumpAs]
  have total := (Segment.continues_bump proper).position
  rw [← cursor] at total
  have position := describes.taken
  have rest := describes.size
  have moved : (left.bumpAs change).cursor.position = left.cursor.position +
      (if outlook.view.kind = .eof then 0 else 1) := by
    rw [cursor, kind]
    split
    · next ended =>
        have atEnd : left.cursor.isAtEnd = true := beq_iff_eq.mpr ended
        rw [Segment.bump, Segment.bumpAs_of_end atEnd]
        rfl
    · next more =>
        refine Segment.position_bump proper (fun none => more ?_)
        exact eq_of_beq (proper.isAtEnd_iff.mpr none)
  refine ⟨⟨(left.bumpAs change).view around,
      outlook.taken + (if outlook.view.kind = .eof then 0 else 1),
      horizon == .statement && left.cursor.current.kind == .semicolon,
      outlook.settled || outlook.view.kind != .eof, bumped.fits around⟩,
    ⟨rfl, bumped, ?_, ?_, ?_⟩, ⟨Nat.le_add_right _ _, fun same => ?_⟩, ⟨?_, ?_, ?_, ?_⟩⟩
  · change (left.bumpAs change).cursor.position = origin + (outlook.taken + _)
    omega
  · change outlook.taken + _ + (left.bumpAs change).cursor.ahead.length = size
    omega
  · intro settled
    cases earlier : outlook.settled with
    | true =>
        have shared := describes.lastNode earlier
        rw [embedded.latest] at shared
        obtain ⟨further, latest⟩ := left.bumpAs_appends proper change
        rw [bumped.latest, latest]
        exact lastNode_append shared further
    | false =>
        rw [earlier, kind, Bool.false_or, bne_iff_ne] at settled
        have more : left.cursor.isAtEnd = false := beq_eq_false_iff_ne.mpr settled
        rw [Segment.lastKindAfter_bumpAs more proper _ kept,
          Segment.lastKindAfter_bumpAs (embedded.cursor.isAtEnd.trans more) embedded.rightProper _
            kept]
  · -- Nothing is consumed at the end of the file only, and there the cursor stays where it is.
    have ended : outlook.view.kind = .eof := by
      by_contra more
      change outlook.taken + (if outlook.view.kind = .eof then 0 else 1) = outlook.taken at same
      rw [if_neg more] at same
      omega
    change (left.bumpAs change).cursor.current.kind = outlook.view.kind
    have atEnd : left.cursor.isAtEnd = true := beq_iff_eq.mpr (kind ▸ ended)
    rw [Segment.bumpAs_of_end atEnd, kind]
    rfl
  · rw [describes.view]
    exact Segment.view_bumpAs proper around change
  · change outlook.taken + _ = _
    split <;> rfl
  · change (horizon == .statement && left.cursor.current.kind == .semicolon) = _
    rw [kind]
  · intro more
    change (outlook.settled || outlook.view.kind != .eof) = true
    rw [bne_iff_ne.mpr more, Bool.or_true]

end Outlook.Describes

namespace Outlook.Describes

variable {outlook : Outlook horizon}

/-- The last node of a segment whose children changed is not known to be shared. -/
theorem withLast (describes : outlook.Describes embedding origin size around other left right)
    {later otherLater : Segment}
    (embedded : later.Embedded embedding horizon outlook.past otherLater)
    (cursor : later.cursor = left.cursor) :
    (outlook.withLast (lastKindAfter around.before later.latest) false).Describes embedding origin
      size around other later otherLater := by
  refine ⟨?_, embedded, ?_, ?_, fun absurd => (Bool.false_ne_true absurd).elim⟩
  · change outlook.view.withLast _ = later.view around
    rw [describes.view]
    unfold Segment.view View.withLast
    rw [cursor]
  · rw [cursor]
    exact describes.taken
  · rw [cursor]
    exact describes.size

/-- A move that is shared is the same move inside the longer source. -/
theorem apply (describes : outlook.Describes embedding origin size around other left right)
    (places : around.Embedded embedding setting other) {after : Outlook horizon → Prop}
    {move : Move} (permits : outlook.Permits setting after move) :
    ∃ reached : Outlook horizon,
      reached.Describes embedding origin size around other (left.apply around move)
        (right.apply other move) ∧
      outlook.Precedes reached ∧ after reached := by
  cases move with
  | bump =>
      obtain ⟨reached, described, taken, bumps⟩ := describes.bumpAs permits.1 id (fun _ => rfl)
        (fun _ => id)
      exact ⟨reached, described, taken, permits.2 reached bumps⟩
  | bumpKeyword =>
      obtain ⟨reached, described, taken, bumps⟩ :=
        describes.bumpAs permits.1 (fun token => token.retag .keyword) (fun _ => rfl)
          (fun _ _ => rfl)
      exact ⟨reached, described, taken, permits.2 reached bumps⟩
  | tag field =>
      have embedded := describes.embedded.replaceLast
        (fun child => [child.withField (some field)]) (fun child => by
          rw [List.map_singleton, Child.withField_shift])
      refine ⟨outlook, ⟨?_, embedded, describes.taken, describes.size, ?_⟩,
        .refl outlook, permits⟩
      · rw [describes.view]
        simp only [Segment.view, Segment.apply, Segment.mapLatest,
          Segment.lastKindAfter_withField]
      · intro settled
        simp only [Segment.apply, Segment.mapLatest, Segment.lastKindAfter_withField]
        exact describes.lastNode settled
  | reinterpretLast =>
      refine ⟨_, describes.withLast (describes.embedded.replaceLast _ (fun child => ?_)) rfl,
        ⟨Nat.le_refl _, fun _ => rfl⟩, permits _⟩
      rw [Child.node?_shift]
      cases child.node? with
      | none => rfl
      | some node =>
          simp only [Option.map_some, Child.field?_shift, Node.reinterpretAsType_shift,
            Child.shift_ofNode, List.map_cons, List.map_nil]
  | spliceParameters =>
      refine ⟨_, describes.withLast (describes.embedded.replaceLast _ (fun child => ?_)) rfl,
        ⟨Nat.le_refl _, fun _ => rfl⟩, permits _⟩
      rw [Child.node?_shift]
      cases child.node? with
      | none => rfl
      | some node => exact node.asParameterList_shift
  | report complaint =>
      obtain ⟨notPast, allowed, ends⟩ := permits
      have embedded := describes.embedded
      rw [notPast] at embedded
      have reported := embedded.report (embedded.errorOf allowed places)
        (embedded.errorOf_near allowed)
      refine ⟨outlook, ⟨describes.view, ?_, describes.taken, describes.size, describes.lastNode⟩,
        .refl outlook, ends⟩
      rw [notPast]
      exact reported

end Outlook.Describes

/-! ### Readings -/

/-- What a reading of a source has to do with the reading of a longer one: the same value or the same
error, and what `done` and `failed` say of the ends. -/
def Reading.Embedded (embedding : Embedding) (horizon : Horizon) {α : Type}
    (done : α → Segment → Segment → Prop) (failed : Segment → Segment → Prop)
    (left right : Reading α) : Prop :=
  match left, right with
  | .done value first, .done same second => same = value ∧ done value first second
  | .failed error first, .failed same second =>
      same = error.shift embedding.offset ∧
        (horizon = .statement → error.span.start < embedding.bound) ∧ failed first second
  | _, _ => False

namespace Reading

variable {α β : Type} {done : α → Segment → Segment → Prop} {failed : Segment → Segment → Prop}
  {first second : Reading α}

theorem Embedded.weaken {later : α → Segment → Segment → Prop}
    {failedLater : Segment → Segment → Prop}
    (embedded : first.Embedded embedding horizon done failed second)
    (weaker : ∀ value left right, done value left right → later value left right)
    (weakerFailed : ∀ left right, failed left right → failedLater left right) :
    first.Embedded embedding horizon later failedLater second := by
  cases first with
  | done value left =>
      cases second with
      | done same right => exact ⟨embedded.1, weaker value left right embedded.2⟩
      | failed error right => cases embedded
  | failed error left =>
      cases second with
      | done value right => cases embedded
      | failed same right =>
          exact ⟨embedded.1, embedded.2.1, weakerFailed left right embedded.2.2⟩

theorem Embedded.andThen {next otherNext : α → Segment → Reading β}
    {later : β → Segment → Segment → Prop}
    (embedded : first.Embedded embedding horizon done failed second)
    (further : ∀ value left right, done value left right →
      (next value left).Embedded embedding horizon later failed (otherNext value right)) :
    (first.andThen next).Embedded embedding horizon later failed (second.andThen otherNext) := by
  cases first with
  | done value left =>
      cases second with
      | done same right =>
          obtain ⟨rfl, ended⟩ := embedded
          exact further _ left right ended
      | failed error right => cases embedded
  | failed error left =>
      cases second with
      | done value right => cases embedded
      | failed same right => exact embedded

theorem embedded_after {earlier otherEarlier : Segment} :
    (first.after earlier).Embedded embedding horizon done failed (second.after otherEarlier) ↔
      first.Embedded embedding horizon
        (fun value left right => done value (left.after earlier) (right.after otherEarlier))
        (fun left right => failed (left.after earlier) (right.after otherEarlier)) second := by
  cases first <;> cases second <;> exact Iff.rfl

theorem embedded_enclosed {kind : NodeKind} {position otherPosition : Nat} :
    (first.enclosed kind position).Embedded embedding horizon done failed
        (second.enclosed kind otherPosition) ↔
      first.Embedded embedding horizon
        (fun value left right =>
          done value (left.enclosed kind position) (right.enclosed kind otherPosition))
        failed second := by
  cases first <;> cases second <;> exact Iff.rfl

end Reading

def Reaches (embedding : Embedding) (origin size : Nat) (around other : Surroundings)
    (start : Outlook horizon) {α : Type} (after : α → Outlook horizon → Prop) (value : α)
    (left right : Segment) : Prop :=
  ∃ reached : Outlook horizon,
    reached.Describes embedding origin size around other left right ∧
      start.Precedes reached ∧ after value reached

def Stops (embedding : Embedding) (origin size : Nat) (start : Outlook horizon)
    (left right : Segment) : Prop :=
  left.Embedded embedding horizon false right ∧
    ∃ taken, start.taken ≤ taken ∧
      (taken = start.taken → left.cursor.current.kind = start.view.kind) ∧
      left.cursor.position = origin + taken ∧ taken + left.cursor.ahead.length = size

/-- What entries are relied on for: where fewer tokens are ahead than `budget` allows, they are read
alike inside the longer source, and they consume something. -/
def EntriesEmbedded (embedding : Embedding) (horizon : Horizon) (budget : Nat)
    (enter otherEnter : Entry → Surroundings → Segment → Reading Unit) : Prop :=
  ∀ (entry : Entry) {around other : Surroundings} {left right : Segment}
    (start : Outlook horizon) {origin size : Nat}, start.past = false →
    other.context = around.context →
    start.Describes embedding origin size around other left right →
    3 * left.cursor.ahead.length + entry.rank < budget →
    (enter entry around left).Embedded embedding horizon
      (Reaches embedding origin size around other start (fun _ reached =>
        start.taken < reached.taken ∧ reached.settled = true ∧
          (reached.past = true → entry = .statement) ∧ reached.Ended))
      (Stops embedding origin size start) (otherEnter entry other right)

theorem Stops.weaken {start earlier : Outlook horizon}
    (stops : Stops embedding origin size start left right) (before : earlier.Precedes start) :
    Stops embedding origin size earlier left right := by
  obtain ⟨embedded, taken, further, kind, rest⟩ := stops
  have least := before.taken
  refine ⟨embedded, taken, Nat.le_trans least further, fun same => ?_, rest⟩
  exact (kind (by omega)).trans (before.kind (by omega))

theorem Reaches.weaken {start earlier : Outlook horizon} {α : Type}
    {after later : α → Outlook horizon → Prop} {value : α}
    (reaches : Reaches embedding origin size around other start after value left right)
    (before : earlier.Precedes start)
    (weaker : ∀ reached, after value reached → later value reached) :
    Reaches embedding origin size around other earlier later value left right := by
  obtain ⟨reached, described, further, ended⟩ := reaches
  exact ⟨reached, described, before.trans further, weaker reached ended⟩

def Reading.goOn (step : Segment → Reading Bool) : List Stop → Segment → Reading Unit
  | [], segment => .done () segment
  | _ :: rest, segment => iterate step rest segment

theorem Reading.iterate_eq (step : Segment → Reading Bool) (bound : List Stop)
    (segment : Segment) :
    iterate step bound segment =
      match step segment with
      | .failed error next => .failed error next
      | .done false next => .done () next
      | .done true next => goOn step bound next := by
  cases bound <;> rw [iterate.eq_def] <;> rfl

section Loops

variable {step otherStep : Segment → Reading Bool} {start : Outlook horizon}
  {holds : Outlook horizon → Prop} {after : Unit → Outlook horizon → Prop}

/-- One round of a loop that ends, or that goes on where `further` says how. -/
theorem iterate_round {outlook : Outlook horizon} {bound otherBound : List Stop}
    (round : (step left).Embedded embedding horizon
      (Reaches embedding origin size around other outlook (fun goesOn reached =>
        if goesOn then outlook.taken < reached.taken ∧ holds reached else after () reached))
      (Stops embedding origin size outlook) (otherStep right))
    (before : start.Precedes outlook)
    (further : ∀ (reached : Outlook horizon) (left right : Segment), holds reached →
      outlook.taken < reached.taken →
      reached.Describes embedding origin size around other left right →
      (Reading.goOn step bound left).Embedded embedding horizon
        (Reaches embedding origin size around other start after)
        (Stops embedding origin size start)
        (Reading.goOn otherStep otherBound right)) :
    (Reading.iterate step bound left).Embedded embedding horizon
      (Reaches embedding origin size around other start after)
      (Stops embedding origin size start)
      (Reading.iterate otherStep otherBound right) := by
  rw [Reading.iterate_eq, Reading.iterate_eq]
  generalize step left = first at round
  generalize otherStep right = second at round
  cases first with
  | failed error left =>
      cases second with
      | done value right => cases round
      | failed same right => exact ⟨round.1, round.2.1, round.2.2.weaken before⟩
  | done goesOn left =>
      cases second with
      | failed error right => cases round
      | done same right =>
          obtain ⟨rfl, reached, described, taken, ended⟩ := round
          cases same with
          | false => exact ⟨rfl, reached, described, before.trans taken, ended⟩
          | true => exact further reached left right ended.2 ended.1 described

/-- A loop runs alike in both sources if its rounds do and each of them consumes a token. -/
theorem iterate_embedded
    (rounds : ∀ (outlook : Outlook horizon) (left right : Segment), holds outlook →
      outlook.Describes embedding origin size around other left right →
      (step left).Embedded embedding horizon
        (Reaches embedding origin size around other outlook (fun goesOn reached =>
          if goesOn then outlook.taken < reached.taken ∧ holds reached else after () reached))
        (Stops embedding origin size outlook) (otherStep right))
    {outlook : Outlook horizon} (held : holds outlook) (earlier : start.Precedes outlook)
    (describes : outlook.Describes embedding origin size around other left right)
    {bound otherBound : List Stop} (enough : left.cursor.ahead.length ≤ bound.length)
    (otherEnough : left.cursor.ahead.length ≤ otherBound.length) :
    (Reading.iterate step bound left).Embedded embedding horizon
      (Reaches embedding origin size around other start after)
      (Stops embedding origin size start)
      (Reading.iterate otherStep otherBound right) := by
  induction bound generalizing outlook left right otherBound with
  | nil =>
      refine iterate_round (rounds outlook left right held describes) earlier ?_
      -- No token is ahead that a further round could consume.
      intro reached later otherLater _ moved described
      have before := describes.size
      have total := described.size
      rw [List.length_nil] at enough
      omega
  | cons stop bound ih =>
      refine iterate_round (rounds outlook left right held describes) earlier ?_
      intro reached later otherLater held moved described
      have before := describes.size
      have total := described.size
      rw [List.length_cons] at enough
      cases otherBound with
      | nil =>
          rw [List.length_nil] at otherEnough
          omega
      | cons otherStop otherBound =>
          rw [List.length_cons] at otherEnough
          exact ih held (earlier.trans (.of_lt moved)) described (by omega) (by omega)

end Loops

end JaiSyntax
