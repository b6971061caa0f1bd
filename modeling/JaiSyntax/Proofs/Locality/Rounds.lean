import JaiSyntax.Proofs.Locality.Simulation
import JaiSyntax.Proofs.Locality.Statement
import JaiSyntax.Proofs.Reading.Source
/-!
The statements of a source inside a longer one. What entries stand for is local, so entries are read alike;
so are the statements of a source one by one, and with them all of its statements.
-/

set_option autoImplicit false

namespace JaiSyntax

variable {embedding : Embedding} {horizon : Horizon} {past : Bool}

/-! ### Entries -/

/-- What an entry stands for is local. A statement only may go past its semicolon. -/
theorem Production.local_ofEntry {outlook : Outlook horizon} {least : Nat} (entry : Entry)
    (near : outlook.Near least) :
    (Production.ofEntry entry).Local horizon ⟨entry.rank, false, false⟩
      (fun _ later => least < later.taken ∧ later.settled = true ∧
        (later.past = true → entry = .statement) ∧ later.Ended) outlook := by
  have stays {production : Production Unit} {setting : Setting}
      (stays : production.Stays setting least outlook) :
      production.Local horizon setting
        (fun _ later => least < later.taken ∧ later.settled = true ∧
          (later.past = true → entry = .statement) ∧ later.Ended) outlook := by
    apply stays.weaken
    intro _ later within
    have absurd : later.past ≠ true := by simp [within.notPast]
    exact ⟨within.more, within.settled, fun past => (absurd past).elim,
      fun past => (absurd past).elim⟩
  cases entry with
  | type => exact stays (stays_typeEntry near)
  | expression tightness => exact stays (stays_expressionEntry tightness near (Or.inr Nat.one_pos))
  | statement =>
      apply (settles_statementEntry near (Or.inr Nat.one_lt_two)).weaken
      exact fun _ _ ends => ⟨ends.1.more, ends.1.settled, fun _ => rfl, ends.2⟩

/-- Entries are read alike inside a longer source, where they may be nested deeper. -/
theorem readEntry_embedded (resync : Bool) {depth otherDepth : Nat} (deeper : depth ≤ otherDepth) :
    EntriesEmbedded embedding horizon depth (readEntry resync depth)
      (readEntry resync otherDepth) := by
  induction depth generalizing otherDepth with
  | zero => exact fun _ _ _ _ _ _ _ _ _ _ _ few => (Nat.not_lt_zero _ few).elim
  | succ depth ih =>
      obtain ⟨further, rfl⟩ : ∃ further, otherDepth = further + 1 :=
        ⟨otherDepth - 1, by omega⟩
      intro entry around other left right start origin size notPast context describes enough
      -- The entry starts here, so what it consumes is counted from here.
      let here : Outlook horizon := { start with taken := 0 }
      have near : here.Near 0 := ⟨notPast, Nat.le_refl _⟩
      have described : here.Describes embedding left.cursor.position left.cursor.ahead.length around
          other left right :=
        ⟨describes.view, describes.embedded, rfl, Nat.zero_add _, describes.lastNode⟩
      have places : around.Embedded embedding ⟨entry.rank, false, false⟩ other :=
        ⟨context, nofun, nofun⟩
      have position := describes.taken
      have total := describes.size
      refine ((Production.local_ofEntry entry near).sound (ih (Nat.le_of_succ_le_succ deeper)) resync
        places described (Nat.le_of_lt_succ enough)).weaken ?_ ?_
      · rintro value later otherLater ⟨reached, there, before, more, settled, ended⟩
        have moved := there.taken
        have rest := there.size
        refine ⟨{ reached with taken := start.taken + reached.taken },
          ⟨there.view, there.embedded, ?_, ?_, there.lastNode⟩,
          .of_lt (Nat.lt_add_of_pos_right more), Nat.lt_add_of_pos_right more, settled, ended⟩
        · change later.cursor.position = origin + (start.taken + reached.taken)
          omega
        · change start.taken + reached.taken + later.cursor.ahead.length = size
          omega
      · rintro later otherLater ⟨embedded, taken, -, kind, moved, rest⟩
        refine ⟨embedded, start.taken + taken, Nat.le_add_right _ _, fun same => ?_, ?_, ?_⟩
        · exact kind (show taken = 0 by omega)
        · omega
        · omega

/-! ### Statements in a list -/

namespace Segment

/-- Consuming a token does not depend on what was read before it. -/
theorem bumpAs_after (segment : Segment) (change : Token → Token) :
    segment.bumpAs change = (segment.emptied.bumpAs change).after segment := by
  unfold bumpAs
  change (if (segment.flush).cursor.isAtEnd then _ else _) =
    (if (segment.flush).cursor.isAtEnd then _ else _ : Segment).after segment
  split <;> simp [flush, emptied, after]

/-- The surroundings of what follows a segment do not depend on where the segment was cut. -/
theorem following_flush (segment : Segment) (around : Surroundings) :
    segment.emptied.flush.following (segment.following around) = segment.flush.following around := by
  unfold following
  simp only [flush, emptied, lastKindAfter_append, List.append_nil]

theorem after_flush (inner segment : Segment) :
    (inner.after segment.emptied.flush).after segment = inner.after segment.flush := by
  simp [after, flush, emptied]

end Segment

/-- A statement in a list does not depend on those before it, but on what its surroundings say. -/
theorem Production.read_listedStatement (resync : Bool)
    (enter : Entry → Surroundings → Segment → Reading Unit) (around : Surroundings)
    (segment : Segment) :
    listedStatement.read resync enter around segment =
      (listedStatement.read resync enter (segment.following around) segment.emptied).after
        segment := by
  unfold listedStatement eat check
  have same : (segment.emptied.view (segment.following around)).isAt .semicolon =
      (segment.view around).isAt .semicolon := rfl
  simp only [read_bind, read_look, Reading.andThen, same]
  cases (segment.view around).isAt .semicolon with
  | true => exact congrArg (Reading.done ()) (segment.bumpAs_after id)
  | false =>
      change (guarded (substatement none)).read resync enter around segment =
        ((guarded (substatement none)).read resync enter (segment.following around)
          segment.emptied).after segment
      have mark : segment.emptied.flush.atMark (segment.following around) =
          segment.flush.atMark around := by
        unfold Segment.atMark
        rw [Segment.following_flush]
        rfl
      have alone : segment.emptied.flush.emptied = segment.flush.emptied := rfl
      have place : segment.emptied.flush.cursor = segment.flush.cursor := rfl
      rw [read_guarded, read_guarded, Segment.following_flush, mark, alone, place]
      generalize (substatement none).read resync enter (segment.flush.following around)
        segment.flush.emptied = reading
      cases reading with
      | done value inner => exact congrArg (Reading.done ()) (inner.after_flush segment).symm
      | failed error inner => exact congrArg (Reading.done ()) (Segment.after_flush _ segment).symm

/-- A part of a source that was read, and the same part of a longer one behind some children. -/
structure Segment.Joined (embedding : Embedding) (horizon : Horizon) (past : Bool)
    (base : List Child) (left right : Segment) : Prop where
  embedded : left.emptied.Embedded embedding horizon past right.emptied
  latest : right.latest = left.latest.map (Child.shift embedding.offset) ++ base

namespace Segment.Joined

variable {base : List Child} {left right : Segment} {around other : Surroundings}
  {depth otherDepth : Nat}

/-- The next statement is read alike, and it consumes a token. -/
theorem statement (joined : left.Joined embedding horizon false base right)
    (resync : Bool) (context : other.context = around.context)
    (more : left.cursor.isAtEnd = false) (enough : 3 * (left.cursor.ahead.length + 1) ≤ depth)
    (deeper : depth ≤ otherDepth) :
    ∃ later otherLater past,
      Production.listedStatement.read resync (readEntry resync depth) around left =
        .done () later ∧
      Production.listedStatement.read resync (readEntry resync otherDepth) other right =
        .done () otherLater ∧
      later.Joined embedding horizon past base otherLater ∧
      later.cursor.ahead.length < left.cursor.ahead.length ∧
      otherLater.cursor.ahead.length < right.cursor.ahead.length ∧
      right.Continues otherLater := by
  let start : Outlook horizon :=
    ⟨left.emptied.view (left.following around), 0, false, false, joined.embedded.fits _⟩
  have near : start.Near 0 := ⟨rfl, Nat.le_refl _⟩
  have notEnd : start.view.kind ≠ .eof := beq_eq_false_iff_ne.mp more
  have described : start.Describes embedding left.cursor.position left.cursor.ahead.length
      (left.following around) (right.following other) left.emptied right.emptied :=
    ⟨rfl, joined.embedded, rfl, Nat.zero_add _, fun absurd => (Bool.false_ne_true absurd).elim⟩
  have places : (left.following around).Embedded embedding ⟨3, false, false⟩
      (right.following other) := ⟨context, nofun, nofun⟩
  have isLocal : Production.listedStatement.Local horizon ⟨3, false, false⟩
      (fun _ later => later.Behind 0) start :=
    Production.local_listedStatement near notEnd (Or.inr (Nat.lt_succ_self 2))
  have read := isLocal.sound (readEntry_embedded resync deeper) resync places described
    (by omega)
  rw [Production.read_listedStatement resync _ around left,
    Production.read_listedStatement resync _ other right]
  obtain ⟨later, same⟩ := Production.listedStatement_succeeds resync (readEntry resync depth)
    (left.following around) left.emptied
  obtain ⟨otherLater, otherSame⟩ := Production.listedStatement_succeeds resync
    (readEntry resync otherDepth) (right.following other) right.emptied
  rw [same, otherSame] at read
  obtain ⟨-, reached, there, -, behind⟩ := read
  rw [same, otherSame]
  have otherMore : right.emptied.cursor.isAtEnd = false :=
    joined.embedded.cursor.isAtEnd.trans more
  obtain ⟨consumed, readSame, continues, otherMoved⟩ := Production.listedStatement_reads resync
    (readEntry_covers resync otherDepth) (right.following other) joined.embedded.rightProper
    otherMore
  obtain rfl : otherLater = consumed := by
    rw [otherSame] at readSame
    exact (Reading.done.inj readSame).2
  refine ⟨later.after left, otherLater.after right, reached.past, rfl, rfl, ⟨?_, ?_⟩, ?_, otherMoved,
    continues.after⟩
  · exact there.embedded.emptied
  · change otherLater.latest ++ right.latest = (later.latest ++ left.latest).map _ ++ base
    rw [there.embedded.latest, joined.latest, List.map_append, List.append_assoc]
  · have total := there.size
    have more := behind.more
    change later.cursor.ahead.length < left.cursor.ahead.length
    omega

end Segment.Joined

/-! ### All statements of a source -/

inductive ReadsStatements (resync : Bool) (depth : Nat) (around : Surroundings) :
    Segment → Segment → Prop where
  | ended {segment : Segment} (atEnd : segment.cursor.isAtEnd = true) :
      ReadsStatements resync depth around segment segment
  | next {segment later last : Segment} (more : segment.cursor.isAtEnd = false)
      (statement : Production.listedStatement.read resync (readEntry resync depth) around segment =
        .done () later)
      (moved : later.cursor.ahead.length < segment.cursor.ahead.length)
      (further : ReadsStatements resync depth around later last) :
      ReadsStatements resync depth around segment last

namespace ReadsStatements

variable {resync : Bool} {depth : Nat} {around : Surroundings} {segment last : Segment}

/-- The statements of a source are what the source reads, however many rounds are allowed. -/
theorem sourceFile (reads : ReadsStatements resync depth around segment last) :
    Production.sourceFile.read resync (readEntry resync depth) around segment = .done () last := by
  suffices rounds : ∀ bound : List Stop, segment.cursor.ahead.length ≤ bound.length →
      Reading.iterate (Production.read resync (readEntry resync depth) (do
        if ← Production.look (fun view => !view.isAtEnd) then
          Production.listedStatement
          pure true
        else pure false) around) bound segment = .done () last from
    rounds segment.cursor.ahead (Nat.le_refl _)
  induction reads with
  | @ended segment atEnd =>
      intro bound _
      have none : (segment.view around).isAtEnd = true := atEnd
      rw [Reading.iterate_eq]
      simp [Reading.andThen, none]
  | @next segment later last more statement moved further ih =>
      intro bound enough
      have some : (segment.view around).isAtEnd = false := more
      obtain ⟨stop, rest, rfl⟩ : ∃ stop rest, bound = stop :: rest := by
        cases bound with
        | nil =>
            rw [List.length_nil] at enough
            omega
        | cons stop rest => exact ⟨stop, rest, rfl⟩
      rw [List.length_cons] at enough
      have goesOn := ih rest (by omega)
      rw [Reading.iterate_eq]
      simpa [Reading.andThen, some, statement, Reading.goOn] using goesOn

end ReadsStatements

namespace Segment.Joined

variable {base : List Child} {left right : Segment} {around other : Surroundings}
  {depth otherDepth : Nat}

/-- The statements of a source are read alike at the front of what is left of a longer one. -/
theorem statements (joined : left.Joined embedding horizon past base right)
    (resync : Bool) (context : other.context = around.context)
    (enough : 3 * (left.cursor.ahead.length + 1) ≤ depth) (deeper : depth ≤ otherDepth) :
    ∃ last otherLast past,
      ReadsStatements resync depth around left last ∧
      (∀ final, ReadsStatements resync otherDepth other otherLast final →
        ReadsStatements resync otherDepth other right final) ∧
      last.Joined embedding horizon past base otherLast ∧ last.cursor.isAtEnd = true ∧
      right.Continues otherLast := by
  induction size : left.cursor.ahead.length using Nat.strongRecOn generalizing left right past with
  | ind size ih =>
      cases atEnd : left.cursor.isAtEnd with
      | true => exact ⟨left, right, past, .ended atEnd, fun _ => id, joined, atEnd, .refl right⟩
      | false =>
          have notPast : past = false := by
            cases past with
            | false => rfl
            | true =>
                cases horizon with
                | file => exact joined.embedded.cursor.elim
                | statement =>
                    have ended : left.cursor.ahead = [] := joined.embedded.cursor.2.1
                    have none := joined.embedded.leftProper.isAtEnd_iff.mpr ended
                    exact absurd (none.symm.trans atEnd) (by decide)
          subst notPast
          obtain ⟨later, otherLater, reached, statement, otherStatement, rest, moved, otherMoved,
            continues⟩ := joined.statement resync context atEnd enough deeper
          have otherMore : right.cursor.isAtEnd = false :=
            joined.embedded.cursor.isAtEnd.trans atEnd
          obtain ⟨last, otherLast, ended, reads, otherReads, joinedLast, done, further⟩ :=
            ih _ (size ▸ moved) rest (by omega) rfl
          exact ⟨last, otherLast, ended, .next atEnd statement moved reads,
            fun final rest => .next otherMore otherStatement otherMoved (otherReads final rest),
            joinedLast, done, continues.trans further⟩

end Segment.Joined

end JaiSyntax
