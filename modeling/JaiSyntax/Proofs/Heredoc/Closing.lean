import JaiSyntax.Proofs.Lexer.Concatenation
import JaiSyntax.Text.Cursor
/-!
The line that closes a heredoc. A body ends at the first line behind the one it starts on that consists of
blanks, the delimiter, and nothing that goes on a word. A delimiter that begins with a blank closes no
body, since all blanks of a line are taken as its indentation.
-/

set_option autoImplicit false

namespace JaiSyntax

open SourceUnit

variable {α : Type} [SourceUnit α]

/-! ### Lines -/

/-- A line that closes a heredoc: an indentation of blanks, the delimiter, and then the end of the text or
a unit that does not go on a word. -/
structure IsClosingLine (delimiter indent line : List α) : Prop where
  blank : ∀ unit ∈ indent, isBlank unit = true
  spelled : indent ++ delimiter <+: line
  ended : ∀ unit ∈ (line.drop (indent ++ delimiter).length).head?, continuesWord unit = false

def HasFeedAt (text : List α) (place : Nat) : Prop :=
  ∃ unit, text[place]? = some unit ∧ is '\n' unit = true

theorem hasFeedAt_zero (unit : α) (rest : List α) :
    HasFeedAt (unit :: rest) 0 ↔ is '\n' unit = true := by
  constructor
  · rintro ⟨found, same, feed⟩
    cases same
    exact feed
  · intro feed
    exact ⟨unit, rfl, feed⟩

section Closing

variable [BEq α] {delimiter line text : List α} {blanks covered total : Nat}

theorem closingIndent_eq (delimiter line : List α) :
    closingIndent? delimiter line =
      if delimiter.isPrefixOf (line.drop (runLength isBlank line)) = true ∧
          ∀ unit ∈ (line.drop (runLength isBlank line + delimiter.length)).head?,
            continuesWord unit = false
      then some (runLength isBlank line) else none := by
  rw [closingIndent?, ← List.drop_drop]
  by_cases front : delimiter.isPrefixOf (line.drop (runLength isBlank line)) = true
  · rw [if_pos front]
    cases behind : (line.drop (runLength isBlank line)).drop delimiter.length with
    | nil => simp [front]
    | cons next after =>
        cases continues : continuesWord next with
        | true => simp [continues]
        | false => simp [front, continues]
  · rw [if_neg front, if_neg (fun both => front both.1)]

section Lawful

variable [LawfulBEq α]

theorem isClosingLine_of_closingIndent (closes : closingIndent? delimiter line = some blanks) :
    IsClosingLine delimiter (line.takeWhile isBlank) line ∧
      blanks = (line.takeWhile isBlank).length := by
  rw [closingIndent_eq] at closes
  split at closes
  · next both =>
      obtain ⟨front, ended⟩ := both
      have spelled := List.isPrefixOf_iff_prefix.mp front
      have whole : line.takeWhile isBlank ++ line.drop (runLength isBlank line) = line :=
        List.prefix_iff_eq_append.mp (List.takeWhile_prefix _)
      refine ⟨⟨fun unit member => List.mem_takeWhile_imp member, ?_, ?_⟩,
        (Option.some.inj closes).symm⟩
      · obtain ⟨after, joined⟩ := spelled
        exact ⟨after, by rw [List.append_assoc, joined, whole]⟩
      · rw [List.length_append]
        exact ended
  · cases closes

/-- Where the delimiter begins with no blank, a closing line closes a body. -/
theorem IsClosingLine.closingIndent_eq_some {indent : List α}
    (closes : IsClosingLine delimiter indent line) (some : delimiter ≠ [])
    (solid : ∀ unit ∈ delimiter.head?, isBlank unit = false) :
    closingIndent? delimiter line = Option.some indent.length := by
  obtain ⟨blank, ⟨after, rfl⟩, ended⟩ := closes
  have first : ∀ unit ∈ (delimiter ++ after).head?, isBlank unit = false := by
    intro unit member
    rw [List.head?_append_of_ne_nil _ some] at member
    exact solid unit member
  have run : runLength isBlank (indent ++ delimiter ++ after) = indent.length := by
    rw [List.append_assoc]
    exact runLength_front blank first
  rw [closingIndent_eq, run]
  refine if_pos ⟨?_, ?_⟩
  · rw [List.append_assoc, List.drop_left]
    exact List.isPrefixOf_iff_prefix.mpr (List.prefix_append _ _)
  · rw [List.length_append] at ended
    exact ended

/-- A delimiter that begins with a blank is never found behind all blanks of a line. -/
theorem solid_of_closingIndent (closes : closingIndent? delimiter line = some blanks) :
    ∀ unit ∈ delimiter.head?, isBlank unit = false := by
  intro unit member
  have spelled := (isClosingLine_of_closingIndent closes).1.spelled
  obtain ⟨more, rfl⟩ : ∃ more, delimiter = unit :: more := by
    cases delimiter with
    | nil => cases member
    | cons first more =>
        cases member
        exact ⟨more, rfl⟩
  obtain ⟨after, whole⟩ := spelled
  cases solid : isBlank unit with
  | false => rfl
  | true =>
      -- The run of blanks would be longer by this one.
      have longer := congrArg (List.takeWhile isBlank) whole
      rw [List.append_assoc, List.takeWhile_append_of_pos
        (fun other member => List.mem_takeWhile_imp member), List.cons_append,
        List.takeWhile_cons_of_pos solid] at longer
      have lengths := congrArg List.length longer
      rw [List.length_append, List.length_cons] at lengths
      omega

end Lawful

/-! ### Bodies -/

theorem heredocBodyFrom_closed (closed : heredocBodyFrom delimiter covered text = (true, total)) :
    ∃ feed blanks, HasFeedAt text feed ∧
      closingIndent? delimiter (text.drop (feed + 1)) = some blanks ∧
      total = covered + feed + 1 + blanks ∧
      ∀ earlier, HasFeedAt text earlier → earlier < feed →
        closingIndent? delimiter (text.drop (earlier + 1)) = none := by
  induction text generalizing covered with
  | nil => cases closed
  | cons unit rest ih =>
      -- Where the scan goes on, no line begins behind the first unit, or that line does not close.
      have later (first : HasFeedAt (unit :: rest) 0 → closingIndent? delimiter rest = none)
          (closed : heredocBodyFrom delimiter (covered + 1) rest = (true, total)) :
          ∃ feed blanks, HasFeedAt (unit :: rest) feed ∧
            closingIndent? delimiter ((unit :: rest).drop (feed + 1)) = some blanks ∧
            total = covered + feed + 1 + blanks ∧
            ∀ earlier, HasFeedAt (unit :: rest) earlier → earlier < feed →
              closingIndent? delimiter ((unit :: rest).drop (earlier + 1)) = none := by
        obtain ⟨feed, blanks, found, closes, same, none⟩ := ih closed
        refine ⟨feed + 1, blanks, found, closes, by omega, ?_⟩
        intro earlier other before
        cases earlier with
        | zero => exact first other
        | succ earlier => exact none earlier other (by omega)
      rw [heredocBodyFrom] at closed
      by_cases feed : is '\n' unit = true
      · rw [if_pos feed] at closed
        cases found : closingIndent? delimiter rest with
        | some blanks =>
            rw [found] at closed
            have same := (Prod.mk.inj closed).2
            refine ⟨0, blanks, (hasFeedAt_zero unit rest).mpr feed, found, by omega, ?_⟩
            intro earlier _ before
            omega
        | none =>
            rw [found] at closed
            exact later (fun _ => found) closed
      · rw [if_neg feed] at closed
        exact later (fun other => absurd ((hasFeedAt_zero unit rest).mp other) feed) closed

theorem heredocBodyFrom_open (unclosed : heredocBodyFrom delimiter covered text = (false, total)) :
    ∀ feed, HasFeedAt text feed → closingIndent? delimiter (text.drop (feed + 1)) = none := by
  induction text generalizing covered with
  | nil =>
      rintro feed ⟨unit, absurd, -⟩
      cases absurd
  | cons unit rest ih =>
      have later (first : HasFeedAt (unit :: rest) 0 → closingIndent? delimiter rest = none)
          (unclosed : heredocBodyFrom delimiter (covered + 1) rest = (false, total)) :
          ∀ feed, HasFeedAt (unit :: rest) feed →
            closingIndent? delimiter ((unit :: rest).drop (feed + 1)) = none := by
        intro feed found
        cases feed with
        | zero => exact first found
        | succ feed => exact ih unclosed feed found
      rw [heredocBodyFrom] at unclosed
      by_cases feed : is '\n' unit = true
      · rw [if_pos feed] at unclosed
        cases found : closingIndent? delimiter rest with
        | some blanks =>
            rw [found] at unclosed
            cases unclosed
        | none =>
            rw [found] at unclosed
            exact later (fun _ => found) unclosed
      · rw [if_neg feed] at unclosed
        exact later (fun other => absurd ((hasFeedAt_zero unit rest).mp other) feed) unclosed

end Closing

/-! ### Cursors -/

/-- A line of a source, behind a line feed at or after a position, that closes a heredoc with some
indentation. -/
structure ClosesBehind (source delimiter : List UInt8) (position feed : Nat) (indent : List UInt8) :
    Prop where
  behind : position ≤ feed
  breaks : source[feed]? = some 0x0A
  closes : IsClosingLine delimiter indent (source.drop (feed + 1))

theorem hasFeedAt_drop (source : List UInt8) (position feed : Nat) :
    HasFeedAt (source.drop position) feed ↔ source[position + feed]? = some 0x0A := by
  unfold HasFeedAt
  rw [List.getElem?_drop]
  constructor
  · rintro ⟨byte, same, breaks⟩
    have code : byte.toNat = (0x0A : UInt8).toNat := by simpa [is, code] using breaks
    rw [same, UInt8.toNat_inj.mp code]
  · intro same
    exact ⟨0x0A, same, rfl⟩

namespace ClosesBehind

variable {source delimiter indent : List UInt8} {position feed blanks : Nat}

theorem of_closingIndent (found : HasFeedAt (source.drop position) feed)
    (closes : closingIndent? delimiter ((source.drop position).drop (feed + 1)) = some blanks) :
    ∃ indent, ClosesBehind source delimiter position (position + feed) indent ∧
      indent.length = blanks := by
  rw [List.drop_drop, ← Nat.add_assoc] at closes
  obtain ⟨line, same⟩ := isClosingLine_of_closingIndent closes
  exact ⟨_, ⟨Nat.le_add_right _ _, (hasFeedAt_drop _ _ _).mp found, line⟩, same.symm⟩

theorem closingIndent (closes : ClosesBehind source delimiter position feed indent)
    (some : delimiter ≠ []) (solid : ∀ byte ∈ delimiter.head?, isBlank byte = false) :
    HasFeedAt (source.drop position) (feed - position) ∧
      closingIndent? delimiter ((source.drop position).drop (feed - position + 1)) =
        Option.some indent.length := by
  have place : position + (feed - position) = feed := Nat.add_sub_cancel' closes.behind
  constructor
  · rw [hasFeedAt_drop, place]
    exact closes.breaks
  · rw [List.drop_drop, ← Nat.add_assoc, place]
    exact closes.closes.closingIndent_eq_some some solid

end ClosesBehind

namespace Cursor

/-- A body is closed just if its delimiter begins with no blank and some line behind the one of the cursor
closes it. The cursor stops before the delimiter of the first such line, or at the end of the source. -/
theorem heredocBody_stops_first (source delimiter : List UInt8) (position : Nat)
    (some : delimiter ≠ []) :
    (((atPosition source position).heredocBody delimiter).1 = true ↔
        (∀ byte ∈ delimiter.head?, isBlank byte = false) ∧
          ∃ feed indent, ClosesBehind source delimiter position feed indent) ∧
      (((atPosition source position).heredocBody delimiter).1 = true →
        ∃ feed indent, ClosesBehind source delimiter position feed indent ∧
          ((atPosition source position).heredocBody delimiter).2 =
            atPosition source (feed + 1 + indent.length) ∧
          ∀ other blanks, ClosesBehind source delimiter position other blanks → feed ≤ other) ∧
      (((atPosition source position).heredocBody delimiter).1 = false →
        ((atPosition source position).heredocBody delimiter).2 = atPosition source source.length) := by
  cases scan : heredocBodyFrom delimiter 0 (source.drop position) with
  | mk terminated total =>
  have same : (atPosition source position).heredocBody delimiter =
      (terminated, atPosition source (position + total)) := by
    have unfolded : (atPosition source position).heredocBody delimiter =
        ((heredocBodyFrom delimiter 0 (source.drop position)).1, (atPosition source position).advance
          (heredocBodyFrom delimiter 0 (source.drop position)).2) := rfl
    rw [unfolded, scan, atPosition_advance]
  rw [same]
  cases terminated with
  | false =>
      have none := heredocBodyFrom_open scan
      have never {goal : Prop} (absurd : false = true) : goal := (Bool.false_ne_true absurd).elim
      refine ⟨⟨never, ?_⟩, never, fun _ => ?_⟩
      · rintro ⟨solid, feed, indent, closes⟩
        obtain ⟨found, line⟩ := closes.closingIndent some solid
        rw [none _ found] at line
        cases line
      · have all := heredocBodyFrom_unclosed scan
        rw [List.length_drop] at all
        simp only [atPosition, Cursor.mk.injEq]
        constructor
        · omega
        · rw [List.drop_length, List.drop_eq_nil_of_le (by omega)]
  | true =>
      obtain ⟨feed, blanks, found, line, reached, first⟩ := heredocBodyFrom_closed scan
      have solid := solid_of_closingIndent line
      obtain ⟨indent, closes, length⟩ := ClosesBehind.of_closingIndent found line
      refine ⟨⟨fun _ => ⟨solid, _, _, closes⟩, fun _ => rfl⟩, fun _ => ?_,
        fun absurd => (Bool.false_ne_true absurd.symm).elim⟩
      refine ⟨position + feed, indent, closes, ?_, ?_⟩
      · have place : position + total = position + feed + 1 + indent.length := by omega
        rw [place]
      · intro other blanks' earlier
        have behind := earlier.behind
        obtain ⟨found', line'⟩ := earlier.closingIndent some solid
        by_contra before
        have shorter : other - position < feed := by omega
        rw [first _ found' shorter] at line'
        cases line'

/-- Of the lines `a`, `XY` and ` X;`, the delimiter `X` closes at the third: the word `XY` is longer. -/
theorem heredocBody_passes_longer_word :
    ([0x58] : List UInt8) ≠ [] ∧
      ∃ source, source = [0x61, 0x0A, 0x58, 0x59, 0x0A, 0x20, 0x58, 0x3B] ∧
        ∃ feed indent, ClosesBehind source [0x58] 0 feed indent ∧ feed + 1 + indent.length = 6 ∧
          ∀ other blanks, ClosesBehind source [0x58] 0 other blanks → feed ≤ other := by
  have some : ([0x58] : List UInt8) ≠ [] := List.cons_ne_nil _ _
  obtain ⟨-, closed, -⟩ :=
    heredocBody_stops_first [0x61, 0x0A, 0x58, 0x59, 0x0A, 0x20, 0x58, 0x3B] [0x58] 0 some
  obtain ⟨feed, indent, closes, reached, first⟩ := closed (by decide)
  have bound : feed < 8 := (List.getElem?_eq_some_iff.mp closes.breaks).1
  have place := (congrArg Cursor.position reached).symm
  simp only [atPosition, List.length_cons, List.length_nil] at place
  refine ⟨some, _, rfl, feed, indent, closes, ?_, first⟩
  change _ = 6 at place
  omega

/-- A line that consists of a delimiter with a leading blank does not close its body: the blank counts as
the indentation of the line. -/
theorem heredocBody_skips_blank_delimiter :
    ¬ (((atPosition [0x0A, 0x20, 0x58] 0).heredocBody [0x20, 0x58]).1 = true ↔
      ∃ feed indent, ClosesBehind [0x0A, 0x20, 0x58] [0x20, 0x58] 0 feed indent) := by
  intro same
  have line : IsClosingLine ([0x20, 0x58] : List UInt8) [] [0x20, 0x58] :=
    ⟨nofun, List.prefix_rfl, nofun⟩
  have closed := same.mpr ⟨0, [], ⟨Nat.le_refl 0, rfl, line⟩⟩
  revert closed
  decide

end Cursor

end JaiSyntax
