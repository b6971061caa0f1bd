import JaiSyntax.Proofs.Scanner.Safety
/-!
The extent of line comments. A line comment goes up to a line feed, but not one behind a backslash, nor one
behind a carriage return that itself stands behind a backslash. That test looks at two bytes; the scanners
pass over runs of backslashes and over what these escape.
-/

set_option autoImplicit false

namespace JaiSyntax

open SourceUnit

/-! ### Line ends -/

/-- A line feed that no backslash precedes, neither directly nor with a carriage return between them. -/
structure EndsLine (source : List UInt8) (place : Nat) : Prop where
  feed : source[place]? = some 0x0A
  bare : ¬ [0x5C] <:+ source.take place
  bareReturn : ¬ [0x5C, 0x0D] <:+ source.take place

/-- The first line end from `start` on, or the end of the source if there is none. -/
structure FirstLineEnd (source : List UInt8) (start stop : Nat) : Prop where
  least : start ≤ stop
  inside : ∀ place, start ≤ place → place < stop → ¬ EndsLine source place
  ended : EndsLine source stop ∨ stop = source.length

section Ends

variable {source front text rest : List UInt8} {byte : UInt8} {start stop : Nat}

theorem FirstLineEnd.next (goesOn : ¬ EndsLine source start)
    (later : FirstLineEnd source (start + 1) stop) : FirstLineEnd source start stop := by
  constructor
  · have least := later.least
    omega
  · intro place least before
    by_cases here : place = start
    · rw [here]
      exact goesOn
    · exact later.inside place (by omega) before
  · exact later.ended

theorem firstLineEnd_here (ended : EndsLine source start ∨ start = source.length) :
    FirstLineEnd source start start := by
  constructor
  · exact Nat.le_refl start
  · intro place least before
    omega
  · exact ended

theorem endsLine_append_iff :
    EndsLine (front ++ byte :: rest) front.length ↔
      byte = 0x0A ∧ ¬ [0x5C] <:+ front ∧ ¬ [0x5C, 0x0D] <:+ front := by
  have here : (front ++ byte :: rest)[front.length]? = some byte := by
    simp
  have taken : (front ++ byte :: rest).take front.length = front := List.take_left
  constructor
  · rintro ⟨feed, bare, bareReturn⟩
    rw [here] at feed
    rw [taken] at bare bareReturn
    exact ⟨Option.some.inj feed, bare, bareReturn⟩
  · rintro ⟨rfl, bare, bareReturn⟩
    rw [← taken] at bare bareReturn
    exact ⟨here, bare, bareReturn⟩

theorem backslash_suffix_iff : [0x5C] <:+ front ++ [byte] ↔ byte = 0x5C := by
  constructor
  · rintro ⟨before, same⟩
    exact (List.append_inj_right' same rfl |> List.cons.inj).1.symm
  · rintro rfl
    exact List.suffix_append front _

theorem escapedReturn_suffix_iff :
    [0x5C, 0x0D] <:+ front ++ [byte] ↔ byte = 0x0D ∧ [0x5C] <:+ front := by
  constructor
  · rintro ⟨before, same⟩
    have split : before ++ [0x5C] ++ [0x0D] = front ++ [byte] := by
      rw [← same, List.append_assoc]
      rfl
    obtain ⟨fronts, last⟩ := List.append_inj' split rfl
    exact ⟨(List.cons.inj last).1.symm, before, fronts⟩
  · rintro ⟨rfl, before, rfl⟩
    exact ⟨before, by rw [List.append_assoc]; rfl⟩

end Ends

/-! ### The scan of the bytes -/

/-- What the scanner knows of the bytes that it has passed: whether they end in a backslash, and that no
escaped line break is cut in two. -/
structure PassedLine (front text : List UInt8) (escaped : Bool) : Prop where
  run : escaped = true ↔ [0x5C] <:+ front
  whole : escaped = false → [0x5C, 0x0D] <:+ front → text.head? ≠ some 0x0A

theorem is_byte_iff {character : Char} {value : UInt8} (same : character.toNat = value.toNat)
    (byte : UInt8) : is character byte = true ↔ byte = value := by
  simp [is, code, same, UInt8.toNat_inj]

theorem isBackslash_iff (byte : UInt8) : is '\\' byte = true ↔ byte = 0x5C := is_byte_iff rfl byte

theorem isReturn_iff (byte : UInt8) : is '\r' byte = true ↔ byte = 0x0D := is_byte_iff rfl byte

theorem isFeed_iff (byte : UInt8) : is '\n' byte = true ↔ byte = 0x0A := is_byte_iff rfl byte

section Bytes

variable {source front text rest : List UInt8} {byte : UInt8} {escaped : Bool}

theorem PassedLine.not_endsLine (passed : PassedLine front (byte :: rest) escaped)
    (skipped : escaped = true ∨ byte ≠ 0x0A) : ¬ EndsLine (front ++ byte :: rest) front.length := by
  intro ends
  obtain ⟨feed, bare, -⟩ := endsLine_append_iff.mp ends
  rcases skipped with run | other
  · exact bare (passed.run.mp run)
  · exact other feed

theorem PassedLine.backslash (front rest : List UInt8) : PassedLine (front ++ [0x5C]) rest true := by
  constructor
  · exact ⟨fun _ => backslash_suffix_iff.mpr rfl, fun _ => rfl⟩
  · intro fresh
    cases fresh

theorem PassedLine.feed (front rest : List UInt8) : PassedLine (front ++ [0x0A]) rest false := by
  constructor
  · rw [backslash_suffix_iff]
    decide
  · intro _ cut
    exact absurd (escapedReturn_suffix_iff.mp cut).1 (by decide)

/-- A byte that is no backslash ends what a run of backslashes escapes. -/
theorem PassedLine.plain (passed : PassedLine front (byte :: rest) escaped)
    (plain : ¬ is '\\' byte = true)
    (whole : escaped = true → ¬ (is '\r' byte && nextIs '\n' rest) = true) :
    PassedLine (front ++ [byte]) rest false := by
  constructor
  · rw [backslash_suffix_iff, ← isBackslash_iff]
    exact ⟨fun run => (Bool.false_ne_true run).elim, fun backslash => (plain backslash).elim⟩
  · intro _ cut first
    obtain ⟨carriage, backslash⟩ := escapedReturn_suffix_iff.mp cut
    obtain ⟨after, rfl⟩ := List.head?_eq_some_iff.mp first
    apply whole (passed.run.mpr backslash)
    rw [(isReturn_iff byte).mpr carriage]
    rfl

/-- One byte more is passed, and no line ends there. -/
theorem PassedLine.skip {covered stop : Nat} (passed : PassedLine front (byte :: rest) escaped)
    (length : front.length = covered) (skipped : escaped = true ∨ ¬ is '\n' byte = true)
    (later : (front ++ [byte]).length = covered + 1 →
      FirstLineEnd (front ++ [byte] ++ rest) (covered + 1) stop) :
    FirstLineEnd (front ++ byte :: rest) covered stop := by
  have further : (front ++ [byte]).length = covered + 1 := by
    rw [List.length_append, length]
    rfl
  rw [isFeed_iff] at skipped
  have goesOn := passed.not_endsLine skipped
  have moved := later further
  rw [List.append_assoc, List.singleton_append] at moved
  rw [length] at goesOn
  exact moved.next goesOn

/-- The scan of the bytes ends at the first line end. -/
theorem lineCommentFrom_firstLineEnd {covered : Nat} (length : front.length = covered)
    (passed : PassedLine front text escaped) :
    FirstLineEnd (front ++ text) covered (lineCommentFrom escaped covered text) := by
  fun_induction lineCommentFrom escaped covered text generalizing front with
  | case1 escaped covered =>
      apply firstLineEnd_here
      rw [List.append_nil]
      exact Or.inr length.symm
  | case2 escaped covered byte rest backslash ih =>
      obtain rfl := (isBackslash_iff byte).mp backslash
      exact passed.skip length (Or.inr (by decide)) (fun length => ih length (.backslash front rest))
  | case3 covered byte plain =>
      apply passed.skip length (Or.inl rfl)
      intro length
      apply firstLineEnd_here
      rw [List.append_nil]
      exact Or.inr length.symm
  | case4 covered byte plain second after breaks ih =>
      obtain ⟨carriage, feed⟩ := Bool.and_eq_true_iff.mp breaks
      obtain rfl := (isReturn_iff byte).mp carriage
      obtain rfl := (isFeed_iff second).mp feed
      apply passed.skip length (Or.inl rfl)
      intro length
      -- Between the two nothing is known of the front but that they are an escaped line break.
      have goesOn : ¬ EndsLine (front ++ [0x0D] ++ 0x0A :: after) (front ++ [0x0D]).length := by
        intro ends
        have bareReturn := (endsLine_append_iff.mp ends).2.2
        exact bareReturn (escapedReturn_suffix_iff.mpr ⟨rfl, passed.run.mp rfl⟩)
      have later := ih (by rw [List.length_append, length]; rfl) (.feed (front ++ [0x0D]) after)
      rw [List.append_assoc (front ++ [0x0D]), List.singleton_append] at later
      rw [length] at goesOn
      exact later.next goesOn
  | case5 covered byte plain second after whole ih =>
      exact passed.skip length (Or.inl rfl) (fun length => ih length (passed.plain plain (fun _ => whole)))
  | case6 escaped covered byte after plain fresh feed =>
      obtain rfl := (isFeed_iff byte).mp feed
      have bare : ¬ [0x5C] <:+ front := fun backslash => fresh (passed.run.mpr backslash)
      apply firstLineEnd_here
      rw [← length, endsLine_append_iff]
      refine Or.inl ⟨rfl, bare, ?_⟩
      intro cut
      exact passed.whole (Bool.eq_false_iff.mpr fresh) cut rfl
  | case7 escaped covered byte after plain fresh inside ih =>
      exact passed.skip length (Or.inr inside)
        (fun length => ih length (passed.plain plain (fun run => (fresh run).elim)))

end Bytes

/-! ### Characters and bytes -/

section Characters

variable {α : Type} [SourceUnit α]

theorem lineCommentFrom_backslash (escaped : Bool) (covered : Nat) {unit : α} (rest : List α)
    (backslash : is '\\' unit = true) :
    lineCommentFrom escaped covered (unit :: rest) = lineCommentFrom true (covered + 1) rest := by
  rw [lineCommentFrom.eq_def]
  simp only [if_pos backslash]

/-- A unit that is passed on its own. -/
theorem lineCommentFrom_plain {escaped : Bool} (covered : Nat) {unit : α} {rest : List α}
    (plain : ¬ is '\\' unit = true)
    (alone : escaped = true → ¬ (is '\r' unit && nextIs '\n' rest) = true)
    (inside : escaped = false → ¬ is '\n' unit = true) :
    lineCommentFrom escaped covered (unit :: rest) = lineCommentFrom false (covered + 1) rest := by
  rw [lineCommentFrom.eq_def]
  simp only [if_neg plain]
  cases escaped with
  | false => exact if_neg (inside rfl)
  | true =>
      cases rest with
      | nil => rfl
      | cons next after => exact if_neg (alone rfl)

theorem lineCommentFrom_shift (escaped : Bool) (offset covered : Nat) (text : List α) :
    lineCommentFrom escaped (offset + covered) text = offset + lineCommentFrom escaped covered text := by
  fun_induction lineCommentFrom escaped covered text with
  | case1 escaped covered => rw [lineCommentFrom]
  | case2 escaped covered unit rest backslash ih =>
      rw [lineCommentFrom_backslash _ _ _ backslash]
      exact ih
  | case3 covered unit plain =>
      rw [lineCommentFrom, if_neg plain]
      rfl
  | case4 covered unit plain second after breaks ih =>
      rw [lineCommentFrom, if_neg plain, if_pos breaks]
      exact ih
  | case5 covered unit plain second after whole ih =>
      rw [lineCommentFrom, if_neg plain, if_neg whole]
      exact ih
  | case6 escaped covered unit after plain fresh feed =>
      rw [lineCommentFrom.eq_def]
      simp only [if_neg plain, if_neg fresh, if_pos feed]
  | case7 escaped covered unit after plain fresh inside ih =>
      rw [lineCommentFrom_plain _ plain (fun run => (fresh run).elim) (fun _ => inside)]
      exact ih

end Characters

theorem nextIs_utf8Bytes (expected : Char) (ascii : expected.toNat < 128) (text : List Char) :
    nextIs expected (utf8Bytes text) = nextIs expected text := by
  cases text with
  | nil => rfl
  | cons character rest =>
      obtain ⟨first, more, same, -⟩ := utf8EncodeChar_encodes character
      rw [utf8Bytes_cons, same]
      exact uniform_is expected ascii character first (by rw [same]; exact List.mem_cons_self)

/-- Bytes of characters beyond ASCII mean nothing to the scan. -/
theorem lineCommentFrom_high (covered : Nat) (high rest : List UInt8)
    (beyond : ∀ byte ∈ high, 128 ≤ byte.toNat) :
    lineCommentFrom false covered (high ++ rest) =
      lineCommentFrom false (covered + high.length) rest := by
  induction high generalizing covered with
  | nil => rfl
  | cons byte high ih =>
      have large := beyond byte List.mem_cons_self
      have differs (character : Char) (small : character.toNat < 128) :
          ¬ is character byte = true := by
        simp only [is, code, beq_iff_eq]
        omega
      rw [List.cons_append, lineCommentFrom_plain covered (differs '\\' (by decide))
          (fun run => (Bool.false_ne_true run).elim) (fun _ => differs '\n' (by decide)),
        ih _ (fun byte among => beyond byte (List.mem_cons_of_mem _ among)), List.length_cons]
      congr 1
      omega

/-- A character that is passed on its own takes all its bytes. -/
theorem lineCommentFrom_character {escaped : Bool} (covered : Nat) {character : Char}
    {rest : List Char} (plain : ¬ is '\\' character = true)
    (alone : escaped = true → ¬ (is '\r' character && nextIs '\n' rest) = true)
    (inside : escaped = false → ¬ is '\n' character = true) :
    lineCommentFrom escaped covered (utf8Bytes (character :: rest)) =
      lineCommentFrom false (covered + character.utf8Size) (utf8Bytes rest) := by
  obtain ⟨first, more, same, encodes⟩ := utf8EncodeChar_encodes character
  have answers (expected : Char) (ascii : expected.toNat < 128) :
      is expected first = is expected character :=
    uniform_is expected ascii character first (by rw [same]; exact List.mem_cons_self)
  have size : character.utf8Size = more.length + 1 := by
    rw [← String.length_utf8EncodeChar, same, List.length_cons]
  have beyond : ∀ byte ∈ more, 128 ≤ byte.toNat := by
    intro byte among
    rcases encodes.codes byte (List.mem_cons_of_mem _ among) with ⟨-, none⟩ | ⟨high, -⟩
    · rw [none] at among
      cases among
    · exact high
  -- Only a carriage return can make the next byte matter, and it has a single byte.
  have whole : escaped = true → ¬ (is '\r' first && nextIs '\n' (more ++ utf8Bytes rest)) = true := by
    intro run breaks
    obtain ⟨carriage, feed⟩ := Bool.and_eq_true_iff.mp breaks
    rw [answers '\r' (by decide)] at carriage
    have small := Buffer.ascii_of_is '\r' (by decide) carriage
    rcases encodes.codes first List.mem_cons_self with ⟨-, none⟩ | ⟨-, high⟩
    · rw [none, List.nil_append, nextIs_utf8Bytes '\n' (by decide)] at feed
      exact alone run (Bool.and_eq_true_iff.mpr ⟨carriage, feed⟩)
    · omega
  rw [utf8Bytes_cons, same, List.cons_append, lineCommentFrom_plain covered _ whole,
    lineCommentFrom_high _ _ _ beyond, size]
  · congr 1
    omega
  · rw [answers '\n' (by decide)]
    exact inside
  · rw [answers '\\' (by decide)]
    exact plain

/-- The scan of the bytes covers the bytes of the characters that the scan of the characters covers. -/
theorem lineCommentFrom_utf8Bytes (escaped : Bool) (covered position : Nat) (text : List Char) :
    Buffer.Agrees position covered text ((), lineCommentFrom escaped covered text)
      (some ((), lineCommentFrom escaped position (utf8Bytes text))) := by
  fun_induction lineCommentFrom escaped covered text generalizing position with
  | case1 escaped covered =>
      rw [utf8Bytes_nil, lineCommentFrom]
      exact Buffer.agrees_here _ _ _ _
  | case2 escaped covered character rest backslash ih =>
      obtain rfl := (is_iff _ _).mp backslash
      have bytes : utf8Bytes ('\\' :: rest) = 0x5C :: utf8Bytes rest := rfl
      rw [bytes, lineCommentFrom_backslash _ _ _ ((isBackslash_iff 0x5C).mpr rfl)]
      exact .ascii (by decide) (ih _)
  | case3 covered character plain =>
      have alone : true = true → ¬ (is '\r' character && false) = true := by
        rw [Bool.and_false]
        decide
      rw [lineCommentFrom_character position plain alone (fun fresh => absurd fresh (by decide)),
        utf8Bytes_nil, lineCommentFrom]
      exact .further (Buffer.agrees_here _ _ _ _)
  | case4 covered character plain second after breaks ih =>
      obtain ⟨carriage, feed⟩ := Bool.and_eq_true_iff.mp breaks
      obtain rfl := (is_iff _ _).mp carriage
      obtain rfl := (is_iff _ _).mp feed
      have bytes : utf8Bytes ('\r' :: '\n' :: after) = 0x0D :: 0x0A :: utf8Bytes after := rfl
      have scanned : lineCommentFrom true position (0x0D :: 0x0A :: utf8Bytes after) =
          lineCommentFrom false (position + 2) (utf8Bytes after) := rfl
      rw [bytes, scanned]
      exact .ascii (by decide) (.ascii (by decide) (ih _))
  | case5 covered character plain second after whole ih =>
      have alone : true = true → ¬ (is '\r' character && nextIs '\n' (second :: after)) = true :=
        fun _ => whole
      rw [lineCommentFrom_character position plain alone (fun fresh => absurd fresh (by decide))]
      exact .further (ih _)
  | case6 escaped covered character after plain fresh feed =>
      obtain rfl := (is_iff _ _).mp feed
      have bytes : utf8Bytes ('\n' :: after) = 0x0A :: utf8Bytes after := rfl
      have scanned : lineCommentFrom false position (0x0A :: utf8Bytes after) = position := by
        rw [lineCommentFrom.eq_def]
        rfl
      rw [Bool.eq_false_iff.mpr fresh, bytes, scanned]
      exact Buffer.agrees_here _ _ _ _
  | case7 escaped covered character after plain fresh inside ih =>
      rw [lineCommentFrom_character position plain (fun run => (fresh run).elim) (fun _ => inside)]
      exact .further (ih _)

theorem Buffer.Agrees.unique {answer : Type} {position covered : Nat} {text : List Char}
    {scanned : answer × Nat} {left right : Option (answer × Nat)}
    (agrees : Buffer.Agrees position covered text scanned left)
    (alike : Buffer.Agrees position covered text scanned right) : left = right := by
  obtain ⟨count, -, same, runs⟩ := agrees
  obtain ⟨other, -, equal, runsAlike⟩ := alike
  have counts : count = other := by omega
  rw [runs, runsAlike, counts]

/-! ### The extent of a comment -/

/-- Where the scanners stop behind the line comment at the front of `text`: the one of the characters, the
cursor on the bytes, and the one of the buffer, where every read is in bounds. -/
structure ScansLine (before text : List Char) (stop : Nat) : Prop where
  characters : Buffer.offsetAfter before text (lineComment text) = stop
  cursor : (Cursor.atPosition (utf8Bytes (before ++ text)) (utf8Length before)).lineComment =
    Cursor.atPosition (utf8Bytes (before ++ text)) stop
  buffer : Buffer.lineComment (utf8Bytes (before ++ text)) (utf8Length before) = some ((), stop)

theorem scansLine_bytes (before rest : List Char) :
    ScansLine before ('/' :: '/' :: rest)
      (lineCommentFrom false (utf8Length before + 2) (utf8Bytes rest)) := by
  have faces := Buffer.Faces.of_append before ('/' :: '/' :: rest)
  have behind := Buffer.lineCommentFrom_agrees faces.next.next false 2
  have runs := behind.unique (lineCommentFrom_utf8Bytes false 2 _ rest)
  have bytes : utf8Bytes ('/' :: '/' :: rest) = 0x2F :: 0x2F :: utf8Bytes rest := rfl
  have safe := (Buffer.lineComment_safe before rest).safe.runs
  have buffer : Buffer.lineComment (utf8Bytes (before ++ '/' :: '/' :: rest)) (utf8Length before) =
      some ((), lineCommentFrom false (utf8Length before + 2) (utf8Bytes rest)) := runs
  constructor
  · rw [buffer] at safe
    exact (congrArg Prod.snd (Option.some.inj safe)).symm
  · have cursor : (Cursor.atPosition (utf8Bytes (before ++ '/' :: '/' :: rest))
          (utf8Length before)).lineComment =
        (Cursor.atPosition (utf8Bytes (before ++ '/' :: '/' :: rest)) (utf8Length before)).advance
          (lineComment ((utf8Bytes (before ++ '/' :: '/' :: rest)).drop (utf8Length before))) := rfl
    have scanned : lineComment (0x2F :: 0x2F :: utf8Bytes rest) =
        lineCommentFrom false 2 (utf8Bytes rest) := rfl
    rw [cursor, faces.bytes, bytes, scanned, Cursor.atPosition_advance, lineCommentFrom_shift]
  · exact buffer

/-- The slashes of the opener end no line. -/
theorem firstLineEnd_opener {front rest : List UInt8} {stop : Nat}
    (later : FirstLineEnd (front ++ [0x2F] ++ [0x2F] ++ rest) (front.length + 2) stop) :
    FirstLineEnd (front ++ [0x2F] ++ [0x2F] ++ rest) front.length stop := by
  have further : (front ++ [0x2F]).length = front.length + 1 := by
    rw [List.length_append]
    rfl
  apply FirstLineEnd.next
  · intro ends
    rw [List.append_assoc, List.append_assoc, List.singleton_append] at ends
    exact absurd (endsLine_append_iff.mp ends).1 (by decide)
  · apply later.next
    intro ends
    rw [List.append_assoc _ [0x2F], List.singleton_append, ← further] at ends
    exact absurd (endsLine_append_iff.mp ends).1 (by decide)

/-- Nothing is escaped behind the opener. -/
theorem passedLine_opener (front rest : List UInt8) :
    PassedLine (front ++ [0x2F] ++ [0x2F]) rest false := by
  constructor
  · rw [backslash_suffix_iff]
    decide
  · intro _ cut
    exact absurd (escapedReturn_suffix_iff.mp cut).1 (by decide)

/-- A line comment ends at the first line end from its opener on, or at the end of the source. -/
theorem lineComment_firstLineEnd (before text : List Char) (opens : ['/', '/'] <+: text) :
    ∃ stop, ScansLine before text stop ∧
      FirstLineEnd (utf8Bytes (before ++ text)) (utf8Length before) stop := by
  obtain ⟨rest, rfl⟩ := opens
  refine ⟨_, scansLine_bytes before rest, ?_⟩
  have source : utf8Bytes (before ++ (['/', '/'] ++ rest)) =
      utf8Bytes before ++ [0x2F] ++ [0x2F] ++ utf8Bytes rest := by
    rw [utf8Bytes_append, List.append_assoc, List.append_assoc]
    rfl
  have length : (utf8Bytes before ++ [0x2F] ++ [0x2F]).length = (utf8Bytes before).length + 2 := by
    rw [List.append_assoc, List.length_append]
    rfl
  rw [source, ← utf8Bytes_length before]
  exact firstLineEnd_opener (lineCommentFrom_firstLineEnd length (passedLine_opener _ _))

/-- A comment that goes on behind an escaped line break and ends at the next one. -/
theorem lineComment_firstLineEnd_escaped :
    ['/', '/'] <+: ['/', '/', 'é', '\\', '\r', '\n', 'b', '\n', 'c'] ∧
      ScansLine ['x'] ['/', '/', 'é', '\\', '\r', '\n', 'b', '\n', 'c'] 9 ∧
        FirstLineEnd (utf8Bytes ['x', '/', '/', 'é', '\\', '\r', '\n', 'b', '\n', 'c']) 1 9 := by
  have opens : ['/', '/'] <+: ['/', '/', 'é', '\\', '\r', '\n', 'b', '\n', 'c'] := by
    decide
  obtain ⟨stop, scans, first⟩ := lineComment_firstLineEnd ['x'] _ opens
  have nine : stop = 9 := scans.characters.symm.trans (by decide)
  rw [nine] at scans first
  exact ⟨opens, scans, first⟩

end JaiSyntax
