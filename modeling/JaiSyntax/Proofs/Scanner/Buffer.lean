import JaiSyntax.Proofs.Scanner.Encoding
import JaiSyntax.Text.Cursor
/-!
Scanners over a source in memory. The bytes of a source stand at the front of a buffer of zero bytes, so
that a scanner may look one byte past the end. Every read is by index: a read outside the buffer, or
further than that one byte, has no result, and neither has a round of a loop that does not move on. A
scanner that gives a result has therefore stopped and has read nothing else.
-/

set_option autoImplicit false

namespace JaiSyntax.Buffer

open SourceUnit

/-! ### Reads -/

/-- The size of the buffer for a source: the source with two bytes more, in whole blocks of 64. -/
def paddedLength (length : Nat) : Nat := (length + 2 + 63) / 64 * 64

def padded (source : List UInt8) : List UInt8 :=
  source ++ List.replicate (paddedLength source.length - source.length) 0

section Scanners

variable (source : List UInt8)

/-- The byte at an index that is at most one past the end of the source. -/
def byteAt (index : Nat) : Option UInt8 :=
  if index ≤ source.length + 1 then (padded source)[index]? else none

/-- The bytes of the source from a position on, if it is not past the end. -/
def restAt (position : Nat) : Option (List UInt8) :=
  if position ≤ source.length then some (((padded source).take source.length).drop position) else none

/-- The first byte from a position on that passes a test, and where it is; at the end a zero byte. -/
def seek (test : UInt8 → Bool) (position : Nat) : Option (UInt8 × Nat) := do
  let rest ← restAt source position
  match rest.findIdx? test with
  | some offset =>
      let byte ← byteAt source (position + offset)
      some (byte, position + offset)
  | none => some (0, source.length)

/-- Go on at another position. There is no result unless it is a later one, and not past the two bytes
after the source. -/
def onward {answer : Type} (position next : Nat)
    (further : position < next ∧ next ≤ source.length + 2 → Option answer) : Option answer :=
  if moved : position < next ∧ next ≤ source.length + 2 then further moved else none

def advanceWhile (test : UInt8 → Bool) (position : Nat) : Option Nat := do
  let byte ← byteAt source position
  if test byte then
    onward source position (position + 1) (fun _ => advanceWhile test (position + 1))
  else some position
termination_by source.length + 2 - position

def advanceUpTo (test : UInt8 → Bool) : Nat → Nat → Option Nat
  | 0, position => some position
  | limit + 1, position => do
      let byte ← byteAt source position
      if test byte then advanceUpTo test limit (position + 1) else some position

def advanceCharacter (position : Nat) : Option Nat := do
  let byte ← byteAt source position
  some (min (position + utf8Width byte) source.length)

def advanceLineBreak (position : Nat) : Option (Bool × Nat) := do
  let byte ← byteAt source position
  let next ← byteAt source (position + 1)
  if is '\n' byte then some (true, position + 1)
  else if is '\r' byte && is '\n' next then some (true, position + 2)
  else some (false, position)

/-! ### Comments -/

def blockCommentFrom (depth position : Nat) : Option (CommentEnd × Nat) := do
  let (byte, found) ← seek source (fun byte => is '*' byte || is '/' byte) position
  if is '/' byte || is '*' byte then
    let next ← byteAt source (found + 1)
    if is '/' byte && is '*' next then
      onward source position (found + 2) (fun _ => blockCommentFrom (depth + 1) (found + 2))
    else if is '*' byte && is '/' next then
      if depth ≤ 1 then some (.terminated, found + 2)
      else onward source position (found + 2) (fun _ => blockCommentFrom (depth - 1) (found + 2))
    else onward source position (found + 1) (fun _ => blockCommentFrom depth (found + 1))
  else if byte == 0 && source.length ≤ found then some (.unterminated depth, found)
  else onward source position (found + 1) (fun _ => blockCommentFrom depth (found + 1))
termination_by source.length + 2 - position

def blockComment (position : Nat) : Option (CommentEnd × Nat) :=
  blockCommentFrom source 1 (position + 2)

/-- The position after a run of backslashes and the character or the line break that it escapes. -/
def advanceEscaped (position : Nat) : Option Nat := do
  let escaped ← advanceWhile source (is '\\') position
  let (broken, after) ← advanceLineBreak source escaped
  if broken || source.length ≤ after then some after else advanceCharacter source after

def lineCommentFrom (position : Nat) : Option (Unit × Nat) := do
  let (byte, found) ← seek source (fun byte => is '\\' byte || is '\n' byte) position
  if is '\\' byte then
    let next ← advanceEscaped source found
    onward source position next (fun _ => lineCommentFrom next)
  else some ((), found)
termination_by source.length + 2 - position

def lineComment (position : Nat) : Option (Unit × Nat) := lineCommentFrom source (position + 2)

/-! ### Strings -/

def fixedHexEscape (form : EscapeForm) (digits position : Nat) : Option (EscapeForm × Nat) := do
  let stop ← advanceUpTo source isHexDigit digits position
  some (if stop - position == digits then form else .invalid, stop)

def bracedEscape (position : Nat) : Option (EscapeForm × Nat) := do
  let stop ← advanceWhile source isHexDigit position
  if position < stop then
    let byte ← byteAt source stop
    if is '\x7d' byte then some (.unicodeBraced, stop + 1) else some (.invalid, stop)
  else some (.invalid, stop)

def escapeAfterBackslash (position : Nat) : Option (EscapeForm × Nat) := do
  let byte ← byteAt source position
  if is 'x' byte then fixedHexEscape source .hex 2 (position + 1)
  else if is 'u' byte then
    let next ← byteAt source (position + 1)
    if is '\x7b' next then bracedEscape source (position + 2)
    else fixedHexEscape source .unicode4 4 (position + 1)
  else if is 'U' byte then
    let stop ← advanceUpTo source isHexDigit 8 (position + 1)
    if stop - (position + 1) == 8 then some (.unicode8, stop) else some (.single, position + 1)
  else if isOctalDigit byte then
    let stop ← advanceUpTo source isOctalDigit 3 position
    some (.octal, stop)
  else if source.length ≤ position then some (.invalid, position)
  else
    let (broken, after) ← advanceLineBreak source position
    if broken then some (.single, after)
    else
      let next ← advanceCharacter source position
      some (.single, next)

def stringPiece (position : Nat) : Option (StringPiece × Nat) := do
  let byte ← byteAt source position
  if is '"' byte then some (.close, position + 1)
  else if is '\\' byte then
    let (form, stop) ← escapeAfterBackslash source (position + 1)
    some (.escape form, stop)
  else if source.length ≤ position then some (.endOfInput, position)
  else if is '\n' byte then some (.lineBreak, position + 1)
  else
    let (_, stop) ← seek source (fun byte => is '"' byte || is '\\' byte || is '\n' byte) position
    some (.content, stop)

/-! ### Heredocs -/

/-- The position after the characters here that are not white space. -/
def advanceWord (position : Nat) : Option Nat :=
  if source.length ≤ position then some position
  else do
    let byte ← byteAt source position
    if isSpace byte then some position
    else
      let next ← advanceCharacter source position
      onward source position next (fun _ => advanceWord next)
termination_by source.length + 2 - position

/-- The range of a heredoc delimiter after blanks, if there is one, and where the search ends. -/
def heredocDelimiter (position : Nat) : Option (Option (Nat × Nat) × Nat) := do
  let start ← advanceWhile source isBlank position
  let stop ← advanceWord source start
  some (if start < stop then some (start, stop) else none, stop)

/-- Where the delimiter starts on a line that closes a heredoc, if the line does. -/
def closingStart? (delimiter : List UInt8) (line : Nat) : Option (Option Nat) := do
  let start ← advanceWhile source isBlank line
  let rest ← restAt source start
  if delimiter.isPrefixOf rest then
    let next ← byteAt source (start + delimiter.length)
    some (if continuesWord next then none else some start)
  else some none

def heredocBody (delimiter : List UInt8) (position : Nat) : Option (Bool × Nat) := do
  let (_, found) ← seek source (is '\n') position
  let (broken, line) ← advanceLineBreak source found
  if broken then
    match ← closingStart? source delimiter line with
    | some start => some (true, start)
    | none => onward source position line (fun _ => heredocBody delimiter line)
  else some (false, line)
termination_by source.length + 2 - position

end Scanners

variable {source : List UInt8} {position : Nat} {text rest : List Char} {character : Char}
  {onCharacter : Char → Bool} {onByte : UInt8 → Bool}

/-! ### What a read gives -/

/-- The buffer goes on for two bytes after any source. -/
theorem lt_paddedLength (length : Nat) : length + 1 < paddedLength length := by
  unfold paddedLength
  omega

theorem byteAt_eq (near : position ≤ source.length + 1) :
    byteAt source position = some ((source.drop position).headD 0) := by
  have room := lt_paddedLength source.length
  rw [byteAt, if_pos near, padded]
  by_cases inside : position < source.length
  · rw [List.getElem?_append_left inside, List.headD_eq_head?_getD, List.head?_drop,
      List.getElem?_eq_getElem inside, Option.getD_some]
  · rw [List.getElem?_append_right (by omega), List.getElem?_replicate_of_lt (by omega),
      List.drop_eq_nil_of_le (by omega), List.headD_nil]

theorem restAt_eq (inside : position ≤ source.length) :
    restAt source position = some (source.drop position) := by
  rw [restAt, if_pos inside, padded, List.take_left]

/-! ### Rounds of the loops

Every round of a loop moves on and stays in bounds, so no guard stops a loop. -/

section Rounds

variable {test : UInt8 → Bool} {next found : Nat} {byte : UInt8}

theorem onward_eq {answer : Type} {further : position < next ∧ next ≤ source.length + 2 → Option answer}
    (moved : position < next ∧ next ≤ source.length + 2) :
    onward source position next further = further moved := dif_pos moved

theorem byteAt_near (read : byteAt source position = some byte) : position ≤ source.length + 1 := by
  rw [byteAt] at read
  split at read
  · assumption
  · cases read

theorem utf8Width_pos (byte : UInt8) : 0 < utf8Width byte := by
  unfold utf8Width
  grind

/-- What a search finds is the byte at a position of the source, or a zero byte at the end. -/
theorem seek_eq_some (finds : seek source test position = some (byte, found)) :
    position ≤ found ∧ found ≤ source.length ∧
      (byteAt source found = some byte ∨ byte = 0) := by
  by_cases inside : position ≤ source.length
  · rw [seek, restAt_eq inside] at finds
    simp only [Option.bind_eq_bind, Option.bind_some] at finds
    cases hit : (source.drop position).findIdx? test with
    | none =>
        rw [hit] at finds
        obtain ⟨rfl, rfl⟩ := Prod.mk.inj (Option.some.inj finds)
        exact ⟨inside, Nat.le_refl _, Or.inr rfl⟩
    | some offset =>
        obtain ⟨within, -⟩ := List.findIdx?_eq_some_iff_getElem.mp hit
        rw [List.length_drop] at within
        rw [hit] at finds
        obtain ⟨read, there, same⟩ := Option.bind_eq_some_iff.mp finds
        obtain ⟨rfl, rfl⟩ := Prod.mk.inj (Option.some.inj same)
        exact ⟨Nat.le_add_right _ _, by omega, Or.inl there⟩
  · rw [seek, restAt, if_neg inside] at finds
    cases finds

theorem advanceWhile_eq (test : UInt8 → Bool) (position : Nat) :
    advanceWhile source test position = (byteAt source position).bind (fun byte =>
      if test byte then advanceWhile source test (position + 1) else some position) := by
  rw [advanceWhile]
  refine Option.bind_congr ?_
  intro byte read
  have near := byteAt_near read
  rw [onward_eq (by omega)]

theorem le_advanceWhile {position : Nat} (stops : advanceWhile source test position = some next) :
    position ≤ next := by
  rw [advanceWhile_eq] at stops
  obtain ⟨byte, read, round⟩ := Option.bind_eq_some_iff.mp stops
  have near := byteAt_near read
  split at round
  · have further := le_advanceWhile round
    omega
  · exact Nat.le_of_eq (Option.some.inj round)
termination_by source.length + 2 - position

theorem advanceLineBreak_cases {broken : Bool}
    (moves : advanceLineBreak source position = some (broken, next)) :
    position ≤ source.length ∧
      (broken = true ∧ position < next ∧ next ≤ position + 2 ∨ broken = false ∧ next = position) := by
  obtain ⟨byte, read, moves⟩ := Option.bind_eq_some_iff.mp moves
  obtain ⟨second, after, moves⟩ := Option.bind_eq_some_iff.mp moves
  have near := byteAt_near after
  grind

theorem advanceCharacter_cases (moves : advanceCharacter source position = some next) :
    ∃ width, 0 < width ∧ next = min (position + width) source.length := by
  obtain ⟨byte, read, same⟩ := Option.bind_eq_some_iff.mp moves
  exact ⟨utf8Width byte, utf8Width_pos byte, (Option.some.inj same).symm⟩

theorem advanceEscaped_onward (here : byteAt source position = some byte)
    (backslash : is '\\' byte = true) (moves : advanceEscaped source position = some next) :
    position < next ∧ next ≤ source.length + 2 := by
  obtain ⟨escaped, stops, moves⟩ := Option.bind_eq_some_iff.mp moves
  obtain ⟨⟨broken, after⟩, breaks, moves⟩ := Option.bind_eq_some_iff.mp moves
  rw [advanceWhile_eq, here, Option.bind_some, if_pos backslash] at stops
  have beyond := le_advanceWhile stops
  have breaks := advanceLineBreak_cases breaks
  simp only at moves
  split at moves
  · cases Option.some.inj moves
    omega
  · obtain ⟨width, some, rfl⟩ := advanceCharacter_cases moves
    grind

theorem blockCommentFrom_eq (depth position : Nat) :
    blockCommentFrom source depth position =
      (seek source (fun byte => is '*' byte || is '/' byte) position).bind (fun (byte, found) =>
        if is '/' byte || is '*' byte then
          (byteAt source (found + 1)).bind (fun next =>
            if is '/' byte && is '*' next then blockCommentFrom source (depth + 1) (found + 2)
            else if is '*' byte && is '/' next then
              if depth ≤ 1 then some (.terminated, found + 2)
              else blockCommentFrom source (depth - 1) (found + 2)
            else blockCommentFrom source depth (found + 1))
        else if byte == 0 && source.length ≤ found then some (.unterminated depth, found)
        else blockCommentFrom source depth (found + 1)) := by
  rw [blockCommentFrom]
  refine Option.bind_congr ?_
  rintro ⟨byte, found⟩ finds
  obtain ⟨least, most, -⟩ := seek_eq_some finds
  have one : position < found + 1 ∧ found + 1 ≤ source.length + 2 := by omega
  have two : position < found + 2 ∧ found + 2 ≤ source.length + 2 := by omega
  simp only [onward_eq one, onward_eq two, Option.bind_eq_bind]

theorem lineCommentFrom_eq (position : Nat) :
    lineCommentFrom source position =
      (seek source (fun byte => is '\\' byte || is '\n' byte) position).bind (fun (byte, found) =>
        if is '\\' byte then (advanceEscaped source found).bind (lineCommentFrom source)
        else some ((), found)) := by
  rw [lineCommentFrom]
  refine Option.bind_congr ?_
  rintro ⟨byte, found⟩ finds
  obtain ⟨least, -, here⟩ := seek_eq_some finds
  by_cases backslash : is '\\' byte = true
  · simp only [if_pos backslash]
    refine Option.bind_congr ?_
    intro next moves
    have there : byteAt source found = some byte := by
      refine here.resolve_right ?_
      rintro rfl
      cases backslash
    have moved := advanceEscaped_onward there backslash moves
    rw [onward_eq (by omega)]
  · simp only [if_neg backslash]

theorem advanceWord_eq (position : Nat) :
    advanceWord source position =
      if source.length ≤ position then some position
      else (byteAt source position).bind (fun byte =>
        if isSpace byte then some position
        else (advanceCharacter source position).bind (advanceWord source)) := by
  rw [advanceWord]
  split
  · rfl
  · refine Option.bind_congr ?_
    intro byte _
    split
    · rfl
    · refine Option.bind_congr ?_
      intro next moves
      obtain ⟨width, some, rfl⟩ := advanceCharacter_cases moves
      rw [onward_eq (by omega)]

theorem heredocBody_eq (delimiter : List UInt8) (position : Nat) :
    heredocBody source delimiter position =
      (seek source (is '\n') position).bind (fun (_, found) =>
        (advanceLineBreak source found).bind (fun (broken, line) =>
          if broken then
            (closingStart? source delimiter line).bind (fun
              | some start => some (true, start)
              | none => heredocBody source delimiter line)
          else some (false, line))) := by
  rw [heredocBody]
  refine Option.bind_congr ?_
  rintro ⟨byte, found⟩ finds
  refine Option.bind_congr ?_
  rintro ⟨broken, line⟩ breaks
  obtain ⟨least, -⟩ := seek_eq_some finds
  cases broken with
  | false => rfl
  | true =>
      obtain ⟨inside, ⟨-, later, near⟩ | ⟨⟨⟩, -⟩⟩ := advanceLineBreak_cases breaks
      simp only [if_true]
      refine Option.bind_congr ?_
      rintro (_ | start) _
      · rw [onward_eq (by omega)]
      · rfl

end Rounds

/-- A position from which on the bytes of a source are those of a text. -/
structure Faces (source : List UInt8) (position : Nat) (text : List Char) : Prop where
  within : position ≤ source.length
  bytes : source.drop position = utf8Bytes text

namespace Faces

theorem length (faces : Faces source position text) :
    position + utf8Length text = source.length := by
  have same := congrArg List.length faces.bytes
  have within := faces.within
  rw [List.length_drop, utf8Bytes_length] at same
  omega

theorem append (front : List Char) (faces : Faces source position (front ++ text)) :
    Faces source (position + utf8Length front) text := by
  have whole := faces.length
  rw [utf8Length_append] at whole
  constructor
  · omega
  · rw [← List.drop_drop, faces.bytes, utf8Bytes_append, List.drop_left' (utf8Bytes_length front)]

theorem next (faces : Faces source position (character :: rest)) :
    Faces source (position + character.utf8Size) rest := by
  have front : Faces source position ([character] ++ rest) := faces
  exact front.append [character]

theorem drop (faces : Faces source position text) (count : Nat) :
    Faces source (position + utf8Length (text.take count)) (text.drop count) := by
  refine append (text.take count) ?_
  rw [List.take_append_drop]
  exact faces

/-- A position in a text. -/
theorem of_append (before text : List Char) :
    Faces (utf8Bytes (before ++ text)) (utf8Length before) text := by
  constructor
  · rw [utf8Bytes_length, utf8Length_append]
    omega
  · rw [utf8Bytes_append, List.drop_left' (utf8Bytes_length before)]

end Faces

def firstByte (text : List Char) : UInt8 := (utf8Bytes text).headD 0

theorem Faces.byteAt (faces : Faces source position text) :
    byteAt source position = some (firstByte text) := by
  have within := faces.within
  rw [byteAt_eq (by omega), faces.bytes]
  rfl

theorem onByte_firstByte (uniform : Uniform onCharacter onByte) (character : Char)
    (rest : List Char) : onByte (firstByte (character :: rest)) = onCharacter character := by
  obtain ⟨first, more, same, -⟩ := utf8EncodeChar_encodes character
  have among : first ∈ String.utf8EncodeChar character := by
    rw [same]
    exact List.mem_cons_self
  have front : firstByte (character :: rest) = first := by
    rw [firstByte, utf8Bytes_cons, same, List.cons_append, List.headD_cons]
  rw [front, uniform character first among]

/-- The first byte of a text is an ASCII character just if the text starts with it. -/
theorem is_firstByte (expected : Char) (ascii : expected.toNat < 128) (some : 0 < expected.toNat)
    (text : List Char) : is expected (firstByte text) = nextIs expected text := by
  cases text with
  | nil =>
      change ((0 : Nat) == expected.toNat) = false
      rw [beq_eq_false_iff_ne]
      omega
  | cons character rest => exact onByte_firstByte (uniform_is _ ascii) character rest

/-- A character that an ASCII test accepts takes one byte. -/
theorem utf8Size_of_ascii {character : Char} (ascii : character.toNat < 128) :
    character.utf8Size = 1 := by
  obtain ⟨first, more, same, encodes⟩ := utf8EncodeChar_encodes character
  rw [← String.length_utf8EncodeChar, same, List.length_cons]
  rcases encodes.codes first List.mem_cons_self with ⟨_, none⟩ | ⟨_, high⟩
  · rw [none, List.length_nil]
  · omega

/-! ### What the moves reach -/

theorem seek_end (faces : Faces source position []) (test : UInt8 → Bool) :
    seek source test position = some (0, position) := by
  have whole := faces.length
  rw [utf8Length_nil, Nat.add_zero] at whole
  rw [seek, restAt_eq faces.within, faces.bytes, utf8Bytes_nil]
  simp [whole]

theorem seek_here (faces : Faces source position (character :: rest))
    (uniform : Uniform onCharacter onByte) (found : onCharacter character = true) :
    seek source onByte position = some (firstByte (character :: rest), position) := by
  have here := faces.byteAt
  obtain ⟨first, more, same, -⟩ := utf8EncodeChar_encodes character
  have passes : onByte first = true := by
    rw [uniform character first (by rw [same]; exact List.mem_cons_self), found]
  rw [seek, restAt_eq faces.within, faces.bytes, utf8Bytes_cons, same]
  simp [List.findIdx?_cons, passes, here]

/-- What is sought is not in the character here. -/
theorem seek_next (faces : Faces source position (character :: rest))
    (uniform : Uniform onCharacter onByte) (skipped : onCharacter character = false) :
    seek source onByte position = seek source onByte (position + character.utf8Size) := by
  have none : (String.utf8EncodeChar character).findIdx? onByte = none := by
    rw [List.findIdx?_eq_none_iff]
    intro byte among
    rw [uniform character byte among, skipped]
  rw [seek, seek, restAt_eq faces.within, restAt_eq faces.next.within, faces.bytes,
    faces.next.bytes, utf8Bytes_cons]
  simp only [Option.bind_eq_bind, Option.bind_some, List.findIdx?_append, none,
    String.length_utf8EncodeChar, Option.none_or]
  cases (utf8Bytes rest).findIdx? onByte with
  | none => rfl
  | some offset =>
      have same : position + (offset + character.utf8Size) =
          position + character.utf8Size + offset := by omega
      simp only [Option.map_some, same]

theorem seek_run (faces : Faces source position text) (uniform : Uniform onCharacter onByte) :
    seek source onByte position =
      some (firstByte (text.drop (runLength (fun character => !onCharacter character) text)),
        position + utf8Length
          (text.take (runLength (fun character => !onCharacter character) text))) := by
  induction text generalizing position with
  | nil => rw [seek_end faces]; rfl
  | cons character rest ih =>
      cases found : onCharacter character with
      | true => simp [seek_here faces uniform found, runLength, found]
      | false =>
          rw [seek_next faces uniform found, ih faces.next]
          simp [runLength, found, Nat.add_assoc]

structure AsciiTest (onCharacter : Char → Bool) (onByte : UInt8 → Bool) : Prop where
  uniform : Uniform onCharacter onByte
  ascii : ∀ character, onCharacter character = true → character.toNat < 128
  zero : onByte 0 = false

theorem AsciiTest.firstByte_nil (test : AsciiTest onCharacter onByte) :
    onByte (firstByte []) = false := test.zero

theorem advanceWhile_run (faces : Faces source position text)
    (test : AsciiTest onCharacter onByte) :
    advanceWhile source onByte position = some (position + runLength onCharacter text) := by
  induction text generalizing position with
  | nil =>
      rw [advanceWhile_eq, faces.byteAt]
      simp [test.firstByte_nil, runLength]
  | cons character rest ih =>
      have first := onByte_firstByte test.uniform character rest
      rw [advanceWhile_eq, faces.byteAt]
      cases passes : onCharacter character with
      | false => simp [first, runLength, passes]
      | true =>
          have size := utf8Size_of_ascii (test.ascii character passes)
          have next := faces.next
          rw [size] at next
          simp [first, runLength, passes, ih next]
          omega

theorem advanceUpTo_run (faces : Faces source position text)
    (test : AsciiTest onCharacter onByte) (limit : Nat) :
    advanceUpTo source onByte limit position =
      some (position + runLength onCharacter (text.take limit)) := by
  induction limit generalizing position text with
  | zero => rfl
  | succ limit ih =>
      rw [advanceUpTo, faces.byteAt]
      cases text with
      | nil => simp [test.firstByte_nil, runLength]
      | cons character rest =>
          have first := onByte_firstByte test.uniform character rest
          cases passes : onCharacter character with
          | false => simp [first, runLength, passes]
          | true =>
              have size := utf8Size_of_ascii (test.ascii character passes)
              have next := faces.next
              rw [size] at next
              simp [first, runLength, passes, ih next]
              omega

theorem advanceCharacter_next (faces : Faces source position (character :: rest)) :
    advanceCharacter source position = some (position + character.utf8Size) := by
  obtain ⟨first, more, same, encodes⟩ := utf8EncodeChar_encodes character
  have front : firstByte (character :: rest) = first := by
    rw [firstByte, utf8Bytes_cons, same, List.cons_append, List.headD_cons]
  have size : utf8Width first = character.utf8Size := by
    rw [encodes.width, ← String.length_utf8EncodeChar, same, List.length_cons]
  have inside := faces.next.within
  rw [advanceCharacter, faces.byteAt, front]
  simp [size, inside]

theorem advanceLineBreak_run (faces : Faces source position text) :
    advanceLineBreak source position =
      some (decide (0 < lineBreakLength text), position + lineBreakLength text) := by
  have within := faces.within
  have next : byteAt source (position + 1) = some ((source.drop (position + 1)).headD 0) :=
    byteAt_eq (by omega)
  rw [advanceLineBreak, faces.byteAt, next]
  simp only [Option.bind_eq_bind, Option.bind_some,
    is_firstByte '\n' (by decide) (by decide),
    is_firstByte '\r' (by decide) (by decide)]
  cases text with
  | nil => simp [nextIs, lineBreakLength]
  | cons character rest =>
      change (if is '\n' character then _ else _) =
        some (decide (0 < if is '\n' character then _ else _),
          position + if is '\n' character then _ else _)
      by_cases feed : is '\n' character
      · simp only [if_pos feed, Nat.one_pos, decide_true]
      · simp only [if_neg feed]
        by_cases carriage : is '\r' character
        · have same : character.toNat = 13 := by simpa [is, code] using carriage
          have after := faces.next
          rw [utf8Size_of_ascii (by omega)] at after
          have feeds := is_firstByte '\n' (by decide) (by decide) rest
          rw [firstByte, ← after.bytes] at feeds
          change (if (is '\r' character && is '\n' ((source.drop (position + 1)).headD 0)) = true
            then _ else _) = _
          rw [feeds, carriage]
          cases nextIs '\n' rest <;> simp
        · simp [nextIs, carriage]

end JaiSyntax.Buffer
