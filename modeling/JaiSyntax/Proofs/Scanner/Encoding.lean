import JaiSyntax.Text.Unit
import JaiSyntax.Text.Slice
/-!
Texts as bytes. A character below 128 is one byte with its code; any other is several bytes, none of them
below 128, and the first tells how many. A test against ASCII therefore has the same answer on a
character and on each of its bytes.
-/

set_option autoImplicit false

namespace JaiSyntax

open SourceUnit

def utf8Bytes (text : List Char) : List UInt8 := text.flatMap String.utf8EncodeChar

@[simp] theorem utf8Bytes_nil : utf8Bytes [] = [] := rfl

@[simp] theorem utf8Bytes_cons (character : Char) (rest : List Char) :
    utf8Bytes (character :: rest) = String.utf8EncodeChar character ++ utf8Bytes rest := rfl

theorem utf8Bytes_append (left right : List Char) :
    utf8Bytes (left ++ right) = utf8Bytes left ++ utf8Bytes right := List.flatMap_append

@[simp] theorem utf8Bytes_length (text : List Char) : (utf8Bytes text).length = utf8Length text := by
  induction text with
  | nil => rfl
  | cons character rest ih =>
      rw [utf8Bytes_cons, List.length_append, String.length_utf8EncodeChar, ih, utf8Length_cons]

structure Encodes (character : Char) (first : UInt8) (more : List UInt8) : Prop where
  width : utf8Width first = more.length + 1
  codes : ∀ byte ∈ first :: more,
    byte.toNat = character.toNat ∧ more = [] ∨ 128 ≤ byte.toNat ∧ 128 ≤ character.toNat

theorem utf8Width_ofNat {code : Nat} (byte : code < 256) :
    utf8Width (UInt8.ofNat code) =
      if code < 0xC0 then 1 else if code < 0xE0 then 2 else if code < 0xF0 then 3
      else if code < 0xF8 then 4 else 1 := by
  have same : (UInt8.ofNat code).toNat = code := UInt8.toNat_ofNat_of_lt' byte
  simp only [utf8Width, UInt8.le_iff_toNat_le, same, Bool.and_eq_true, decide_eq_true_eq,
    UInt8.reduceToNat]
  grind

/-- Bytes that are not ASCII stand for a character that is not. -/
theorem codes_of_high {code first : Nat} (more : List Nat) (high : 128 ≤ code)
    (bytes : ∀ byte ∈ first :: more, 128 ≤ byte ∧ byte < 256) :
    ∀ byte ∈ UInt8.ofNat first :: more.map UInt8.ofNat,
      byte.toNat = code ∧ more.map UInt8.ofNat = [] ∨ 128 ≤ byte.toNat ∧ 128 ≤ code := by
  rw [← List.map_cons]
  intro byte among
  obtain ⟨value, inside, rfl⟩ := List.mem_map.mp among
  obtain ⟨least, most⟩ := bytes value inside
  rw [UInt8.toNat_ofNat_of_lt' most]
  exact Or.inr ⟨least, high⟩

theorem toNat_lt_scalars (character : Char) : character.toNat < 0x110000 := by
  rcases character.valid with small | ⟨_, small⟩
  · exact Nat.lt_trans small (by decide)
  · exact small

theorem utf8EncodeChar_encodes (character : Char) :
    ∃ first more, String.utf8EncodeChar character = first :: more ∧ Encodes character first more := by
  have bound := toNat_lt_scalars character
  have value : character.val.toNat = character.toNat := rfl
  unfold String.utf8EncodeChar
  simp only [value]
  split
  · refine ⟨_, _, rfl, ?_, List.forall_mem_singleton.mpr (Or.inl ⟨?_, rfl⟩)⟩
    · rw [utf8Width_ofNat (by omega), if_pos (by omega), List.length_nil]
    · exact UInt8.toNat_ofNat_of_lt' (show _ < 256 by omega)
  have high : 128 ≤ character.toNat := by omega
  split
  · refine ⟨_, _, rfl, ?_, codes_of_high [_] high ?_⟩
    · rw [utf8Width_ofNat (by omega), if_neg (by omega), if_pos (by omega)]
      rfl
    · simp only [List.forall_mem_cons, List.not_mem_nil, false_implies, implies_true, and_true]
      omega
  split
  · refine ⟨_, _, rfl, ?_, codes_of_high [_, _] high ?_⟩
    · rw [utf8Width_ofNat (by omega), if_neg (by omega), if_neg (by omega), if_pos (by omega)]
      rfl
    · simp only [List.forall_mem_cons, List.not_mem_nil, false_implies, implies_true, and_true]
      omega
  · refine ⟨_, _, rfl, ?_, codes_of_high [_, _, _] high ?_⟩
    · rw [utf8Width_ofNat (by omega), if_neg (by omega), if_neg (by omega), if_neg (by omega),
        if_pos (by omega)]
      rfl
    · simp only [List.forall_mem_cons, List.not_mem_nil, false_implies, implies_true, and_true]
      omega

/-- The bytes of a text begin with one character only. -/
theorem utf8EncodeChar_append_inj {left right : Char} {leftMore rightMore : List UInt8}
    (same : String.utf8EncodeChar left ++ leftMore = String.utf8EncodeChar right ++ rightMore) :
    left = right ∧ leftMore = rightMore := by
  have decoded (character : Char) (more : List UInt8) :
      (String.utf8EncodeChar character ++ more).toByteArray.utf8DecodeChar? 0 = some character := by
    rw [List.toByteArray_append]
    exact ByteArray.utf8DecodeChar?_utf8EncodeChar_append
  have equal : some left = some right := by
    rw [← decoded left leftMore, ← decoded right rightMore, same]
  cases equal
  exact ⟨rfl, List.append_cancel_left same⟩

theorem utf8Bytes_isPrefix_iff (left right : List Char) :
    utf8Bytes left <+: utf8Bytes right ↔ left <+: right := by
  constructor
  · intro front
    induction left generalizing right with
    | nil => exact List.nil_prefix
    | cons character rest ih =>
        obtain ⟨more, whole⟩ := front
        rw [utf8Bytes_cons, List.append_assoc] at whole
        cases right with
        | nil =>
            have none := (List.append_eq_nil_iff.mp whole).1
            exact absurd none String.utf8EncodeChar_ne_nil
        | cons first after =>
            obtain ⟨rfl, later⟩ := utf8EncodeChar_append_inj whole
            exact List.cons_prefix_cons.mpr ⟨rfl, ih after ⟨more, later⟩⟩
  · rintro ⟨more, rfl⟩
    rw [utf8Bytes_append]
    exact List.prefix_append _ _

/-! ### Tests -/

/-- Tests that have one answer on a character and on each of its bytes. -/
def Uniform (onCharacter : Char → Bool) (onByte : UInt8 → Bool) : Prop :=
  ∀ character, ∀ byte ∈ String.utf8EncodeChar character, onByte byte = onCharacter character

/-- A test of codes that treats all codes from 128 on alike. -/
theorem uniform_of_code {onCharacter : Char → Bool} {onByte : UInt8 → Bool} (test : Nat → Bool)
    (characters : ∀ character : Char, onCharacter character = test character.toNat)
    (bytes : ∀ byte : UInt8, onByte byte = test byte.toNat)
    (alike : ∀ code, 128 ≤ code → test code = test 128) : Uniform onCharacter onByte := by
  intro character byte among
  obtain ⟨first, more, same, encodes⟩ := utf8EncodeChar_encodes character
  rw [same] at among
  rw [characters, bytes]
  rcases encodes.codes byte among with ⟨equal, _⟩ | ⟨high, alsoHigh⟩
  · rw [equal]
  · rw [alike _ high, alike _ alsoHigh]

theorem uniform_is (character : Char) (ascii : character.toNat < 128) :
    Uniform (is character) (is character) := by
  refine uniform_of_code (· == character.toNat) (fun _ => rfl) (fun _ => rfl) ?_
  intro code high
  have one : (code == character.toNat) = false := by simp; omega
  have other : (128 == character.toNat) = false := by simp; omega
  rw [one, other]

theorem Uniform.or {onCharacter onCharacter' : Char → Bool} {onByte onByte' : UInt8 → Bool}
    (left : Uniform onCharacter onByte) (right : Uniform onCharacter' onByte') :
    Uniform (fun character => onCharacter character || onCharacter' character)
      (fun byte => onByte byte || onByte' byte) := by
  intro character byte among
  simp only [left character byte among, right character byte among]

theorem uniform_isBlank : Uniform isBlank isBlank :=
  (uniform_is _ (by decide)).or (uniform_is _ (by decide))

theorem uniform_isSpace : Uniform isSpace isSpace :=
  ((uniform_isBlank.or (uniform_is _ (by decide))).or (uniform_is _ (by decide))).or
    (uniform_is _ (by decide))

theorem uniform_range (least most : Nat) (ascii : most < 128) :
    Uniform (fun character => decide (least ≤ code character) && decide (code character ≤ most))
      (fun byte => decide (least ≤ code byte) && decide (code byte ≤ most)) := by
  refine uniform_of_code (fun value => decide (least ≤ value) && decide (value ≤ most))
    (fun _ => rfl) (fun _ => rfl) ?_
  intro value high
  have one : decide (value ≤ most) = false := by simp; omega
  have other : decide (128 ≤ most) = false := by simp; omega
  rw [one, other, Bool.and_false, Bool.and_false]

theorem uniform_isDigit : Uniform isDigit isDigit := uniform_range 48 57 (by decide)

theorem uniform_isOctalDigit : Uniform isOctalDigit isOctalDigit := uniform_range 48 55 (by decide)

theorem uniform_isHexDigit : Uniform isHexDigit isHexDigit :=
  (uniform_isDigit.or (uniform_range 65 70 (by decide))).or (uniform_range 97 102 (by decide))

theorem uniform_continuesWord : Uniform continuesWord continuesWord := by
  refine Uniform.or ((((uniform_is _ (by decide)).or uniform_isDigit).or
    (uniform_range 65 90 (by decide))).or (uniform_range 97 122 (by decide))) ?_
  refine uniform_of_code (fun value => decide (128 ≤ value)) (fun _ => rfl) (fun _ => rfl) ?_
  intro value high
  simp [high]

end JaiSyntax
