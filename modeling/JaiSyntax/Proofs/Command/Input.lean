import JaiSyntax.Command.Report
import JaiSyntax.Proofs.Errors.Bounds
import JaiSyntax.Proofs.Scanner.Encoding
import JaiSyntax.Proofs.Spans.Exact
/-!
The bytes that are a source. Decoding reverses the UTF-8 form of a text, and fails at the first byte
that no character starts with. So bytes hold a source just if they are the form of a text and not too
many for 32-bit offsets, and then the spans of all its tokens, nodes and errors have such offsets.
-/

set_option autoImplicit false

namespace JaiSyntax

open String (utf8EncodeChar)

/-! ### Single characters -/

theorem leadingBits?_eq_some_iff {lowest highest byte : UInt8} {bits : Nat} :
    leadingBits? lowest highest byte = some bits ↔
      byte.toNat = lowest.toNat + bits ∧ byte.toNat ≤ highest.toNat := by
  rw [leadingBits?, Option.ite_none_right_eq_some, UInt8.le_iff_toNat_le, UInt8.le_iff_toNat_le,
    Option.some.injEq]
  omega

theorem continuationBits?_eq_some_iff {byte : UInt8} {bits : Nat} :
    continuationBits? byte = some bits ↔ byte.toNat = 0x80 + bits ∧ bits < 64 := by
  rw [continuationBits?, Option.ite_none_right_eq_some, UInt8.le_iff_toNat_le, UInt8.lt_iff_toNat_lt,
    Option.some.injEq]
  simp only [UInt8.reduceToNat]
  omega

theorem scalarFrom?_eq_some_iff {least code : Nat} {character : Char} :
    scalarFrom? least code = some character ↔ least ≤ code ∧ character.toNat = code := by
  rw [scalarFrom?, Option.ite_none_right_eq_some, scalar?_eq_some_iff]

/-- The bytes of a code point as numbers. -/
def utf8Codes (code : Nat) : List Nat :=
  if code < 0x80 then [code]
  else if code < 0x800 then [0xC0 + code / 64, 0x80 + code % 64]
  else if code < 0x10000 then [0xE0 + code / 4096, 0x80 + code / 64 % 64, 0x80 + code % 64]
  else [0xF0 + code / 262144, 0x80 + code / 4096 % 64, 0x80 + code / 64 % 64, 0x80 + code % 64]

theorem map_toNat_utf8EncodeChar (character : Char) :
    (utf8EncodeChar character).map UInt8.toNat = utf8Codes character.toNat := by
  have bound := toNat_lt_scalars character
  have value : character.val.toNat = character.toNat := rfl
  unfold utf8EncodeChar utf8Codes
  simp only [value, ← Nat.lt_succ_iff]
  repeat' split
  all_goals
    simp only [List.map_cons, List.map_nil, UInt8.toNat_ofNat', List.cons.injEq, and_true]
    omega

theorem utf8EncodeChar_eq_iff {character : Char} {bytes : List UInt8} :
    utf8EncodeChar character = bytes ↔ utf8Codes character.toNat = bytes.map UInt8.toNat := by
  rw [← map_toNat_utf8EncodeChar, List.map_inj_right (fun _ _ => UInt8.toNat_inj.mp)]

theorem oneByte?_eq_some_iff {first : UInt8} {character : Char} :
    oneByte? first = some character ↔ utf8EncodeChar character = [first] := by
  rw [utf8EncodeChar_eq_iff, oneByte?, Option.ite_none_right_eq_some, scalar?_eq_some_iff,
    UInt8.lt_iff_toNat_lt]
  grind [utf8Codes]

theorem twoBytes?_eq_some_iff {first second : UInt8} {character : Char} :
    twoBytes? first second = some character ↔ utf8EncodeChar character = [first, second] := by
  simp only [utf8EncodeChar_eq_iff, twoBytes?, Option.bind_eq_bind, Option.bind_eq_some_iff,
    leadingBits?_eq_some_iff, continuationBits?_eq_some_iff, scalarFrom?_eq_some_iff,
    UInt8.reduceToNat]
  constructor
  · rintro ⟨high, leading, low, last, least, same⟩
    grind [utf8Codes]
  · intro same
    refine ⟨character.toNat / 64, ?_, character.toNat % 64, ?_⟩ <;> grind [utf8Codes]

theorem threeBytes?_eq_some_iff {first second third : UInt8} {character : Char} :
    threeBytes? first second third = some character ↔
      utf8EncodeChar character = [first, second, third] := by
  simp only [utf8EncodeChar_eq_iff, threeBytes?, Option.bind_eq_bind, Option.bind_eq_some_iff,
    leadingBits?_eq_some_iff, continuationBits?_eq_some_iff, scalarFrom?_eq_some_iff,
    UInt8.reduceToNat]
  constructor
  · rintro ⟨high, leading, middle, next, low, last, least, same⟩
    grind [utf8Codes]
  · intro same
    refine ⟨character.toNat / 4096, ?_, character.toNat / 64 % 64, ?_, character.toNat % 64, ?_⟩ <;>
      grind [utf8Codes]

theorem fourBytes?_eq_some_iff {first second third fourth : UInt8} {character : Char} :
    fourBytes? first second third fourth = some character ↔
      utf8EncodeChar character = [first, second, third, fourth] := by
  have bound := toNat_lt_scalars character
  simp only [utf8EncodeChar_eq_iff, fourBytes?, Option.bind_eq_bind, Option.bind_eq_some_iff,
    leadingBits?_eq_some_iff, continuationBits?_eq_some_iff, scalarFrom?_eq_some_iff,
    UInt8.reduceToNat]
  constructor
  · rintro ⟨high, leading, upper, next, lower, further, low, last, least, same⟩
    grind [utf8Codes]
  · intro same
    refine ⟨character.toNat / 262144, ?_, character.toNat / 4096 % 64, ?_,
      character.toNat / 64 % 64, ?_, character.toNat % 64, ?_⟩ <;> grind [utf8Codes]

theorem utf8EncodeChar_cases (character : Char) :
    (∃ first, utf8EncodeChar character = [first]) ∨
      (∃ first second, utf8EncodeChar character = [first, second]) ∨
      (∃ first second third, utf8EncodeChar character = [first, second, third]) ∨
      ∃ first second third fourth, utf8EncodeChar character = [first, second, third, fourth] := by
  unfold utf8EncodeChar
  simp only
  split
  · exact .inl ⟨_, rfl⟩
  split
  · exact .inr (.inl ⟨_, _, rfl⟩)
  split
  · exact .inr (.inr (.inl ⟨_, _, _, rfl⟩))
  · exact .inr (.inr (.inr ⟨_, _, _, _, rfl⟩))

/-- The first bytes of a longer form are not the form of a character. -/
theorem eq_none_of_longer {character : Char} (front : List UInt8) {back : List UInt8}
    {decoded : Option Char} (whole : utf8EncodeChar character = front ++ back) (longer : back ≠ [])
    (decodes : ∀ other, decoded = some other ↔ utf8EncodeChar other = front) : decoded = none := by
  refine Option.eq_none_iff_forall_ne_some.mpr (fun other found => longer ?_)
  have same : utf8EncodeChar other ++ back = utf8EncodeChar character ++ [] := by
    rw [(decodes other).mp found, whole, List.append_nil]
  exact (utf8EncodeChar_append_inj same).2

theorem oneByte?_eq_none {character : Char} {first second : UInt8} {more : List UInt8}
    (whole : utf8EncodeChar character = first :: second :: more) : oneByte? first = none :=
  eq_none_of_longer [first] whole (List.cons_ne_nil _ _) (fun _ => oneByte?_eq_some_iff)

theorem twoBytes?_eq_none {character : Char} {first second third : UInt8} {more : List UInt8}
    (whole : utf8EncodeChar character = first :: second :: third :: more) :
    twoBytes? first second = none :=
  eq_none_of_longer [first, second] whole (List.cons_ne_nil _ _) (fun _ => twoBytes?_eq_some_iff)

theorem threeBytes?_eq_none {character : Char} {first second third fourth : UInt8}
    {more : List UInt8}
    (whole : utf8EncodeChar character = first :: second :: third :: fourth :: more) :
    threeBytes? first second third = none :=
  eq_none_of_longer [first, second, third] whole (List.cons_ne_nil _ _)
    (fun _ => threeBytes?_eq_some_iff)

/-! ### Decoding -/

/-- Whether no character starts at the front of some bytes. -/
def NoCharacter (bytes : List UInt8) : Prop := ∀ character, ¬ utf8EncodeChar character <+: bytes

theorem decodeFrom_utf8EncodeChar (offset : Nat) (character : Char) (rest : List UInt8) :
    decodeFrom offset (utf8EncodeChar character ++ rest) =
      (decodeFrom (offset + character.utf8Size) rest).map (character :: ·) := by
  rw [← String.length_utf8EncodeChar character, decodeFrom.eq_def]
  rcases utf8EncodeChar_cases character with
    ⟨first, same⟩ | ⟨first, second, same⟩ | ⟨first, second, third, same⟩ |
      ⟨first, second, third, fourth, same⟩
  · simp only [same, List.singleton_append, oneByte?_eq_some_iff.mpr same, List.length_singleton]
  · simp only [same, List.cons_append, List.nil_append, oneByte?_eq_none same,
      twoBytes?_eq_some_iff.mpr same]
    rfl
  · simp only [same, List.cons_append, List.nil_append, oneByte?_eq_none same,
      twoBytes?_eq_none same, threeBytes?_eq_some_iff.mpr same]
    rfl
  · simp only [same, List.cons_append, List.nil_append, oneByte?_eq_none same,
      twoBytes?_eq_none same, threeBytes?_eq_none same, fourBytes?_eq_some_iff.mpr same]
    rfl

theorem decodeFrom_append (offset : Nat) (text : List Char) (rest : List UInt8) :
    decodeFrom offset (utf8Bytes text ++ rest) =
      (decodeFrom (offset + utf8Length text) rest).map (text ++ ·) := by
  induction text generalizing offset with
  | nil =>
      rw [utf8Bytes_nil, List.nil_append, utf8Length_nil, Nat.add_zero]
      cases decodeFrom offset rest <;> rfl
  | cons character text ih =>
      rw [utf8Bytes_cons, List.append_assoc, decodeFrom_utf8EncodeChar, ih, utf8Length_cons,
        Nat.add_assoc]
      cases decodeFrom (offset + (character.utf8Size + utf8Length text)) rest <;> rfl

theorem decodeFrom_of_noCharacter (offset : Nat) {bytes : List UInt8} (some : bytes ≠ [])
    (stuck : NoCharacter bytes) : decodeFrom offset bytes = .error offset := by
  have never {character : Char} {front rest : List UInt8} {goal : Prop}
      (form : utf8EncodeChar character = front) (same : bytes = front ++ rest) : goal :=
    absurd ⟨rest, by rw [form, same]⟩ (stuck character)
  fun_cases decodeFrom offset bytes with
  | case1 => exact absurd rfl some
  | case2 first rest character found => exact never (oneByte?_eq_some_iff.mp found) rfl
  | case4 first one second rest character found => exact never (twoBytes?_eq_some_iff.mp found) rfl
  | case6 first one second two third rest character found =>
      exact never (threeBytes?_eq_some_iff.mp found) rfl
  | case8 first one second two third three fourth rest character found =>
      exact never (fourBytes?_eq_some_iff.mp found) rfl
  | _ => rfl

/-- Bytes are the form of a text up to where no character starts. -/
theorem exists_decodable (bytes : List UInt8) :
    ∃ text rest, bytes = utf8Bytes text ++ rest ∧ NoCharacter rest := by
  induction long : bytes.length using Nat.strong_induction_on generalizing bytes with
  | _ size ih =>
      by_cases starts : ∃ character, utf8EncodeChar character <+: bytes
      · obtain ⟨character, after, rfl⟩ := starts
        have shorter : after.length < size := by
          rw [← long, List.length_append, String.length_utf8EncodeChar]
          exact Nat.lt_add_of_pos_left character.utf8Size_pos
        obtain ⟨text, rest, rfl, stuck⟩ := ih _ shorter after rfl
        exact ⟨character :: text, rest, by rw [utf8Bytes_cons, List.append_assoc], stuck⟩
      · exact ⟨[], bytes, rfl, not_exists.mp starts⟩

theorem decodeUtf8_utf8Bytes (source : List Char) : decodeUtf8 (utf8Bytes source) = .ok source := by
  have whole := decodeFrom_append 0 source []
  rw [List.append_nil, decodeFrom] at whole
  rw [decodeUtf8, whole]
  exact congrArg Except.ok (List.append_nil source)

/-- Decoding succeeds on the forms of texts only. -/
theorem decodeUtf8_eq_ok_iff {bytes : List UInt8} {source : List Char} :
    decodeUtf8 bytes = .ok source ↔ utf8Bytes source = bytes := by
  constructor
  · intro decoded
    obtain ⟨text, rest, rfl, stuck⟩ := exists_decodable bytes
    by_cases none : rest = []
    · rw [none, List.append_nil, decodeUtf8_utf8Bytes] at decoded
      cases decoded
      rw [none, List.append_nil]
    · rw [decodeUtf8, decodeFrom_append, decodeFrom_of_noCharacter _ none stuck] at decoded
      cases decoded
  · rintro rfl
    exact decodeUtf8_utf8Bytes source

/-- Decoding fails behind the longest text at the front of the bytes. -/
theorem decodeUtf8_eq_error_iff {bytes : List UInt8} {offset : Nat} :
    decodeUtf8 bytes = .error offset ↔
      ∃ text rest, bytes = utf8Bytes text ++ rest ∧ rest ≠ [] ∧ NoCharacter rest ∧
        utf8Length text = offset := by
  constructor
  · intro failed
    obtain ⟨text, rest, rfl, stuck⟩ := exists_decodable bytes
    have some : rest ≠ [] := by
      rintro rfl
      rw [List.append_nil, decodeUtf8_utf8Bytes] at failed
      cases failed
    rw [decodeUtf8, decodeFrom_append, decodeFrom_of_noCharacter _ some stuck, Nat.zero_add] at failed
    cases failed
    exact ⟨text, rest, rfl, some, stuck, rfl⟩
  · rintro ⟨text, rest, rfl, some, stuck, rfl⟩
    rw [decodeUtf8, decodeFrom_append, decodeFrom_of_noCharacter _ some stuck, Nat.zero_add]
    rfl

/-! ### Sources -/

/-- Whether an error says why some bytes are no source. Too many bytes are not looked at. -/
def InputError.Explains (bytes : List UInt8) : InputError → Prop
  | .tooLarge length => length = bytes.length ∧ Span.maxOffset < bytes.length
  | .invalidUtf8 offset =>
      bytes.length ≤ Span.maxOffset ∧
        ∃ text rest, bytes = utf8Bytes text ++ rest ∧ rest ≠ [] ∧ NoCharacter rest ∧
          utf8Length text = offset

theorem Span.ofRange_front {stop : Nat} :
    Span.ofRange 0 stop =
      if Span.maxOffset < stop then .error (.endTooLarge stop) else .ok ⟨0, stop⟩ := by
  rw [Span.ofRange, if_neg (Nat.not_lt_zero _)]

theorem sourceOfBytes_eq_ok_iff {bytes : List UInt8} {source : List Char} :
    sourceOfBytes bytes = .ok source ↔
      utf8Bytes source = bytes ∧ bytes.length ≤ Span.maxOffset := by
  rw [← decodeUtf8_eq_ok_iff, sourceOfBytes, Span.ofRange_front]
  by_cases large : Span.maxOffset < bytes.length
  · simp [large]
  · rw [if_neg large]
    cases decodeUtf8 bytes <;> simp [Nat.le_of_not_lt large]

theorem sourceOfBytes_eq_error_iff {bytes : List UInt8} {error : InputError} :
    sourceOfBytes bytes = .error error ↔ error.Explains bytes := by
  rw [sourceOfBytes, Span.ofRange_front]
  cases error with
  | tooLarge length =>
      by_cases large : Span.maxOffset < bytes.length
      · simp [large, InputError.Explains, eq_comm]
      · rw [if_neg large]
        cases decodeUtf8 bytes <;> simp [large, InputError.Explains]
  | invalidUtf8 offset =>
      rw [InputError.Explains, ← decodeUtf8_eq_error_iff]
      by_cases large : Span.maxOffset < bytes.length
      · simp [large]
      · rw [if_neg large]
        cases decodeUtf8 bytes <;> simp [Nat.le_of_not_lt large]

/-! ### Spans of a source -/

/-- Whether both ends of a span are 32-bit offsets. -/
def Span.Fits (span : Span) : Prop := Span.ofRange span.start span.stop = .ok span

theorem Span.Within.fits {span : Span} {size : Nat} (within : span.Within size)
    (small : size ≤ Span.maxOffset) : span.Fits := by
  have stops := Nat.le_trans within.bounded small
  rw [Span.Fits, Span.ofRange, if_neg (Nat.not_lt.mpr (Nat.le_trans within.forward stops)),
    if_neg (Nat.not_lt.mpr stops)]

theorem Node.spanOf_within {children : List Child} {size : Nat} (some : children ≠ [])
    (within : ∀ child ∈ children, child.span.Within size) : (spanOf children 0).Within size := by
  have first := within _ (List.head_mem some)
  have last := within _ (List.getLast_mem some)
  rw [spanOf, List.head?_eq_some_head some, List.getLast?_eq_some_getLast some]
  exact ⟨Nat.le_trans (Nat.min_le_left _ _) (Nat.le_trans first.forward (Nat.le_max_left _ _)),
    Nat.max_le.mpr ⟨first.bounded, last.bounded⟩⟩

mutual

/-- Snug nodes over tokens of a source lie within the source. -/
theorem Child.within_of_leaves {size : Nat} (child : Child) (snug : child.Throughout Node.IsSnug)
    (leaves : ∀ token ∈ child.leaves, token.span.Within size) :
    child.span.Within size ∧ child.Throughout (fun node => node.span.Within size) := by
  cases child with
  | leaf field token => exact ⟨leaves token List.mem_cons_self, throughout_leaf field token⟩
  | branch field kind span children =>
      obtain ⟨own, below⟩ := throughout_branch.mp snug
      have inner := Child.allWithin_of_leaves children below leaves
      have within : span.Within size := by
        have covers := Node.spanOf_within own.ne_nil (fun child member => (inner child member).1)
        rwa [← own.span] at covers
      exact ⟨within, throughout_branch.mpr ⟨within, fun child member => (inner child member).2⟩⟩

theorem Child.allWithin_of_leaves {size : Nat} (children : List Child)
    (snug : ∀ child ∈ children, child.Throughout Node.IsSnug)
    (leaves : ∀ token ∈ Child.leavesOfList children, token.span.Within size) :
    ∀ child ∈ children,
      child.span.Within size ∧ child.Throughout (fun node => node.span.Within size) := by
  cases children with
  | nil => exact List.forall_mem_nil _
  | cons child rest =>
      obtain ⟨own, others⟩ := List.forall_mem_cons.mp snug
      obtain ⟨front, back⟩ := List.forall_mem_append.mp leaves
      exact List.forall_mem_cons.mpr
        ⟨Child.within_of_leaves child own front, Child.allWithin_of_leaves rest others back⟩

end

theorem LaidOut.within {offset : Nat} {tokens : List Token} {text : List Char}
    (laid : LaidOut offset tokens text) :
    ∀ token ∈ tokens, token.span.Within (offset + utf8Length text) := by
  induction laid with
  | nil => exact List.forall_mem_nil _
  | @cons offset token rest piece text span spelled later ih =>
      rw [utf8Length_append, ← Nat.add_assoc]
      refine List.forall_mem_cons.mpr ⟨?_, ih⟩
      rw [span]
      exact ⟨Nat.le_add_right _ _, Nat.le_add_right _ _⟩

theorem parse_nodes_within (options : ParseOptions) (source : List Char) :
    ∀ node ∈ (parse options source).tree.descendants, node.span.Within (utf8Length source) := by
  have built := parse_tree options source
  have below := parse_snug options source
  have laid := parse_laidOut options source
  generalize (parse options source).tree = tree at built below laid ⊢
  have leaves := laid.within
  rw [Nat.zero_add] at leaves
  have inner := Child.allWithin_of_leaves tree.children below leaves
  have span := (Node.exact_of_laidOut below (by rw [built]; rfl) laid).1
  rw [Node.descendants_eq]
  refine List.forall_mem_cons.mpr ⟨?_, Node.forall_below (fun child member => (inner child member).2)⟩
  rw [span]
  exact ⟨Nat.zero_le _, Nat.le_refl _⟩

/-- The tokens, the nodes and the errors of a source that was read from bytes have 32-bit offsets. -/
theorem spans_fit {bytes : List UInt8} {source : List Char} (read : sourceOfBytes bytes = .ok source)
    (options : ParseOptions) :
    (∀ token ∈ (lex source).tokens, token.span.Fits) ∧
      (∀ error ∈ (lex source).errors, error.span.Fits) ∧
      (∀ node ∈ (parse options source).tree.descendants, node.span.Fits) ∧
      ∀ error ∈ (parse options source).errors, ∀ span ∈ error.spans, span.Fits := by
  obtain ⟨rfl, addressed⟩ := sourceOfBytes_eq_ok_iff.mp read
  rw [utf8Bytes_length] at addressed
  refine ⟨fun token member => ?_, fun error member => ?_, fun node member => ?_,
    fun error member span shown => ?_⟩
  · exact (lex_within source token member).fits addressed
  · exact ((lexErrors_sound source error member).spans _ List.mem_cons_self).fits addressed
  · exact (parse_nodes_within options source node member).fits addressed
  · exact (((parse_errors_sound options source).2 error member).spans span shown).fits addressed

end JaiSyntax
