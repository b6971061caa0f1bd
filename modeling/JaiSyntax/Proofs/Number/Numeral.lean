import JaiSyntax.Number.Numeral
import Mathlib.Data.Nat.Digits.Defs
import Mathlib.Tactic.Ring
/-!
The value of a numeral. It is what the digits make up in positional notation, underscores among them or not.
Where it fits 64 bits it is found by 64-bit arithmetic, and where it does not that arithmetic overflows.
-/

set_option autoImplicit false

namespace JaiSyntax

/-! ### Digits -/

/-- A character that is written for a digit, in lower or in upper case. -/
structure IsDigit (radix value : Nat) (character : Char) : Prop where
  below : value < radix
  written : character = Nat.digitChar value ∨ character = (Nat.digitChar value).toUpper

def IsNumeral (radix : Nat) (digits : List Char) (number : Nat) : Prop :=
  ∃ values, List.Forall₂ (IsDigit radix) values digits ∧ number = Nat.ofDigits radix values.reverse

section Numerals

variable {radix number value : Nat} {digits : List Char} {character : Char}

theorem digitValue?_digitChar : ∀ radix ∈ [2, 8, 10, 16], ∀ value < radix,
    (digitValue? radix (Nat.digitChar value) = some value ∧ Nat.digitChar value ≠ '_') ∧
      digitValue? radix (Nat.digitChar value).toUpper = some value ∧
        (Nat.digitChar value).toUpper ≠ '_' := by
  decide

namespace IsDigit

theorem read (digit : IsDigit radix value character) (known : radix ∈ [2, 8, 10, 16]) :
    digitValue? radix character = some value ∧ character ≠ '_' := by
  obtain ⟨lower, upper⟩ := digitValue?_digitChar radix known value digit.below
  rcases digit.written with rfl | rfl
  · exact lower
  · exact upper

/-- A test that all digits pass in either case. -/
theorem passes {test : Char → Bool} (digit : IsDigit radix value character)
    (all : ∀ value < radix, test (Nat.digitChar value) = true ∧
      test (Nat.digitChar value).toUpper = true) : test character = true := by
  obtain ⟨lower, upper⟩ := all value digit.below
  rcases digit.written with rfl | rfl
  · exact lower
  · exact upper

end IsDigit

/-- A numeral is read digit by digit, behind the ones that were read before. -/
theorem numeralFrom?_eq (known : radix ∈ [2, 8, 10, 16]) {values : List Nat}
    (digits' : List.Forall₂ (IsDigit radix) values digits) (before : Nat) :
    numeralFrom? radix before digits =
      some (Nat.ofDigits radix values.reverse + radix ^ values.length * before) := by
  induction digits' generalizing before with
  | nil => simp [numeralFrom?]
  | @cons value character values digits digit _ ih =>
      obtain ⟨read, other⟩ := digit.read known
      have plain : (character == '_') = false := beq_eq_false_iff_ne.mpr other
      rw [numeralFrom?, plain, if_neg Bool.false_ne_true, read]
      change numeralFrom? radix (before * radix + value) digits = _
      rw [ih, List.reverse_cons, Nat.ofDigits_append, Nat.ofDigits_singleton, List.length_reverse,
        List.length_cons]
      congr 1
      ring

theorem IsNumeral.numeral? (numeral : IsNumeral radix digits number) (known : radix ∈ [2, 8, 10, 16]) :
    numeral? radix digits = some number := by
  obtain ⟨values, written, rfl⟩ := numeral
  have read := numeralFrom?_eq known written 0
  rwa [Nat.mul_zero, Nat.add_zero] at read

theorem IsNumeral.forall_digits (numeral : IsNumeral radix digits number) {test : Char → Bool}
    (holds : ∀ value character, IsDigit radix value character → test character = true) :
    ∀ character ∈ digits, test character = true := by
  obtain ⟨values, written, -⟩ := numeral
  induction written with
  | nil => exact List.forall_mem_nil _
  | cons digit _ ih => exact List.forall_mem_cons.mpr ⟨holds _ _ digit, ih⟩

end Numerals

/-! ### Underscores -/

/-- Digits that make up a number, the highest one first, with single underscores between some of them. -/
inductive SeparatedDigits (radix : Nat) : List Nat → List Char → Prop where
  | single {value : Nat} {character : Char} (digit : IsDigit radix value character) :
      SeparatedDigits radix [value] [character]
  | joined {value : Nat} {character : Char} {values : List Nat} {digits : List Char}
      (digit : IsDigit radix value character) (later : SeparatedDigits radix values digits) :
      SeparatedDigits radix (value :: values) (character :: digits)
  | separated {value : Nat} {character : Char} {values : List Nat} {digits : List Char}
      (digit : IsDigit radix value character) (later : SeparatedDigits radix values digits) :
      SeparatedDigits radix (value :: values) (character :: '_' :: digits)

section Underscores

variable {radix : Nat} {values : List Nat} {digits : List Char}

theorem withoutSeparators_append (front back : List Char) :
    withoutSeparators (front ++ back) = withoutSeparators front ++ withoutSeparators back :=
  List.filter_append ..

theorem withoutSeparators_cons {character : Char} (other : character ≠ '_') (text : List Char) :
    withoutSeparators (character :: text) = character :: withoutSeparators text :=
  List.filter_cons_of_pos (bne_iff_ne.mpr other)

theorem withoutSeparators_ending {ending : List Char} (ends : ending = [] ∨ ending = ['_'])
    (digits : List Char) : withoutSeparators (digits ++ ending) = withoutSeparators digits := by
  have none : withoutSeparators ending = [] := by
    rcases ends with rfl | rfl <;> rfl
  rw [withoutSeparators_append, none, List.append_nil]

theorem numeralFrom?_withoutSeparators (radix before : Nat) (digits : List Char) :
    numeralFrom? radix before (withoutSeparators digits) = numeralFrom? radix before digits := by
  induction digits generalizing before with
  | nil => rfl
  | cons character digits ih =>
      by_cases separator : character = '_'
      · subst separator
        exact ih before
      · have plain : (character == '_') = false := beq_eq_false_iff_ne.mpr separator
        rw [withoutSeparators_cons separator, numeralFrom?, numeralFrom?, plain, if_neg Bool.false_ne_true, if_neg Bool.false_ne_true]
        cases digitValue? radix character with
        | none => rfl
        | some digit => exact ih _

theorem SeparatedDigits.areDigits (written : SeparatedDigits radix values digits)
    (known : radix ∈ [2, 8, 10, 16]) :
    List.Forall₂ (IsDigit radix) values (withoutSeparators digits) := by
  have kept {value : Nat} {character : Char} (digit : IsDigit radix value character)
      (digits : List Char) :
      withoutSeparators (character :: digits) = character :: withoutSeparators digits :=
    withoutSeparators_cons (digit.read known).2 digits
  induction written with
  | single digit =>
      rw [kept digit]
      exact .cons digit .nil
  | joined digit later ih =>
      rw [kept digit]
      exact .cons digit ih
  | separated digit later ih =>
      rw [kept digit]
      exact .cons digit ih

/-- Underscores do not count, at the end neither. -/
theorem SeparatedDigits.numeral? (written : SeparatedDigits radix values digits)
    (known : radix ∈ [2, 8, 10, 16]) {ending : List Char} (ends : ending = [] ∨ ending = ['_']) :
    numeral? radix (digits ++ ending) = some (Nat.ofDigits radix values.reverse) := by
  have numeral : IsNumeral radix (withoutSeparators digits) (Nat.ofDigits radix values.reverse) :=
    ⟨values, written.areDigits known, rfl⟩
  have read := numeral.numeral? known
  rw [JaiSyntax.numeral?, ← numeralFrom?_withoutSeparators, withoutSeparators_ending ends]
  exact read

end Underscores

/-! ### 64-bit arithmetic -/

def checkedMultiply? (left right : UInt64) : Option UInt64 :=
  if left.toNat * right.toNat ≤ maxWord then some (left * right) else none

def checkedAdd? (left right : UInt64) : Option UInt64 :=
  if left.toNat + right.toNat ≤ maxWord then some (left + right) else none

/-- Read digits after the ones that make up `value`, in words; there is no result once one does not fit. -/
def checkedFrom? (radix value : UInt64) : List Char → Option UInt64
  | [] => some value
  | character :: rest =>
      if character == '_' then checkedFrom? radix value rest
      else do
        let digit ← digitValue? radix.toNat character
        let product ← checkedMultiply? value radix
        let sum ← checkedAdd? product (UInt64.ofNat digit)
        checkedFrom? radix sum rest

section Words

variable {radix : Nat} {digits : List Char}

theorem digitValue?_lt {value : Nat} {character : Char}
    (found : digitValue? radix character = some value) : value < radix := by
  rw [digitValue?] at found
  exact of_decide_eq_true (Option.filter_eq_some_iff.mp found).2

/-- Further digits make no number smaller. -/
theorem le_of_numeralFrom? {value number : Nat} (positive : 1 ≤ radix)
    (read : numeralFrom? radix value digits = some number) : value ≤ number := by
  induction digits generalizing value with
  | nil => exact Nat.le_of_eq (Option.some.inj read)
  | cons character digits ih =>
      rw [numeralFrom?] at read
      split at read
      · exact ih read
      · split at read
        · next digit found =>
            have grown : value ≤ value * radix := Nat.le_mul_of_pos_right value positive
            have least := ih read
            omega
        · cases read

theorem filter_numeralFrom?_large {value : Nat} (positive : 1 ≤ radix) (large : maxWord < value)
    (digits : List Char) :
    (numeralFrom? radix value digits).filter (fun number => decide (number ≤ maxWord)) = none := by
  rw [Option.filter_eq_none_iff]
  intro number read fits
  have least := le_of_numeralFrom? positive read
  have most := of_decide_eq_true fits
  omega

theorem toNat_of_le {number : Nat} (fits : number ≤ maxWord) : (UInt64.ofNat number).toNat = number := by
  apply UInt64.toNat_ofNat_of_lt'
  unfold maxWord at fits
  change number < 18446744073709551616
  omega

theorem toNat_mul_of_le {left right : UInt64} (fits : left.toNat * right.toNat ≤ maxWord) :
    (left * right).toNat = left.toNat * right.toNat := by
  rw [UInt64.toNat_mul]
  apply Nat.mod_eq_of_lt
  unfold maxWord at fits
  omega

theorem toNat_add_of_le {left right : UInt64} (fits : left.toNat + right.toNat ≤ maxWord) :
    (left + right).toNat = left.toNat + right.toNat := by
  rw [UInt64.toNat_add]
  apply Nat.mod_eq_of_lt
  unfold maxWord at fits
  omega

/-- Arithmetic in words gives the number just if the number fits. -/
theorem checkedFrom?_eq (radix value : UInt64) (positive : 1 ≤ radix.toNat) (digits : List Char) :
    (checkedFrom? radix value digits).map UInt64.toNat =
      (numeralFrom? radix.toNat value.toNat digits).filter (fun number => decide (number ≤ maxWord)) := by
  induction digits generalizing value with
  | nil =>
      have fits : value.toNat ≤ maxWord := by
        have bound := value.toNat_lt
        unfold maxWord
        omega
      rw [checkedFrom?, numeralFrom?, Option.filter_some, if_pos (decide_eq_true fits)]
      rfl
  | cons character digits ih =>
      by_cases separator : (character == '_') = true
      · rw [checkedFrom?, numeralFrom?, if_pos separator, if_pos separator]
        exact ih value
      · rw [checkedFrom?, numeralFrom?, if_neg separator, if_neg separator]
        cases found : digitValue? radix.toNat character with
        | none => rfl
        | some digit =>
            have below := digitValue?_lt found
            have small := radix.toNat_lt
            have word : (UInt64.ofNat digit).toNat = digit := toNat_of_le (by unfold maxWord; omega)
            simp only [Option.bind_eq_bind, Option.bind_some]
            -- Where the product or the sum does not fit, the whole number does not either.
            by_cases product : value.toNat * radix.toNat ≤ maxWord
            · have whole := toNat_mul_of_le product
              rw [checkedMultiply?, if_pos product, Option.bind_some]
              by_cases sum : (value * radix).toNat + (UInt64.ofNat digit).toNat ≤ maxWord
              · rw [checkedAdd?, if_pos sum, Option.bind_some, ih, toNat_add_of_le sum, whole, word]
              · rw [checkedAdd?, if_neg sum]
                rw [whole, word] at sum
                exact (filter_numeralFrom?_large positive (by omega) digits).symm
            · rw [checkedMultiply?, if_neg product]
              exact (filter_numeralFrom?_large positive (by omega) digits).symm

end Words

end JaiSyntax
