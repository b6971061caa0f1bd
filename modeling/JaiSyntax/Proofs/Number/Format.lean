import JaiSyntax.Number.Binary64
import Mathlib.Tactic.Ring
/-!
The values of floating-point patterns. A finite number is a multiple of the least positive one, and the next
pattern stands for a greater multiple, so no two patterns have the same value. The binary64 pattern that is
found for a binary32 pattern has its value, the sign of a zero included.
-/

set_option autoImplicit false

namespace JaiSyntax

/-! ### Formats -/

/-- The widths of the fields behind the sign. -/
structure FloatFormat where
  exponentBits : Nat
  fractionBits : Nat

/-- What a pattern stands for. A zero has a sign. -/
inductive FloatValue where
  | notANumber
  | infinite (negative : Bool)
  | finite (negative : Bool) (magnitude : ℚ)

namespace FloatFormat

def binary32 : FloatFormat := ⟨8, 23⟩

def binary64 : FloatFormat := ⟨11, 52⟩

variable (format : FloatFormat) (bits : Nat)

def magnitudeBits : Nat := format.fractionBits + format.exponentBits

/-- What an exponent field exceeds the exponent by. -/
def bias : Nat := 2 ^ (format.exponentBits - 1) - 1

def negative : Bool := decide (bits / 2 ^ format.magnitudeBits % 2 = 1)

def exponent : Nat := bits / 2 ^ format.fractionBits % 2 ^ format.exponentBits

def fraction : Nat := bits % 2 ^ format.fractionBits

/-- The digits of the number as an integer. A number with a lowest exponent field has no leading one. -/
def significand : Nat :=
  if format.exponent bits = 0 then format.fraction bits
  else 2 ^ format.fractionBits + format.fraction bits

/-- The number without its sign. A lowest exponent field stands for the same power as the next one. -/
def magnitude : ℚ :=
  format.significand bits *
    2 ^ ((max (format.exponent bits) 1 : ℤ) - format.bias - format.fractionBits)

def value : FloatValue :=
  if format.exponent bits = 2 ^ format.exponentBits - 1 then
    if format.fraction bits = 0 then .infinite (format.negative bits) else .notANumber
  else .finite (format.negative bits) (format.magnitude bits)

/-! ### Units -/

/-- The number behind the sign as a multiple of the least positive one. -/
def units (order : Nat) : Nat :=
  if order / 2 ^ format.fractionBits = 0 then order % 2 ^ format.fractionBits
  else (2 ^ format.fractionBits + order % 2 ^ format.fractionBits) *
    2 ^ (order / 2 ^ format.fractionBits - 1)

def ofOrder (negative : Bool) (order : Nat) : FloatValue :=
  if order / 2 ^ format.fractionBits = 2 ^ format.exponentBits - 1 then
    if order % 2 ^ format.fractionBits = 0 then .infinite negative else .notANumber
  else .finite negative (format.units order * 2 ^ (1 - format.bias - format.fractionBits : ℤ))

variable {format bits}

theorem exponent_eq : format.exponent bits =
    bits % 2 ^ format.magnitudeBits / 2 ^ format.fractionBits := by
  rw [exponent, magnitudeBits, pow_add, Nat.mod_mul_right_div_self]

theorem fraction_eq : format.fraction bits =
    bits % 2 ^ format.magnitudeBits % 2 ^ format.fractionBits := by
  rw [fraction, magnitudeBits, pow_add, Nat.mod_mul_right_mod]

theorem magnitude_eq : format.magnitude bits = format.units (bits % 2 ^ format.magnitudeBits) *
    2 ^ (1 - format.bias - format.fractionBits : ℤ) := by
  rw [magnitude, significand, units, ← exponent_eq, ← fraction_eq]
  by_cases lowest : format.exponent bits = 0
  · simp [lowest]
  · obtain ⟨power, next⟩ := Nat.exists_eq_succ_of_ne_zero lowest
    have split : (max (format.exponent bits) 1 : ℤ) - format.bias - format.fractionBits =
        power + (1 - format.bias - format.fractionBits) := by
      rw [next]
      push_cast
      omega
    rw [if_neg lowest, if_neg lowest, split, zpow_add₀ two_ne_zero, zpow_natCast, next]
    push_cast
    ring

theorem value_eq : format.value bits =
    format.ofOrder (format.negative bits) (bits % 2 ^ format.magnitudeBits) := by
  rw [value, ofOrder, ← exponent_eq, ← fraction_eq, magnitude_eq]

/-- A number with an exponent field and a fraction. -/
theorem units_fields (field : Nat) {fraction : Nat} (below : fraction < 2 ^ format.fractionBits) :
    format.units (field * 2 ^ format.fractionBits + fraction) =
      if field = 0 then fraction else (2 ^ format.fractionBits + fraction) * 2 ^ (field - 1) := by
  have positive : 0 < 2 ^ format.fractionBits := Nat.two_pow_pos _
  have quotient : (field * 2 ^ format.fractionBits + fraction) / 2 ^ format.fractionBits = field := by
    rw [Nat.mul_comm, Nat.mul_add_div positive, Nat.div_eq_of_lt below, Nat.add_zero]
  have remainder : (field * 2 ^ format.fractionBits + fraction) % 2 ^ format.fractionBits = fraction := by
    rw [Nat.mul_comm, Nat.mul_add_mod, Nat.mod_eq_of_lt below]
  rw [units, quotient, remainder]

/-- The next pattern stands for a greater number, also where its exponent field is the next one. -/
theorem units_lt_succ (order : Nat) : format.units order < format.units (order + 1) := by
  have positive : 0 < 2 ^ format.fractionBits := Nat.two_pow_pos _
  have below := Nat.mod_lt order positive
  obtain ⟨field, fraction, parts, fits⟩ : ∃ field fraction,
      order = field * 2 ^ format.fractionBits + fraction ∧ fraction < 2 ^ format.fractionBits :=
    ⟨_, _, (Nat.div_add_mod' order _).symm, below⟩
  rw [parts, units_fields field fits, Nat.add_assoc]
  by_cases last : fraction + 1 < 2 ^ format.fractionBits
  · rw [units_fields field last]
    split
    · exact Nat.lt_succ_self fraction
    · exact Nat.mul_lt_mul_of_pos_right (by omega) (Nat.two_pow_pos _)
  · have carried : field * 2 ^ format.fractionBits + (fraction + 1) =
        (field + 1) * 2 ^ format.fractionBits + 0 := by
      rw [Nat.succ_mul]
      omega
    rw [carried, units_fields (field + 1) positive, if_neg (Nat.succ_ne_zero field), Nat.add_zero,
      Nat.add_sub_cancel]
    cases field with
    | zero => simpa using fits
    | succ field =>
        rw [if_neg (Nat.succ_ne_zero field), Nat.add_sub_cancel, pow_succ', ← Nat.mul_assoc]
        exact Nat.mul_lt_mul_of_pos_right (by omega) (Nat.two_pow_pos _)

theorem units_injective : Function.Injective format.units :=
  (strictMono_nat_of_lt_succ units_lt_succ).injective

/-! ### Signs -/

theorem negative_signed (sign : Nat) {order : Nat} (below : order < 2 ^ format.magnitudeBits) :
    format.negative (sign * 2 ^ format.magnitudeBits + order) = decide (sign % 2 = 1) := by
  rw [negative, Nat.mul_comm, Nat.mul_add_div (Nat.two_pow_pos _), Nat.div_eq_of_lt below, Nat.add_zero]

/-- A pattern made up of a sign and what stands behind it. -/
theorem value_signed (sign : Nat) {order : Nat} (below : order < 2 ^ format.magnitudeBits) :
    format.value (sign * 2 ^ format.magnitudeBits + order) =
      format.ofOrder (decide (sign % 2 = 1)) order := by
  rw [value_eq, negative_signed sign below, Nat.mul_comm, Nat.mul_add_mod, Nat.mod_eq_of_lt below]

/-- What stands for infinity. -/
theorem ofOrder_infinite {negative negative' : Bool} {order : Nat} :
    format.ofOrder negative order = .infinite negative' ↔
      negative = negative' ∧ order / 2 ^ format.fractionBits = 2 ^ format.exponentBits - 1 ∧
        order % 2 ^ format.fractionBits = 0 := by
  unfold ofOrder
  split
  · split
    · simp [*]
    · simp [*]
  · simp [*]

theorem ofOrder_finite {negative negative' : Bool} {order : Nat} {magnitude : ℚ}
    (same : format.ofOrder negative order = .finite negative' magnitude) :
    negative = negative' ∧
      magnitude = format.units order * 2 ^ (1 - format.bias - format.fractionBits : ℤ) := by
  unfold ofOrder at same
  split at same
  · split at same
    · cases same
    · cases same
  · cases same
    exact ⟨rfl, rfl⟩

theorem ofOrder_injective {negative negative' : Bool} {order order' : Nat}
    (number : format.ofOrder negative order ≠ .notANumber)
    (same : format.ofOrder negative order = format.ofOrder negative' order') :
    negative = negative' ∧ order = order' := by
  cases value : format.ofOrder negative order with
  | notANumber => exact absurd value number
  | infinite sign =>
      rw [value] at same
      obtain ⟨rfl, exponent, fraction⟩ := ofOrder_infinite.mp value
      obtain ⟨rfl, exponent', fraction'⟩ := ofOrder_infinite.mp same.symm
      refine ⟨rfl, ?_⟩
      rw [← Nat.div_add_mod order (2 ^ format.fractionBits), exponent, fraction, ← exponent',
        ← fraction', Nat.div_add_mod]
  | finite sign magnitude =>
      rw [value] at same
      obtain ⟨rfl, rfl⟩ := ofOrder_finite value
      obtain ⟨rfl, units⟩ := ofOrder_finite same.symm
      have scale : (2 : ℚ) ^ (1 - format.bias - format.fractionBits : ℤ) ≠ 0 := zpow_ne_zero _ two_ne_zero
      exact ⟨rfl, units_injective (Nat.cast_injective (mul_right_cancel₀ scale units))⟩

/-- Patterns that stand for the same number are the same. -/
theorem value_injective {other : Nat} (fits : bits < 2 ^ (format.magnitudeBits + 1))
    (also : other < 2 ^ (format.magnitudeBits + 1)) (number : format.value bits ≠ .notANumber)
    (same : format.value bits = format.value other) : bits = other := by
  rw [pow_succ', ← Nat.div_lt_iff_lt_mul (Nat.two_pow_pos _)] at fits also
  have positive : 0 < 2 ^ format.magnitudeBits := Nat.two_pow_pos _
  rw [value_eq] at number
  rw [value_eq, value_eq] at same
  obtain ⟨signs, orders⟩ := ofOrder_injective number same
  have sign : bits / 2 ^ format.magnitudeBits = other / 2 ^ format.magnitudeBits := by
    rw [negative, negative, Nat.mod_eq_of_lt fits, Nat.mod_eq_of_lt also, decide_eq_decide] at signs
    generalize bits / 2 ^ format.magnitudeBits = sign at fits signs ⊢
    generalize other / 2 ^ format.magnitudeBits = sign' at also signs ⊢
    omega
  rw [← Nat.div_add_mod bits (2 ^ format.magnitudeBits), sign, orders, Nat.div_add_mod]

end FloatFormat

/-! ### Widening -/

namespace Binary64

theorem twoTo_eq (exponent : Nat) : twoTo exponent = 2 ^ exponent := rfl

theorem twoTo_pos (exponent : Nat) : 0 < twoTo exponent := Nat.two_pow_pos exponent

theorem twoTo_mul (exponent other : Nat) : twoTo exponent * twoTo other = twoTo (exponent + other) :=
  (pow_add 2 exponent other).symm

/-- A quotient without a remainder is not rounded. -/
theorem divideToEven_exact (quotient : Nat) {divisor : Nat} (positive : 0 < divisor) :
    divideToEven (quotient * divisor) divisor = quotient := by
  simp [divideToEven, Nat.mul_div_cancel _ positive, positive.ne]

theorem excessBits_le {value width : Nat} (below : value < twoTo width) :
    excessBits value ≤ width - 53 := by
  by_cases zero : value = 0
  · subst zero
    exact Nat.zero_le _
  · have log := (Nat.log2_lt zero).mpr below
    unfold excessBits
    omega

/-- Without the excess bits 53 remain, and all of them are used if there are excess bits. -/
theorem excessBits_spec {value digits : Nat} (parts : value = digits * 2 ^ excessBits value) :
    digits < 2 ^ 53 ∧ (excessBits value = 0 ∨ 2 ^ 52 ≤ digits) := by
  have most := Nat.lt_log2_self (n := value)
  have positive : 0 < 2 ^ excessBits value := Nat.two_pow_pos _
  rcases Nat.lt_or_ge 52 value.log2 with large | small
  · have width : value.log2 = 52 + excessBits value := by
      unfold excessBits
      omega
    have some : value ≠ 0 := by
      rintro rfl
      exact absurd large (by decide)
    have least : 2 ^ 52 * 2 ^ excessBits value ≤ digits * 2 ^ excessBits value := by
      rw [← pow_add, ← width, ← parts]
      exact Nat.log2_self_le some
    have bound : digits * 2 ^ excessBits value < 2 ^ 53 * 2 ^ excessBits value := by
      rw [← pow_add, ← parts, Nat.add_right_comm 52 1, ← width]
      exact most
    exact ⟨Nat.lt_of_mul_lt_mul_right bound, Or.inr (Nat.le_of_mul_le_mul_right least positive)⟩
  · have none : excessBits value = 0 := Nat.sub_eq_zero_of_le small
    rw [none, pow_zero, Nat.mul_one] at parts
    subst parts
    exact ⟨most.trans_le (Nat.pow_le_pow_right two_pos (Nat.succ_le_succ small)), Or.inl none⟩

theorem binary64_units (field : Nat) {fraction : Nat} (below : fraction < 2 ^ 52) :
    FloatFormat.binary64.units (field * 2 ^ 52 + fraction) =
      if field = 0 then fraction else (2 ^ 52 + fraction) * 2 ^ (field - 1) :=
  FloatFormat.units_fields field below

/-- A ratio that a binary64 number has exactly is found with the exponent field and the fraction of that
number. -/
theorem ofRatio_exact {numerator denominator units : Nat} (positive : 0 < denominator)
    (exact : numerator * twoTo 1074 = units * denominator) (divides : 2 ^ excessBits units ∣ units)
    (bounded : excessBits units ≤ 2045) :
    FloatFormat.binary64.units (ofRatio numerator denominator) = units ∧
      ofRatio numerator denominator < infinity := by
  obtain ⟨digits, parts⟩ := divides
  rw [Nat.mul_comm] at parts
  obtain ⟨width, used⟩ := excessBits_spec parts
  have rounded : divideToEven (units * denominator) (denominator * 2 ^ excessBits units) = digits := by
    have whole : units * denominator = digits * (denominator * 2 ^ excessBits units) := by
      conv_lhs => rw [parts]
      ring
    rw [whole, divideToEven_exact digits (Nat.mul_pos positive (Nat.two_pow_pos _))]
  have order : ofRatio numerator denominator = excessBits units * 2 ^ 52 + digits := by
    simp only [ofRatio, exact, Nat.mul_div_cancel units positive]
    rw [twoTo_eq, twoTo_eq, rounded]
    apply Nat.min_eq_right
    unfold infinity
    omega
  rw [order]
  refine ⟨?_, ?_⟩
  · by_cases leading : 2 ^ 52 ≤ digits
    · have fields : excessBits units * 2 ^ 52 + digits =
          (excessBits units + 1) * 2 ^ 52 + (digits - 2 ^ 52) := by
        omega
      have fits : digits - 2 ^ 52 < 2 ^ 52 := by
        omega
      rw [fields, binary64_units _ fits, if_neg (Nat.succ_ne_zero _), Nat.add_sub_cancel,
        Nat.add_sub_cancel' leading]
      exact parts.symm
    · have none := used.resolve_right leading
      rw [none, pow_zero, Nat.mul_one] at parts
      rw [none, binary64_units 0 (Nat.lt_of_not_le leading), if_pos rfl]
      exact parts.symm
  · unfold infinity
    omega

/-- What stands behind the sign of the binary64 pattern for an exponent field and a fraction of a binary32
one. -/
def widened (exponent fraction : Nat) : Nat :=
  if exponent = 255 then
    if fraction = 0 then infinity else notANumber + fraction % twoTo 22 * twoTo 29
  else if exponent = 0 then ofRatio fraction (twoTo 149)
  else (exponent + 896) * twoTo 52 + fraction * twoTo 29

theorem ofBinary32_eq (bits : Nat) : ofBinary32 bits =
    bits / 2 ^ 31 % 2 * 2 ^ 63 +
      widened (FloatFormat.binary32.exponent bits) (FloatFormat.binary32.fraction bits) := by
  simp only [ofBinary32, beq_iff_eq]
  rfl

theorem binary32_units (field : Nat) {fraction : Nat} (below : fraction < 2 ^ 23) :
    FloatFormat.binary32.units (field * 2 ^ 23 + fraction) =
      if field = 0 then fraction else (2 ^ 23 + fraction) * 2 ^ (field - 1) :=
  FloatFormat.units_fields field below

/-- A number below the least normal one of binary32 is a normal one of binary64, or zero. -/
theorem widened_subnormal {fraction : Nat} (below : fraction < twoTo 23) :
    FloatFormat.binary64.units (ofRatio fraction (twoTo 149)) = fraction * twoTo 925 ∧
      ofRatio fraction (twoTo 149) < infinity := by
  have exact : fraction * twoTo 1074 = fraction * twoTo 925 * twoTo 149 := by
    rw [Nat.mul_assoc, twoTo_mul]
  have small : fraction * twoTo 925 < twoTo 948 := by
    have scaled := Nat.mul_lt_mul_of_pos_right below (twoTo_pos 925)
    rwa [twoTo_mul] at scaled
  have excess : excessBits (fraction * twoTo 925) ≤ 895 := excessBits_le small
  have divides : 2 ^ excessBits (fraction * twoTo 925) ∣ fraction * twoTo 925 :=
    (pow_dvd_pow 2 (excess.trans (by decide))).mul_left fraction
  exact ofRatio_exact (twoTo_pos 149) exact divides (excess.trans (by decide))

/-- The number is the same, counted in smaller units. -/
theorem widened_units {exponent fraction : Nat} (finite : exponent < 255) (below : fraction < 2 ^ 23) :
    FloatFormat.binary64.units (widened exponent fraction) =
      FloatFormat.binary32.units (exponent * 2 ^ 23 + fraction) * twoTo 925 ∧
      widened exponent fraction < infinity := by
  rw [binary32_units exponent below, widened, if_neg finite.ne]
  cases exponent with
  | zero =>
      rw [if_pos rfl, if_pos rfl]
      exact widened_subnormal below
  | succ power =>
      rw [if_neg (Nat.succ_ne_zero power), if_neg (Nat.succ_ne_zero power), twoTo_eq 52, twoTo_eq 29]
      constructor
      · have exponents : 29 + (power + 1 + 896 - 1) = power + 1 - 1 + 925 := by
          omega
        have digits : 2 ^ 52 + fraction * 2 ^ 29 = (2 ^ 23 + fraction) * 2 ^ 29 := by
          omega
        have scale : 2 ^ 29 * 2 ^ (power + 1 + 896 - 1) = 2 ^ (power + 1 - 1) * twoTo 925 := by
          rw [twoTo_eq, ← pow_add, ← pow_add, exponents]
        rw [binary64_units _ (by omega), if_neg (Nat.succ_ne_zero _), digits, Nat.mul_assoc, scale,
          Nat.mul_assoc]
      · unfold infinity
        omega

theorem units_scale (units : Nat) :
    ((units * twoTo 925 : Nat) : ℚ) *
        2 ^ (1 - FloatFormat.binary64.bias - FloatFormat.binary64.fractionBits : ℤ) =
      units * 2 ^ (1 - FloatFormat.binary32.bias - FloatFormat.binary32.fractionBits : ℤ) := by
  have wide : (1 - FloatFormat.binary64.bias - FloatFormat.binary64.fractionBits : ℤ) = -1074 := by
    decide
  have narrow : (1 - FloatFormat.binary32.bias - FloatFormat.binary32.fractionBits : ℤ) =
      (925 : Nat) + -1074 := by
    decide
  rw [wide, narrow, zpow_add₀ two_ne_zero, zpow_natCast, Nat.cast_mul, mul_assoc, twoTo_eq, Nat.cast_pow,
    Nat.cast_ofNat]

/-- The value is the same, that of an infinity included. -/
theorem widened_value {exponent fraction : Nat} (negative : Bool) (fits : exponent < 256)
    (below : fraction < 2 ^ 23)
    (number : FloatFormat.binary32.ofOrder negative (exponent * 2 ^ 23 + fraction) ≠ .notANumber) :
    FloatFormat.binary64.ofOrder negative (widened exponent fraction) =
        FloatFormat.binary32.ofOrder negative (exponent * 2 ^ 23 + fraction) ∧
      widened exponent fraction < 2 ^ 63 := by
  have field : (exponent * 2 ^ 23 + fraction) / 2 ^ 23 = exponent := by
    omega
  have rest : (exponent * 2 ^ 23 + fraction) % 2 ^ 23 = fraction := by
    omega
  have narrow : FloatFormat.binary32.ofOrder negative (exponent * 2 ^ 23 + fraction) =
      if exponent = 255 then if fraction = 0 then .infinite negative else .notANumber
      else .finite negative (FloatFormat.binary32.units (exponent * 2 ^ 23 + fraction) *
        2 ^ (1 - FloatFormat.binary32.bias - FloatFormat.binary32.fractionBits : ℤ)) := by
    change (if (exponent * 2 ^ 23 + fraction) / 2 ^ 23 = 255 then
      if (exponent * 2 ^ 23 + fraction) % 2 ^ 23 = 0 then _ else _ else _) = _
    rw [field, rest]
  rw [narrow] at number ⊢
  by_cases special : exponent = 255
  · rw [if_pos special] at number ⊢
    by_cases zero : fraction = 0
    · rw [if_pos zero, widened, if_pos special, if_pos zero]
      exact ⟨rfl, by decide⟩
    · exact absurd (if_neg zero) number
  · have small : exponent < 255 := by
      omega
    obtain ⟨units, bounded⟩ := widened_units small below
    have finite : widened exponent fraction / 2 ^ 52 ≠ 2047 := by
      unfold infinity at bounded
      omega
    have wide : FloatFormat.binary64.ofOrder negative (widened exponent fraction) = _ := if_neg finite
    rw [if_neg special, wide, units, units_scale]
    unfold infinity at bounded
    exact ⟨rfl, by omega⟩

/-- The binary64 pattern for a binary32 number stands for that number. -/
theorem ofBinary32_value (bits : Nat) (number : FloatFormat.binary32.value bits ≠ .notANumber) :
    FloatFormat.binary64.value (ofBinary32 bits) = FloatFormat.binary32.value bits ∧
      ofBinary32 bits < 2 ^ 64 := by
  have fraction : FloatFormat.binary32.fraction bits < 2 ^ 23 := Nat.mod_lt _ (Nat.two_pow_pos 23)
  have exponent : FloatFormat.binary32.exponent bits < 256 := Nat.mod_lt _ (Nat.two_pow_pos 8)
  have order : bits % 2 ^ 31 =
      FloatFormat.binary32.exponent bits * 2 ^ 23 + FloatFormat.binary32.fraction bits := by
    change bits % 2 ^ 31 = bits / 2 ^ 23 % 2 ^ 8 * 2 ^ 23 + bits % 2 ^ 23
    omega
  have narrow : FloatFormat.binary32.value bits = FloatFormat.binary32.ofOrder
      (FloatFormat.binary32.negative bits) (bits % 2 ^ 31) := FloatFormat.value_eq
  rw [narrow, order] at number ⊢
  obtain ⟨same, bounded⟩ := widened_value _ exponent fraction number
  have wide : FloatFormat.binary64.value (bits / 2 ^ 31 % 2 * 2 ^ 63 + _) = _ :=
    FloatFormat.value_signed _ bounded
  rw [ofBinary32_eq, wide, Nat.mod_mod, ← same]
  refine ⟨rfl, ?_⟩
  omega

end Binary64

end JaiSyntax
