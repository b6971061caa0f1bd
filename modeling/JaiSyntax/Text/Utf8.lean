import JaiSyntax.Character.Scalar
/-!
Decoding UTF-8. A sequence is well formed if it is the shortest one of its character; surrogates have
none. The first byte that starts no well-formed sequence is where decoding fails.
-/

set_option autoImplicit false

namespace JaiSyntax

def continuationBits? (byte : UInt8) : Option Nat :=
  if 0x80 ≤ byte ∧ byte < 0xC0 then some (byte.toNat - 0x80) else none

/-- The bits of a leading byte between two bounds, above the lower one. -/
def leadingBits? (lowest highest byte : UInt8) : Option Nat :=
  if lowest ≤ byte ∧ byte ≤ highest then some (byte.toNat - lowest.toNat) else none

def scalarFrom? (least code : Nat) : Option Char := if least ≤ code then scalar? code else none

def oneByte? (first : UInt8) : Option Char := if first < 0x80 then scalar? first.toNat else none

def twoBytes? (first second : UInt8) : Option Char := do
  let high ← leadingBits? 0xC0 0xDF first
  let low ← continuationBits? second
  scalarFrom? 0x80 (high * 64 + low)

def threeBytes? (first second third : UInt8) : Option Char := do
  let high ← leadingBits? 0xE0 0xEF first
  let middle ← continuationBits? second
  let low ← continuationBits? third
  scalarFrom? 0x800 ((high * 64 + middle) * 64 + low)

def fourBytes? (first second third fourth : UInt8) : Option Char := do
  let high ← leadingBits? 0xF0 0xF7 first
  let upper ← continuationBits? second
  let lower ← continuationBits? third
  let low ← continuationBits? fourth
  scalarFrom? 0x10000 (((high * 64 + upper) * 64 + lower) * 64 + low)

/-- Decode bytes that start at `offset`. A failure gives the offset of the first byte that starts no
well-formed sequence. -/
def decodeFrom (offset : Nat) : List UInt8 → Except Nat (List Char)
  | [] => .ok []
  | first :: afterFirst =>
      match oneByte? first with
      | some character => (decodeFrom (offset + 1) afterFirst).map (character :: ·)
      | none =>
          match afterFirst with
          | [] => .error offset
          | second :: afterSecond =>
              match twoBytes? first second with
              | some character => (decodeFrom (offset + 2) afterSecond).map (character :: ·)
              | none =>
                  match afterSecond with
                  | [] => .error offset
                  | third :: afterThird =>
                      match threeBytes? first second third with
                      | some character =>
                          (decodeFrom (offset + 3) afterThird).map (character :: ·)
                      | none =>
                          match afterThird with
                          | [] => .error offset
                          | fourth :: afterFourth =>
                              match fourBytes? first second third fourth with
                              | some character =>
                                  (decodeFrom (offset + 4) afterFourth).map (character :: ·)
                              | none => .error offset

def decodeUtf8 (bytes : List UInt8) : Except Nat (List Char) := decodeFrom 0 bytes

end JaiSyntax
