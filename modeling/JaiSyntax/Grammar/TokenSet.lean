import JaiSyntax.Token.Kind
/-!
Sets of token kinds. A set is a word of 128 bits, with one bit for each kind at its index, and its kinds are
read off the word from the lowest bit on.
-/

set_option autoImplicit false

namespace JaiSyntax

structure TokenSet where
  bits : BitVec 128
  deriving DecidableEq, Inhabited

namespace TokenSet

def empty : TokenSet := ⟨0#128⟩

def insert (set : TokenSet) (kind : TokenKind) : TokenSet :=
  ⟨set.bits ||| BitVec.twoPow 128 kind.index⟩

def union (left right : TokenSet) : TokenSet := ⟨left.bits ||| right.bits⟩

def ofList (kinds : List TokenKind) : TokenSet := kinds.foldl insert empty

def contains (set : TokenSet) (kind : TokenKind) : Bool :=
  (set.bits &&& BitVec.twoPow 128 kind.index) != 0#128

def isEmpty (set : TokenSet) : Bool := set.bits == 0#128

def count (set : TokenSet) : Nat := set.bits.cpop.toNat

/-- The place of the lowest bit, as an index of eight bits. -/
def lowest? (set : TokenSet) : Option Nat :=
  if set.bits.ctz.toNat < 256 then some set.bits.ctz.toNat else none

def clearLowest (set : TokenSet) : TokenSet := ⟨set.bits &&& (set.bits - 1#128)⟩

/-- One call of an iteration: the kind at the lowest bit, and the set without that bit. An empty set has no
next kind, and neither has one whose lowest bit is at a place of no kind. -/
def next (set : TokenSet) : Option TokenKind × TokenSet :=
  if set.isEmpty then (none, set)
  else
    match set.lowest? with
    | none => (none, set)
    | some place => (TokenKind.ofIndex? place, set.clearLowest)

theorem toNat_bits_pos {set : TokenSet} (more : set.isEmpty = false) : 0 < set.bits.toNat :=
  Nat.pos_of_ne_zero (fun zero => ne_of_beq_false more (BitVec.eq_of_toNat_eq zero))

theorem toNat_bits_sub_one {set : TokenSet} (more : set.isEmpty = false) :
    (set.bits - 1#128).toNat = set.bits.toNat - 1 :=
  BitVec.toNat_sub_of_le (BitVec.le_def.mpr (toNat_bits_pos more))

theorem clearLowest_lt {set : TokenSet} (more : set.isEmpty = false) :
    set.clearLowest.bits.toNat < set.bits.toNat := by
  rw [clearLowest, BitVec.toNat_and, toNat_bits_sub_one more]
  exact Nat.lt_of_le_of_lt Nat.and_le_right (Nat.sub_one_lt_of_lt (toNat_bits_pos more))

/-- A call that finds a kind has cleared a bit. -/
theorem next_lt {set rest : TokenSet} {kind : TokenKind} (found : set.next = (some kind, rest)) :
    rest.bits.toNat < set.bits.toNat := by
  unfold next at found
  split at found
  · cases found
  · next more =>
      split at found
      · cases found
      · obtain ⟨-, rfl⟩ := Prod.mk.inj found
        exact clearLowest_lt (eq_false_of_ne_true more)

/-- The kinds that an iteration finds, up to the first call that finds none. -/
def toList (set : TokenSet) : List TokenKind :=
  match _found : set.next with
  | (none, _) => []
  | (some kind, rest) => kind :: rest.toList
termination_by set.bits.toNat
decreasing_by exact next_lt _found

/-- Quoted descriptions as an enumeration with `or` before the last one. -/
def enumerate : List String → String
  | [] => "nothing"
  | [single] => single
  | [first, second] => first ++ " or " ++ second
  | names =>
      ", ".intercalate names.dropLast ++ ", or " ++ names.getLastD ""

def formatExpected (set : TokenSet) : String :=
  enumerate (set.toList.map (fun kind => "`" ++ kind.description ++ "`"))

end TokenSet

end JaiSyntax
