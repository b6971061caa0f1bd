import JaiSyntax.Grammar.TokenSet
import Mathlib.Algebra.Ring.Nat
import Mathlib.Data.Finset.Card
import Mathlib.Data.Finset.Range
import Mathlib.Data.List.Nodup
/-!
Token sets are finite sets of kinds. A set that is built by adding kinds and joining sets has the bits of the
kinds that were added and no others, in whatever order they came. So an iteration over it clears one bit with
each call and never meets a bit without a kind: it finds every kind once, by increasing index, and a message
names these kinds and no others.
-/

set_option autoImplicit false

namespace JaiSyntax

/-! ### Kinds and their indices -/

theorem TokenKind.ofIndex?_index (kind : TokenKind) : TokenKind.ofIndex? kind.index = some kind := by
  cases kind <;> rfl

theorem TokenKind.index_injective : Function.Injective TokenKind.index := by
  intro left right same
  have listed := TokenKind.ofIndex?_index left
  rw [same, TokenKind.ofIndex?_index right] at listed
  exact (Option.some.inj listed).symm

/-- Each kind has a bit of its own in a word of 128 bits. -/
theorem TokenKind.index_lt (kind : TokenKind) : kind.index < 128 := by
  obtain ⟨inside, -⟩ := List.getElem?_eq_some_iff.mp (TokenKind.ofIndex?_index kind)
  exact Nat.lt_of_lt_of_le inside (by decide)

theorem TokenKind.description_injective : Function.Injective TokenKind.description := by
  have distinct : (TokenKind.all.map TokenKind.description).Nodup := by decide +kernel
  have listed (kind : TokenKind) : kind ∈ TokenKind.all :=
    List.mem_of_getElem? (TokenKind.ofIndex?_index kind)
  intro left right same
  exact List.inj_on_of_nodup_map distinct (listed left) (listed right) same

/-! ### The lowest bit -/

/-- Up to its lowest bit, a number is a power of two. -/
theorem mod_two_pow_of_lowest {number low : Nat} (here : number.testBit low = true)
    (below : ∀ place < low, number.testBit place = false) :
    number % 2 ^ (low + 1) = 2 ^ low := by
  apply Nat.eq_of_testBit_eq
  intro place
  rw [Nat.testBit_mod_two_pow, Nat.testBit_two_pow]
  rcases Nat.lt_trichotomy place low with less | rfl | greater
  · simp [below place less, Nat.ne_of_gt less]
  · simp [here]
  · have outside : ¬place < low + 1 := by omega
    simp [outside, Nat.ne_of_lt greater]

/-- Taking one away turns the lowest bit off and those below it on. -/
theorem testBit_sub_one {number low : Nat} (here : number.testBit low = true)
    (below : ∀ place < low, number.testBit place = false) (place : Nat) :
    (number - 1).testBit place =
      if place ≤ low then decide (place < low) else number.testBit place := by
  have parts : 2 ^ (low + 1) * (number / 2 ^ (low + 1)) + 2 ^ low = number := by
    rw [← mod_two_pow_of_lowest here below]
    exact Nat.div_add_mod _ _
  have positive : 0 < 2 ^ low := Nat.two_pow_pos low
  have smaller : 2 ^ low < 2 ^ (low + 1) := Nat.pow_lt_pow_right (by decide) (Nat.lt_succ_self low)
  have taken : number - 1 = 2 ^ (low + 1) * (number / 2 ^ (low + 1)) + (2 ^ low - 1) := by omega
  by_cases near : place ≤ low
  · rw [if_pos near, taken, Nat.testBit_two_pow_mul_add _ (by omega),
      if_pos (Nat.lt_succ_of_le near), Nat.testBit_two_pow_sub_one]
  · have far : ¬place < low + 1 := by omega
    rw [if_neg near, taken, Nat.testBit_two_pow_mul_add _ (by omega), if_neg far]
    conv_rhs => rw [← parts]
    rw [Nat.testBit_two_pow_mul_add _ smaller, if_neg far]

namespace TokenSet

variable {set : TokenSet} {kinds : Finset TokenKind}

/-- Only the lowest bit is cleared. -/
theorem getLsbD_clearLowest (more : set.isEmpty = false) (place : Nat) :
    set.clearLowest.bits.getLsbD place =
      (set.bits.getLsbD place && decide (place ≠ set.bits.ctz.toNat)) := by
  have here := BitVec.getLsbD_true_ctz_of_ne_zero (ne_of_beq_false more)
  have below : ∀ place < set.bits.ctz.toNat, set.bits.toNat.testBit place = false :=
    fun place less => BitVec.getLsbD_false_of_lt_ctz less
  rw [clearLowest, BitVec.getLsbD_and]
  unfold BitVec.getLsbD at *
  rw [toNat_bits_sub_one more, testBit_sub_one here below]
  rcases Nat.lt_trichotomy place set.bits.ctz.toNat with less | rfl | greater
  · simp [below place less]
  · simp
  · simp [Nat.not_le_of_gt greater, Nat.ne_of_gt greater]

/-! ### Sets of kinds as words -/

/-- The bits that are set are those of some kinds, and no others. -/
def Represents (set : TokenSet) (kinds : Finset TokenKind) : Prop :=
  ∀ place, set.bits.getLsbD place = true ↔ ∃ kind ∈ kinds, kind.index = place

theorem represents_empty : empty.Represents ∅ := by
  intro place
  simp [empty]

theorem Represents.insert (represents : set.Represents kinds) (kind : TokenKind) :
    (set.insert kind).Represents (kinds ∪ {kind}) := by
  intro place
  rw [TokenSet.insert, BitVec.getLsbD_or, BitVec.getLsbD_twoPow, Bool.or_eq_true, represents place]
  simp only [Bool.and_eq_true, decide_eq_true_eq, Finset.mem_union, Finset.mem_singleton, or_and_right,
    exists_or, exists_eq_left]
  refine or_congr_right ⟨And.right, ?_⟩
  rintro rfl
  exact ⟨kind.index_lt, rfl⟩

theorem Represents.union {left right : TokenSet} {first second : Finset TokenKind}
    (holdsFirst : left.Represents first) (holdsSecond : right.Represents second) :
    (left.union right).Represents (first ∪ second) := by
  intro place
  rw [TokenSet.union, BitVec.getLsbD_or, Bool.or_eq_true, holdsFirst place, holdsSecond place]
  simp only [Finset.mem_union, or_and_right, exists_or]

/-- The word of a finite set is the only one that represents it. -/
theorem Represents.unique {other : TokenSet} (represents : set.Represents kinds)
    (alike : other.Represents kinds) : set = other := by
  have same : set.bits = other.bits := by
    apply BitVec.eq_of_getLsbD_eq
    intro place _
    rw [Bool.eq_iff_iff, represents place, alike place]
  exact congrArg TokenSet.mk same

theorem contains_eq_getLsbD (set : TokenSet) (kind : TokenKind) :
    set.contains kind = set.bits.getLsbD kind.index := by
  have bit : BitVec.twoPow 128 kind.index ≠ 0#128 := by
    intro zero
    have lit := congrArg (BitVec.getLsbD · kind.index) zero
    simp [kind.index_lt] at lit
  rw [contains, BitVec.and_twoPow]
  cases set.bits.getLsbD kind.index with
  | false => simp
  | true => simp [bit]

theorem Represents.contains_iff (represents : set.Represents kinds) (kind : TokenKind) :
    set.contains kind = true ↔ kind ∈ kinds := by
  rw [contains_eq_getLsbD, represents]
  constructor
  · rintro ⟨other, held, same⟩
    exact TokenKind.index_injective same ▸ held
  · intro held
    exact ⟨kind, held, rfl⟩

theorem Represents.isEmpty_iff (represents : set.Represents kinds) :
    set.isEmpty = true ↔ kinds = ∅ := by
  constructor
  · intro zero
    rw [Finset.eq_empty_iff_forall_notMem]
    intro kind held
    have lit := (represents kind.index).mpr ⟨kind, held, rfl⟩
    rw [eq_of_beq zero, BitVec.getLsbD_zero] at lit
    cases lit
  · rintro rfl
    rw [represents.unique represents_empty]
    rfl

/-! ### Counting -/

/-- A count of bits up to a place is the number of places where one is set. -/
theorem cpopNatRec_eq_card (bits : BitVec 128) (places : Nat) :
    bits.cpopNatRec places 0 = ((Finset.range places).filter (bits.getLsbD · = true)).card := by
  induction places with
  | zero => rfl
  | succ places ih =>
      rw [BitVec.cpopNatRec_succ, BitVec.cpopNatRec_add, ih, Finset.range_add_one, Finset.filter_insert]
      cases bits.getLsbD places with
      | false => simp
      | true => simp

theorem Represents.count_eq (represents : set.Represents kinds) : set.count = kinds.card := by
  have same : (Finset.range 128).filter (set.bits.getLsbD · = true) =
      kinds.image TokenKind.index := by
    ext place
    rw [Finset.mem_filter, Finset.mem_range, represents, Finset.mem_image]
    constructor
    · exact And.right
    · rintro ⟨kind, held, rfl⟩
      exact ⟨kind.index_lt, kind, held, rfl⟩
  rw [count, BitVec.toNat_cpop, cpopNatRec_eq_card, same,
    Finset.card_image_of_injective _ TokenKind.index_injective]

/-! ### Iteration -/

theorem Represents.next_of_empty (represents : set.Represents ∅) : set.next = (none, set) := by
  rw [next, if_pos (represents.isEmpty_iff.mpr rfl)]

section LowestKind

variable {kind : TokenKind}

/-- Where the lowest bit is that of a kind, it has an index and the index has a kind. -/
theorem next_of_lowest (more : set.isEmpty = false) (here : kind.index = set.bits.ctz.toNat) :
    set.next = (some kind, set.clearLowest) := by
  have lowest : set.lowest? = some kind.index := by
    rw [lowest?, ← here, if_pos (Nat.lt_trans kind.index_lt (by decide))]
  rw [next, more, lowest, if_neg Bool.false_ne_true]
  exact congrArg (·, set.clearLowest) (TokenKind.ofIndex?_index kind)

theorem Represents.index_le (represents : set.Represents kinds) (here : kind.index = set.bits.ctz.toNat)
    {other : TokenKind} (present : other ∈ kinds) : kind.index ≤ other.index := by
  rw [here]
  by_contra less
  have dark := BitVec.getLsbD_false_of_lt_ctz (Nat.lt_of_not_le less)
  rw [(represents _).mpr ⟨other, present, rfl⟩] at dark
  cases dark

theorem Represents.clearLowest (represents : set.Represents kinds) (more : set.isEmpty = false)
    (here : kind.index = set.bits.ctz.toNat) : set.clearLowest.Represents (kinds.erase kind) := by
  intro place
  rw [getLsbD_clearLowest more, Bool.and_eq_true, represents place, decide_eq_true_eq, ← here]
  constructor
  · rintro ⟨⟨other, present, rfl⟩, different⟩
    exact ⟨other, Finset.mem_erase.mpr ⟨fun same => different (congrArg _ same), present⟩, rfl⟩
  · rintro ⟨other, present, rfl⟩
    obtain ⟨different, present⟩ := Finset.mem_erase.mp present
    exact ⟨⟨other, present, rfl⟩, fun same => different (TokenKind.index_injective same)⟩

end LowestKind

/-- A call finds the kind with the least index and leaves the others. -/
theorem Represents.next_of_nonempty (represents : set.Represents kinds) (filled : kinds.Nonempty) :
    ∃ kind ∈ kinds, set.next = (some kind, set.clearLowest) ∧
      (∀ other ∈ kinds, kind.index ≤ other.index) ∧
      set.clearLowest.Represents (kinds.erase kind) := by
  have more : set.isEmpty = false := by
    rw [Bool.eq_false_iff, ne_eq, represents.isEmpty_iff]
    exact filled.ne_empty
  have lit := BitVec.getLsbD_true_ctz_of_ne_zero (ne_of_beq_false more)
  obtain ⟨kind, held, here⟩ := (represents _).mp lit
  exact ⟨kind, held, next_of_lowest more here, fun _ => represents.index_le here,
    represents.clearLowest more here⟩

/-- A list of the kinds of a finite set, each once, by increasing index. -/
structure Enumerates (list : List TokenKind) (kinds : Finset TokenKind) : Prop where
  mem_iff : ∀ kind, kind ∈ list ↔ kind ∈ kinds
  ordered : list.Pairwise (fun earlier later => earlier.index < later.index)

theorem enumerates_nil : Enumerates [] ∅ := ⟨by simp, List.Pairwise.nil⟩

theorem Enumerates.cons {kind : TokenKind} {rest : List TokenKind} (held : kind ∈ kinds)
    (least : ∀ other ∈ kinds, kind.index ≤ other.index)
    (enumerates : Enumerates rest (kinds.erase kind)) : Enumerates (kind :: rest) kinds := by
  constructor
  · intro other
    rw [List.mem_cons, enumerates.mem_iff, Finset.mem_erase]
    by_cases same : other = kind
    · simp [same, held]
    · simp [same]
  · refine enumerates.ordered.cons ?_
    intro later listed
    obtain ⟨different, present⟩ := Finset.mem_erase.mp ((enumerates.mem_iff later).mp listed)
    exact Nat.lt_of_le_of_ne (least later present)
      (fun same => different (TokenKind.index_injective same.symm))

theorem Enumerates.length_eq {list : List TokenKind} (enumerates : Enumerates list kinds) :
    list.length = kinds.card := by
  have distinct : list.Nodup :=
    enumerates.ordered.imp (fun less same => Nat.ne_of_lt less (congrArg TokenKind.index same))
  rw [← List.toFinset_card_of_nodup distinct]
  congr 1
  ext kind
  rw [List.mem_toFinset, enumerates.mem_iff]

theorem toList_of_next_none {rest : TokenSet} (found : set.next = (none, rest)) : set.toList = [] := by
  rw [toList]
  split
  · rfl
  · next other => cases found.symm.trans other

theorem toList_of_next_some {kind : TokenKind} {rest : TokenSet} (found : set.next = (some kind, rest)) :
    set.toList = kind :: rest.toList := by
  rw [toList]
  split
  · next other => cases found.symm.trans other
  · next other =>
      obtain ⟨same, rfl⟩ := Prod.mk.inj (found.symm.trans other)
      rw [Option.some.inj same]

/-- An iteration does not stop before it has found every kind. -/
theorem Represents.enumerates (represents : set.Represents kinds) : Enumerates set.toList kinds := by
  -- A call takes the least kind away, so the induction is on the kinds that are left.
  induction kinds using Finset.strongInduction generalizing set with
  | H kinds ih =>
      rcases kinds.eq_empty_or_nonempty with rfl | more
      · rw [toList_of_next_none represents.next_of_empty]
        exact enumerates_nil
      · obtain ⟨kind, held, found, least, remains⟩ := represents.next_of_nonempty more
        rw [toList_of_next_some found]
        exact (ih _ (Finset.erase_ssubset held) remains).cons held least

theorem next_fst_eq (set : TokenSet) : set.next.1 = set.toList.head? := by
  cases found : set.next with
  | mk kind? rest =>
      cases kind? with
      | none => rw [toList_of_next_none found, List.head?_nil]
      | some kind => rw [toList_of_next_some found, List.head?_cons]

def afterCalls : Nat → TokenSet → TokenSet
  | 0, set => set
  | calls + 1, set => afterCalls calls set.next.2

theorem Represents.toList_afterCalls (represents : set.Represents kinds) (calls : Nat) :
    (set.afterCalls calls).toList = set.toList.drop calls := by
  induction calls generalizing set kinds with
  | zero => rfl
  | succ calls ih =>
      rw [afterCalls]
      rcases kinds.eq_empty_or_nonempty with rfl | more
      · rw [represents.next_of_empty, ih represents, toList_of_next_none represents.next_of_empty,
          List.drop_nil, List.drop_nil]
      · obtain ⟨kind, -, found, -, remains⟩ := represents.next_of_nonempty more
        rw [found, ih remains, toList_of_next_some found, List.drop_succ_cons]

/-- Each call answers with the kind at its place in the list, and every call past the end with none. -/
theorem Represents.next_afterCalls (represents : set.Represents kinds) (calls : Nat) :
    (set.afterCalls calls).next.1 = set.toList[calls]? := by
  rw [next_fst_eq, represents.toList_afterCalls, List.head?_drop]

/-! ### Names in a message -/

def nameMark : Char := '\x60'

/-- The names that a text has between marks. Behind an opening mark, what was read of the name so far is
known. -/
def namesBetween : Option (List Char) → List Char → List String
  | _, [] => []
  | none, letter :: rest =>
      if letter = nameMark then namesBetween (some []) rest else namesBetween none rest
  | some name, letter :: rest =>
      if letter = nameMark then String.ofList name :: namesBetween none rest
      else namesBetween (some (name ++ [letter])) rest

def namesIn (message : String) : List String := namesBetween none message.toList

theorem namesBetween_plain {text : List Char} (unmarked : nameMark ∉ text) (rest : List Char) :
    namesBetween none (text ++ rest) = namesBetween none rest := by
  induction text with
  | nil => rfl
  | cons letter letters ih =>
      rw [List.mem_cons, not_or] at unmarked
      rw [List.cons_append, namesBetween, if_neg (Ne.symm unmarked.1), ih unmarked.2]

theorem namesBetween_name {name : List Char} (unmarked : nameMark ∉ name) (before rest : List Char) :
    namesBetween (some before) (name ++ nameMark :: rest) =
      String.ofList (before ++ name) :: namesBetween none rest := by
  induction name generalizing before with
  | nil => rw [List.nil_append, namesBetween, if_pos rfl, List.append_nil]
  | cons letter letters ih =>
      rw [List.mem_cons, not_or] at unmarked
      rw [List.cons_append, namesBetween, if_neg (Ne.symm unmarked.1), ih unmarked.2,
        List.append_assoc, List.singleton_append]

/-- A part of a message that has some names, whatever stands behind it. -/
def Tells (text : String) (names : List String) : Prop :=
  ∀ rest, namesBetween none (text.toList ++ rest) = names ++ namesBetween none rest

theorem Tells.namesIn_eq {text : String} {names : List String} (tells : Tells text names) :
    namesIn text = names := by
  have alone := tells []
  rwa [List.append_nil, namesBetween, List.append_nil] at alone

theorem Tells.append {left right : String} {first second : List String} (tellsFirst : Tells left first)
    (tellsSecond : Tells right second) : Tells (left ++ right) (first ++ second) := by
  intro rest
  rw [String.toList_append, List.append_assoc, tellsFirst, tellsSecond, List.append_assoc]

theorem tells_plain {text : String} (unmarked : nameMark ∉ text.toList) : Tells text [] :=
  namesBetween_plain unmarked

def quoted (name : String) : String := "`" ++ name ++ "`"

theorem tells_quoted {name : String} (unmarked : nameMark ∉ name.toList) :
    Tells (quoted name) [name] := by
  intro rest
  have opened : (quoted name).toList ++ rest = nameMark :: (name.toList ++ nameMark :: rest) := by
    simp [quoted, nameMark]
  rw [opened, namesBetween, if_pos rfl, namesBetween_name unmarked, List.nil_append,
    String.ofList_toList, List.singleton_append]

/-- Two parts of an enumeration with a separator between them. -/
theorem Tells.separated {left right separator : String} {first second : List String}
    (tellsFirst : Tells left first) (unmarked : nameMark ∉ separator.toList)
    (tellsSecond : Tells right second) : Tells (left ++ separator ++ right) (first ++ second) := by
  have joined := (tellsFirst.append (tells_plain unmarked)).append tellsSecond
  rwa [List.append_nil] at joined

section Enumeration

variable {names : List String}

theorem tells_intercalate (unmarked : ∀ name ∈ names, nameMark ∉ name.toList) :
    Tells (", ".intercalate (names.map quoted)) names := by
  induction names with
  | nil => exact tells_plain (by decide)
  | cons name rest ih =>
      have here := tells_quoted (unmarked name List.mem_cons_self)
      have later := ih (fun other listed => unmarked other (List.mem_cons_of_mem _ listed))
      cases rest with
      | nil => exact here
      | cons second others =>
          rw [List.map_cons, List.map_cons, String.intercalate_cons_cons]
          exact here.separated (by decide) later

theorem enumerate_of_three {words : List String} (several : 3 ≤ words.length) :
    enumerate words = ", ".intercalate words.dropLast ++ ", or " ++ words.getLastD "" := by
  match words, several with
  | _ :: _ :: _ :: _, _ => rfl

/-- An enumeration has the names that it is made of, in order. -/
theorem tells_enumerate (unmarked : ∀ name ∈ names, nameMark ∉ name.toList) :
    Tells (enumerate (names.map quoted)) names := by
  match names, unmarked with
  | [], _ => exact tells_plain (by decide)
  | [single], unmarked => exact tells_quoted (unmarked single (by simp))
  | [first, second], unmarked =>
      exact (tells_quoted (unmarked first (by simp))).separated (by decide)
        (tells_quoted (unmarked second (by simp)))
  | first :: second :: third :: rest, unmarked =>
      obtain ⟨front, last, parts⟩ : ∃ front last, first :: second :: third :: rest = front ++ [last] :=
        ⟨_, _, (List.dropLast_append_getLast (List.cons_ne_nil _ _)).symm⟩
      rw [enumerate_of_three (by simp), parts, List.map_append, List.map_singleton,
        List.dropLast_concat, List.getLastD_concat]
      rw [parts] at unmarked
      have earlier := tells_intercalate (fun name listed => unmarked name (List.mem_append_left _ listed))
      exact earlier.separated (by decide) (tells_quoted (unmarked last (by simp)))

end Enumeration

theorem nameMark_notMem_description (kind : TokenKind) : nameMark ∉ kind.description.toList := by
  cases kind <;> decide

/-- A message names the kinds that an iteration finds, in the same order. -/
theorem namesIn_formatExpected (set : TokenSet) :
    namesIn set.formatExpected = set.toList.map TokenKind.description := by
  have words : set.toList.map (fun kind => "`" ++ kind.description ++ "`") =
      (set.toList.map TokenKind.description).map quoted := by
    rw [List.map_map]
    rfl
  have unmarked : ∀ name ∈ set.toList.map TokenKind.description, nameMark ∉ name.toList := by
    intro name listed
    obtain ⟨kind, -, rfl⟩ := List.mem_map.mp listed
    exact nameMark_notMem_description kind
  rw [formatExpected, words]
  exact (tells_enumerate unmarked).namesIn_eq

example : (ofList [.rBrace, .rBracket, .rParen]).formatExpected = "`)`, `\x7d`, or `]`" := by
  decide +kernel

/-! ### Sets that are built -/

/-- A token set stands for a finite set of kinds in all that it tells. -/
structure Refines (set : TokenSet) (kinds : Finset TokenKind) : Prop where
  contains_iff : ∀ kind, set.contains kind = true ↔ kind ∈ kinds
  /-- An iteration yields each kind once, by increasing index. -/
  enumerates : Enumerates set.toList kinds
  /-- No call answers with none before all kinds are yielded, and every later one does. -/
  next_eq : ∀ calls, (set.afterCalls calls).next.1 = set.toList[calls]?
  count_eq : set.count = set.toList.length
  isEmpty_iff : set.isEmpty = true ↔ kinds = ∅
  namesIn_eq : namesIn set.formatExpected = set.toList.map TokenKind.description
  mem_namesIn_iff : ∀ kind, kind.description ∈ namesIn set.formatExpected ↔ kind ∈ kinds

theorem Represents.refines (represents : set.Represents kinds) : set.Refines kinds where
  contains_iff := represents.contains_iff
  enumerates := represents.enumerates
  next_eq := represents.next_afterCalls
  count_eq := represents.count_eq.trans represents.enumerates.length_eq.symm
  isEmpty_iff := represents.isEmpty_iff
  namesIn_eq := namesIn_formatExpected set
  mem_namesIn_iff kind := by
    rw [namesIn_formatExpected, List.mem_map_of_injective TokenKind.description_injective]
    exact represents.enumerates.mem_iff kind

end TokenSet

/-- How a token set is built: from the empty set, by adding a kind and by joining two sets that are built. -/
inductive TokenSetTerm where
  | empty
  | insert (base : TokenSetTerm) (kind : TokenKind)
  | union (left right : TokenSetTerm)

namespace TokenSetTerm

def set : TokenSetTerm → TokenSet
  | .empty => .empty
  | .insert base kind => base.set.insert kind
  | .union left right => left.set.union right.set

def kinds : TokenSetTerm → Finset TokenKind
  | .empty => ∅
  | .insert base kind => base.kinds ∪ {kind}
  | .union left right => left.kinds ∪ right.kinds

theorem set_represents (term : TokenSetTerm) : term.set.Represents term.kinds := by
  induction term with
  | empty => exact TokenSet.represents_empty
  | insert base kind ih => exact ih.insert kind
  | union left right ihLeft ihRight => exact ihLeft.union ihRight

theorem set_refines (term : TokenSetTerm) : term.set.Refines term.kinds :=
  term.set_represents.refines

end TokenSetTerm

end JaiSyntax
