import JaiSyntax.Grammar.Rule
import Mathlib.Data.List.Basic
import Mathlib.Data.List.Nodup
import Mathlib.Data.Prod.Lex
/-!
How conflicts between rules are settled. A rule is chosen just if a declared conflict covers all candidates
and it stands at the one place among them that is strongest, in whatever order they come. Where none is
chosen, the first of the known candidates with the greatest dynamic precedence is there to fall back on.
-/

set_option autoImplicit false

namespace JaiSyntax

/-- What decides between rules: static precedence, and dynamic precedence where the static ones are equal. -/
def Rule.strength (rule : Rule) : Prec ×ₗ Int := toLex (rule.prec, rule.dynamic)

/-- A rule that a list of candidates names, at a place where every other rule it names is weaker. -/
def Rule.Dominates (rule : Rule) (candidates : List String) : Prop :=
  ∃ before after, candidates = before ++ rule.name :: after ∧
    ∀ rival ∈ rules, rival.name ∈ before ++ after → rival.strength < rule.strength

structure SettlesConflict (candidates : List String) (rule : Rule) : Prop where
  several : 2 ≤ candidates.length
  registered : ∀ name ∈ candidates, ∃ known ∈ rules, known.name = name
  declared : ∃ conflict ∈ conflicts, ∀ name ∈ candidates, name ∈ conflict.rules
  known : rule ∈ rules
  strongest : rule.Dominates candidates

/-- A rule that a list of candidates names before every other one of its dynamic precedence, and none of a
greater one. -/
structure IsFallback (candidates : List String) (rule : Rule) : Prop where
  known : rule ∈ rules
  first : ∃ before after, candidates = before ++ rule.name :: after ∧
    (∀ rival ∈ rules, rival.name ∈ before → rival.dynamic < rule.dynamic) ∧
    ∀ rival ∈ rules, rival.name ∈ after → rival.dynamic ≤ rule.dynamic

/-! ### Names -/

theorem rules_names_nodup : (rules.map Rule.name).Nodup := by
  decide +kernel

/-- Names tell rules apart, so a rule is found by its name. -/
theorem rule?_eq_some_iff {name : String} {rule : Rule} :
    rule? name = some rule ↔ rule ∈ rules ∧ rule.name = name := by
  have sound {name : String} {rule : Rule} (found : rule? name = some rule) :
      rule ∈ rules ∧ rule.name = name := by
    unfold rule? at found
    have same := List.find?_some found
    exact ⟨List.mem_of_find?_eq_some found, beq_iff_eq.mp same⟩
  constructor
  · exact sound
  · rintro ⟨known, rfl⟩
    cases found : rule? rule.name with
    | none =>
        have other := List.find?_eq_none.mp found rule known
        simp at other
    | some other =>
        obtain ⟨listed, same⟩ := sound found
        rw [List.inj_on_of_nodup_map rules_names_nodup listed known same]

/-- The known candidates, where all of them are known. -/
theorem filterMap_rule?_length_iff {candidates : List String} :
    (candidates.filterMap rule?).length = candidates.length ↔
      ∀ name ∈ candidates, ∃ known ∈ rules, known.name = name := by
  rw [List.filterMap_length_eq_length]
  simp only [Option.isSome_iff_exists, rule?_eq_some_iff]

/-- What stands before and after a known candidate. -/
theorem filterMap_rule?_eq_append {candidates : List String} {before after : List Rule} {rule : Rule}
    (parts : candidates.filterMap rule? = before ++ rule :: after) :
    ∃ front back, candidates = front ++ rule.name :: back ∧ front.filterMap rule? = before ∧
      back.filterMap rule? = after := by
  obtain ⟨first, rest, rfl, rfl, later⟩ := List.filterMap_eq_append_iff.mp parts
  obtain ⟨unknown, name, back, rfl, none, found, rfl⟩ := List.filterMap_eq_cons_iff.mp later
  obtain ⟨-, rfl⟩ := rule?_eq_some_iff.mp found
  refine ⟨first ++ unknown, back, (List.append_assoc _ _ _).symm, ?_, rfl⟩
  rw [List.filterMap_append, List.filterMap_eq_nil_iff.mpr none, List.append_nil]

theorem mem_filterMap_rule? {candidates : List String} {rule : Rule} :
    rule ∈ candidates.filterMap rule? ↔ rule ∈ rules ∧ rule.name ∈ candidates := by
  simp only [List.mem_filterMap, rule?_eq_some_iff]
  constructor
  · rintro ⟨name, listed, known, rfl⟩
    exact ⟨known, listed⟩
  · rintro ⟨known, listed⟩
    exact ⟨rule.name, listed, known, rfl⟩

/-! ### The strongest rule -/

theorem Rule.yieldsTo_iff {rule other : Rule} :
    rule.yieldsTo other = true ↔ rule.strength < other.strength := by
  simp [Rule.yieldsTo, Rule.strength, Prod.Lex.toLex_lt_toLex]

/-- One rule is the strongest just if all that stand before and after it are weaker. -/
theorem strongest?_eq_some_iff {candidates : List Rule} {rule : Rule} :
    strongest? candidates = some rule ↔ ∃ before after, candidates = before ++ rule :: after ∧
      ∀ rival ∈ before ++ after, rival.strength < rule.strength := by
  have unbeaten (best : Rule) :
      (!candidates.any (fun other => best.yieldsTo other)) = true ↔
        ∀ other ∈ candidates, other.strength ≤ best.strength := by
    simp only [Bool.not_eq_true', List.any_eq_false, Rule.yieldsTo_iff, not_lt]
  have single : strongest? candidates = some rule ↔
      candidates.filter (fun best => !candidates.any (fun other => best.yieldsTo other)) = [rule] := by
    unfold strongest?
    split
    · next only same => simp [same]
    · next other =>
        constructor
        · exact nofun
        · exact fun same => absurd same (other rule)
  rw [single, List.filter_eq_cons_iff]
  simp only [unbeaten, List.filter_eq_nil_iff, not_forall, not_le]
  constructor
  · rintro ⟨before, after, parts, front, greatest, back⟩
    refine ⟨before, after, parts, List.forall_mem_append.mpr ⟨?_, ?_⟩⟩
    · intro rival member
      obtain ⟨other, listed, beaten⟩ := front rival member
      exact lt_of_lt_of_le beaten (greatest other listed)
    · intro rival member
      obtain ⟨other, listed, beaten⟩ := back rival member
      exact lt_of_lt_of_le beaten (greatest other listed)
  · rintro ⟨before, after, parts, weaker⟩
    obtain ⟨front, back⟩ := List.forall_mem_append.mp weaker
    have listed : rule ∈ candidates := by simp [parts]
    refine ⟨before, after, parts, fun rival member => ⟨rule, listed, front rival member⟩, ?_,
      fun rival member => ⟨rule, listed, back rival member⟩⟩
    rw [parts]
    intro other member
    rcases List.mem_append.mp member with before | here
    · exact (front other before).le
    · rcases List.mem_cons.mp here with rfl | after
      · exact le_rfl
      · exact (back other after).le

/-! ### The fallback -/

/-- The rule to fall back on is the first one of the greatest dynamic precedence. -/
theorem foldl_betterFallback (first : Rule) (rest : List Rule) :
    ∃ before after, first :: rest = before ++ rest.foldl betterFallback first :: after ∧
      (∀ rival ∈ before, rival.dynamic < (rest.foldl betterFallback first).dynamic) ∧
      ∀ rival ∈ after, rival.dynamic ≤ (rest.foldl betterFallback first).dynamic := by
  induction rest generalizing first with
  | nil => exact ⟨[], [], rfl, List.forall_mem_nil _, List.forall_mem_nil _⟩
  | cons next rest ih =>
      rw [List.foldl_cons]
      by_cases greater : first.dynamic < next.dynamic
      · have better : betterFallback first next = next := if_pos greater
        rw [better]
        obtain ⟨before, after, parts, less, most⟩ := ih next
        refine ⟨first :: before, after, by rw [parts, List.cons_append], ?_, most⟩
        refine List.forall_mem_cons.mpr ⟨lt_of_lt_of_le greater ?_, less⟩
        cases before with
        | nil => exact (congrArg Rule.dynamic (List.cons.inj parts).1).le
        | cons second before =>
            obtain ⟨rfl, -⟩ := List.cons.inj parts
            exact (less next List.mem_cons_self).le
      · have better : betterFallback first next = first := if_neg greater
        rw [better]
        obtain ⟨before, after, parts, less, most⟩ := ih first
        have least := not_lt.mp greater
        -- The second rule goes behind the first, wherever the best one stands.
        cases before with
        | nil =>
            obtain ⟨same, rfl⟩ := List.cons.inj parts
            refine ⟨[], next :: rest, by rw [← same]; rfl, List.forall_mem_nil _, ?_⟩
            exact List.forall_mem_cons.mpr ⟨least.trans (congrArg Rule.dynamic same).le, most⟩
        | cons second before =>
            obtain ⟨rfl, behind⟩ := List.cons.inj parts
            obtain ⟨below, further⟩ := List.forall_mem_cons.mp less
            refine ⟨first :: next :: before, after, congrArg (first :: next :: ·) behind, ?_, most⟩
            exact List.forall_mem_cons.mpr
              ⟨below, List.forall_mem_cons.mpr ⟨lt_of_le_of_lt least below, further⟩⟩

theorem fallbackOf?_eq_some {candidates : List String} {rule : Rule}
    (found : fallbackOf? (candidates.filterMap rule?) = some rule) : IsFallback candidates rule := by
  cases known : candidates.filterMap rule? with
  | nil =>
      rw [known] at found
      cases found
  | cons first rest =>
      rw [known] at found
      obtain ⟨before, after, parts, less, most⟩ := foldl_betterFallback first rest
      rw [Option.some.inj found] at parts less most
      rw [parts] at known
      have listed : rule ∈ candidates.filterMap rule? := by simp [known]
      obtain ⟨front, back, same, rfl, rfl⟩ := filterMap_rule?_eq_append known
      refine ⟨(mem_filterMap_rule?.mp listed).1, front, back, same, ?_, ?_⟩
      · exact fun rival known named => less rival (mem_filterMap_rule?.mpr ⟨known, named⟩)
      · exact fun rival known named => most rival (mem_filterMap_rule?.mpr ⟨known, named⟩)

theorem fallbackOf?_eq_none_iff {candidates : List Rule} :
    fallbackOf? candidates = none ↔ candidates = [] := by
  cases candidates with
  | nil => exact iff_of_true rfl rfl
  | cons first rest => exact iff_of_false nofun nofun

/-! ### Resolution -/

theorem conflictFor?_isSome_iff {candidates : List String} :
    (conflictFor? candidates).isSome = true ↔ 2 ≤ candidates.length ∧
      ∃ conflict ∈ conflicts, ∀ name ∈ candidates, name ∈ conflict.rules := by
  unfold conflictFor?
  split
  · next few =>
      refine iff_of_false nofun ?_
      rintro ⟨several, -⟩
      omega
  · next several =>
      simp only [List.find?_isSome, List.all_eq_true, List.contains_iff_mem]
      exact ⟨fun declared => ⟨by omega, declared⟩, And.right⟩

theorem resolve_eq_chosen_iff {candidates : List String} {rule : Rule} :
    resolve candidates = .chosen rule ↔ SettlesConflict candidates rule := by
  have cases : resolve candidates = .chosen rule ↔
      ((candidates.filterMap rule?).length = candidates.length ∧
        (conflictFor? candidates).isSome = true) ∧
      strongest? (candidates.filterMap rule?) = some rule := by
    unfold resolve
    simp only
    split
    · next settled =>
        rw [Bool.and_eq_true, beq_iff_eq] at settled
        cases strongest? (candidates.filterMap rule?) <;> simp [settled]
    · next unsettled =>
        rw [Bool.and_eq_true, beq_iff_eq] at unsettled
        exact iff_of_false nofun (fun settled => unsettled settled.1)
  rw [cases, filterMap_rule?_length_iff, conflictFor?_isSome_iff, strongest?_eq_some_iff]
  constructor
  · rintro ⟨⟨registered, several, declared⟩, before, after, parts, weaker⟩
    have listed : rule ∈ candidates.filterMap rule? := by simp [parts]
    obtain ⟨front, back, same, rfl, rfl⟩ := filterMap_rule?_eq_append parts
    refine ⟨several, registered, declared, (mem_filterMap_rule?.mp listed).1, front, back, same, ?_⟩
    intro rival known named
    apply weaker
    rw [← List.filterMap_append]
    exact mem_filterMap_rule?.mpr ⟨known, named⟩
  · rintro ⟨several, registered, declared, known, front, back, rfl, weaker⟩
    have found : rule? rule.name = some rule := rule?_eq_some_iff.mpr ⟨known, rfl⟩
    refine ⟨⟨registered, several, declared⟩, front.filterMap rule?, back.filterMap rule?, ?_, ?_⟩
    · rw [List.filterMap_append, List.filterMap_cons_some found]
    · rw [← List.filterMap_append]
      intro rival member
      obtain ⟨inRules, named⟩ := mem_filterMap_rule?.mp member
      exact weaker rival inRules named

/-- The order of the candidates does not matter. -/
theorem SettlesConflict.perm {candidates other : List String} {rule : Rule}
    (settles : SettlesConflict candidates rule) (same : candidates.Perm other) : SettlesConflict other rule := by
  obtain ⟨several, registered, ⟨conflict, declared, covers⟩, known, before, after, rfl, weaker⟩ := settles
  have listed : rule.name ∈ other := same.subset (by simp)
  obtain ⟨front, back, rfl⟩ := List.append_of_mem listed
  have others : (before ++ after).Perm (front ++ back) :=
    (List.perm_middle.symm.trans (same.trans List.perm_middle)).cons_inv
  refine ⟨same.length_eq ▸ several, fun name member => registered name (same.mem_iff.mpr member),
    ⟨conflict, declared, fun name member => covers name (same.mem_iff.mpr member)⟩, known, front, back,
    rfl, ?_⟩
  exact fun rival inRules named => weaker rival inRules (others.mem_iff.mpr named)

/-- A rule is chosen just if a declared conflict settles the candidates for it, and then in any order of
them. Otherwise the fallback is the first known candidate of the greatest dynamic precedence, and there is
one unless no candidate is known. -/
theorem resolve_settles (candidates : List String) :
    (∀ rule, resolve candidates = .chosen rule ↔ SettlesConflict candidates rule) ∧
      (∀ other, candidates.Perm other →
        ∀ rule, resolve candidates = .chosen rule ↔ resolve other = .chosen rule) ∧
      ∀ fallback, resolve candidates = .unresolved fallback →
        match fallback with
        | some rule => IsFallback candidates rule
        | none => ∀ name ∈ candidates, ∀ rule ∈ rules, rule.name ≠ name := by
  refine ⟨fun rule => resolve_eq_chosen_iff, fun other same rule => ?_, fun fallback unresolved => ?_⟩
  · rw [resolve_eq_chosen_iff, resolve_eq_chosen_iff]
    exact ⟨fun settles => settles.perm same, fun settles => settles.perm same.symm⟩
  · have found : fallbackOf? (candidates.filterMap rule?) = fallback := by
      unfold resolve at unresolved
      simp only at unresolved
      split at unresolved
      · split at unresolved
        · cases unresolved
        · exact Resolution.unresolved.inj unresolved
      · exact Resolution.unresolved.inj unresolved
    cases fallback with
    | some rule => exact fallbackOf?_eq_some found
    | none =>
        intro name named rule known same
        have empty := fallbackOf?_eq_none_iff.mp found
        have listed : rule ∈ candidates.filterMap rule? :=
          mem_filterMap_rule?.mpr ⟨known, same ▸ named⟩
        rw [empty] at listed
        cases listed

/-- An enumeration wins over a constant in either order. A call is the fallback where one name is unknown. -/
theorem resolve_settles_enumeration :
    ∃ enumeration call, SettlesConflict ["const_declaration", "enum_declaration"] enumeration ∧
      resolve ["enum_declaration", "const_declaration"] = .chosen enumeration ∧
      IsFallback ["address", "no_such_rule", "call_expression", "pointer_type"] call := by
  have chosen : resolve ["const_declaration", "enum_declaration"] =
      .chosen ⟨"enum_declaration", 1, .none, 0, .selfTerminated⟩ := by
    decide +kernel
  have unknown : resolve ["address", "no_such_rule", "call_expression", "pointer_type"] =
      .unresolved (some ⟨"call_expression", 18, .right, 1, .semicolon⟩) := by
    decide +kernel
  exact ⟨_, _, ((resolve_settles _).1 _).mp chosen,
    ((resolve_settles _).2.1 _ (List.Perm.swap _ _ _) _).mp chosen, (resolve_settles _).2.2 _ unknown⟩

end JaiSyntax
