import JaiSyntax.Command.Options
import Mathlib.Data.List.Basic
/-!
The clauses of a command line. The words after the command fall into clauses: a flag together with the value
that it takes from the next word, or a word of its own. The first clause that is wrong decides the error;
where none is, each clause has its say in turn.
-/

set_option autoImplicit false

namespace JaiSyntax

/-! ### Flags -/

/-- The flags that take a value, from the same word or from the next one. -/
inductive ValueFlag where
  | format | maxErrors
  deriving DecidableEq

namespace ValueFlag

def word : ValueFlag → String
  | .format => "--format"
  | .maxErrors => "--max-errors"

def joined (flag : ValueFlag) (value : String) : String := flag.word ++ "=" ++ value

def refusal? : ValueFlag → String → Option UsageError
  | .format, value =>
      if (OutputFormat.ofName? value).isNone then some (.unknownFormat value) else none
  | .maxErrors, value => if (count? value).isNone then some (.notANumber value) else none

end ValueFlag

def switches : List String := ["-q", "--quiet", "-v", "--verbose", "--plain", "--no-resync"]

def takesValue (word : String) : Bool :=
  word == ValueFlag.format.word || word == ValueFlag.maxErrors.word

theorem takesValue_iff {word : String} : takesValue word = true ↔ ∃ flag : ValueFlag, flag.word = word := by
  rw [takesValue, Bool.or_eq_true, beq_iff_eq, beq_iff_eq]
  constructor
  · rintro (rfl | rfl)
    · exact ⟨.format, rfl⟩
    · exact ⟨.maxErrors, rfl⟩
  · rintro ⟨flag, rfl⟩
    cases flag
    · exact Or.inl rfl
    · exact Or.inr rfl

theorem takesValue_word (flag : ValueFlag) : takesValue flag.word = true :=
  takesValue_iff.mpr ⟨flag, rfl⟩

theorem takesValue_switch {word : String} (switch : word ∈ switches) : takesValue word = false := by
  simp only [switches, List.mem_cons, List.not_mem_nil, or_false] at switch
  rcases switch with rfl | rfl | rfl | rfl | rfl | rfl <;> decide +kernel

theorem word_not_mem_switches (flag : ValueFlag) : flag.word ∉ switches :=
  fun switch => Bool.noConfusion ((takesValue_word flag).symm.trans (takesValue_switch switch))

theorem ValueFlag.refusal?_switch (flag : ValueFlag) {word : String} (switch : word ∈ switches) :
    flag.refusal? word ≠ none := by
  simp only [switches, List.mem_cons, List.not_mem_nil, or_false] at switch
  cases flag <;> rcases switch with rfl | rfl | rfl | rfl | rfl | rfl <;> decide +kernel

/-- Of the words with an equals sign, none is a flag with no value in it. -/
theorem plain_of_joined (flag : ValueFlag) (value : String) :
    flag.joined value ∉ switches ∧ takesValue (flag.joined value) = false ∧ flag.joined value ≠ "-" := by
  have sign : '=' ∈ (flag.joined value).toList := by simp [ValueFlag.joined]
  refine ⟨fun switch => ?_, Bool.eq_false_iff.mpr fun takes => ?_, fun same => ?_⟩
  · have unsigned : ∀ word ∈ switches, '=' ∉ word.toList := by decide +kernel
    exact unsigned _ switch sign
  · obtain ⟨other, same⟩ := takesValue_iff.mp takes
    rw [← same] at sign
    cases other <;> simp [ValueFlag.word] at sign
  · simp [same] at sign

theorem ValueFlag.toList_joined (flag : ValueFlag) (value : String) :
    (flag.joined value).toList = (flag.word ++ "=").toList ++ value.toList :=
  String.toList_append

theorem head?_joined (flag : ValueFlag) (value : String) :
    (flag.joined value).toList.head? = some '-' := by
  rw [ValueFlag.joined]
  cases flag <;> simp [ValueFlag.word]

theorem afterBeginning?_joined (flag : ValueFlag) (value : String) :
    afterBeginning? (flag.word ++ "=") (flag.joined value) = some value := by
  have front : (flag.word ++ "=").toList.isPrefixOf (flag.joined value).toList = true := by
    rw [List.isPrefixOf_iff_prefix, ValueFlag.toList_joined]
    exact List.prefix_append _ _
  rw [afterBeginning?, if_pos front, ValueFlag.toList_joined, ← String.length_toList, List.drop_left,
    String.ofList_toList]

theorem afterBeginning?_joined_of_ne {flag other : ValueFlag} (different : other ≠ flag)
    (value : String) : afterBeginning? (other.word ++ "=") (flag.joined value) = none := by
  have front : (other.word ++ "=").toList.isPrefixOf (flag.joined value).toList = false := by
    rw [ValueFlag.joined]
    cases flag <;> cases other <;> first | contradiction | simp [ValueFlag.word, List.isPrefixOf]
  rw [afterBeginning?, front]
  rfl

theorem eq_joined_of_afterBeginning? {flag : ValueFlag} {word value : String}
    (found : afterBeginning? (flag.word ++ "=") word = some value) : word = flag.joined value := by
  unfold afterBeginning? at found
  split at found
  · next front =>
      obtain ⟨rest, same⟩ := List.isPrefixOf_iff_prefix.mp front
      rw [← same, ← String.length_toList, List.drop_left] at found
      rw [← String.toList_inj, ← same, ValueFlag.toList_joined, ← Option.some.inj found,
        String.toList_ofList]
  · cases found

/-! ### Clauses -/

/-- A word, and the value that it takes from the next one. -/
structure Clause where
  word : String
  value : Option String

/-- The clauses of the words after the command. A flag takes the next word for its value whatever that looks
like. -/
def clausesOf : List String → List Clause
  | [] => []
  | [word] => [⟨word, none⟩]
  | word :: next :: rest =>
      if takesValue word then ⟨word, some next⟩ :: clausesOf rest
      else ⟨word, none⟩ :: clausesOf (next :: rest)

namespace Clause

def valueFor? (flag : ValueFlag) (clause : Clause) : Option String :=
  if clause.word = flag.word then clause.value
  else afterBeginning? (flag.word ++ "=") clause.word

/-- Whether a clause is the name of a file: a word that does not begin with a dash, or just one. -/
def isFile (clause : Clause) : Bool := clause.word == "-" || clause.word.toList.head? != some '-'

def awaits (clause : Clause) : Bool := takesValue clause.word && clause.value.isNone

def offence? (clause : Clause) : Option UsageError :=
  if clause.awaits then some (.missingValue clause.word)
  else
    match clause.valueFor? .format, clause.valueFor? .maxErrors with
    | some value, _ => ValueFlag.format.refusal? value
    | none, some value => ValueFlag.maxErrors.refusal? value
    | none, none =>
        if clause.isFile || switches.contains clause.word then none
        else some (.unknownFlag clause.word)

theorem valueFor?_eq_some_iff {flag : ValueFlag} {value : String} {clause : Clause} :
    clause.valueFor? flag = some value ↔
      clause = ⟨flag.word, some value⟩ ∨ clause.word = flag.joined value := by
  have other : flag.joined value ≠ flag.word := fun same => by
    simpa [same, takesValue_word] using (plain_of_joined flag value).2.1
  rcases clause with ⟨word, next⟩
  rw [valueFor?]
  split
  · next same =>
      subst same
      simp [Ne.symm other]
  · next different =>
      constructor
      · exact fun found => Or.inr (eq_joined_of_afterBeginning? found)
      · rintro (same | rfl)
        · exact absurd (congrArg Clause.word same) different
        · exact afterBeginning?_joined flag value

theorem valueFor?_joined (flag : ValueFlag) (value : String) :
    (mk (flag.joined value) none).valueFor? flag = some value :=
  valueFor?_eq_some_iff.mpr (Or.inr rfl)

section Given

variable {flag : ValueFlag} {value : String} {clause : Clause}
  (gives : clause.valueFor? flag = some value)

include gives

theorem valueFor?_of_ne {other : ValueFlag} (different : other ≠ flag) :
    clause.valueFor? other = none := by
  rcases valueFor?_eq_some_iff.mp gives with rfl | same
  · cases flag <;> cases other <;> first | contradiction | simp [valueFor?, ValueFlag.word, afterBeginning?]
  · have plain : clause.word ≠ other.word := fun equal => by
      simpa [← same, equal, takesValue_word] using (plain_of_joined flag value).2.1
    rw [valueFor?, if_neg plain, same, afterBeginning?_joined_of_ne different]

theorem isFile_of_valueFor? : clause.isFile = false := by
  rcases valueFor?_eq_some_iff.mp gives with rfl | same
  · cases flag <;> simp [isFile, ValueFlag.word]
  · simp [isFile, same, head?_joined, (plain_of_joined flag value).2.2]

theorem not_mem_switches_of_valueFor? : clause.word ∉ switches := by
  rcases valueFor?_eq_some_iff.mp gives with rfl | same
  · exact word_not_mem_switches flag
  · exact same ▸ (plain_of_joined flag value).1

theorem offence?_of_valueFor? : clause.offence? = flag.refusal? value := by
  have given : clause.awaits = false := by
    rcases valueFor?_eq_some_iff.mp gives with rfl | same
    · exact Bool.and_false _
    · rw [awaits, same, (plain_of_joined flag value).2.1, Bool.false_and]
  cases flag with
  | format => simp [offence?, given, gives]
  | maxErrors =>
      have none : clause.valueFor? .format = none := valueFor?_of_ne gives nofun
      simp [offence?, given, none, gives]

end Given

theorem switch_eq {word : String} (switch : word ∈ switches) :
    (∀ flag, (mk word none).valueFor? flag = none) ∧ (mk word none).isFile = false := by
  simp only [switches, List.mem_cons, List.not_mem_nil, or_false] at switch
  rcases switch with rfl | rfl | rfl | rfl | rfl | rfl <;>
    exact ⟨fun flag => by cases flag <;> decide +kernel, by decide +kernel⟩

theorem offence?_switch {word : String} (switch : word ∈ switches) :
    (mk word none).offence? = none := by
  have given : (mk word none).awaits = false := by
    rw [awaits, takesValue_switch switch, Bool.false_and]
  simp [offence?, given, (switch_eq switch).1, switch]

theorem offence?_awaits (flag : ValueFlag) :
    (mk flag.word none).offence? = some (.missingValue flag.word) := by
  have awaits : (mk flag.word none).awaits = true := by
    rw [awaits, takesValue_word]
    rfl
  rw [offence?, if_pos awaits]

end Clause

/-! ### Options by clauses -/

namespace Options

def follow (options : Options) (clause : Clause) : Options :=
  { options with
    format := ((clause.valueFor? .format).bind OutputFormat.ofName?).getD options.format
    quiet := options.quiet || ["-q", "--quiet"].contains clause.word
    verbose := options.verbose || ["-v", "--verbose"].contains clause.word
    plain := options.plain || clause.word == "--plain"
    parse :=
      { maxErrors := ((clause.valueFor? .maxErrors).bind count?).or options.parse.maxErrors
        resyncOnDeclaration :=
          options.parse.resyncOnDeclaration && clause.word != "--no-resync" }
    files := options.files ++ if clause.isFile then [clause.word] else [] }

def set (options : Options) : ValueFlag → String → Except UsageError Options
  | .format, value => options.setFormat value
  | .maxErrors, value => options.setMaxErrors value

theorem follow_of_other (options : Options) {clause : Clause} (other : clause.word ∉ switches) :
    options.follow clause =
      { options with
        format := ((clause.valueFor? .format).bind OutputFormat.ofName?).getD options.format
        parse :=
          { options.parse with
            maxErrors := ((clause.valueFor? .maxErrors).bind count?).or options.parse.maxErrors }
        files := options.files ++ if clause.isFile then [clause.word] else [] } := by
  simp only [switches, List.mem_cons, List.not_mem_nil, or_false, not_or] at other
  simp [follow, other]

theorem set_eq (options : Options) {flag : ValueFlag} {value : String} {clause : Clause}
    (gives : clause.valueFor? flag = some value) :
    options.set flag value =
      match clause.offence? with
      | some error => .error error
      | none => .ok (options.follow clause) := by
  rw [Clause.offence?_of_valueFor? gives,
    options.follow_of_other (Clause.not_mem_switches_of_valueFor? gives),
    Clause.isFile_of_valueFor? gives]
  cases flag with
  | format =>
      have none : clause.valueFor? .maxErrors = none := Clause.valueFor?_of_ne gives nofun
      rw [gives, none, set, setFormat, ValueFlag.refusal?]
      cases found : OutputFormat.ofName? value <;> simp [found]
  | maxErrors =>
      have none : clause.valueFor? .format = none := Clause.valueFor?_of_ne gives nofun
      rw [gives, none, set, setMaxErrors, ValueFlag.refusal?]
      cases found : count? value <;> simp [found]

end Options

/-! ### Reading clause by clause -/

/-- A word that is no flag on its own gives a value, is a file or is unknown. -/
theorem Word.ofString_of_other {word : String} (other : word ∉ switches)
    (alone : takesValue word = false) :
    Word.ofString word =
      match (Clause.mk word none).valueFor? .format, (Clause.mk word none).valueFor? .maxErrors with
      | some value, _ => .format (some value)
      | none, some value => .maxErrors (some value)
      | none, none => if (Clause.mk word none).isFile then .file word else .unknown word := by
  have inside (flag : ValueFlag) :
      (Clause.mk word none).valueFor? flag = afterBeginning? (flag.word ++ "=") word :=
    if_neg (fun same => by simp [show word = flag.word from same, takesValue_word] at alone)
  have format : ValueFlag.format.word ++ "=" = "--format=" := by decide +kernel
  have maxErrors : ValueFlag.maxErrors.word ++ "=" = "--max-errors=" := by decide +kernel
  have dash : (word.toList.head? == some '-' && word != "-") = !(Clause.mk word none).isFile := by
    simp [Clause.isFile, bne, Bool.and_comm]
  rw [inside, inside, format, maxErrors]
  simp only [switches, List.mem_cons, List.not_mem_nil, or_false, not_or] at other
  rw [takesValue, Bool.or_eq_false_iff, beq_eq_false_iff_ne, beq_eq_false_iff_ne] at alone
  unfold Word.ofString
  split
  case h_9 =>
    simp only [dash, Bool.not_eq_true']
    cases afterBeginning? "--format=" word <;> cases afterBeginning? "--max-errors=" word <;>
      cases (Clause.mk word none).isFile <;> rfl
  case h_7 => exact absurd rfl alone.1
  case h_8 => exact absurd rfl alone.2
  all_goals simp at other

namespace Options

theorem readWords_switch (options : Options) {word : String} (switch : word ∈ switches)
    (rest : List String) :
    options.readWords (word :: rest) = (options.follow ⟨word, none⟩).readWords rest := by
  obtain ⟨noValue, noFile⟩ := Clause.switch_eq switch
  have follows : options.follow ⟨word, none⟩ =
      { options with
        quiet := options.quiet || ["-q", "--quiet"].contains word
        verbose := options.verbose || ["-v", "--verbose"].contains word
        plain := options.plain || word == "--plain"
        parse :=
          { options.parse with
            resyncOnDeclaration := options.parse.resyncOnDeclaration && word != "--no-resync" } } := by
    simp [follow, noValue, noFile]
  rw [follows]
  simp only [switches, List.mem_cons, List.not_mem_nil, or_false] at switch
  rcases switch with rfl | rfl | rfl | rfl | rfl | rfl <;> rw [readWords.eq_def] <;> simp [Word.ofString]

theorem readWords_joined (options : Options) (flag : ValueFlag) (value : String) (rest : List String) :
    options.readWords (flag.joined value :: rest) =
      (options.set flag value).bind (fun later => later.readWords rest) := by
  obtain ⟨plain, alone, -⟩ := plain_of_joined flag value
  have gives := Clause.valueFor?_joined flag value
  rw [readWords.eq_def]
  simp only
  rw [Word.ofString_of_other plain alone]
  cases flag with
  | format =>
      rw [gives]
      rfl
  | maxErrors =>
      rw [Clause.valueFor?_of_ne gives (nofun : ValueFlag.format ≠ .maxErrors), gives]
      rfl

theorem readWords_spaced (options : Options) (flag : ValueFlag) (value : String) (rest : List String) :
    options.readWords (flag.word :: value :: rest) =
      (options.set flag value).bind (fun later => later.readWords rest) := by
  cases flag <;> rw [readWords.eq_def] <;> rfl

theorem readWords_alone (options : Options) {word : String} (alone : takesValue word = false)
    (rest : List String) :
    options.readWords (word :: rest) =
      match (Clause.mk word none).offence? with
      | some error => .error error
      | none => (options.follow ⟨word, none⟩).readWords rest := by
  by_cases switch : word ∈ switches
  · rw [options.readWords_switch switch, Clause.offence?_switch switch]
  · by_cases given : ∃ flag value, word = ValueFlag.joined flag value
    · obtain ⟨flag, value, rfl⟩ := given
      rw [readWords_joined, options.set_eq (Clause.valueFor?_joined flag value)]
      cases (Clause.mk (flag.joined value) none).offence? <;> rfl
    · have noValue (flag : ValueFlag) : (Clause.mk word none).valueFor? flag = none := by
        rw [Option.eq_none_iff_forall_ne_some]
        intro value gives
        rcases Clause.valueFor?_eq_some_iff.mp gives with impossible | same
        · exact nomatch congrArg Clause.value impossible
        · exact given ⟨flag, value, same⟩
      have awaits : (Clause.mk word none).awaits = false := by
        rw [Clause.awaits, alone, Bool.false_and]
      rw [readWords.eq_def]
      simp only
      rw [Word.ofString_of_other switch alone, Clause.offence?, awaits, noValue, noValue]
      have follows : options.follow ⟨word, none⟩ = _ := options.follow_of_other switch
      rw [noValue, noValue] at follows
      cases file : (Clause.mk word none).isFile with
      | false => simp [switch]
      | true => simp [switch, follows, file]

end Options

theorem clausesOf_alone {word : String} (alone : takesValue word = false) (rest : List String) :
    clausesOf (word :: rest) = ⟨word, none⟩ :: clausesOf rest := by
  cases rest with
  | nil => rfl
  | cons next rest => simp [clausesOf, alone]

theorem clausesOf_spaced (flag : ValueFlag) (value : String) (rest : List String) :
    clausesOf (flag.word :: value :: rest) = ⟨flag.word, some value⟩ :: clausesOf rest := by
  rw [clausesOf, if_pos (takesValue_word flag)]

/-- Words are read clause by clause, up to the first one that is wrong. -/
theorem Options.readWords_eq (options : Options) (words : List String) :
    options.readWords words =
      match (clausesOf words).findSome? Clause.offence? with
      | some error => .error error
      | none => .ok ((clausesOf words).foldl follow options) := by
  -- The reader takes its words as the clauses do, so the recursion of the clauses serves for both.
  induction words using clausesOf.induct generalizing options with
  | case1 => rfl
  | case2 word =>
      cases takes : takesValue word with
      | false =>
          rw [options.readWords_alone takes, clausesOf, List.findSome?_cons]
          cases (Clause.mk word none).offence? <;> rfl
      | true =>
          obtain ⟨flag, rfl⟩ := takesValue_iff.mp takes
          rw [clausesOf, List.findSome?_cons, Clause.offence?_awaits]
          cases flag <;> rfl
  | case3 word next rest takes ih =>
      obtain ⟨flag, rfl⟩ := takesValue_iff.mp takes
      have gives : (Clause.mk flag.word (some next)).valueFor? flag = some next := if_pos rfl
      rw [options.readWords_spaced, options.set_eq gives, clausesOf_spaced, List.findSome?_cons]
      cases (Clause.mk flag.word (some next)).offence? with
      | some error => rfl
      | none => exact ih _
  | case4 word next rest alone ih =>
      rw [Bool.not_eq_true] at alone
      rw [options.readWords_alone alone, clausesOf_alone alone, List.findSome?_cons]
      cases (Clause.mk word none).offence? with
      | some error => rfl
      | none => exact ih _

end JaiSyntax
