import JaiSyntax.Proofs.Command.Clauses
import Mathlib.Data.List.Induction
/-!
Command lines. A value may stand in the word of its flag or in the next one, and a flag without a value may
stand anywhere but where another flag takes it for its value. What is understood is what the clauses say: the
files in their order, the last value of each flag; and what is refused is refused for the first clause that is
wrong.
-/

set_option autoImplicit false

namespace JaiSyntax

/-- Whether no flag at the end of some words waits for its value. -/
def EndsClause (words : List String) : Prop := ∀ clause ∈ clausesOf words, clause.awaits = false

instance (words : List String) : Decidable (EndsClause words) :=
  inferInstanceAs (Decidable (∀ clause ∈ clausesOf words, clause.awaits = false))

/-- The words that are neither flags nor values of flags. -/
def fileWords (words : List String) : List String :=
  ((clausesOf words).filter Clause.isFile).map Clause.word

def lastValue? (flag : ValueFlag) (words : List String) : Option String :=
  ((clausesOf words).filterMap (Clause.valueFor? flag)).getLast?

def IsFirstOffence (words : List String) (error : UsageError) : Prop :=
  ∃ before clause after, clausesOf words = before ++ clause :: after ∧ clause.offence? = some error ∧
    ∀ earlier ∈ before, earlier.offence? = none

/-- What options are to hold for a command and the words after it. -/
structure Options.Holds (options : Options) (command : Command) (words : List String) : Prop where
  does : options.command = command
  files : options.files = fileWords words
  /-- Without a value the format is a symbolic expression, and tokens have none. -/
  format : ∃ format,
    (match lastValue? .format words with
      | some value => OutputFormat.ofName? value = some format
      | none => format = .sexp) ∧
    options.format = if command = .lex ∧ format = .sexp then .tokens else format
  maxErrors :
    match lastValue? .maxErrors words with
    | some value => ∃ count, count? value = some count ∧ options.parse.maxErrors = some count
    | none => options.parse.maxErrors = none
  quiet : options.quiet = true ↔ ∃ clause ∈ clausesOf words, clause.word ∈ ["-q", "--quiet"]
  verbose : options.verbose = true ↔ ∃ clause ∈ clausesOf words, clause.word ∈ ["-v", "--verbose"]
  plain : options.plain = true ↔ ∃ clause ∈ clausesOf words, clause.word = "--plain"
  resync : options.parse.resyncOnDeclaration = false ↔
    ∃ clause ∈ clausesOf words, clause.word = "--no-resync"

/-! ### Words put together -/

theorem endsClause_alone {word : String} (alone : takesValue word = false) (rest : List String) :
    EndsClause (word :: rest) ↔ EndsClause rest := by
  have given : (Clause.mk word none).awaits = false := by
    rw [Clause.awaits, alone, Bool.false_and]
  rw [EndsClause, clausesOf_alone alone, List.forall_mem_cons]
  exact and_iff_right given

theorem endsClause_spaced (flag : ValueFlag) (value : String) (rest : List String) :
    EndsClause (flag.word :: value :: rest) ↔ EndsClause rest := by
  rw [EndsClause, clausesOf_spaced, List.forall_mem_cons]
  exact and_iff_right (Bool.and_false _)

/-- Words that leave a flag waiting have it at their end. -/
theorem endsClause_or (words : List String) :
    EndsClause words ∨ ∃ before flag, EndsClause before ∧ words = before ++ [ValueFlag.word flag] := by
  induction words using clausesOf.induct with
  | case1 => exact Or.inl (List.forall_mem_nil _)
  | case2 word =>
      cases takes : takesValue word with
      | false => exact Or.inl ((endsClause_alone takes []).mpr (List.forall_mem_nil _))
      | true =>
          obtain ⟨flag, rfl⟩ := takesValue_iff.mp takes
          exact Or.inr ⟨[], flag, List.forall_mem_nil _, rfl⟩
  | case3 word next rest takes ih =>
      obtain ⟨other, rfl⟩ := takesValue_iff.mp takes
      rcases ih with ends | ⟨before, flag, ends, rfl⟩
      · exact Or.inl ((endsClause_spaced other next rest).mpr ends)
      · exact Or.inr ⟨_, flag, (endsClause_spaced other next before).mpr ends, rfl⟩
  | case4 word next rest alone ih =>
      rw [Bool.not_eq_true] at alone
      rcases ih with ends | ⟨before, flag, ends, same⟩
      · exact Or.inl ((endsClause_alone alone _).mpr ends)
      · exact Or.inr ⟨word :: before, flag, (endsClause_alone alone before).mpr ends, congrArg _ same⟩

theorem clausesOf_append {before : List String} (ends : EndsClause before) (after : List String) :
    clausesOf (before ++ after) = clausesOf before ++ clausesOf after := by
  induction before using clausesOf.induct with
  | case1 => rfl
  | case2 word =>
      have alone : takesValue word = false := by
        simpa [Clause.awaits] using ends ⟨word, none⟩ List.mem_cons_self
      exact clausesOf_alone alone after
  | case3 word next rest takes ih =>
      obtain ⟨flag, rfl⟩ := takesValue_iff.mp takes
      rw [List.cons_append, List.cons_append, clausesOf_spaced, clausesOf_spaced,
        ih ((endsClause_spaced flag next rest).mp ends), List.cons_append]
  | case4 word next rest alone ih =>
      rw [Bool.not_eq_true] at alone
      rw [List.cons_append, clausesOf_alone alone, clausesOf_alone alone,
        ih ((endsClause_alone alone _).mp ends), List.cons_append]

theorem EndsClause.of_fine {words : List String}
    (fine : ∀ clause ∈ clausesOf words, clause.offence? = none) : EndsClause words := by
  intro clause member
  by_contra awaits
  rw [Bool.not_eq_false] at awaits
  have accepted := fine clause member
  rw [Clause.offence?, if_pos awaits] at accepted
  cases accepted

/-- Where nothing is wrong, no flag takes one without a value for its own. -/
theorem EndsClause.of_switch {before after : List String} {word : String} (switch : word ∈ switches)
    (fine : ∀ clause ∈ clausesOf (before ++ word :: after), clause.offence? = none) :
    EndsClause before := by
  rcases endsClause_or before with ends | ⟨earlier, flag, ends, rfl⟩
  · exact ends
  · rw [List.append_assoc, List.singleton_append, clausesOf_append ends, clausesOf_spaced] at fine
    have gives : (Clause.mk flag.word (some word)).valueFor? flag = some word := if_pos rfl
    have accepted := fine _ (List.mem_append_right _ List.mem_cons_self)
    rw [Clause.offence?_of_valueFor? gives] at accepted
    exact absurd accepted (flag.refusal?_switch switch)

namespace Options

theorem readWords_append (options : Options) {before : List String} (ends : EndsClause before)
    (after : List String) :
    options.readWords (before ++ after) =
      (options.readWords before).bind (fun later => later.readWords after) := by
  rw [readWords_eq, readWords_eq, clausesOf_append ends, List.findSome?_append, List.foldl_append]
  cases (clausesOf before).findSome? Clause.offence? with
  | some error => rfl
  | none => exact (readWords_eq _ after).symm

theorem readWords_join (options : Options) {before : List String} (ends : EndsClause before)
    (flag : ValueFlag) (value : String) (after : List String) :
    options.readWords (before ++ flag.word :: value :: after) =
      options.readWords (before ++ flag.joined value :: after) := by
  rw [options.readWords_append ends, options.readWords_append ends]
  congr 1
  funext later
  rw [readWords_spaced, readWords_joined]

theorem follow_switch (options : Options) {word : String} (switch : word ∈ switches) (clause : Clause) :
    (options.follow clause).follow ⟨word, none⟩ = (options.follow ⟨word, none⟩).follow clause := by
  obtain ⟨noValue, noFile⟩ := Clause.switch_eq switch
  simp [follow, noValue, noFile, Bool.or_right_comm, Bool.and_right_comm]

theorem foldl_follow_switch (options : Options) {word : String} (switch : word ∈ switches)
    (clauses : List Clause) :
    (clauses.foldl follow options).follow ⟨word, none⟩ =
      clauses.foldl follow (options.follow ⟨word, none⟩) := by
  induction clauses generalizing options with
  | nil => rfl
  | cons clause rest ih => rw [List.foldl_cons, List.foldl_cons, ih, options.follow_switch switch]

theorem readWords_switch_first (options : Options) {word : String} (switch : word ∈ switches)
    {before : List String} (ends : EndsClause before) (after : List String) :
    options.readWords (before ++ word :: after) = options.readWords (word :: (before ++ after)) := by
  rw [readWords_switch options switch, readWords_append _ ends, readWords_append _ ends]
  rw [readWords_eq options before, readWords_eq _ before]
  cases (clausesOf before).findSome? Clause.offence? with
  | some error => rfl
  | none =>
      change readWords _ (word :: after) = readWords _ after
      rw [readWords_switch _ switch, foldl_follow_switch _ switch]

/-! ### What options hold -/

theorem files_foldl (options : Options) (clauses : List Clause) :
    (clauses.foldl follow options).files =
      options.files ++ (clauses.filter Clause.isFile).map Clause.word := by
  induction clauses generalizing options with
  | nil => exact (List.append_nil _).symm
  | cons clause rest ih =>
      rw [List.foldl_cons, ih, follow]
      cases file : clause.isFile <;> simp [file]

theorem switches_foldl (options : Options) (clauses : List Clause) :
    (clauses.foldl follow options).command = options.command ∧
    (clauses.foldl follow options).quiet =
      (options.quiet || clauses.any (fun clause => ["-q", "--quiet"].contains clause.word)) ∧
    (clauses.foldl follow options).verbose =
      (options.verbose || clauses.any (fun clause => ["-v", "--verbose"].contains clause.word)) ∧
    (clauses.foldl follow options).plain =
      (options.plain || clauses.any (fun clause => clause.word == "--plain")) ∧
    (clauses.foldl follow options).parse.resyncOnDeclaration =
      (options.parse.resyncOnDeclaration && clauses.all (fun clause => clause.word != "--no-resync")) := by
  induction clauses generalizing options with
  | nil => simp
  | cons clause rest ih =>
      obtain ⟨command, quiet, verbose, plain, resync⟩ := ih (options.follow clause)
      rw [List.foldl_cons, command, quiet, verbose, plain, resync]
      simp only [follow, List.any_cons, List.all_cons, Bool.or_assoc, Bool.and_assoc, true_and]

/-- What a flag with a value decides is told by its last value, if nothing is wrong. -/
theorem foldl_lastValue {α : Type} {flag : ValueFlag} (part : Options → α) (told : String → α → Prop)
    (keeps : ∀ (options : Options) (clause : Clause), clause.valueFor? flag = none →
      part (options.follow clause) = part options)
    (sets : ∀ (options : Options) (clause : Clause) (value : String),
      clause.valueFor? flag = some value → flag.refusal? value = none →
      told value (part (options.follow clause)))
    (options : Options) {clauses : List Clause} (fine : ∀ clause ∈ clauses, clause.offence? = none) :
    match (clauses.filterMap (Clause.valueFor? flag)).getLast? with
    | some value => told value (part (clauses.foldl follow options))
    | none => part (clauses.foldl follow options) = part options := by
  -- From the back: the last clause decides if it has a value, and those before it do if it has none.
  induction clauses using List.reverseRecOn with
  | nil => rfl
  | append_singleton clauses clause ih =>
      obtain ⟨earlier, last⟩ := List.forall_mem_append.mp fine
      rw [List.foldl_concat, List.filterMap_append]
      cases gives : clause.valueFor? flag with
      | none =>
          rw [List.filterMap_cons_none gives, List.filterMap_nil, List.append_nil,
            keeps _ clause gives]
          exact ih earlier
      | some value =>
          have accepted := (Clause.offence?_of_valueFor? gives).symm.trans
            (last clause List.mem_cons_self)
          rw [List.filterMap_cons_some gives, List.filterMap_nil, List.getLast?_concat]
          exact sets _ clause value gives accepted

theorem format_foldl (options : Options) {clauses : List Clause}
    (fine : ∀ clause ∈ clauses, clause.offence? = none) :
    match (clauses.filterMap (Clause.valueFor? .format)).getLast? with
    | some value => OutputFormat.ofName? value = some (clauses.foldl follow options).format
    | none => (clauses.foldl follow options).format = options.format := by
  refine foldl_lastValue Options.format
    (fun value format => OutputFormat.ofName? value = some format) ?keeps ?sets options fine
  case keeps =>
    intro options clause gives
    rw [follow, gives]
    rfl
  case sets =>
    intro options clause value gives accepted
    cases named : OutputFormat.ofName? value with
    | none => simp [ValueFlag.refusal?, named] at accepted
    | some format => simp [follow, gives, named]

theorem maxErrors_foldl (options : Options) {clauses : List Clause}
    (fine : ∀ clause ∈ clauses, clause.offence? = none) :
    match (clauses.filterMap (Clause.valueFor? .maxErrors)).getLast? with
    | some value =>
        ∃ count, count? value = some count ∧
          (clauses.foldl follow options).parse.maxErrors = some count
    | none => (clauses.foldl follow options).parse.maxErrors = options.parse.maxErrors := by
  refine foldl_lastValue (fun options => options.parse.maxErrors)
    (fun value limit => ∃ count, count? value = some count ∧ limit = some count)
    ?keeps ?sets options fine
  case keeps =>
    intro options clause gives
    simp only [follow, gives]
    rfl
  case sets =>
    intro options clause value gives accepted
    cases counted : count? value with
    | none => simp [ValueFlag.refusal?, counted] at accepted
    | some count => simp [follow, gives, counted]

theorem settleFormat_eq (options : Options) :
    options.settleFormat =
      { options with
        format := if options.command = .lex ∧ options.format = .sexp then .tokens else options.format } := by
  rw [settleFormat]
  by_cases lists : options.command = .lex ∧ options.format = .sexp
  · simp [lists]
  · rw [if_neg lists, if_neg (by simpa using lists)]

/-- Where nothing is wrong, the options hold what the words say. -/
theorem foldl_holds (command : Command) {words : List String}
    (fine : ∀ clause ∈ clausesOf words, clause.offence? = none) :
    ((clausesOf words).foldl follow (ofCommand command)).settleFormat.Holds command words := by
  obtain ⟨does, quiet, verbose, plain, resync⟩ := switches_foldl (ofCommand command) (clausesOf words)
  rw [settleFormat_eq]
  refine ⟨does, files_foldl _ _, ⟨_, format_foldl (ofCommand command) fine, ?_⟩,
    maxErrors_foldl _ fine, ?_, ?_, ?_, ?_⟩
  · simp only [does]
    rfl
  · simp only [quiet]
    simp [ofCommand]
  · simp only [verbose]
    simp [ofCommand]
  · simp only [plain]
    simp [ofCommand]
  · simp only [resync]
    simp [ofCommand]

/-! ### Arguments -/

theorem ofArguments_eq {name : String} {command : Command} (known : Command.ofName? name = some command)
    (words : List String) :
    ofArguments (name :: words) =
      match (clausesOf words).findSome? Clause.offence? with
      | some error => .error error
      | none =>
          if (fileWords words).isEmpty then .error .noFiles
          else .ok ((clausesOf words).foldl follow (ofCommand command)).settleFormat := by
  rw [ofArguments, known]
  change ((ofCommand command).readWords words).bind _ = _
  rw [readWords_eq]
  cases (clausesOf words).findSome? Clause.offence? with
  | some error => rfl
  | none =>
      change (if ((clausesOf words).foldl follow (ofCommand command)).files.isEmpty then _ else _) = _
      rw [files_foldl]
      rfl

theorem ofArguments_congr {words others : List String}
    (same : ∀ options : Options, options.readWords words = options.readWords others) (name : String) :
    ofArguments (name :: words) = ofArguments (name :: others) := by
  simp only [ofArguments, same]

theorem ofArguments_join (name : String) {before : List String} (ends : EndsClause before)
    (flag : ValueFlag) (value : String) (after : List String) :
    ofArguments (name :: (before ++ flag.word :: value :: after)) =
      ofArguments (name :: (before ++ flag.joined value :: after)) :=
  ofArguments_congr (fun options => options.readWords_join ends flag value after) name

/-- A flag without a value is understood alike in every place where no other flag waits for a value. -/
theorem ofArguments_move (name : String) {word : String} (switch : word ∈ switches)
    {before after front back : List String} (same : before ++ after = front ++ back)
    (ends : EndsClause before) (endsFront : EndsClause front) :
    ofArguments (name :: (before ++ word :: after)) =
      ofArguments (name :: (front ++ word :: back)) := by
  refine ofArguments_congr (fun options => ?_) name
  rw [options.readWords_switch_first switch ends, options.readWords_switch_first switch endsFront, same]

theorem ofArguments_eq_ok {name : String} {words : List String} {options : Options}
    (understood : ofArguments (name :: words) = .ok options) :
    (∀ clause ∈ clausesOf words, clause.offence? = none) ∧
      ∃ command, Command.ofName? name = some command ∧ options.Holds command words := by
  cases known : Command.ofName? name with
  | none =>
      rw [ofArguments, known] at understood
      cases understood
  | some command =>
      rw [ofArguments_eq known] at understood
      split at understood
      · cases understood
      · next right =>
          have fine := List.findSome?_eq_none_iff.mp right
          split at understood
          · cases understood
          · obtain rfl := Except.ok.inj understood
            exact ⟨fine, command, rfl, foldl_holds command fine⟩

/-- Where a command line is understood, a flag without a value may be moved to any place that is not between
a flag and its value. -/
theorem ofArguments_move_of_ok {name word : String} (switch : word ∈ switches)
    {before after front back : List String} {options : Options}
    (understood : ofArguments (name :: (before ++ word :: after)) = .ok options)
    (same : before ++ after = front ++ back) (place : EndsClause front ∨ back = []) :
    ofArguments (name :: (front ++ word :: back)) = .ok options := by
  have fine := (ofArguments_eq_ok understood).1
  have ends : EndsClause before := .of_switch switch fine
  have endsFront : EndsClause front := by
    rcases place with ends | rfl
    · exact ends
    · -- No flag waits at the end of the other words: they are understood as well.
      rw [clausesOf_append ends, clausesOf_alone (takesValue_switch switch)] at fine
      obtain ⟨earlier, later⟩ := List.forall_mem_append.mp fine
      rw [List.append_nil] at same
      rw [← same]
      refine .of_fine ?_
      rw [clausesOf_append ends]
      exact List.forall_mem_append.mpr ⟨earlier, (List.forall_mem_cons.mp later).2⟩
  rw [← ofArguments_move name switch same ends endsFront]
  exact understood

theorem ofArguments_eq_error_iff {name : String} {command : Command}
    (known : Command.ofName? name = some command) {words : List String} {error : UsageError} :
    ofArguments (name :: words) = .error error ↔ IsFirstOffence words error ∨
      (∀ clause ∈ clausesOf words, clause.offence? = none) ∧ fileWords words = [] ∧ error = .noFiles := by
  rw [ofArguments_eq known, IsFirstOffence, ← List.findSome?_eq_some_iff,
    ← List.findSome?_eq_none_iff]
  cases (clausesOf words).findSome? Clause.offence? with
  | some first => simp [eq_comm]
  | none =>
      cases fileWords words with
      | nil => simp [eq_comm]
      | cons file rest => simp

/-- A flag and the value behind it may be joined to one word. What is understood is what the words say, and
stays so when a flag without a value is moved to any place that is not between a flag and its value; nor does
moving it change why a command line is refused, if no flag waits for a value in either place. And a command
line with a known command is refused for the first word that is wrong, or for want of files if none is. -/
theorem ofArguments_lawful (name : String) (words : List String) :
    (∀ before flag value after, words = before ++ ValueFlag.word flag :: value :: after →
      EndsClause before →
      ofArguments (name :: words) = ofArguments (name :: (before ++ flag.joined value :: after))) ∧
    (∀ options, ofArguments (name :: words) = .ok options →
      (∃ command, Command.ofName? name = some command ∧ options.Holds command words) ∧
      ∀ before switch after front back, words = before ++ switch :: after → switch ∈ switches →
        before ++ after = front ++ back → EndsClause front ∨ back = [] →
        ofArguments (name :: (front ++ switch :: back)) = .ok options) ∧
    (∀ before switch after front back, words = before ++ switch :: after → switch ∈ switches →
      EndsClause before → before ++ after = front ++ back → EndsClause front →
      ofArguments (name :: words) = ofArguments (name :: (front ++ switch :: back))) ∧
    ∀ command, Command.ofName? name = some command →
      ∀ error, ofArguments (name :: words) = .error error ↔ IsFirstOffence words error ∨
        (∀ clause ∈ clausesOf words, clause.offence? = none) ∧ fileWords words = [] ∧
          error = .noFiles := by
  refine ⟨?joined, fun options understood => ⟨(ofArguments_eq_ok understood).2, ?kept⟩, ?moved,
    fun command known error => ofArguments_eq_error_iff known⟩
  case joined =>
    rintro before flag value after rfl ends
    exact ofArguments_join name ends flag value after
  case kept =>
    rintro before switch after front back rfl among same place
    exact ofArguments_move_of_ok among understood same place
  case moved =>
    rintro before switch after front back rfl among ends same endsFront
    exact ofArguments_move name among same ends endsFront

/-- Tokens are listed quietly for two files; the last value for the format has them listed. Where a flag takes
another one for its value, that is the first word that is wrong. -/
theorem ofArguments_lawful_lex :
    ofArguments ["lex", "a.jai", "--format", "json", "-q", "--format=sexp", "b.jai"] =
        ofArguments ["lex", "a.jai", "--format=json", "-q", "--format=sexp", "b.jai"] ∧
      (∃ options command,
        ofArguments ["lex", "a.jai", "--format", "json", "-q", "--format=sexp", "b.jai"] = .ok options ∧
        Command.ofName? "lex" = some command ∧ options.format = .tokens ∧
        options.Holds command ["a.jai", "--format", "json", "-q", "--format=sexp", "b.jai"] ∧
        ofArguments ["lex", "a.jai", "--format", "json", "--format=sexp", "b.jai", "-q"] = .ok options) ∧
      ofArguments ["lex", "a.jai", "--format", "-q", "-v", "--fast"] =
        ofArguments ["lex", "-v", "a.jai", "--format", "-q", "--fast"] ∧
      IsFirstOffence ["a.jai", "--format", "-q", "-v", "--fast"] (.unknownFormat "-q") := by
  have understood : ofArguments ["lex", "a.jai", "--format", "json", "-q", "--format=sexp", "b.jai"] =
      .ok ⟨.lex, .tokens, true, false, false, {}, ["a.jai", "b.jai"]⟩ := by
    rfl
  have refused : ofArguments ["lex", "a.jai", "--format", "-q", "-v", "--fast"] =
      .error (.unknownFormat "-q") := by
    rfl
  obtain ⟨joined, understands, -, -⟩ :=
    ofArguments_lawful "lex" ["a.jai", "--format", "json", "-q", "--format=sexp", "b.jai"]
  obtain ⟨-, -, moved, refuses⟩ := ofArguments_lawful "lex" ["a.jai", "--format", "-q", "-v", "--fast"]
  obtain ⟨⟨command, known, holds⟩, kept⟩ := understands _ understood
  refine ⟨?_, ⟨_, command, understood, known, rfl, holds, ?_⟩, ?_, ?_⟩
  · exact joined ["a.jai"] .format "json" ["-q", "--format=sexp", "b.jai"] rfl (by decide +kernel)
  · exact kept ["a.jai", "--format", "json"] "-q" ["--format=sexp", "b.jai"]
      ["a.jai", "--format", "json", "--format=sexp", "b.jai"] [] rfl (by decide +kernel) rfl (Or.inr rfl)
  · exact moved ["a.jai", "--format", "-q"] "-v" ["--fast"] [] ["a.jai", "--format", "-q", "--fast"] rfl
      (by decide +kernel) (by decide +kernel) rfl (by decide +kernel)
  · exact ((refuses .lex rfl _).mp refused).resolve_right (fun none => nomatch none.2.2)

/-- Behind a flag that has no value yet, another one is taken for it: it is refused either way, but not for
the same reason. -/
example : ofArguments ["parse", "-q", "a.jai", "--format"] = .error (.missingValue "--format") ∧
    ofArguments ["parse", "a.jai", "--format", "-q"] = .error (.unknownFormat "-q") :=
  ⟨rfl, rfl⟩

end Options

end JaiSyntax
