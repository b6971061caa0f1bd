import JaiSyntax.Proofs.Cursor.Places
import JaiSyntax.Proofs.Locality.Embedding
/-!
What a cursor hands out. Where the extras are taken before each token is consumed, everything up to the end of
the file comes out once and in order, and the deprecation notices come out as they were skipped.
-/

set_option autoImplicit false

namespace JaiSyntax

/-! ### Runs of a cursor -/

inductive CursorStep where
  | takeExtras
  | advance
  deriving DecidableEq

/-- What a step hands out: a batch of extras, or the token it consumed. -/
inductive Handed where
  | extras (batch : List Extra)
  | token (single : Token)
  deriving DecidableEq

def runSteps {State : Type} (take : State → List Extra × State) (advance : State → Token × State) :
    List CursorStep → State → List Handed × State
  | [], state => ([], state)
  | .takeExtras :: rest, state =>
      let (batch, next) := take state
      let (handed, last) := runSteps take advance rest next
      (.extras batch :: handed, last)
  | .advance :: rest, state =>
      let (single, next) := advance state
      let (handed, last) := runSteps take advance rest next
      (.token single :: handed, last)

def TokenCursor.run (cursor : TokenCursor) (steps : List CursorStep) : List Handed × TokenCursor :=
  runSteps TokenCursor.takeExtras TokenCursor.advance steps cursor

def PlaceCursor.run (cursor : PlaceCursor) (steps : List CursorStep) : List Handed × PlaceCursor :=
  runSteps PlaceCursor.takeExtras PlaceCursor.advance steps cursor

/-- Steps where the extras are taken right before each token is consumed, once or more often, and again at
the end. -/
inductive Alternates : List CursorStep → Prop where
  | last : Alternates [.takeExtras]
  | again {rest : List CursorStep} (later : Alternates (.takeExtras :: rest)) :
      Alternates (.takeExtras :: .takeExtras :: rest)
  | advance {rest : List CursorStep} (later : Alternates rest) :
      Alternates (.takeExtras :: .advance :: rest)

theorem PlaceCursor.Agrees.run {places : PlaceCursor} {cursor : TokenCursor}
    (agrees : places.Agrees cursor) (steps : List CursorStep) :
    (places.run steps).1 = (cursor.run steps).1 ∧
      (places.run steps).2.Agrees (cursor.run steps).2 := by
  induction steps generalizing places cursor with
  | nil => exact ⟨rfl, agrees⟩
  | cons step rest ih =>
      cases step with
      | takeExtras =>
          obtain ⟨batch, next⟩ := agrees.takeExtras
          obtain ⟨handed, last⟩ := ih next
          exact ⟨congrArg₂ (fun batch handed => Handed.extras batch :: handed) batch handed, last⟩
      | advance =>
          obtain ⟨single, next⟩ := agrees.advance
          obtain ⟨handed, last⟩ := ih next
          exact ⟨congrArg₂ (fun single handed => Handed.token single :: handed) single handed, last⟩

/-! ### What is handed out and what is left -/

namespace TokenCursor

variable {cursor : TokenCursor}

theorem run_takeExtras (cursor : TokenCursor) (rest : List CursorStep) :
    cursor.run (.takeExtras :: rest) = (.extras cursor.takeExtras.1 :: (cursor.takeExtras.2.run rest).1,
      (cursor.takeExtras.2.run rest).2) := rfl

theorem run_advance (cursor : TokenCursor) (rest : List CursorStep) :
    cursor.run (.advance :: rest) = (.token cursor.advance.1 :: (cursor.advance.2.run rest).1,
      (cursor.advance.2.run rest).2) := rfl

theorem Proper.takeExtras (proper : cursor.Proper) : cursor.takeExtras.2.Proper := proper.withoutGap

end TokenCursor

section Gathering

variable {β : Type} (ofExtra : Extra → List β) (ofToken : Token → List β)

/-- Gather something from what was handed out. The end of the file is no token of the source. -/
def Handed.gather : Handed → List β
  | .extras batch => batch.flatMap ofExtra
  | .token single => if single.kind == .eof then [] else ofToken single

def TokenCursor.gather (cursor : TokenCursor) : List β :=
  cursor.gap.flatMap ofExtra ++
    cursor.ahead.flatMap (fun stop => ofToken stop.token ++ stop.gap.flatMap ofExtra)

theorem gather_takeExtras (cursor : TokenCursor) :
    (Handed.extras cursor.takeExtras.1).gather ofExtra ofToken ++
      cursor.takeExtras.2.gather ofExtra ofToken = cursor.gather ofExtra ofToken := rfl

/-- A token is consumed without a loss where the extras before it were handed out. -/
theorem gather_advance {cursor : TokenCursor} (proper : cursor.Proper) (taken : cursor.gap = []) :
    (Handed.token cursor.advance.1).gather ofExtra ofToken ++
      cursor.advance.2.gather ofExtra ofToken = cursor.gather ofExtra ofToken := by
  cases ahead : cursor.ahead with
  | nil =>
      have ended : (cursor.endOfFile.kind == .eof) = true := beq_iff_eq.mpr proper.endOfFile
      simp only [TokenCursor.advance, ahead, Handed.gather, ended, if_true, List.nil_append]
  | cons stop rest =>
      have notEnd := (proper.ahead stop (ahead ▸ List.mem_cons_self)).1
      have more : (stop.token.kind == .eof) = false := beq_eq_false_iff_ne.mpr notEnd
      simp only [TokenCursor.advance, TokenCursor.gather, ahead, taken, Handed.gather, more,
        Bool.false_eq_true, if_false, List.flatMap_nil, List.nil_append, List.flatMap_cons,
        List.append_assoc]

/-- What alternating steps hand out, and what they leave, is what was there before. -/
theorem gather_run {steps : List CursorStep} (alternates : Alternates steps) {cursor : TokenCursor}
    (proper : cursor.Proper) :
    (cursor.run steps).1.flatMap (Handed.gather ofExtra ofToken) ++
      (cursor.run steps).2.gather ofExtra ofToken = cursor.gather ofExtra ofToken := by
  -- An alternation never consumes a token behind extras that are still to be taken.
  induction alternates generalizing cursor with
  | last =>
      rw [cursor.run_takeExtras, List.flatMap_cons]
      exact congrArg (· ++ _) (List.append_nil _)
  | @again rest later ih =>
      rw [cursor.run_takeExtras, List.flatMap_cons, List.append_assoc, ih proper.takeExtras,
        gather_takeExtras]
  | @advance rest later ih =>
      rw [cursor.run_takeExtras, TokenCursor.run_advance, List.flatMap_cons, List.flatMap_cons,
        List.append_assoc, List.append_assoc, ih proper.takeExtras.advance,
        gather_advance ofExtra ofToken proper.takeExtras rfl, gather_takeExtras]

end Gathering

/-! ### Runs up to the end -/

def ReachesEnd (handed : List Handed) : Prop :=
  ∃ single, .token single ∈ handed ∧ single.kind = .eof

theorem ahead_run {cursor : TokenCursor} (ended : cursor.ahead = []) (steps : List CursorStep) :
    (cursor.run steps).2.ahead = [] := by
  induction steps generalizing cursor with
  | nil => exact ended
  | cons step rest ih =>
      cases step with
      | takeExtras => exact ih ended
      | advance =>
          have stays : cursor.advance.2 = cursor := by
            simp only [TokenCursor.advance, ended]
          rw [cursor.run_advance, stays]
          exact ih ended

/-- The end of the file is only reached behind all tokens. -/
theorem ReachesEnd.ahead {steps : List CursorStep} {cursor : TokenCursor}
    (reaches : ReachesEnd (cursor.run steps).1) (proper : cursor.Proper) :
    (cursor.run steps).2.ahead = [] := by
  obtain ⟨single, handed, ended⟩ := reaches
  induction steps generalizing cursor with
  | nil => cases handed
  | cons step rest ih =>
      cases step with
      | takeExtras =>
          rw [cursor.run_takeExtras] at handed ⊢
          rcases List.mem_cons.mp handed with absurd | later
          · cases absurd
          · exact ih proper.takeExtras later
      | advance =>
          rw [cursor.run_advance] at handed ⊢
          rcases List.mem_cons.mp handed with own | later
          · cases ahead : cursor.ahead with
            | nil => exact ahead_run (by simp only [TokenCursor.advance, ahead]) rest
            | cons stop more =>
                have consumed : single = stop.token := by
                  simpa [TokenCursor.advance, ahead] using own
                have notEnd := (proper.ahead stop (ahead ▸ List.mem_cons_self)).1
                exact absurd (consumed ▸ ended) notEnd
          · exact ih proper.advance later

theorem Alternates.gap {steps : List CursorStep} (alternates : Alternates steps)
    (cursor : TokenCursor) : (cursor.run steps).2.gap = [] := by
  induction alternates generalizing cursor with
  | last => rfl
  | again later ih => exact ih _
  | advance later ih => exact ih _

def alternation : Nat → List CursorStep
  | 0 => [.takeExtras]
  | rounds + 1 => .takeExtras :: .advance :: alternation rounds

theorem alternates_alternation (rounds : Nat) : Alternates (alternation rounds) := by
  induction rounds with
  | zero => exact .last
  | succ rounds ih => exact .advance ih

/-- One round more than there are tokens ahead reaches the end of the file. -/
theorem reachesEnd_alternation {rounds : Nat} {cursor : TokenCursor} (proper : cursor.Proper)
    (enough : cursor.ahead.length < rounds) : ReachesEnd (cursor.run (alternation rounds)).1 := by
  induction rounds generalizing cursor with
  | zero => cases enough
  | succ rounds ih =>
      rw [alternation, cursor.run_takeExtras, TokenCursor.run_advance]
      cases ahead : cursor.ahead with
      | nil =>
          have consumed : cursor.takeExtras.2.advance.1 = cursor.endOfFile := by
            simp only [TokenCursor.takeExtras, TokenCursor.advance, ahead]
          refine ⟨cursor.endOfFile, ?_, proper.endOfFile⟩
          rw [consumed]
          exact List.mem_cons_of_mem _ List.mem_cons_self
      | cons stop rest =>
          have shorter : cursor.takeExtras.2.advance.2.ahead = rest := by
            simp only [TokenCursor.takeExtras, TokenCursor.advance, ahead]
          rw [ahead, List.length_cons] at enough
          obtain ⟨single, later, ended⟩ := ih proper.takeExtras.advance (by rw [shorter]; omega)
          exact ⟨single, List.mem_cons_of_mem _ (List.mem_cons_of_mem _ later), ended⟩

theorem PlaceCursor.takeExtras_again (cursor : PlaceCursor) :
    cursor.takeExtras.2.takeExtras = ([], cursor.takeExtras.2) := by
  have none (stop : Nat) : (cursor.tokens.take stop).drop (min stop stop) = [] := by
    rw [Nat.min_self, List.drop_eq_nil_of_le]
    exact List.length_take_le _ _
  simp only [PlaceCursor.takeExtras, none]
  rfl

/-! ### Sources -/

def Handed.tokens : Handed → List Token := Handed.gather Extra.tokens (fun single => [single])

def Handed.groups : Handed → List (List Token) := Handed.gather Extra.groups (fun _ => [])

def PlaceCursor.ofSource (source : List Char) : PlaceCursor :=
  .ofTokens (utf8Length source) (lex source).tokens

/-- A run up to the end of the file, with the extras taken before each token and at the end, hands out all
tokens once and in order, and the notices that the survey skipped. There is such a run, no extras are handed out
twice, and the cursor over stops hands out the same. -/
theorem cursor_partitions (source : List Char) :
    (∀ steps, Alternates steps → ReachesEnd ((PlaceCursor.ofSource source).run steps).1 →
        ((PlaceCursor.ofSource source).run steps).1.flatMap Handed.tokens = (lex source).tokens.dropLast ∧
          ((PlaceCursor.ofSource source).run steps).1.flatMap Handed.groups =
            (surveyFrom 0 (lex source).tokens (lex source).tokens).skipped) ∧
      (∃ steps, Alternates steps ∧ ReachesEnd ((PlaceCursor.ofSource source).run steps).1) ∧
      (∀ steps, ((PlaceCursor.ofSource source).run steps).2.takeExtras.2.takeExtras =
        ([], ((PlaceCursor.ofSource source).run steps).2.takeExtras.2)) ∧
      ∀ steps, ((PlaceCursor.ofSource source).run steps).1 =
        ((TokenCursor.ofTokens (utf8Length source) (lex source).tokens).run steps).1 := by
  have agrees := PlaceCursor.Agrees.initial (utf8Length source) (lex source).tokens
  have proper := TokenCursor.ofTokens_proper (utf8Length source) (lex source).tokens
  have same (steps : List CursorStep) : ((PlaceCursor.ofSource source).run steps).1 =
      ((TokenCursor.ofTokens (utf8Length source) (lex source).tokens).run steps).1 := (agrees.run steps).1
  refine ⟨fun steps alternates reaches => ?_, ?_, fun steps => ?_, same⟩
  · rw [same] at reaches ⊢
    have left {β : Type} (ofExtra : Extra → List β) (ofToken : Token → List β) :
        ((TokenCursor.ofTokens (utf8Length source) (lex source).tokens).run steps).2.gather ofExtra
          ofToken = [] := by
      rw [TokenCursor.gather, alternates.gap, reaches.ahead proper]
      rfl
    constructor
    · have gathered := gather_run Extra.tokens (fun single => [single]) alternates proper
      rw [left, List.append_nil] at gathered
      have content : (lex source).tokens.dropLast = contentTokens source := by
        rw [lex_tokens, List.dropLast_concat]
      rw [content, ← initial_tokens]
      exact gathered
    · have gathered := gather_run Extra.groups (fun _ => []) alternates proper
      rw [left, List.append_nil] at gathered
      rw [surveyFrom_eq, gapsOf, List.flatMap_cons, List.flatMap_map]
      exact gathered
  · have ends := reachesEnd_alternation proper (Nat.lt_succ_self _)
    rw [← same] at ends
    exact ⟨_, alternates_alternation _, ends⟩
  · exact PlaceCursor.takeExtras_again _

/-- Directives one after another, a message behind a comment, and a directive at the end of the source. -/
theorem cursor_partitions_notices :
    ∃ steps, Alternates steps ∧
      ReachesEnd
        ((PlaceCursor.ofSource "#deprecated #deprecated /**/ \"a\\n\" x #deprecated".toList).run steps).1 ∧
      (((PlaceCursor.ofSource "#deprecated #deprecated /**/ \"a\\n\" x #deprecated".toList).run
          steps).1.flatMap Handed.groups).map List.length = [1, 8, 1] := by
  obtain ⟨whole, ⟨steps, alternates, reaches⟩, -, -⟩ :=
    cursor_partitions "#deprecated #deprecated /**/ \"a\\n\" x #deprecated".toList
  refine ⟨steps, alternates, reaches, ?_⟩
  rw [(whole steps alternates reaches).2]
  decide +kernel

end JaiSyntax
