import JaiSyntax.Proofs.Audit.Tokens
import JaiSyntax.Proofs.Layout.Hidden
/-!
A cursor by the places of its tokens. It surveys the tokens once for the places of the significant ones, and
cuts the extras in front of the current token out of the list when they are asked for, where the deprecation
notices among them are measured again. A notice measured in such a cut has the length that it has among all
tokens.
-/

set_option autoImplicit false

namespace JaiSyntax

/-! ### The cursor -/

/-- What is found in a token list: the places of the significant tokens, the deprecation notices that were
skipped, and the place where the list ends. -/
structure Survey where
  significant : List Nat
  skipped : List (List Token)
  limit : Nat

def surveyFrom (index : Nat) : List Token → List Token → Survey
  | _, [] => ⟨[], [], index⟩
  | [], _ => ⟨[], [], index⟩
  | _ :: bound, token :: rest =>
      if token.kind == .eof then ⟨[], [], index⟩
      else if token.kind.isExtra then surveyFrom (index + 1) bound rest
      else if isDeprecation token then
        let length := noticeLength rest
        let later := surveyFrom (index + 1 + length) bound (rest.drop length)
        { later with skipped := (token :: rest.take length) :: later.skipped }
      else
        let later := surveyFrom (index + 1) bound rest
        { later with significant := index :: later.significant }

/-- The extras of a cut, notices measured within it. Every step takes a token, so the list bounds the
number of steps. -/
def regroupFrom : List Token → List Token → List Extra
  | _, [] => []
  | [], _ => []
  | _ :: bound, token :: rest =>
      if isDeprecation token then
        let length := noticeLength rest
        .deprecated (token :: rest.take length) :: regroupFrom bound (rest.drop length)
      else .token token :: regroupFrom bound rest

def regroup (tokens : List Token) : List Extra := regroupFrom tokens tokens

/-- All tokens with the places of the significant ones and of the end, the number of significant tokens
consumed, the place of the first token that was not handed out yet, the last token consumed, and the end of
the file. -/
structure PlaceCursor where
  tokens : List Token
  significant : List Nat
  limit : Nat
  position : Nat
  emitted : Nat
  previous : Token
  endOfFile : Token

namespace PlaceCursor

def ofTokens (size : Nat) (tokens : List Token) : PlaceCursor :=
  let survey := surveyFrom 0 tokens tokens
  ⟨tokens, survey.significant, survey.limit, 0, 0, .endOfFile 0, .endOfFile size⟩

def takeExtras (cursor : PlaceCursor) : List Extra × PlaceCursor :=
  let stop := cursor.significant[cursor.position]?.getD cursor.limit
  let start := min cursor.emitted stop
  (regroup ((cursor.tokens.take stop).drop start), { cursor with emitted := stop })

def advance (cursor : PlaceCursor) : Token × PlaceCursor :=
  match cursor.significant[cursor.position]? with
  | none => (cursor.endOfFile, cursor)
  | some index =>
      let token := cursor.tokens[index]?.getD cursor.endOfFile
      (token, { cursor with position := cursor.position + 1, emitted := index + 1, previous := token })

end PlaceCursor

/-! ### Notices in a cut -/

/-- Tokens that all satisfy a test, or the first one that fails it behind such that satisfy it. -/
theorem exists_first_failing (holds : Token → Bool) (tokens : List Token) :
    (∀ token ∈ tokens, holds token = true) ∨
      ∃ front next rest, tokens = front ++ next :: rest ∧ (∀ token ∈ front, holds token = true) ∧
        holds next = false := by
  induction tokens with
  | nil => exact Or.inl (List.forall_mem_nil _)
  | cons token tokens ih =>
      cases own : holds token with
      | false => exact Or.inr ⟨[], token, tokens, rfl, List.forall_mem_nil _, own⟩
      | true =>
          rcases ih with all | ⟨front, next, rest, rfl, all, fails⟩
          · exact Or.inl (List.forall_mem_cons.mpr ⟨own, all⟩)
          · exact Or.inr ⟨token :: front, next, rest, rfl, List.forall_mem_cons.mpr ⟨own, all⟩, fails⟩

/-- The number of tokens of a literal whose opening quote stands before some tokens. -/
def literalLength (tokens : List Token) : Nat :=
  let parts := (tokens.takeWhile isStringPart).length
  match tokens.drop parts with
  | [] => parts + 1
  | last :: _ => if last.kind == .quote then parts + 2 else parts + 1

section Notices

variable {extras front behind : List Token} {first : Token}

theorem literalLength_parts (tokens : List Token) :
    (tokens.takeWhile isStringPart).length + 1 ≤ literalLength tokens := by
  unfold literalLength
  simp only
  split
  · exact Nat.le_refl _
  · split <;> omega

theorem literalLength_of_within (within : literalLength (front ++ behind) ≤ front.length + 1) :
    literalLength front = literalLength (front ++ behind) := by
  rcases exists_first_failing isStringPart front with all | ⟨parts, last, after, rfl, all, fails⟩
  · -- The literal goes to the end of the tokens, so that neither a part of it nor a quote comes later.
    have own : front.takeWhile isStringPart = front := List.takeWhile_eq_self_iff.mpr all
    have whole : literalLength front = front.length + 1 := by
      simp only [literalLength, own, List.drop_length]
    have least := literalLength_parts (front ++ behind)
    rw [List.takeWhile_append_of_pos all, List.length_append] at least
    omega
  · have own := takeWhile_append_cons last after all fails
    have further := takeWhile_append_cons last (after ++ behind) all fails
    simp only [literalLength, List.append_assoc, List.cons_append, own, further, List.drop_left]

theorem noticeLength_extras (blank : ∀ token ∈ extras, token.kind.isExtra = true) :
    noticeLength extras = 0 := by
  have all : extras.takeWhile (fun token => token.kind.isExtra) = extras :=
    List.takeWhile_eq_self_iff.mpr blank
  simp only [noticeLength, all, List.drop_length]

theorem noticeLength_literal (blank : ∀ token ∈ extras, token.kind.isExtra = true)
    (quote : first.kind = .quote) (rest : List Token) :
    noticeLength (extras ++ first :: rest) = extras.length + literalLength rest := by
  have solid : first.kind.isExtra = false := by
    rw [quote]
    rfl
  have gap := takeWhile_append_cons first rest blank solid
  simp only [noticeLength, literalLength, gap, List.drop_left, quote, beq_self_eq_true, if_true]
  cases rest.drop (rest.takeWhile isStringPart).length with
  | nil => rfl
  | cons last after =>
      by_cases closed : (last.kind == .quote) = true
      · simp only [closed, if_true, Nat.add_assoc]
      · simp only [closed, Bool.false_eq_true, if_false, Nat.add_assoc]

/-- What follows a notice without a literal does not matter. -/
theorem noticeLength_other (blank : ∀ token ∈ extras, token.kind.isExtra = true)
    (solid : first.kind.isExtra = false) (other : first.kind ≠ .quote) (rest : List Token) :
    noticeLength (extras ++ first :: rest) = if first.kind == .error then extras.length + 1 else 0 := by
  have gap := takeWhile_append_cons first rest blank solid
  have unquoted : (first.kind == .quote) = false := beq_eq_false_iff_ne.mpr other
  simp only [noticeLength, gap, List.drop_left, unquoted, Bool.false_eq_true, if_false]

/-- A notice that ends within some tokens has the same length there as in front of more tokens. -/
theorem noticeLength_of_within (within : noticeLength (front ++ behind) ≤ front.length) :
    noticeLength front = noticeLength (front ++ behind) := by
  have extra := exists_first_failing (fun token => token.kind.isExtra)
  rcases extra front with all | ⟨extras, first, rest, rfl, all, solid⟩
  · rw [noticeLength_extras all]
    rcases extra behind with further | ⟨extras, first, rest, rfl, further, solid⟩
    · rw [noticeLength_extras (List.forall_mem_append.mpr ⟨all, further⟩)]
    · -- A message behind the extras would end behind them.
      have blank := List.forall_mem_append.mpr ⟨all, further⟩
      by_cases quote : first.kind = .quote
      · rw [← List.append_assoc, noticeLength_literal blank quote, List.length_append] at within
        have least := literalLength_parts rest
        omega
      · rw [← List.append_assoc, noticeLength_other blank solid quote] at within ⊢
        split
        · next error =>
            rw [if_pos error, List.length_append] at within
            omega
        · rfl
  · rw [List.append_assoc, List.cons_append] at within ⊢
    by_cases quote : first.kind = .quote
    · rw [noticeLength_literal all quote, List.length_append, List.length_cons] at within
      have short : literalLength (rest ++ behind) ≤ rest.length + 1 := by omega
      rw [noticeLength_literal all quote, noticeLength_literal all quote, literalLength_of_within short]
    · rw [noticeLength_other all solid quote, noticeLength_other all solid quote]

end Notices

/-- The gaps of parted tokens, the one before the first significant token and those behind the others. -/
def gapsOf (parts : List Extra × List Stop) : List (List Extra) := parts.1 :: parts.2.map Stop.gap

theorem partTokens_prefix (bound tokens : List Token) :
    tokensOfExtras (partTokens bound tokens).1 <+: tokens := by
  induction bound generalizing tokens with
  | nil => cases tokens <;> exact List.nil_prefix
  | cons bounding bound ih =>
      cases tokens with
      | nil => exact List.nil_prefix
      | cons token rest =>
          rw [partTokens]
          split
          · exact List.nil_prefix
          split
          · exact List.prefix_cons_inj token |>.mpr (ih rest)
          split
          · obtain ⟨after, same⟩ := ih (rest.drop (noticeLength rest))
            refine ⟨after, ?_⟩
            have whole := rest.take_append_drop (noticeLength rest)
            simp only [tokensOfExtras, List.flatMap_cons, Extra.tokens, List.cons_append,
              List.append_assoc] at same ⊢
            rw [same, whole]
          · exact List.nil_prefix

theorem regroupFrom_bounds (first second tokens : List Token) (enough : tokens.length ≤ first.length)
    (also : tokens.length ≤ second.length) : regroupFrom first tokens = regroupFrom second tokens := by
  induction first generalizing second tokens with
  | nil =>
      obtain rfl := List.eq_nil_of_length_eq_zero (Nat.le_zero.mp enough)
      cases second <;> rfl
  | cons bounding first ih =>
      cases tokens with
      | nil => simp [regroupFrom]
      | cons token rest =>
          cases second with
          | nil => cases also
          | cons otherBounding second =>
              rw [List.length_cons, List.length_cons] at enough also
              have next := ih second rest (by omega) (by omega)
              have later := ih second (rest.drop (noticeLength rest))
                (by rw [List.length_drop]; omega) (by rw [List.length_drop]; omega)
              simp only [regroupFrom, next, later]

theorem regroup_extra {token : Token} (other : isDeprecation token = false) (rest : List Token) :
    regroup (token :: rest) = .token token :: regroup rest := by
  rw [regroup, regroupFrom, other, if_neg Bool.false_ne_true]
  rfl

/-- A notice is found again in front of other tokens of its gap. -/
theorem regroup_notice {token : Token} (directive : isDeprecation token = true)
    {rest inside after : List Token} (whole : rest.drop (noticeLength rest) = inside ++ after) :
    regroup (token :: (rest.take (noticeLength rest) ++ inside)) =
      .deprecated (token :: rest.take (noticeLength rest)) :: regroup inside := by
  have joined : rest.take (noticeLength rest) ++ inside ++ after = rest := by
    rw [List.append_assoc, ← whole, List.take_append_drop]
  have size : (rest.take (noticeLength rest)).length = noticeLength rest :=
    List.length_take_of_le (noticeLength_le rest)
  have same : noticeLength (rest.take (noticeLength rest) ++ inside) = noticeLength rest := by
    have within : noticeLength (rest.take (noticeLength rest) ++ inside ++ after) ≤
        (rest.take (noticeLength rest) ++ inside).length := by
      rw [joined, List.length_append, size]
      exact Nat.le_add_right _ _
    have measured := noticeLength_of_within within
    rwa [joined] at measured
  rw [regroup, regroupFrom, if_pos directive]
  simp only [same, List.take_left' size, List.drop_left' size]
  refine congrArg (List.cons _) (regroupFrom_bounds _ _ inside ?_ (Nat.le_refl _))
  rw [List.length_append]
  exact Nat.le_add_left _ _

/-- The extras of each gap are found again in the tokens of the gap. -/
theorem regroup_partTokens (bound tokens : List Token) :
    ∀ gap ∈ gapsOf (partTokens bound tokens), regroup (tokensOfExtras gap) = gap := by
  induction bound generalizing tokens with
  | nil =>
    cases tokens <;> exact List.forall_mem_singleton.mpr rfl
  | cons bounding bound ih =>
      cases tokens with
      | nil => exact List.forall_mem_singleton.mpr rfl
      | cons token rest =>
          rw [partTokens]
          split
          · exact List.forall_mem_singleton.mpr rfl
          split
          · next extra =>
              obtain ⟨first, later⟩ := List.forall_mem_cons.mp (ih rest)
              refine List.forall_mem_cons.mpr ⟨?_, later⟩
              change regroup (token :: tokensOfExtras (partTokens bound rest).1) = _
              rw [regroup_extra (isDeprecation_of_isExtra extra), first]
          split
          · next directive =>
              obtain ⟨first, later⟩ := List.forall_mem_cons.mp (ih (rest.drop (noticeLength rest)))
              refine List.forall_mem_cons.mpr ⟨?_, later⟩
              -- The rest of the gap comes right behind the notice, so that the notice ends within the cut.
              obtain ⟨after, whole⟩ := partTokens_prefix bound (rest.drop (noticeLength rest))
              change regroup (token :: (rest.take (noticeLength rest) ++ tokensOfExtras
                (partTokens bound (rest.drop (noticeLength rest))).1)) = _
              rw [regroup_notice directive whole.symm, first]
          · exact List.forall_mem_cons.mpr ⟨rfl, ih rest⟩

/-! ### The survey and the parts -/

def Extra.groups : Extra → List (List Token)
  | .token _ => []
  | .deprecated group => [group]

/-- A survey finds the places of the stops, skips the notices of the gaps, and ends behind all tokens. -/
theorem surveyFrom_eq (index : Nat) (bound tokens : List Token) :
    surveyFrom index bound tokens =
      ⟨significantFrom index bound tokens,
        (gapsOf (partTokens bound tokens)).flatMap (fun gap => gap.flatMap Extra.groups),
        index + (tokensOfExtras (partTokens bound tokens).1 ++
          (partTokens bound tokens).2.flatMap Stop.tokens).length⟩ := by
  induction bound generalizing index tokens with
  | nil => cases tokens <;> rfl
  | cons bounding bound ih =>
      cases tokens with
      | nil => rfl
      | cons token rest =>
          rw [surveyFrom, significantFrom, partTokens]
          split
          · rfl
          split
          · rw [ih]
            simp only [gapsOf, tokensOfExtras, List.flatMap_cons, Extra.tokens, Extra.groups,
              List.nil_append, List.length_append, List.length_cons, List.length_nil, Survey.mk.injEq,
              true_and]
            omega
          split
          · have size : (rest.take (noticeLength rest)).length = noticeLength rest :=
              List.length_take_of_le (noticeLength_le rest)
            simp only [ih]
            simp only [gapsOf, tokensOfExtras, List.flatMap_cons, Extra.tokens, Extra.groups,
              List.cons_append, List.nil_append, List.length_append, List.length_cons, size,
              Survey.mk.injEq, true_and]
            omega
          · simp only [ih]
            simp only [gapsOf, tokensOfExtras, List.flatMap_cons, List.flatMap_nil, Stop.tokens,
              List.map_cons, List.nil_append, List.length_append, List.length_cons, Survey.mk.injEq,
              true_and]
            omega

/-! ### The two cursors -/

structure PlaceCursor.Agrees (places : PlaceCursor) (cursor : TokenCursor) : Prop where
  position : places.position = cursor.position
  previous : places.previous = cursor.previous
  endOfFile : places.endOfFile = cursor.endOfFile
  ahead : cursor.tokens <+: places.tokens.drop places.emitted
  significant : places.significant.drop places.position =
    stopPlaces (places.emitted + (tokensOfExtras cursor.gap).length) cursor.ahead
  limit : places.limit = places.emitted + cursor.tokens.length
  regrouped : ∀ gap ∈ gapsOf (cursor.gap, cursor.ahead), regroup (tokensOfExtras gap) = gap

namespace PlaceCursor.Agrees

variable {places : PlaceCursor} {cursor : TokenCursor}

theorem initial (size : Nat) (tokens : List Token) :
    (PlaceCursor.ofTokens size tokens).Agrees (.ofTokens size tokens) := by
  have surveyed := surveyFrom_eq 0 tokens tokens
  constructor
  · rfl
  · rfl
  · rfl
  · have whole : (TokenCursor.ofTokens size tokens).tokens =
        tokens.takeWhile (fun token => token.kind != .eof) :=
      partTokens_tokens tokens tokens (Nat.le_refl _)
    rw [whole]
    exact List.takeWhile_prefix _
  · change (surveyFrom 0 tokens tokens).significant = _
    rw [surveyed]
    exact significantFrom_eq 0 tokens tokens
  · change (surveyFrom 0 tokens tokens).limit = _
    rw [surveyed]
    rfl
  · exact regroup_partTokens tokens tokens

theorem stop_eq (agrees : places.Agrees cursor) :
    places.significant[places.position]?.getD places.limit =
      places.emitted + (tokensOfExtras cursor.gap).length := by
  have front := agrees.significant
  have ends := agrees.limit
  rw [← List.head?_drop, front]
  cases same : cursor.ahead with
  | nil =>
      rw [TokenCursor.tokens, same, List.flatMap_nil, List.append_nil] at ends
      exact ends
  | cons stop rest => rfl

theorem takeExtras (agrees : places.Agrees cursor) :
    places.takeExtras.1 = cursor.takeExtras.1 ∧ places.takeExtras.2.Agrees cursor.takeExtras.2 := by
  obtain ⟨after, whole⟩ := agrees.ahead
  rw [TokenCursor.tokens, List.append_assoc] at whole
  have stop := agrees.stop_eq
  have cut : (places.tokens.take (places.emitted + (tokensOfExtras cursor.gap).length)).drop
      (min places.emitted (places.emitted + (tokensOfExtras cursor.gap).length)) =
        tokensOfExtras cursor.gap := by
    rw [Nat.min_eq_left (Nat.le_add_right _ _), List.drop_take, Nat.add_sub_cancel_left, ← whole,
      List.take_left]
  constructor
  · simp only [PlaceCursor.takeExtras, stop, cut]
    exact agrees.regrouped cursor.gap List.mem_cons_self
  · simp only [PlaceCursor.takeExtras, stop]
    constructor
    · exact agrees.position
    · exact agrees.previous
    · exact agrees.endOfFile
    · rw [← List.drop_drop, ← whole, List.drop_left]
      exact List.prefix_append _ _
    · exact agrees.significant
    · have ends := agrees.limit
      rw [TokenCursor.tokens, List.length_append, ← Nat.add_assoc] at ends
      exact ends
    · refine List.forall_mem_cons.mpr ⟨rfl, ?_⟩
      exact (List.forall_mem_cons.mp agrees.regrouped).2

theorem advance (agrees : places.Agrees cursor) :
    places.advance.1 = cursor.advance.1 ∧ places.advance.2.Agrees cursor.advance.2 := by
  obtain ⟨after, whole⟩ := agrees.ahead
  have front := agrees.significant
  cases same : cursor.ahead with
  | nil =>
      have ended : places.significant[places.position]? = none := by
        rw [← List.head?_drop, front, same]
        rfl
      simp only [PlaceCursor.advance, TokenCursor.advance, ended, same]
      exact ⟨agrees.endOfFile, agrees⟩
  | cons stop rest =>
      rw [same, stopPlaces] at front
      have parted : tokensOfExtras cursor.gap ++ (stop.token :: (tokensOfExtras stop.gap ++
          rest.flatMap Stop.tokens ++ after)) = places.tokens.drop places.emitted := by
        rw [← whole, TokenCursor.tokens, same, List.flatMap_cons, Stop.tokens]
        simp only [List.append_assoc, List.cons_append]
      have first : places.significant[places.position]? =
          some (places.emitted + (tokensOfExtras cursor.gap).length) := by
        rw [← List.head?_drop, front]
        rfl
      have token : places.tokens[places.emitted + (tokensOfExtras cursor.gap).length]? =
          some stop.token := by
        rw [← List.getElem?_drop, ← parted, List.getElem?_append_right (Nat.le_refl _), Nat.sub_self]
        rfl
      simp only [PlaceCursor.advance, TokenCursor.advance, first, same, token, Option.getD_some]
      refine ⟨trivial, ?_⟩
      constructor
      · exact congrArg (· + 1) agrees.position
      · rfl
      · exact agrees.endOfFile
      · have behind := congrArg (List.drop ((tokensOfExtras cursor.gap).length + 1)) parted
        rw [List.drop_drop, ← List.drop_drop, List.drop_left] at behind
        exact ⟨after, behind⟩
      · have later := congrArg List.tail front
        rw [List.tail_drop] at later
        exact later
      · have ends := agrees.limit
        simp only [TokenCursor.tokens, same, List.flatMap_cons, Stop.tokens, List.length_append,
          List.length_cons] at ends ⊢
        omega
      · have regrouped := agrees.regrouped
        rw [same] at regrouped
        exact (List.forall_mem_cons.mp regrouped).2

end PlaceCursor.Agrees

end JaiSyntax
