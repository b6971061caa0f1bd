import JaiSyntax.Production.Statement
import JaiSyntax.Proofs.Locality.Expression
import Mathlib.Data.List.Find
/-!
Statements are local. The last statement inside another one may take the semicolon; the statement around
it needs none then, and looks at what follows for an `else` only.
-/

set_option autoImplicit false

namespace JaiSyntax

/-! ### Scans -/

/-- Whether two sources have the same kinds from `distance` on, up to the first semicolon there. -/
def Alike (kindAt other : Nat → TokenKind) (distance : Nat) : Prop :=
  ∀ further, (∀ nearer, nearer < further → kindAt (distance + nearer) ≠ .semicolon) →
    other (distance + further) = kindAt (distance + further)

namespace Alike

variable {kindAt other : Nat → TokenKind} {distance : Nat}

theorem here (alike : Alike kindAt other distance) : other distance = kindAt distance :=
  alike 0 (fun _ absurd => (Nat.not_lt_zero _ absurd).elim)

theorem next (alike : Alike kindAt other distance) (more : kindAt distance ≠ .semicolon) :
    Alike kindAt other (distance + 1) := by
  intro further before
  rw [Nat.add_right_comm]
  apply alike (further + 1)
  intro nearer within
  cases nearer with
  | zero => exact more
  | succ nearer =>
      rw [← Nat.add_assoc, Nat.add_right_comm]
      exact before nearer (Nat.lt_of_succ_lt_succ within)

theorem namesBeforeColon_eq (budget : Nat) (alike : Alike kindAt other distance) :
    namesBeforeColon other budget distance = namesBeforeColon kindAt budget distance := by
  induction budget generalizing distance with
  | zero => rfl
  | succ budget ih =>
      unfold namesBeforeColon
      rw [alike.here]
      by_cases name : kindAt distance = .ident
      · have second := alike.next (by rw [name]; decide)
        rw [second.here]
        split
        · rfl
        · rfl
        · next comma => rw [ih (second.next (by rw [comma]; decide))]
        · rfl
      · rw [beq_eq_false_iff_ne.mpr name, Bool.false_and, Bool.false_and]

theorem loopNamesAt_eq (budget : Nat) (alike : Alike kindAt other distance) :
    loopNamesAt other budget distance = loopNamesAt kindAt budget distance := by
  induction budget generalizing distance with
  | zero => rfl
  | succ budget ih =>
      unfold loopNamesAt
      rw [alike.here]
      by_cases name : kindAt distance = .ident
      · have second := alike.next (by rw [name]; decide)
        rw [second.here]
        split
        · rfl
        · next comma => rw [ih (second.next (by rw [comma]; decide))]
        · rfl
      · rw [beq_eq_false_iff_ne.mpr name, Bool.false_and, Bool.false_and]

theorem doubleColonAt?_eq (alike : Alike kindAt other distance) :
    doubleColonAt? other distance = doubleColonAt? kindAt distance := by
  unfold doubleColonAt?
  rw [alike.here]
  split
  · rfl
  · next colon => rw [(alike.next (by rw [colon]; decide)).here]
  · rfl

/-- Tokens that are spelled alike are followed alike. -/
theorem spelledAt_eq {spelling : List TokenKind} (solid : ∀ kind ∈ spelling, kind.isSolid = true)
    (alike : Alike kindAt other distance) :
    spelledAt other distance spelling = spelledAt kindAt distance spelling ∧
      (spelledAt kindAt distance spelling = true →
        Alike kindAt other (distance + spelling.length)) := by
  induction spelling generalizing distance with
  | nil => exact ⟨rfl, fun _ => alike⟩
  | cons kind rest ih =>
      unfold spelledAt
      rw [alike.here]
      by_cases same : kindAt distance = kind
      · have more := (TokenKind.isSolid_iff.mp (solid kind List.mem_cons_self)).1
        obtain ⟨equal, further⟩ := ih (fun kind member => solid kind (List.mem_cons_of_mem _ member))
          (alike.next (by rwa [same]))
        rw [equal, same, beq_self_eq_true, Bool.true_and]
        refine ⟨rfl, fun spelled => ?_⟩
        rw [List.length_cons, Nat.add_comm rest.length, ← Nat.add_assoc]
        exact further spelled
      · rw [beq_eq_false_iff_ne.mpr same]
        exact ⟨rfl, nofun⟩

end Alike

/-- No operator that can be overloaded has a semicolon in it. -/
theorem overloadable_solid :
    ∀ spelling ∈ overloadableOperators, ∀ kind ∈ spelling, kind.isSolid = true := by
  decide

theorem Alike.operatorLengthAt?_eq {kindAt other : Nat → TokenKind} {distance : Nat}
    (alike : Alike kindAt other distance) :
    operatorLengthAt? other distance = operatorLengthAt? kindAt distance := by
  unfold operatorLengthAt?
  congr 1
  apply List.find?_congr
  intro spelling member
  obtain ⟨equal, further⟩ := alike.spelledAt_eq (overloadable_solid spelling member)
  rw [equal]
  cases spelled : spelledAt kindAt distance spelling with
  | false => rfl
  | true => rw [(further spelled).doubleColonAt?_eq]

theorem spelledAt_succ (kindAt : Nat → TokenKind) (distance : Nat) (spelling : List TokenKind) :
    spelledAt (fun place => kindAt (place + 1)) distance spelling =
      spelledAt kindAt (distance + 1) spelling := by
  induction spelling generalizing distance with
  | nil => rfl
  | cons kind rest ih => simp only [spelledAt, ih]

theorem operatorLengthAt?_succ (kindAt : Nat → TokenKind) (distance : Nat) :
    operatorLengthAt? (fun place => kindAt (place + 1)) distance =
      operatorLengthAt? kindAt (distance + 1) := by
  unfold operatorLengthAt?
  congr 2
  funext spelling
  rw [spelledAt_succ, Nat.add_right_comm]
  rfl

theorem spelledAt_solid {kindAt : Nat → TokenKind} {distance : Nat} {spelling : List TokenKind}
    (solid : ∀ kind ∈ spelling, kind.isSolid = true)
    (spelled : spelledAt kindAt distance spelling = true) :
    ∀ place, place < spelling.length → (kindAt (distance + place)).isSolid = true := by
  induction spelling generalizing distance with
  | nil => exact fun _ absurd => (Nat.not_lt_zero _ absurd).elim
  | cons kind rest ih =>
      simp only [spelledAt, Bool.and_eq_true, beq_iff_eq] at spelled
      intro place within
      cases place with
      | zero =>
          rw [Nat.add_zero, spelled.1]
          exact solid kind List.mem_cons_self
      | succ place =>
          rw [← Nat.add_assoc, Nat.add_right_comm]
          exact ih (fun kind member => solid kind (List.mem_cons_of_mem _ member)) spelled.2 place
            (Nat.lt_of_succ_lt_succ within)

theorem operatorLengthAt?_solid {kindAt : Nat → TokenKind} {distance length : Nat}
    (found : operatorLengthAt? kindAt distance = some length) :
    ∀ place, place < length → (kindAt (distance + place)).isSolid = true := by
  obtain ⟨spelling, search, rfl⟩ := Option.map_eq_some_iff.mp found
  have spelled := List.find?_some search
  rw [Bool.and_eq_true] at spelled
  exact spelledAt_solid (overloadable_solid spelling (List.mem_of_find?_eq_some search)) spelled.1

namespace Production

open Outlook

variable {horizon : Horizon} {setting : Setting} {least : Nat} {α : Type}
  {outlook : Outlook horizon}

/-- Up to the semicolon the kinds are shared. -/
theorem alike (near : outlook.Near least) {other : View} (agrees : outlook.Agrees other) :
    Alike outlook.view.kindAt other.kindAt 0 := by
  intro further before
  rw [Nat.zero_add]
  apply (agrees.ahead near.notPast further _).1
  intro nearer within
  rw [← Nat.zero_add nearer]
  exact before nearer within

/-! ### Inline assembly -/

theorem stays_assemblyDeclaration (near : outlook.Near least)
    (named : outlook.view.isNameBefore .colon = true) :
    assemblyDeclaration.Stays setting least outlook := by
  simp only [View.isNameBefore, Bool.and_eq_true, beq_iff_eq] at named
  refine stays_node near (by decide) (stays_bumpTagged_bind near.inside
    (View.solid_of_isAt named.1 rfl) (fun _ name follows => ?_))
  refine stays_bind (stays_bump name.near (View.solid_of_kind ((follows 0).trans named.2) rfl))
    (fun _ _ colon => ?_)
  refine stays_bind (stays_expectName colon.near _) (fun _ _ typed => ?_)
  exact stays_eat_bind typed.near rfl (fun _ equals => stays_expectName equals.near _)
    (stays_pure typed ())

theorem stays_assemblyOperand (near : outlook.Near least) (some : 0 < outlook.taken) :
    assemblyOperand.Stays setting least outlook := by
  refine stays_look_bind (near.shows_isAt .lBracket) ?_
  split
  · next bracket =>
      refine stays_bind (stays_node near nofun (stays_bind
        (stays_bump near.inside (View.solid_of_isAt bracket rfl)) (fun _ _ opened => ?_)))
        (fun _ _ read => stays_tag read _)
      exact stays_bind (stays_expression opened.near (Or.inl opened.some))
        (fun _ _ read => stays_expect read.near rfl)
  · exact stays_bind (stays_expression near (Or.inl some)) (fun _ _ read => stays_tag read _)

theorem stays_assemblyInstruction (near : outlook.Near least)
    (solid : outlook.view.kind.isSolid = true) :
    assemblyInstruction.Stays setting least outlook := by
  refine stays_node near nofun
    (stays_bind (stays_bumpTagged near.inside solid _) (fun _ _ name => ?_))
  refine stays_bind (stays_onlyIf name ?_ (fun found => ?_)) (fun _ _ sized => ?_)
  · apply name.near.shows_next (name.near.shows_isAt .dot)
    intro dot
    rw [View.kind_of_isAt dot]
    decide
  · simp only [Bool.and_eq_true, beq_iff_eq] at found
    refine stays_bump_bind name.near (View.solid_of_isAt found.1 rfl) (fun _ dot follows => ?_)
    exact stays_bumpTagged dot.near (View.solid_of_kind ((follows 0).trans found.2) rfl) _
  · refine stays_onlyIf sized ?_ (fun _ => ?_)
    · exact shows_and (shows_not (sized.near.shows_isAt _))
        (fun _ => shows_not (sized.near.shows_isAt _))
    · exact stays_commaSeparated (stays_assemblyOperand sized.near sized.some)
        (fun _ _ within => stays_assemblyOperand within.near within.some)

theorem stays_assemblyLine (file : horizon = .file) (near : outlook.Near least) :
    assemblyLine.Stays setting least outlook := by
  have ending (later : Outlook horizon) (within : later.Within least) :
      Stays setting least (do
        unless ← eat .semicolon do
          onlyIf (fun view => !view.isAt .rBrace) (act (.report .missingAfterAssemblyLine)))
        later := by
    apply local_eat_semicolon_bind within.near
    · exact fun _ behind => within_of_file file behind
    · exact fun _ => stays_onlyIf within (shows_not (within.near.shows_isAt _))
        (fun _ => ⟨within.notPast, nofun, within⟩)
  refine stays_look_bind (near.shows_isAt .ident) ?_
  split
  · next name =>
      refine stays_look_bind (near.shows_isNameBefore .colon) ?_
      split
      · next named =>
          exact stays_bind (stays_assemblyDeclaration near named) (fun _ _ read => ending _ read)
      · exact stays_bind (stays_assemblyInstruction near (View.solid_of_isAt name rfl))
          (fun _ _ read => ending _ read)
  · exact stays_refuse_bind near _

theorem stays_instructionSets (within : outlook.Within least) :
    instructionSets.Stays setting least outlook := by
  refine stays_repeatedly within (fun round held => ?_)
  refine (local_look_bind _ _).mpr ⟨held.near.shows_isAt .ident, ?_⟩
  split
  · next name =>
      exact Stays.round (stays_bind (stays_bumpTagged held.again (View.solid_of_isAt name rfl) _)
        (fun _ _ read => stays_eat read rfl)) held
  · exact held

theorem stays_assembly (near : outlook.Near least) (solid : outlook.view.kind.isSolid = true) :
    assembly.Stays setting least outlook := by
  refine stays_node near nofun (stays_bind (stays_bump near.inside solid) (fun _ _ name => ?_))
  refine stays_bind (stays_instructionSets name) (fun _ _ sets => ?_)
  refine stays_opened sets.near (stays_braced rfl sets.near (fun file _ opened => ?_))
  refine stays_upToSkipping_semicolon file opened (fun round held solid => ?_)
  exact stays_guarded file held.again solid
    ((stays_assemblyLine file held.again).weaken (fun _ _ read => read.toBehind))

/-! ### Statements that may take the semicolon -/

/-- A local production that consumes a token. If it goes past the semicolon, it ends with a node that
needs none. -/
def Settles (setting : Setting) (least : Nat) (production : Production α)
    (outlook : Outlook horizon) : Prop :=
  production.Local horizon setting (fun _ later => later.Behind least ∧ later.Ended) outlook

theorem Stays.settles {production : Production α}
    (stays : production.Stays setting least outlook) :
    production.Settles setting least outlook := by
  apply stays.weaken
  intro _ later within
  refine ⟨within.toBehind, fun past => ?_⟩
  rw [within.notPast] at past
  cases past

theorem settles_node {kind : NodeKind} {body : Production α} (near : outlook.Near least)
    (ordinary : kind ≠ .deprecatedDirective) (needsNone : terminatorOf kind = .selfTerminated)
    (inner : body.Local horizon setting.inside (fun _ later => later.Behind least)
      (outlook.withLast none true)) :
    (node kind body).Settles setting least outlook :=
  ⟨near.notPast, ordinary, inner.weaken (fun _ _ behind =>
    ⟨⟨behind.more, rfl⟩, fun _ => ⟨kind, rfl, needsNone⟩⟩)⟩

theorem settles_wrap {kind : NodeKind} {body : Production α} (marked : setting.marked = true)
    (ordinary : kind ≠ .deprecatedDirective) (needsNone : terminatorOf kind = .selfTerminated)
    (inner : ∀ last, body.Local horizon setting.inside (fun _ later => later.Behind least)
      (outlook.withLast last true)) :
    (wrap kind body).Settles setting least outlook :=
  ⟨marked, ordinary, fun last => (inner last).weaken (fun _ _ behind =>
    ⟨⟨behind.more, rfl⟩, fun _ => ⟨kind, rfl, needsNone⟩⟩)⟩

theorem Stays.substatement {first : Production Unit} (field : Option Field)
    (front : first.Stays setting least outlook) :
    (first >>= fun _ => substatement field).Local horizon setting
      (fun _ later => later.Behind least) outlook :=
  front.andThen (fun _ _ within => local_substatement field within.near (Or.inl within.some))

/-! ### Control flow -/

theorem stays_switchCase (file : horizon = .file) (near : outlook.Near least)
    (solid : outlook.view.kind.isSolid = true) : switchCase.Stays setting least outlook := by
  refine stays_node near nofun
    (stays_bind (stays_bumpKeyword near.inside solid) (fun _ _ keyword => ?_))
  refine stays_bind (stays_onlyIf keyword (shows_not (keyword.near.shows_isAt _))
    (fun _ => stays_expressionAs _ keyword.near (Or.inl keyword.some))) (fun _ _ value => ?_)
  refine stays_bind (stays_expect_semicolon file value.near) (fun _ _ label => ?_)
  apply stays_asLongAs label
  · intro round held
    exact shows_and (shows_not (held.near.shows_isWordAt _))
      (fun _ => shows_not (held.near.shows_endsAt _))
  · intro round held further
    refine stays_listedStatement file held.again (fun ended => ?_) held.some
    simp [View.endsAt, View.isAtEnd, View.isAt, ended] at further

theorem stays_switchCases (file : horizon = .file) (within : outlook.Within least) :
    switchCases.Stays setting least outlook := by
  refine stays_upToSkipping_semicolon file within (fun round held solid => ?_)
  refine stays_look_bind (held.near.shows_isWordIn _) ?_
  split
  · exact stays_guarded file held.again solid
      ((stays_switchCase file held.again solid).weaken (fun _ _ read => read.toBehind))
  · exact stays_guarded file held.again solid ⟨held.notPast, nofun⟩

theorem stays_casesTail (marked : setting.marked = true) (near : outlook.Near least)
    (comparison : outlook.view.kind = .eqEq) (brace : outlook.view.kindAt 1 = .lBrace) :
    casesTail.Stays setting least outlook := by
  refine stays_wrap marked nofun (fun last => ?_)
  refine stays_bump_bind (near.withLast last true) (View.solid_of_kind comparison rfl)
    (fun later within follows => ?_)
  have opening : later.view.kind = .lBrace := (follows 0).trans brace
  have solid := View.solid_of_kind opening rfl
  have file := file_of_bracket within.near solid (by rw [opening]; rfl)
  refine stays_opened within.near (stays_bind (stays_bump within.near solid) (fun _ _ opened => ?_))
  exact stays_bind (stays_fresh (stays_switchCases file (opened.withContext _)))
    (fun _ _ read => stays_closeBrace file rfl read)

theorem eof_of_past (past : outlook.past = true) : outlook.view.kind = .eof := by
  have fits := outlook.fits
  rw [past] at fits
  cases horizon with
  | file => cases fits
  | statement => exact fits

theorem isWordIn_singleton (view : View) (word : String) :
    view.isWordIn [word] = view.isWordAt 0 word := by
  simp only [View.isWordIn, View.isWordAt, View.isAt, View.kind, View.text, List.contains_cons,
    List.contains_nil, Bool.or_false]

/-- An `else` is looked for behind the semicolon as well, and there is none. -/
theorem local_alternative (behind : outlook.Behind least) :
    (do if ← eatWord "else" then substatement (some .alternative) : Production Unit).Local horizon
      setting (fun _ later => later.Behind least) outlook := by
  refine (local_bind _ _).mpr ((local_look_bind _ _).mpr ?_)
  cases past : outlook.past with
  | false =>
      have near : outlook.Near least := ⟨past, Nat.le_of_lt behind.more⟩
      refine ⟨near.shows_isWordIn _, ?_⟩
      split
      · next found =>
          have solid := View.solid_of_kind (View.kind_of_isWordIn found) rfl
          refine (stays_bumpKeyword near solid).andThen (fun _ _ word => (local_pure true).mpr ?_)
          exact local_substatement (some .alternative) word.near (Or.inl word.some)
      · exact behind
  | true =>
      have none : outlook.view.isWordIn ["else"] = false := by
        simp [View.isWordIn, View.isAt, eof_of_past past]
      refine ⟨fun other agrees => ?_, ?_⟩
      · exact ((isWordIn_singleton other "else").trans (agrees.beyond past)).trans none.symm
      · rw [none]
        exact behind

theorem settles_branchTail (marked : setting.marked = true) (within : outlook.Within least) :
    branchTail.Settles setting least outlook := by
  refine settles_wrap marked nofun (by decide) (fun last => ?_)
  refine (stays_discard (stays_eatWord (within.withLast last))).andThen (fun _ _ condition => ?_)
  exact (local_bind _ _).mpr ((local_substatement _ condition.near (Or.inl condition.some)).weaken
    (fun _ _ behind => local_alternative behind))

theorem settles_branch (near : outlook.Near least) (solid : outlook.view.kind.isSolid = true) :
    branch.Settles setting least outlook := by
  refine ⟨near.notPast, (stays_introducer near solid).andThen (fun _ _ opened => ?_)⟩
  refine (stays_within (stays_expression (opened.near.withContext _)
    (Or.inl opened.some))).andThen (fun _ _ condition => ?_)
  refine (local_look_bind _ _).mpr ⟨shows_isAtCases condition.near, ?_⟩
  split
  · next found =>
      simp only [Bool.and_eq_true, beq_iff_eq] at found
      exact (stays_casesTail rfl condition.near (View.kind_of_isAt found.1) found.2).settles
  · exact settles_branchTail rfl condition

theorem stays_conditionName (within : outlook.Within least)
    (named : outlook.view.isNameBefore .colon = true) :
    conditionName.Stays setting least outlook := by
  simp only [View.isNameBefore, Bool.and_eq_true, beq_iff_eq] at named
  refine stays_bumpTagged_bind within.near (View.solid_of_isAt named.1 rfl)
    (fun _ name follows => ?_)
  refine stays_bind (stays_bump name.near (View.solid_of_kind ((follows 0).trans named.2) rfl))
    (fun _ _ colon => ?_)
  exact stays_bind (stays_onlyIf colon (shows_not (colon.near.shows_isAt _))
    (fun _ => stays_typeAs _ colon.near (Or.inl colon.some)))
    (fun _ _ typed => stays_expect typed.near rfl)

theorem settles_whileLoop (near : outlook.Near least)
    (solid : outlook.view.kind.isSolid = true) : whileLoop.Settles setting least outlook := by
  refine settles_node near nofun (by decide)
    ((stays_bumpKeyword near.inside solid).andThen (fun _ _ keyword => ?_))
  refine (stays_onlyIf keyword (keyword.near.shows_isNameBefore _)
    (fun named => stays_conditionName keyword named)).andThen (fun _ _ named => ?_)
  exact (stays_expressionAs _ named.near (Or.inl named.some)).substatement _

theorem stays_loopModifiers (within : outlook.Within least) :
    loopModifiers.Stays setting least outlook := by
  refine stays_bind (stays_onlyIf within (within.near.shows_isDirectiveIn _) (fun found => ?_))
    (fun _ _ versioned => ?_)
  · exact stays_bumpTagged within.near
      (View.solid_of_kind (View.kind_of_isDirectiveIn found) rfl) _
  refine stays_bind (stays_onlyIf versioned (versioned.near.shows_isAt _) (fun less => ?_))
    (fun _ _ reversed => ?_)
  · exact stays_bumpTagged versioned.near (View.solid_of_isAt less rfl) _
  · exact stays_onlyIf reversed (reversed.near.shows_isAt _)
      (fun star => stays_bumpTagged reversed.near (View.solid_of_isAt star rfl) _)

theorem loopNamesAt_succ (kindAt : Nat → TokenKind) (budget distance : Nat) :
    loopNamesAt (fun place => kindAt (place + 1)) budget distance =
      loopNamesAt kindAt budget (distance + 1) := by
  induction budget generalizing distance with
  | zero => rfl
  | succ budget ih =>
      simp only [loopNamesAt, ih]

/-- Behind the name of a loop stands its colon, or a comma and another name. -/
def AfterLoopName (view : View) : Prop :=
  view.kind = .colon ∨ view.kind = .comma ∧ ∃ budget, loopNamesAt view.kindAt budget 1 = true

theorem name_of_loopNames {view : View} {budget : Nat}
    (names : loopNamesAt view.kindAt budget 0 = true) : view.kind = .ident := by
  cases budget with
  | zero => cases names
  | succ budget =>
      simp only [loopNamesAt, Bool.and_eq_true, beq_iff_eq] at names
      exact names.1

theorem afterLoopName {view later : View} {budget : Nat}
    (names : loopNamesAt view.kindAt budget 0 = true)
    (follows : ∀ distance, later.kindAt distance = view.kindAt (distance + 1)) :
    AfterLoopName later := by
  have kinds : later.kindAt = fun distance => view.kindAt (distance + 1) := funext follows
  cases budget with
  | zero => cases names
  | succ budget =>
      simp only [loopNamesAt, Bool.and_eq_true] at names
      have further := names.2
      split at further
      · next colon => exact Or.inl ((follows 0).trans colon)
      · next comma =>
          refine Or.inr ⟨(follows 0).trans comma, budget, ?_⟩
          rw [kinds, loopNamesAt_succ]
          exact further
      · cases further

/-- The names are those that the look at them saw, so each round is behind a name. -/
theorem stays_loopNames {budget : Nat} (within : outlook.Within least)
    (names : loopNamesAt outlook.view.kindAt budget 0 = true) :
    loopNames.Stays setting least outlook := by
  refine stays_bind ?_ (fun _ _ read => stays_expect read.near rfl)
  refine stays_bumpTagged_bind within.near (View.solid_of_kind (name_of_loopNames names) rfl)
    (fun later name follows => ?_)
  refine ⟨fun round => round.Within least ∧ AfterLoopName round.view,
    ⟨name, afterLoopName names follows⟩, ?_⟩
  rintro round ⟨held, further⟩
  refine ⟨held.notPast, (local_bind _ _).mpr
    ((local_look_bind _ _).mpr ⟨held.near.shows_isAt .comma, ?_⟩)⟩
  split
  · next found =>
      obtain colon | ⟨-, remaining, spelled⟩ := further
      · rw [View.kind_of_isAt found] at colon
        cases colon
      · refine ⟨held.notPast, fun comma bumps => ?_⟩
        have second := bumps.within held.again (View.solid_of_isAt found rfl)
        have another : loopNamesAt comma.view.kindAt remaining 0 = true := by
          rw [funext bumps.kindAt, loopNamesAt_succ]
          exact spelled
        refine ⟨second.notPast, fun last moves => ?_⟩
        have read := moves.within second.near (View.solid_of_kind (name_of_loopNames another) rfl)
        exact ⟨read.more, read.trans held, afterLoopName another moves.kindAt⟩
  · exact held

theorem settles_forLoop (near : outlook.Near least)
    (solid : outlook.view.kind.isSolid = true) : forLoop.Settles setting least outlook := by
  refine settles_node near nofun (by decide)
    ((stays_bumpKeyword near.inside solid).andThen (fun _ _ keyword => ?_))
  refine (stays_loopModifiers keyword).andThen (fun _ _ modified => ?_)
  refine (stays_onlyIf modified ?_ (fun names => stays_loopNames modified names)).andThen
    (fun _ _ named => ?_)
  · exact fun _ agrees => (alike modified.near agrees).loopNamesAt_eq 3
  · exact (stays_expression named.near (Or.inl named.some)).substatement _

theorem stays_returnJump (near : outlook.Near least) (solid : outlook.view.kind.isSolid = true) :
    returnJump.Stays setting least outlook := by
  refine stays_node near nofun
    (stays_bind (stays_bumpKeyword near.inside solid) (fun _ _ keyword => ?_))
  refine stays_onlyIf keyword ?_ (fun _ => stays_expressionsAs _ keyword)
  exact shows_and (shows_not (keyword.near.shows_isAt _))
    (fun _ => shows_not (keyword.near.shows_endsAt _))

theorem stays_loopJump {kind : NodeKind} (near : outlook.Near least)
    (ordinary : kind ≠ .deprecatedDirective) (solid : outlook.view.kind.isSolid = true) :
    (loopJump kind).Stays setting least outlook :=
  stays_node near ordinary (stays_bind (stays_bumpKeyword near.inside solid) (fun _ _ keyword =>
    stays_onlyIf keyword (keyword.near.shows_isAt _)
      (fun label => stays_bumpTagged keyword.near (View.solid_of_isAt label rfl) _)))

theorem settles_deferred (near : outlook.Near least)
    (solid : outlook.view.kind.isSolid = true) : deferred.Settles setting least outlook :=
  settles_node near nofun (by decide) ((stays_bumpKeyword near.inside solid).substatement _)

theorem stays_removal (near : outlook.Near least) (solid : outlook.view.kind.isSolid = true) :
    removal.Stays setting least outlook :=
  stays_node near nofun (stays_bind (stays_bumpKeyword near.inside solid) (fun _ _ keyword =>
    stays_onlyIf keyword (shows_not (keyword.near.shows_isAt _))
      (fun _ => stays_expressionAs _ keyword.near (Or.inl keyword.some))))

theorem stays_pushedContext (near : outlook.Near least)
    (solid : outlook.view.kind.isSolid = true) : pushedContext.Stays setting least outlook :=
  stays_node near nofun (stays_bind (stays_bumpKeyword near.inside solid) (fun _ _ keyword =>
    stays_bind (stays_expressionAs _ keyword.near (Or.inl keyword.some))
      (fun _ _ value => stays_bodyBlock value.near)))

/-! ### Declarations -/

theorem stays_importTail (near : outlook.Near least) (solid : outlook.view.kind.isSolid = true) :
    importTail.Stays setting least outlook := by
  refine stays_bind (stays_bump near solid) (fun _ _ name => ?_)
  refine stays_bind (stays_directiveOptions name) (fun _ _ options => ?_)
  refine stays_bind (stays_stringLiteral options.near) (fun _ _ path => ?_)
  exact stays_tag_bind (stays_onlyIf path (path.near.shows_isAt _)
    (fun _ => stays_callArguments path.near))

theorem stays_procedureModifier (within : outlook.Within least) :
    procedureModifier.Stays setting least outlook := by
  refine stays_onlyIf within ?_ (fun found => ?_)
  · apply within.near.shows_next (within.near.shows_isWordIn _)
    intro word
    rw [View.kind_of_isWordIn word]
    decide
  · have word := View.kind_of_isWordIn (Bool.and_eq_true_iff.mp found).1
    exact stays_bind (stays_bumpKeyword within.near (View.solid_of_kind word rfl))
      (fun _ _ read => stays_tag read _)

def Declares (setting : Setting) (least : Nat) (production : Production NodeKind)
    (outlook : Outlook horizon) : Prop :=
  production.Local horizon setting
    (fun kind later => kind ≠ .deprecatedDirective ∧ later.Within least) outlook

theorem declares_pure {kind : NodeKind} (ordinary : kind ≠ .deprecatedDirective)
    (within : outlook.Within least) :
    (Pure.pure kind : Production NodeKind).Declares setting least outlook :=
  ⟨ordinary, within⟩

theorem declares_valueDefinition (within : outlook.Within least) :
    valueDefinition.Declares setting least outlook := by
  refine (stays_procedureModifier within).andThen (fun _ _ modified => ?_)
  refine (stays_expression modified.near (Or.inl modified.some)).andThen (fun _ _ value => ?_)
  refine (local_look_bind _ _).mpr ⟨?_, ?_⟩
  · refine shows_and (fun _ agrees => ?_) (fun _ => shows_not (value.near.shows_isAt _))
    simp only [agrees.lastNode value.settled]
  · split
    · exact declares_pure (by decide) value
    · refine (stays_tag value _).andThen (fun _ _ first => ?_)
      refine (stays_asLongAs first (fun _ held => held.near.shows_isAt .comma) ?_).andThen
        (fun _ _ values => declares_pure (by decide) values)
      intro round held comma
      exact stays_bind (stays_bump held.again (View.solid_of_isAt comma rfl))
        (fun _ _ further => stays_expressionAs _ further.near (Or.inl further.some))

theorem declares_definition (within : outlook.Within least) :
    definition.Declares setting least outlook := by
  unfold definition
  rw [settle_struct, settle_enum]
  refine (local_look_bind _ _).mpr ⟨within.near.shows_isWordIn _, ?_⟩
  split
  · next word =>
      have solid := View.solid_of_kind (View.kind_of_isWordIn word) rfl
      exact (stays_bumpKeyword within.near solid).andThen (fun _ _ keyword =>
        (stays_structTail keyword).andThen (fun _ _ tail => declares_pure (by decide) tail))
  refine (local_look_bind _ _).mpr ⟨within.near.shows_isWordIn _, ?_⟩
  split
  · next word =>
      have solid := View.solid_of_kind (View.kind_of_isWordIn word) rfl
      exact (stays_bumpKeyword within.near solid).andThen (fun _ _ keyword =>
        (stays_enumTail keyword).andThen (fun _ _ tail => declares_pure (by decide) tail))
  refine (local_look_bind _ _).mpr ⟨within.near.shows_isDirectiveIn _, ?_⟩
  split
  · next directive =>
      have solid := View.solid_of_kind (View.kind_of_isDirectiveIn directive) rfl
      exact (stays_importTail within.near solid).andThen
        (fun _ _ tail => declares_pure (by decide) tail)
  · exact declares_valueDefinition within

theorem declares_typedDefinition (within : outlook.Within least) :
    typedDefinition.Declares setting least outlook := by
  refine (stays_onlyIf within ?_
    (fun _ => stays_typeAs _ within.near (Or.inl within.some))).andThen (fun _ _ typed => ?_)
  · exact shows_and (shows_not (within.near.shows_isAt _))
      (fun _ => shows_not (within.near.shows_isAt _))
  apply local_eat_bind typed.near rfl
  · exact fun _ colon => (stays_expressionsAs _ colon).andThen
      (fun _ _ values => declares_pure (by decide) values)
  · intro _
    apply local_eat_bind typed.near rfl
    · exact fun _ equals => (stays_expressionsAs _ equals).andThen
        (fun _ _ values => declares_pure (by decide) values)
    · exact fun _ => declares_pure (by decide) typed

theorem declares_declarationTail (isSingle : Bool) (within : outlook.Within least) :
    (declarationTail isSingle).Declares setting least outlook := by
  refine (local_look_bind _ _).mpr ⟨shows_doubleColon within.near, ?_⟩
  split
  · next colons found =>
      refine (stays_doubleColon within.near found).andThen (fun _ _ colons => ?_)
      cases isSingle with
      | true => exact declares_definition colons
      | false =>
          exact (stays_expressionsAs _ colons).andThen
            (fun _ _ values => declares_pure (by decide) values)
  · exact (stays_expect within.near rfl).andThen (fun _ _ colon => declares_typedDefinition colon)

theorem stays_declaration (near : outlook.Near least)
    (solid : outlook.view.kind.isSolid = true) : declaration.Stays setting least outlook := by
  refine stays_marked near (stays_bind (stays_bumpTagged near solid _) (fun _ _ name => ?_))
  refine stays_look_bind (shows_not (name.near.shows_isAt _)) ?_
  refine stays_bind (stays_asLongAs name (fun _ held => held.near.shows_isAt .comma) ?_)
    (fun _ _ names => ?_)
  · intro round held comma
    exact stays_bind (stays_bump held.again (View.solid_of_isAt comma rfl))
      (fun _ _ further => stays_expectName further.near _)
  · refine (local_bind _ _).mpr ((declares_declarationTail _ names).weaken ?_)
    rintro kind later ⟨ordinary, read⟩
    exact stays_wrap rfl ordinary (fun last => stays_pure (read.withLast last) ())

/-- The tokens of the operator were seen from the word before them. -/
theorem stays_operatorDeclaration (near : outlook.Near least) (word : outlook.view.kind = .ident)
    (found : outlook.view.isAtOperatorDeclaration = true) :
    operatorDeclaration.Stays setting least outlook := by
  obtain ⟨length, same⟩ := Option.isSome_iff_exists.mp found
  refine stays_node near nofun (stays_bumpKeyword_bind near.inside (View.solid_of_kind word rfl)
    (fun later keyword follows => ?_))
  have kinds : later.view.kindAt = fun place => outlook.view.kindAt (place + 1) := funext follows
  have spelled : operatorLengthAt? later.view.kindAt 0 = some length := by
    rw [kinds, operatorLengthAt?_succ]
    exact same
  refine stays_look_bind (fun _ agrees => ?_) ?_
  · rw [(alike keyword.near agrees).operatorLengthAt?_eq]
  rw [spelled]
  have operators : (times length (bumpTagged .operator)).Stays setting.inside least later := by
    refine stays_times (bumpTagged .operator) (fun _ _ => id) length keyword
      (fun distance before => ?_)
    rw [← Nat.zero_add distance]
    exact operatorLengthAt?_solid spelled distance before
  refine stays_bind operators (fun _ _ operator => ?_)
  refine stays_look_bind (fun _ agrees => ?_) ?_
  · exact congrArg (fun colons => colons.getD 0) (shows_doubleColon operator.near _ agrees)
  refine Stays.andThen ?_ (fun _ _ colons => stays_bind (stays_procedureModifier colons)
    (fun _ _ modified => stays_expression modified.near (Or.inl modified.some)))
  cases colons : doubleColonAt? _ 0 with
  | none => exact stays_pure operator ()
  | some count => exact stays_doubleColon operator.near colons

/-! ### Statements -/

theorem rounds_furtherTargets (within : outlook.Within least) :
    furtherTargets.Stays setting least outlook := by
  refine stays_repeatedly within (fun round held => ?_)
  apply local_eat_bind held.again rfl
  · intro later comma
    refine (local_look_bind _ _).mpr ⟨comma.near.shows_isAt .eq, ?_⟩
    split
    · exact comma.trans held
    · exact (stays_expressionAs _ comma.near (Or.inl comma.some)).andThen (fun _ _ read => read)
  · exact fun _ => held

theorem stays_assignmentTail {kind : NodeKind} (marked : setting.marked = true)
    (ordinary : kind ≠ .deprecatedDirective) (near : outlook.Near least)
    (solid : outlook.view.kind.isSolid = true) :
    (assignmentTail kind).Stays setting least outlook :=
  stays_wrap marked ordinary (fun last => stays_bind
    (stays_bumpTagged (near.withLast last true) solid _)
    (fun _ _ operator => stays_expressionsAs _ operator))

theorem solid_of_compound {kind : TokenKind} (compound : kind.isCompoundAssign = true) :
    kind.isSolid = true := by
  cases kind <;> first
    | rfl
    | cases compound

theorem stays_expressionStatement (near : outlook.Near least)
    (ranked : 0 < outlook.taken ∨ 1 < setting.limit) :
    expressionStatement.Stays setting least outlook := by
  refine stays_marked near (stays_bind (stays_expression near ranked) (fun _ _ first => ?_))
  have compound {place : Outlook horizon} (held : place.Within least) :
      place.Shows (fun view => view.kind.isCompoundAssign) := by
    intro other agrees
    simp only [held.near.kind agrees]
  refine stays_look_bind ?_ ?_
  · exact shows_or (shows_or (first.near.shows_isAt _) (fun _ => first.near.shows_isAt _))
      (fun _ => compound first)
  split
  · refine stays_tag_bind (stays_bind (rounds_furtherTargets first) (fun _ _ targets => ?_))
    refine stays_look_bind (targets.near.shows_isAt .eq) ?_
    split
    · next equals =>
        exact stays_assignmentTail rfl nofun targets.near (View.solid_of_isAt equals rfl)
    refine stays_look_bind (compound targets) ?_
    split
    · next update => exact stays_assignmentTail rfl nofun targets.near (solid_of_compound update)
    · exact stays_refuse targets.near _
  · exact stays_pure first ()

theorem settles_usingStatement (near : outlook.Near least)
    (solid : outlook.view.kind.isSolid = true) : usingStatement.Settles setting least outlook := by
  refine settles_node near nofun (by decide)
    ((stays_bumpKeyword near.inside solid).andThen (fun _ _ keyword => ?_))
  refine (stays_tag keyword _).andThen (fun _ _ tagged => ?_)
  refine (stays_asLongAs tagged (fun _ held => held.near.shows_isAt .comma)
    (fun round held comma => ?_)).substatement none
  refine stays_bind (stays_bump held.again (View.solid_of_isAt comma rfl)) (fun _ _ further => ?_)
  exact stays_bind (stays_discard (stays_postfixExpression further.near (Or.inl further.some)))
    (fun _ _ read => stays_tag read _)

theorem settles_compileTimeStatement {kind : NodeKind} (near : outlook.Near least)
    (ordinary : kind ≠ .deprecatedDirective) (needsNone : terminatorOf kind = .selfTerminated)
    (solid : outlook.view.kind.isSolid = true) :
    (compileTimeStatement kind).Settles setting least outlook := by
  refine settles_node near ordinary needsNone
    ((stays_bump near.inside solid).andThen (fun _ _ name => ?_))
  refine (stays_directiveOptions name).andThen (fun _ _ options => ?_)
  apply local_eat_bind options.near rfl
  · intro later arrow
    exact (stays_bind (stays_results arrow.near arrow.some)
      (fun _ _ read => stays_bodyBlock read.near)).weaken (fun _ _ body => body.toBehind)
  · exact fun _ => local_substatement none options.near (Or.inl options.some)

theorem stays_loadDirective (near : outlook.Near least)
    (solid : outlook.view.kind.isSolid = true) : loadDirective.Stays setting least outlook :=
  stays_node near nofun (stays_bind (stays_bump near.inside solid) (fun _ _ name =>
    stays_bind (stays_stringLiteral name.near) (fun _ _ path => stays_tag path _)))

theorem stays_assertion (near : outlook.Near least)
    (solid : outlook.view.kind.isSolid = true) : assertion.Stays setting least outlook := by
  refine stays_node near nofun (stays_bind (stays_bump near.inside solid) (fun _ _ name => ?_))
  refine stays_bind (stays_expressionAs _ name.near (Or.inl name.some)) (fun _ _ condition => ?_)
  exact stays_eat_bind condition.near rfl
    (fun _ comma => stays_expressionAs _ comma.near (Or.inl comma.some)) (stays_pure condition ())

theorem stays_moduleParameters (near : outlook.Near least)
    (solid : outlook.view.kind.isSolid = true) : moduleParameters.Stays setting least outlook := by
  refine stays_node near nofun (stays_bind (stays_bump near.inside solid) (fun _ _ name => ?_))
  exact stays_bind (stays_parameterList name.near) (fun _ _ first =>
    stays_onlyIf first (first.near.shows_isAt _) (fun _ => stays_parameterList first.near))

theorem settles_markedStatement {kind : NodeKind} (near : outlook.Near least)
    (ordinary : kind ≠ .deprecatedDirective) (needsNone : terminatorOf kind = .selfTerminated)
    (solid : outlook.view.kind.isSolid = true) :
    (markedStatement kind).Settles setting least outlook :=
  settles_node near ordinary needsNone ((stays_bump near.inside solid).substatement none)

theorem stays_otherDirective (near : outlook.Near least)
    (solid : outlook.view.kind.isSolid = true) : otherDirective.Stays setting least outlook :=
  stays_node near nofun (stays_bind (stays_bump near.inside solid) (fun _ _ name =>
    stays_onlyIf name (name.near.shows_isAt _) (fun _ => stays_callArguments name.near)))

theorem stays_spacedDirective (near : outlook.Near least)
    (solid : outlook.view.kind.isSolid = true) : spacedDirective.Stays setting least outlook :=
  stays_node near nofun (stays_bind (stays_bump near.inside solid)
    (fun _ _ hash => stays_expectName hash.near _))

theorem settles_directiveStatementNamed (name : String) (near : outlook.Near least)
    (ranked : 0 < outlook.taken ∨ 1 < setting.limit) (solid : outlook.view.kind.isSolid = true) :
    (directiveStatementNamed name).Settles setting least outlook := by
  unfold directiveStatementNamed
  split
  · exact Stays.settles (stays_node near nofun (stays_importTail near.inside solid))
  · exact (stays_loadDirective near solid).settles
  · exact settles_compileTimeStatement near nofun (by decide) solid
  · exact settles_compileTimeStatement near nofun (by decide) solid
  · exact (stays_assertion near solid).settles
  · exact settles_markedStatement near nofun (by decide) solid
  · exact (stays_moduleParameters near solid).settles
  · exact Stays.settles (stays_leafNode near nofun solid)
  · exact (stays_assembly near solid).settles
  · exact settles_branch near solid
  · split
    · exact settles_markedStatement near nofun (by decide) solid
    · split
      · exact (stays_expressionStatement near ranked).settles
      · exact (stays_otherDirective near solid).settles

theorem settles_wordStatement (word : String) (near : outlook.Near least)
    (ranked : 0 < outlook.taken ∨ 1 < setting.limit) (name : outlook.view.kind = .ident) :
    (wordStatement word).Settles setting least outlook := by
  have solid := View.solid_of_kind name rfl
  unfold wordStatement
  split
  · exact settles_branch near solid
  · exact settles_whileLoop near solid
  · exact settles_forLoop near solid
  · exact (stays_returnJump near solid).settles
  · exact Stays.settles (stays_loopJump near nofun solid)
  · exact Stays.settles (stays_loopJump near nofun solid)
  · exact settles_deferred near solid
  · exact settles_usingStatement near solid
  · exact (stays_removal near solid).settles
  · exact (stays_pushedContext near solid).settles
  · refine (local_look_bind _ _).mpr ⟨fun _ agrees => ?_, ?_⟩
    · have next := (alike near agrees).next (by rw [show outlook.view.kindAt 0 = _ from name]; decide)
      exact congrArg Option.isSome next.operatorLengthAt?_eq
    · split
      · next found => exact (stays_operatorDeclaration near name found).settles
      · exact (stays_expressionStatement near ranked).settles
  · exact (stays_expressionStatement near ranked).settles

theorem settles_statementEntry (near : outlook.Near least)
    (ranked : 0 < outlook.taken ∨ 1 < setting.limit) :
    statementEntry.Settles setting least outlook := by
  refine (local_look_bind _ _).mpr ⟨near.shows_kind, ?_⟩
  split
  · exact (stays_block near).settles
  · next directive =>
      refine (local_look_bind _ _).mpr ⟨near.shows_text, ?_⟩
      exact settles_directiveStatementNamed _ near ranked (View.solid_of_kind directive rfl)
  · next hash => exact (stays_spacedDirective near (View.solid_of_kind hash rfl)).settles
  · next name =>
      refine (local_look_bind _ _).mpr
        ⟨fun _ agrees => (alike near agrees).namesBeforeColon_eq 32, ?_⟩
      split
      · exact (stays_declaration near (View.solid_of_kind name rfl)).settles
      · refine (local_look_bind _ _).mpr ⟨near.shows_text, ?_⟩
        exact settles_wordStatement _ near ranked name
  · exact (stays_expressionStatement near ranked).settles

end Production

end JaiSyntax
