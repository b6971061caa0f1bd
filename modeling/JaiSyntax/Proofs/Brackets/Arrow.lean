import JaiSyntax.Proofs.Brackets.Grammar
import JaiSyntax.Proofs.Brackets.Leaves
import JaiSyntax.Proofs.Operators.Parts
import JaiSyntax.Proofs.Statement.Semicolons
/-!
The arrows of quick procedures. The look for a quick procedure stops at a parenthesis before an
arrow, but what is taken as the arrow is whatever stands behind the parameters. It is the arrow where
the brackets between the parentheses match, as they do in a source without errors.
-/

set_option autoImplicit false

namespace JaiSyntax

/-! ### Headers and bodies -/

/-- The brackets at the leaves of some children, but for the first and the last one. -/
def Child.innerBrackets (children : List Child) : List TokenKind :=
  (bracketsOf (Child.leavesOfList children)).tail.dropLast

/-- Between two brackets, the inner ones are those of the tokens there. -/
theorem Child.innerBrackets_eq {children : List Child} {first last : Token} {inside : List Token}
    (brackets : bracketsOf (leavesOfList children) = bracketsOf (first :: inside ++ [last]))
    (opens : first.kind.isBracket = true) (closes : last.kind.isBracket = true) :
    innerBrackets children = bracketsOf inside := by
  have left : bracketsOf [first] = [first.kind] := List.filter_cons_of_pos opens
  have right : bracketsOf [last] = [last.kind] := List.filter_cons_of_pos closes
  rw [innerBrackets, brackets, bracketsOf_append, ← List.singleton_append, bracketsOf_append, left,
    right, List.singleton_append, List.cons_append, List.tail_cons, List.dropLast_concat]

/-- Whether a node ends with a token and, under the field for bodies, the one child behind that token
that is no extra. Nothing before the token is a body. -/
structure Node.EndsWithBody (node : Node) (before : List Child) (arrow : Token) (body : Child) :
    Prop where
  children : ∃ behind, node.children = before ++ .leaf none arrow :: behind ∧
    behind.filter Child.isSignificant = [body]
  arrow : arrow.kind.isExtra = false
  body : body.field? = some .body
  others : ∀ child ∈ before.filter Child.isSignificant, child.field? ≠ some .body

theorem Node.EndsWithBody.significant {node : Node} {before : List Child} {arrow : Token} {body : Child}
    (ends : node.EndsWithBody before arrow body) :
    node.significant = before.filter Child.isSignificant ++ [.leaf none arrow, body] := by
  obtain ⟨behind, same, single⟩ := ends.children
  have counts : Child.isSignificant (.leaf none arrow) = true := by
    rw [Child.isSignificant, ends.arrow]
    rfl
  rw [Node.significant, same, List.filter_append, List.filter_cons_of_pos counts, single]

/-- Whether a node, if it is a quick procedure, has an arrow before its body: where the brackets inside
its parentheses match, or where something else holds. -/
def Node.HasArrow (otherwise : Prop) (node : Node) : Prop :=
  node.kind = .quickProcedure → ∃ before arrow body, node.EndsWithBody before arrow body ∧
    (Balanced (Child.innerBrackets before) ∨ otherwise → arrow.kind = .fatArrow)

theorem hasArrow_of_other {otherwise : Prop} {node : Node} (other : node.kind ≠ .quickProcedure) :
    node.HasArrow otherwise :=
  fun quick => absurd quick other

theorem hasArrow_of_incidental {otherwise : Prop} (node : Node)
    (incidental : node.kind.isIncidental = true) : node.HasArrow otherwise :=
  hasArrow_of_other (fun quick => by rw [quick] at incidental; cases incidental)

theorem hasArrow_of_common {otherwise : Prop} {node : Node} (common : node.kind.isCommon = true) :
    node.HasArrow otherwise :=
  hasArrow_of_other (fun quick => by rw [quick] at common; cases common)

namespace Production

variable {resync : Bool} {enter : Entry → Surroundings → Segment → Reading Unit}
  {around : Surroundings} {segment : Segment}

/-! ### Bodies -/

def quickBodyBehind : Production Unit := do
  if ← check .lBrace then block else expression
  tag .body

theorem covers_quickBodyBehind {place : Place} :
    quickBodyBehind.Covers (fun kind => kind.isPlain = true) false place := by
  unfold quickBodyBehind check
  rw [covers_look_bind]
  split
  · exact covers_bind (covers_block (fun _ => id)) (fun _ _ => covers_tag rfl _)
  · exact covers_bind covers_expression (fun _ _ => covers_tag rfl _)

theorem field?_of_isNodeUnder {field : Field} {child : Child} (under : child.isNodeUnder field = true) :
    child.field? = some field := by
  cases child with
  | leaf role token => cases under
  | branch role kind span children => exact eq_of_beq under

theorem adds_quickBodyBehind (nests : EntriesNest enter) (proper : segment.cursor.Proper) :
    quickBodyBehind.Adds resync enter (·.field? = some .body) around segment := by
  have labelled {first : Production Unit}
      (reads : first.ReadsNode resync enter (fun _ _ => True) around segment) :
      (first >>= fun _ => tag .body).Adds resync enter (·.field? = some .body) around segment := by
    have adds := adds_labelled nests proper reads .body
    unfold Adds at adds ⊢
    refine adds.weaken ?_ (fun _ => id)
    rintro _ later ⟨laterProper, child, same, under⟩
    exact ⟨laterProper, child, same, field?_of_isNodeUnder under⟩
  unfold quickBodyBehind check Adds
  rw [read_bind, read_look]
  simp only [Reading.andThen]
  split
  · exact labelled (readsNode_kind proper (by decide) (fun _ _ _ => trivial))
  · exact labelled (readsNode_expression nests proper)

/-- What is read behind an arrow is a single body. -/
theorem reads_quickBodyBehind (nests : EntriesNest enter) (proper : segment.cursor.Proper) :
    (quickBodyBehind.read resync enter around segment).Satisfies
      (fun _ later => segment.cursor.isAtEnd = false ∧ ∃ behind body,
        later.latest = behind ++ segment.latest ∧ behind.filter Child.isSignificant = [body] ∧
          body.field? = some .body)
      (fun _ => True) := by
  have describes : (Place.mk (segment.view around) .nothing).Describes around segment
      segment.cursor.position := ⟨rfl, .of_nothing, Nat.le_refl _⟩
  have grows := covers_quickBodyBehind.grows nestsOpenly_of_plain nests.cover nests.grow resync nofun
    describes proper (Segment.grows_refl segment)
  have adds : (quickBodyBehind.read resync enter around segment).Satisfies _ _ :=
    adds_quickBodyBehind nests proper
  refine (grows.and adds).weaken ?_ (fun _ _ => trivial)
  rintro _ later ⟨⟨continues, reached, described, ⟨behind, same, -⟩, covered⟩, -, body, read, under⟩
  refine ⟨?_, behind, body, same, ?_, under⟩
  · -- At the end of the file there is nothing to move on to.
    refine Bool.eq_false_iff.mpr (fun ended => ?_)
    have moved := (described.covered.covers covered).2
    have total := continues.position
    rw [proper.isAtEnd_iff.mp ended, List.length_nil] at total
    omega
  · unfold Segment.significant at read
    rw [same, List.filter_append] at read
    exact List.append_cancel_right read

/-- A quick procedure behind its parameters: the arrow is the next token, whichever it is. -/
theorem reads_quickBody (nests : EntriesNest enter) (proper : segment.cursor.Proper)
    (others : ∀ child ∈ segment.significant, child.field? ≠ some .body) :
    (quickBody.read resync enter around segment).Satisfies
      (fun _ later => ∀ position, ∃ body,
        (Node.build .quickProcedure later.latest.reverse position).EndsWithBody
          segment.flush.latest.reverse segment.cursor.current body)
      (fun _ => True) := by
  have behind : (quickBodyBehind.read resync enter around segment.bump).Satisfies _ _ :=
    reads_quickBodyBehind nests (Segment.apply_proper proper around .bump)
  change (quickBodyBehind.read resync enter around segment.bump).Satisfies _ _
  refine behind.weaken ?_ (fun _ => id)
  rintro _ later ⟨moved, behind, body, same, single, under⟩ position
  have more : segment.cursor.isAtEnd = false := by
    refine Bool.eq_false_iff.mpr (fun ended => ?_)
    rw [Segment.bump, Segment.bumpAs_of_end ended] at moved
    exact absurd (ended.symm.trans moved) (by decide)
  refine ⟨body, ⟨behind.reverse, ?_, ?_⟩, Segment.current_significant proper more, under, ?_⟩
  · rw [Segment.bump, Segment.latest_bumpAs proper more] at same
    simp [Node.build, same]
  · rw [List.filter_reverse, single]
    rfl
  · intro child member
    rw [List.filter_reverse, List.mem_reverse] at member
    exact others child (Segment.significant_flush proper ▸ member)

/-! ### Parameters -/

theorem orderly_quickParameters {place : Place} :
    quickParameters.Orderly (fun kind => kind.isPlain = true) false (fun _ _ => True) place := by
  refine (orderly_within _ _).mpr (orderly_asLongAs (fun view covered _ => ?_) (fun _ => trivial)
    (fun _ => trivial))
  exact covers_bind (covers_quickParameter (fun _ => id)) (fun _ _ =>
    covers_bind (covers_tag rfl _) (fun _ _ => covers_commaBefore _ rfl))

theorem avoids_quickParameters : quickParameters.Avoids .body := by
  simp +decide [quickParameters, upTo, asLongAs, quickParameter, parameter, identifierNode, leafNode,
    commaBefore, onlyIf, check]

theorem reads_expect (token : TokenKind) :
    ((expect token).read resync enter around segment).Satisfies
      (fun _ later => segment.cursor.current.kind = token ∧ later = segment.bump) (fun _ => True) := by
  unfold expect
  rw [read_bind, read_eat]
  split
  · next found => exact ⟨eq_of_beq found, rfl⟩
  · trivial

/-- The brackets between the parentheses of a quick procedure are those of the tokens that were passed
there. -/
theorem arrow_of_balanced {closing : Segment} (continues : segment.bump.Continues closing)
    (proper : segment.cursor.Proper) (none : segment.latest = []) (plain : segment.cursor.PlainGaps)
    (opens : segment.cursor.current.kind = .lParen)
    (found : closesBeforeArrow segment.kindAt 63 0 1 = true)
    (closes : closing.cursor.current.kind = .rParen)
    (balanced : Balanced (Child.innerBrackets closing.bump.flush.latest.reverse)) :
    closing.bump.cursor.current.kind = .fatArrow := by
  have bumped := Segment.continues_bump proper
  have closingProper := continues.proper (bumped.proper proper)
  obtain ⟨opening, first, opened⟩ := Segment.ahead_bump proper (by
    rw [TokenCursor.isAtEnd, opens]
    rfl)
  obtain ⟨last, second, closed⟩ := Segment.ahead_bump closingProper (by
    rw [TokenCursor.isAtEnd, closes]
    rfl)
  obtain ⟨inside, between⟩ := continues.suffix
  have ahead : segment.cursor.ahead =
      (opening :: inside ++ [last]) ++ closing.bump.flush.cursor.ahead := by
    rw [first, ← between, second]
    simp [Segment.flush]
  have whole : segment.Continues closing.bump.flush := ((bumped.trans continues).trans
    (Segment.continues_bump closingProper)).trans (Segment.continues_flush _)
  have plainBehind : closing.bump.flush.cursor.PlainGaps :=
    ⟨rfl, fun stop member => plain.gaps stop (whole.suffix.mem member)⟩
  have brackets := Segment.Continues.brackets whole none plain plainBehind ahead
  rw [List.map_append, List.map_cons] at brackets
  have inner : Child.innerBrackets closing.bump.flush.latest.reverse =
      bracketsOf (inside.map Stop.token) :=
    Child.innerBrackets_eq brackets (by rw [opened, opens]; rfl) (by rw [closed, closes]; rfl)
  rw [inner, bracketsOf, List.map_map, Balanced, openAfter_filter] at balanced
  have kinds := Segment.kindAt_of_ahead ahead whole.endOfFile
  simp only [List.cons_append, List.map_cons, List.map_append, List.map_nil, opened, closed,
    closes] at kinds
  exact arrow_of_closesBeforeArrow found kinds balanced

theorem significant_of_empty (empty : segment.latest = []) : segment.significant = [] := by
  unfold Segment.significant
  rw [empty]
  rfl

theorem AddsBeside.others {field : Field} (beside : AddsBeside field [] segment) :
    ∀ child ∈ segment.significant, child.field? ≠ some field := by
  obtain ⟨first, more, same, others⟩ := beside
  rw [same, List.append_nil]
  exact others

/-- What is read of the parameters of a quick procedure behind the opening parenthesis. -/
theorem reads_quickParameters (nests : EntriesNest enter) (entries : EntriesBalance enter)
    (proper : segment.cursor.Proper) (beside : AddsBeside .body [] segment) :
    (quickParameters.read resync enter around segment).Satisfies
      (fun listed later => segment.Continues later ∧ AddsBeside .body [] later ∧
        segment.Silently later
          (∃ kinds, quickParameters.Passes listed segment.kindAt kinds later.kindAt))
      (fun _ => True) := by
  have describes : (Place.mk (segment.view around) .nothing).Describes around segment
      segment.cursor.position := ⟨rfl, .of_nothing, Nat.le_refl _⟩
  have grows := orderly_quickParameters.grows nestsOpenly_of_plain nests.cover nests.grow resync nofun
    describes proper (Segment.grows_refl segment)
  have avoided : (quickParameters.read resync enter around segment).Satisfies _ _ :=
    avoids_quickParameters.reads nests proper beside
  have passed : (quickParameters.read resync enter around segment).Satisfies _ _ :=
    read_passes entries quickParameters around proper
  refine ((grows.and avoided).and passed).weaken ?_ (fun _ _ => trivial)
  rintro listed later ⟨⟨⟨continues, -⟩, -, added⟩, silently⟩
  exact ⟨continues, added, silently⟩

/-- A quick procedure with its parameters in parentheses. -/
theorem hasArrow_listedQuickProcedure (nests : EntriesNest enter) (entries : EntriesBalance enter)
    (proper : segment.cursor.Proper) (empty : segment.latest = []) (plain : segment.cursor.PlainGaps)
    (opens : segment.kindAt 0 = .lParen) (found : closesBeforeArrow segment.kindAt 63 0 1 = true)
    {later : Segment} (done : listedQuickProcedure.read resync enter around segment = .done () later)
    (position : Nat) {otherwise : Prop} (silent : otherwise → later.reported = []) :
    (Node.build .quickProcedure later.latest.reverse position).HasArrow otherwise := by
  have bumpedProper : segment.bump.cursor.Proper := Segment.apply_proper proper around .bump
  have beside : AddsBeside .body [] segment.bump := by
    refine ⟨.leaf none segment.cursor.current, [], ?_, List.forall_mem_singleton.mpr nofun⟩
    rw [significant_bump proper (by rw [show segment.cursor.current.kind = _ from opens]; decide),
      significant_of_empty empty]
    rfl
  change (quickParameters >>= fun _ => expect .rParen >>= fun _ => quickBody).read resync enter around
    segment.bump = .done () later at done
  rw [read_bind] at done
  obtain ⟨listed, closing, parameters, done⟩ := Reading.andThen_eq_done done
  rw [read_bind] at done
  obtain ⟨_, last, close, done⟩ := Reading.andThen_eq_done done
  obtain ⟨continues, beside, closingProper, listedSilently⟩ :=
    (reads_quickParameters nests entries bumpedProper beside).of_done parameters
  obtain ⟨closes, rfl⟩ := (reads_expect .rParen).of_done close
  obtain ⟨lastProper, closedSilently⟩ := (read_passes entries _ around closingProper).of_done close
  have beside : AddsBeside .body [] closing.bump := beside.bumpAs closingProper id
  obtain ⟨body, ended⟩ := (reads_quickBody nests lastProper beside.others).of_done done position
  refine fun _ => ⟨_, _, body, ended, ?_⟩
  rintro (balanced | held)
  · exact arrow_of_balanced continues proper empty plain opens found closes balanced
  · obtain ⟨-, bodySilently⟩ := (read_passes entries _ around lastProper).of_done done
    obtain ⟨lastSilent, -⟩ := bodySilently (silent held)
    obtain ⟨closingSilent, last, close⟩ := closedSilently lastSilent
    obtain ⟨-, kinds, parameters⟩ := listedSilently closingSilent
    refine arrow_behind_parameters found ?_ parameters close
    rw [Segment.bump, Segment.kindAt_bumpAs proper, ← opens]
    funext distance
    cases distance <;> rfl

/-- A bare parameter is one name. -/
theorem reads_bareParameter (resync : Bool) (around : Surroundings) (nests : EntriesNest enter)
    (proper : segment.cursor.Proper) (empty : segment.latest = []) :
    ∃ name, identifierNode.read resync enter around segment = .done () name ∧
      (name.apply around (.tag .parameters)).cursor.Proper ∧
      (name.apply around (.tag .parameters)).kindAt 0 = segment.kindAt 1 ∧
      ∃ child, (name.apply around (.tag .parameters)).significant = [child] ∧
        child.field? = some .parameters := by
  have single : identifierNode.ReadsNode resync enter (fun _ _ => True) around segment :=
    readsNode_kind proper (by decide) (fun _ _ _ => trivial)
  have adds : ((identifierNode >>= fun _ => tag .parameters).read resync enter around
      segment).Satisfies _ _ := adds_labelled nests proper single .parameters
  obtain ⟨name, read, arrow⟩ : ∃ name, identifierNode.read resync enter around segment =
      .done () name ∧ (name.apply around (.tag .parameters)).kindAt 0 = segment.kindAt 1 :=
    ⟨(segment.flush.emptied.bump.enclosed .identifier
      segment.flush.cursor.current.span.start).after segment.flush, rfl,
      congrArg Token.kind (Segment.peek_bumpAs (proper_emptied proper) id 0)⟩
  rw [read_bind, read] at adds
  obtain ⟨namedProper, child, same, under⟩ := adds
  rw [significant_of_empty empty] at same
  exact ⟨name, read, namedProper, arrow, child, same, field?_of_isNodeUnder under⟩

/-- A quick procedure with a single bare parameter, behind which an arrow was seen. -/
theorem hasArrow_bareQuickProcedure (nests : EntriesNest enter) (proper : segment.cursor.Proper)
    (empty : segment.latest = []) (found : segment.kindAt 1 = .fatArrow) {later : Segment}
    (done : bareQuickProcedure.read resync enter around segment = .done () later) (position : Nat)
    {otherwise : Prop} :
    (Node.build .quickProcedure later.latest.reverse position).HasArrow otherwise := by
  obtain ⟨name, read, namedProper, arrow, child, same, under⟩ :=
    reads_bareParameter resync around nests proper empty
  unfold bareQuickProcedure tag at done
  rw [read_bind, read, Reading.andThen, read_bind, read_act, Reading.andThen] at done
  have others : ∀ other ∈ (name.apply around (.tag .parameters)).significant,
      other.field? ≠ some .body := by
    rw [same, List.forall_mem_singleton, under]
    decide
  obtain ⟨body, ended⟩ := (reads_quickBody nests namedProper others).of_done done position
  exact fun _ => ⟨_, _, body, ended, fun _ => arrow.trans found⟩

end Production

/-! ### Segments with arrows -/

namespace Segment

variable {segment inner : Segment}

theorem plainGaps_apply (plain : segment.cursor.PlainGaps) (around : Surroundings) (move : Move) :
    (segment.apply around move).cursor.PlainGaps := by
  cases move with
  | bump => exact plainGaps_bumpAs plain id
  | bumpKeyword => exact plainGaps_bumpAs plain (fun token => token.retag .keyword)
  | tag | reinterpretLast | spliceParameters | report => exact plain

/-- Where the extras ahead hold no brackets, quick procedures have arrows if all earlier ones do. -/
structure KeepsArrows (earlier later : Segment) : Prop where
  follows : earlier.Follows later
  plain : earlier.cursor.PlainGaps → later.cursor.PlainGaps
  arrows : earlier.cursor.PlainGaps → ∀ otherwise : Prop, (otherwise → later.reported = []) →
    earlier.Throughout (Node.HasArrow otherwise) → later.Throughout (Node.HasArrow otherwise)

theorem keepsArrows_keeping {resync : Bool} {enter : Entry → Surroundings → Segment → Reading Unit}
    (nests : EntriesNest enter) (entries : EntriesBalance enter) :
    Keeping resync enter KeepsArrows where
  refl segment := ⟨follows_refl segment, id, fun _ _ _ => id⟩
  trans front back := ⟨front.follows.trans back.follows, fun plain => back.plain (front.plain plain),
    fun plain otherwise silent arrows =>
      back.arrows (front.plain plain) otherwise silent
        (front.arrows plain otherwise (fun held => back.follows.reported (silent held)) arrows)⟩
  apply around segment move _ :=
    ⟨follows_apply around segment move, fun plain => plainGaps_apply plain around move,
      fun _ _ _ arrows => arrows.apply hasArrow_of_incidental around move⟩
  after := by
    intro segment inner kept
    refine ⟨((follows_flush segment).trans kept.follows).onward rfl id,
      fun plain => kept.plain plain.withoutGap, fun plain otherwise silent arrows => ?_⟩
    have added := kept.arrows plain.withoutGap otherwise silent (fun _ member => by cases member)
    exact added.after (arrows.flush hasArrow_of_incidental)
  enclosed position common kept :=
    ⟨kept.follows.onward rfl id, kept.plain, fun plain otherwise silent arrows =>
      (kept.arrows plain otherwise silent arrows).enclosed position (hasArrow_of_common common)⟩
  token := by
    intro segment position _ _ _
    refine ⟨(follows_bumpAs segment id).onward rfl id, fun plain => plainGaps_bumpAs plain id,
      fun _ _ _ arrows => ?_⟩
    exact (arrows.bumpAs hasArrow_of_incidental id).enclosed position (hasArrow_of_other nofun)
  block position _ _ _ kept :=
    ⟨kept.follows.onward rfl id, kept.plain, fun plain otherwise silent arrows =>
      (kept.arrows plain otherwise silent arrows).enclosed position (hasArrow_of_other nofun)⟩
  quick := by
    intro around segment inner body position proper empty quick done kept
    refine ⟨kept.follows.onward rfl id, kept.plain, fun plain otherwise silent arrows =>
      (kept.arrows plain otherwise silent arrows).enclosed position ?_⟩
    cases quick with
    | listed opens found =>
        exact Production.hasArrow_listedQuickProcedure nests entries proper empty plain opens found
          done position silent
    | bare _ arrow =>
        exact Production.hasArrow_bareQuickProcedure nests proper empty arrow done position
  cleared kept :=
    ⟨kept.follows.onward rfl id, kept.plain, fun plain otherwise silent arrows =>
      (kept.arrows plain otherwise silent arrows).cleared⟩
  failed position error kept :=
    ⟨kept.follows.onward rfl nofun, kept.plain, fun plain otherwise silent arrows =>
      (kept.arrows plain otherwise (fun held => nomatch silent held) arrows).enclosed position
        (hasArrow_of_other nofun)⟩

end Segment

/-- Each quick procedure has its body behind a token that is not an extra, and nothing before that
token is a body. The token is an arrow where the brackets between the parentheses match, or where the
source is parsed without any error. -/
theorem parse_quick_arrows (options : ParseOptions) (source : List Char) :
    ∀ node ∈ (parse options source).tree.preorder, node.kind = .quickProcedure →
      ∃ before arrow body, node.EndsWithBody before arrow body ∧
        (Balanced (Child.innerBrackets before) ∨ (parse options source).errors = [] →
          arrow.kind = .fatArrow) := by
  obtain ⟨last, done, -, -⟩ := sourceReading_done options.resyncOnDeclaration source
  have same : readSource options.resyncOnDeclaration source = last.flush := by
    unfold readSource
    rw [done]
  have kept : Segment.KeepsArrows _ last :=
    sourceReading_keeps (fun depth => Segment.keepsArrows_keeping (readEntry_nests _ depth)
      (readEntry_balances _ depth)) source done
  have silently (silent : (parse options source).errors = []) : last.reported = [] := by
    have reported := (silent_of_errors silent).2
    rw [same] at reported
    exact reported
  have arrows := kept.arrows (initial_plainGaps source) ((parse options source).errors = []) silently
    (fun _ member => by cases member)
  intro node member
  rw [parse_tree] at member
  rcases List.mem_cons.mp member with rfl | below
  · exact hasArrow_of_other nofun
  · obtain ⟨child, inside, within⟩ := (Child.mem_preorderOfList _).mp below
    rw [same] at inside
    exact arrows.flush hasArrow_of_incidental child (List.mem_reverse.mp inside) node within

/-- A quick procedure with two parameters. -/
theorem parse_quick_arrows_of_list :
    ∃ node ∈ (parse {} "x := (a, b) => a + b;".toList).tree.preorder, node.kind = .quickProcedure ∧
      ∃ before arrow body, node.EndsWithBody before arrow body ∧ arrow.kind = .fatArrow := by
  have silent : (parse {} "x := (a, b) => a + b;".toList).errors = [] := by decide +kernel
  have some : ∃ node ∈ (parse {} "x := (a, b) => a + b;".toList).tree.preorder,
      node.kind = .quickProcedure := by decide +kernel
  obtain ⟨node, member, quick⟩ := some
  obtain ⟨before, arrow, body, ends, found⟩ :=
    parse_quick_arrows {} "x := (a, b) => a + b;".toList node member quick
  exact ⟨node, member, quick, before, arrow, body, ends, found (.inr silent)⟩

/-- An unclosed brace lets the parameters end before the parenthesis that the look for the procedure
found, and the token behind them is then taken for the arrow. -/
theorem quick_arrow_missing_at_unclosed_brace :
    ¬ ∀ node ∈ (parse {} "x := (a := .\x7b1) + y) => z;".toList).tree.preorder,
      node.kind = .quickProcedure →
        ∃ before arrow body, node.EndsWithBody before arrow body ∧ arrow.kind = .fatArrow := by
  intro arrows
  have plus : ∃ node ∈ (parse {} "x := (a := .\x7b1) + y) => z;".toList).tree.preorder,
      node.kind = .quickProcedure ∧
        (node.significant.reverse[1]?.bind Child.token?).map Token.kind = some .plus := by
    decide +kernel
  obtain ⟨node, member, quick, plus⟩ := plus
  obtain ⟨before, arrow, body, ends, found⟩ := arrows node member quick
  rw [ends.significant] at plus
  simp [Child.token?, found] at plus

end JaiSyntax
