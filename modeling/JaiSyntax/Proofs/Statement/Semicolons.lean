import JaiSyntax.Proofs.Errors.Balance
import JaiSyntax.Proofs.Operators.Climbing
/-!
Semicolons after statements. A statement is read as a single node, and where no error is reported, each
node in a list of statements that needs a semicolon stands right before one.
-/

set_option autoImplicit false

namespace JaiSyntax

namespace Production

variable {resync : Bool} {enter : Entry → Surroundings → Segment → Reading Unit}
  {around : Surroundings} {segment : Segment}

def anyNode {α : Type} : α → Node → Prop := fun _ _ => True

/-! ### A statement is a node -/

theorem readsNode_any {α : Type} {kind : NodeKind} {body : Production α}
    (proper : segment.cursor.Proper) (ordinary : kind ≠ .deprecatedDirective) :
    (node kind body).ReadsNode resync enter anyNode around segment :=
  readsNode_kind proper ordinary (fun _ _ _ => trivial)

theorem leavesNode_any {α : Type} {kind : NodeKind} {body : Production α}
    (ordinary : kind ≠ .deprecatedDirective) :
    (wrap kind body).LeavesNode resync enter anyNode around segment :=
  leavesNode_wrap ordinary ((Reading.satisfies_trivial _).weaken (fun _ _ _ _ => trivial)
    (fun _ => id))

theorem readsNode_expressionStatement (nests : EntriesNest enter)
    (proper : segment.cursor.Proper) :
    expressionStatement.ReadsNode resync enter anyNode around segment := by
  refine readsNode_marked proper (leavesNode_andThen
    (readsNode_expression nests (proper_emptied proper)).leaves (fun _ later yields => ?_))
  refine leavesNode_look ?_
  split
  · refine leavesNode_bind (fun _ _ => leavesNode_bind (fun _ _ => leavesNode_look ?_))
    split
    · exact leavesNode_any (by decide)
    · refine leavesNode_look ?_
      split
      · exact leavesNode_any (by decide)
      · exact leavesNode_refuse
  · exact leavesNode_pure yields

theorem readsNode_branch (proper : segment.cursor.Proper) :
    branch.ReadsNode resync enter anyNode around segment := by
  refine readsNode_marked proper (leavesNode_bind (fun _ _ => leavesNode_bind (fun _ _ =>
    leavesNode_bind (fun _ _ => leavesNode_look ?_))))
  split
  · exact leavesNode_any (by decide)
  · exact leavesNode_any (by decide)

theorem readsNode_declaration (proper : segment.cursor.Proper) :
    declaration.ReadsNode resync enter anyNode around segment := by
  refine readsNode_marked proper (leavesNode_bind (fun _ _ => leavesNode_bind (fun isSingle _ =>
    leavesNode_bind (fun _ named => ?_))))
  unfold LeavesNode
  rw [read_bind]
  refine (read_leads (declarationTail isSingle) _ named).andThen (fun kind later leads => ?_)
  have ordinary : kind ≠ .deprecatedDirective := by
    intro same
    have common := leads_declarationTail leads
    rw [same] at common
    cases common
  have wrapped : (wrap kind (Production.pure ())).LeavesNode resync enter anyNode
      (segment.flush.atMark around) later := leavesNode_any ordinary
  unfold LeavesNode at wrapped
  exact wrapped

theorem readsNode_directiveStatement (nests : EntriesNest enter) (name : String)
    (proper : segment.cursor.Proper) :
    (directiveStatementNamed name).ReadsNode resync enter anyNode around segment := by
  unfold directiveStatementNamed
  split
  case h_10 => exact readsNode_branch proper
  case h_11 =>
    split
    · exact readsNode_any proper (by decide)
    split
    · exact readsNode_expressionStatement nests proper
    · exact readsNode_any proper (by decide)
  all_goals exact readsNode_any proper (by decide)

theorem readsNode_wordStatement (nests : EntriesNest enter) (word : String)
    (proper : segment.cursor.Proper) :
    (wordStatement word).ReadsNode resync enter anyNode around segment := by
  unfold wordStatement
  split
  case h_1 => exact readsNode_branch proper
  case h_11 =>
    rw [readsNode_look]
    split
    · exact readsNode_any proper (by decide)
    · exact readsNode_expressionStatement nests proper
  case h_12 => exact readsNode_expressionStatement nests proper
  all_goals exact readsNode_any proper (by decide)

/-- A statement is a single node. -/
theorem readsNode_statement (nests : EntriesNest enter) (proper : segment.cursor.Proper) :
    statementEntry.ReadsNode resync enter anyNode around segment := by
  unfold statementEntry
  rw [readsNode_look]
  split
  · exact readsNode_any proper (by decide)
  · unfold directiveStatement
    rw [readsNode_look]
    exact readsNode_directiveStatement nests _ proper
  · exact readsNode_any proper (by decide)
  · rw [readsNode_look]
    split
    · exact readsNode_declaration proper
    · rw [readsNode_look]
      exact readsNode_wordStatement nests _ proper
  · exact readsNode_expressionStatement nests proper

end Production

def StatementsYield (enter : Entry → Surroundings → Segment → Reading Unit) : Prop :=
  ∀ around segment, segment.cursor.Proper →
    (enter .statement around segment).Satisfies
      (fun _ later => later.Yields (fun _ => True) segment.significant) (fun _ => True)

theorem readEntry_statements (resync : Bool) (depth : Nat) :
    StatementsYield (readEntry resync depth) := by
  intro around segment proper
  cases depth with
  | zero => trivial
  | succ depth =>
      have statement : Production.statementEntry.ReadsNode resync (readEntry resync depth)
          Production.anyNode around segment :=
        Production.readsNode_statement (readEntry_nests resync depth) proper
      unfold Production.ReadsNode at statement
      exact statement

/-! ### Readings without errors -/

/-- No invalid token was read last or is still to be read. -/
structure TokenCursor.IsValid (cursor : TokenCursor) : Prop where
  previous : cursor.previous.kind ≠ .error
  ahead : ∀ stop ∈ cursor.ahead, stop.token.kind ≠ .error

namespace TokenCursor.IsValid

variable {cursor : TokenCursor}

theorem withoutGap (valid : cursor.IsValid) : IsValid { cursor with gap := [] } :=
  ⟨valid.previous, valid.ahead⟩

theorem advance (valid : cursor.IsValid) : cursor.advance.2.IsValid := by
  rcases cursor with ⟨gap, ahead, position, previous, endOfFile⟩
  cases ahead with
  | nil => exact valid
  | cons stop rest =>
      obtain ⟨first, later⟩ := List.forall_mem_cons.mp valid.ahead
      exact ⟨first, later⟩

end TokenCursor.IsValid

namespace Segment

/-- What was reported stays reported, and without invalid tokens there are none later on. -/
structure Follows (earlier later : Segment) : Prop where
  reported : later.reported = [] → earlier.reported = []
  valid : earlier.cursor.IsValid → later.cursor.IsValid

variable {segment inner : Segment}

theorem follows_refl (segment : Segment) : segment.Follows segment := ⟨id, id⟩

theorem Follows.trans {first second third : Segment} (front : first.Follows second)
    (back : second.Follows third) : first.Follows third :=
  ⟨fun none => front.reported (back.reported none), fun valid => back.valid (front.valid valid)⟩

theorem valid_bumpAs (valid : segment.cursor.IsValid) (change : Token → Token) :
    (segment.bumpAs change).cursor.IsValid := by
  rw [cursor_bumpAs]
  split
  · exact valid.withoutGap
  · exact valid.withoutGap.advance

theorem follows_bumpAs (segment : Segment) (change : Token → Token) :
    segment.Follows (segment.bumpAs change) :=
  ⟨fun none => reported_bumpAs segment change ▸ none, fun valid => valid_bumpAs valid change⟩

/-- The same cursor under other children. -/
theorem Follows.onward {later : Segment} (follows : segment.Follows inner)
    (cursor : later.cursor = inner.cursor) (reported : later.reported = [] → inner.reported = []) :
    segment.Follows later :=
  ⟨fun none => follows.reported (reported none), fun valid => cursor ▸ follows.valid valid⟩

theorem follows_apply (around : Surroundings) (segment : Segment) (move : Move) :
    segment.Follows (segment.apply around move) := by
  cases move with
  | bump => exact follows_bumpAs segment id
  | bumpKeyword => exact follows_bumpAs segment (fun token => token.retag .keyword)
  | tag | reinterpretLast | spliceParameters => exact (follows_refl segment).onward rfl id
  | report complaint => exact (follows_refl segment).onward rfl nofun

theorem follows_flush (segment : Segment) : segment.Follows segment.flush.emptied :=
  ⟨id, TokenCursor.IsValid.withoutGap⟩

theorem follows_keeping (resync : Bool)
    (enter : Entry → Surroundings → Segment → Reading Unit) : Keeping resync enter Follows where
  refl := follows_refl
  trans := Follows.trans
  apply around segment move _ := follows_apply around segment move
  after follows := ((follows_flush _).trans follows).onward rfl id
  enclosed _ _ follows := follows.onward rfl id
  token _ _ _ _ := (follows_bumpAs _ id).onward rfl id
  block _ _ _ _ follows := follows.onward rfl id
  quick _ _ _ _ _ follows := follows.onward rfl id
  cleared follows := follows.onward rfl id
  failed _ _ follows := follows.onward rfl nofun

end Segment

/-! ### Statements and their semicolons -/

namespace Child

def needsSemicolon (child : Child) : Bool :=
  child.node?.any (fun node => terminatorOf node.kind == .semicolon)

def isSemicolon (child : Child) : Bool := child.token?.any (fun token => token.kind == .semicolon)

end Child

/-- Whether each statement among the significant children of a node that needs a semicolon stands right
before one. -/
def Node.EndsStatements (node : Node) : Prop :=
  ∀ before statement after, node.significant = before ++ statement :: after →
    statement.needsSemicolon = true →
      ∃ semicolon rest, after = semicolon :: rest ∧ semicolon.isSemicolon = true

/-- Whether each statement that needs a semicolon has one among some children, the latest first. -/
def Ended (latest : List Child) : Prop :=
  ∀ after statement before, latest = after ++ statement :: before →
    statement.needsSemicolon = true →
      ∃ rest semicolon, after = rest ++ [semicolon] ∧ semicolon.isSemicolon = true

namespace Ended

theorem nil : Ended [] := by
  intro after statement before same
  simp at same

theorem append {front earlier : List Child} (ended : Ended front) (before : Ended earlier) :
    Ended (front ++ earlier) := by
  intro after statement others same needs
  rcases List.append_eq_append_iff.mp same with ⟨middle, rfl, rest⟩ | ⟨middle, rfl, rest⟩
  · obtain ⟨earlierRest, semicolon, rfl, found⟩ := before middle statement others rest needs
    exact ⟨front ++ earlierRest, semicolon, (List.append_assoc ..).symm, found⟩
  · cases middle with
    | nil =>
        rw [List.nil_append] at rest
        obtain ⟨others, semicolon, absurd, -⟩ := before [] statement others (by simpa using rest.symm)
          needs
        simp at absurd
    | cons child middle =>
        obtain ⟨rfl, -⟩ := List.cons.inj rest
        exact ended after statement middle rfl needs

theorem token (field : Option Field) (token : Token) : Ended [.leaf field token] := by
  intro after statement before same needs
  cases after with
  | nil =>
      obtain ⟨rfl, -⟩ := List.cons.inj same
      cases needs
  | cons child after => simp at same

theorem selfTerminated {child : Child} (free : child.needsSemicolon = false) : Ended [child] := by
  intro after statement before same needs
  cases after with
  | nil =>
      obtain ⟨rfl, -⟩ := List.cons.inj same
      rw [free] at needs
      cases needs
  | cons other after => simp at same

/-- A statement right before its semicolon. -/
theorem terminated {semicolon child : Child} (found : semicolon.isSemicolon = true) :
    Ended [semicolon, child] := by
  intro after statement before same needs
  match after, same with
  | [], same =>
      obtain ⟨rfl, -⟩ := List.cons.inj same
      cases semicolon with
      | leaf field token => cases needs
      | branch field kind span children => cases found
  | [other], same =>
      obtain ⟨rfl, -⟩ := List.cons.inj same
      exact ⟨[], semicolon, rfl, found⟩
  | first :: second :: rest, same => simp at same

/-- The children of a node, from the first one on. -/
theorem endsStatements {latest : List Child} (ended : Ended (latest.filter Child.isSignificant))
    (kind : NodeKind) (position : Nat) : (Node.build kind latest.reverse position).EndsStatements := by
  intro before statement after same needs
  change latest.reverse.filter Child.isSignificant = _ at same
  rw [List.filter_reverse] at same
  have turned : latest.filter Child.isSignificant = after.reverse ++ statement :: before.reverse := by
    have back := congrArg List.reverse same
    simpa using back
  obtain ⟨rest, semicolon, front, found⟩ := ended _ statement _ turned needs
  refine ⟨semicolon, rest.reverse, ?_, found⟩
  have back := congrArg List.reverse front
  simpa using back

end Ended

namespace Segment

/-- Where nothing is reported, only children that are ended were added. -/
structure Adds (earlier later : Segment) : Prop where
  proper : later.cursor.Proper
  follows : earlier.Follows later
  ended : earlier.cursor.IsValid → later.reported = [] →
    ∃ front, later.significant = front ++ earlier.significant ∧ Ended front

variable {segment later : Segment}

theorem adds_refl (proper : segment.cursor.Proper) : segment.Adds segment :=
  ⟨proper, follows_refl segment, fun _ _ => ⟨[], rfl, .nil⟩⟩

theorem Adds.trans {first second third : Segment} (front : first.Adds second)
    (back : second.Adds third) : first.Adds third := by
  refine ⟨back.proper, front.follows.trans back.follows, fun valid none => ?_⟩
  obtain ⟨earlier, same, before⟩ := front.ended valid (back.follows.reported none)
  obtain ⟨later, further, ended⟩ := back.ended (front.follows.valid valid) none
  exact ⟨later ++ earlier, by rw [further, same, List.append_assoc], ended.append before⟩

theorem significant_bump (proper : segment.cursor.Proper) (more : segment.cursor.isAtEnd = false) :
    segment.bump.significant = .leaf none segment.cursor.current :: segment.significant := by
  have same : (segment.bumpAs id).significant =
      .leaf none (id segment.cursor.current) :: segment.significant :=
    significant_bumpAs proper more id
  exact same

theorem adds_bump (proper : segment.cursor.Proper) (more : segment.cursor.isAtEnd = false) :
    segment.Adds segment.bump := by
  refine ⟨(continues_bump proper).proper proper, follows_bumpAs segment id, fun _ _ => ?_⟩
  exact ⟨_, significant_bump proper more, .token none _⟩

theorem adds_report (proper : segment.cursor.Proper) (around : Surroundings)
    (complaint : Complaint) : segment.Adds (segment.apply around (.report complaint)) :=
  ⟨proper, follows_apply around segment _, fun _ => nofun⟩

/-- The kind of the node that was read last. -/
theorem lastNode_of_significant {node : Node} {earlier : List Child} (around : Surroundings)
    (same : segment.significant = .ofNode none node :: earlier) :
    (segment.view around).lastNode = some node.kind := by
  have found : segment.latest.find? Child.isSignificant = some (.ofNode none node) := by
    rw [← List.head?_filter]
    exact congrArg List.head? same
  change lastKindAfter around.before segment.latest = _
  rw [lastKindAfter, found]
  rfl

end Segment

namespace Production

variable {resync : Bool} {enter : Entry → Surroundings → Segment → Reading Unit}
  {around : Surroundings} {segment : Segment}

def ReadsEnded (resync : Bool) (enter : Entry → Surroundings → Segment → Reading Unit) {α : Type}
    (production : Production α) : Prop :=
  ∀ around segment, segment.cursor.Proper →
    (production.read resync enter around segment).Satisfies (fun _ later => segment.Adds later)
      (fun _ => True)

theorem ReadsEnded.andThen {α β : Type} {first : Production α} {next : α → Production β}
    (front : first.ReadsEnded resync enter)
    (further : ∀ value, (next value).ReadsEnded resync enter) :
    (first >>= next).ReadsEnded resync enter := by
  intro around segment proper
  rw [read_bind]
  refine (front around segment proper).andThen (fun value reached adds => ?_)
  exact (further value around reached adds.proper).weaken (fun _ _ => adds.trans) (fun _ => id)

theorem notEnd_of_isAt {kind : TokenKind} (token : kind ≠ .eof)
    (found : (segment.view around).isAt kind = true) : segment.cursor.isAtEnd = false := by
  have current : segment.cursor.current.kind = kind := eq_of_beq found
  rw [TokenCursor.isAtEnd, current]
  exact beq_false_of_ne token

/-- A token of a kind, or the same place again. -/
theorem reads_eaten {kind : TokenKind} (token : kind ≠ .eof) (around : Surroundings)
    (segment : Segment) :
    ((eat kind).read resync enter around segment).Satisfies
      (fun taken later => if taken then
        segment.cursor.isAtEnd = false ∧ segment.cursor.current.kind = kind ∧ later = segment.bump
        else later = segment)
      (fun _ => False) := by
  unfold eat check
  rw [read_bind, read_look]
  simp only [Reading.andThen]
  cases found : (segment.view around).isAt kind with
  | false => exact rfl
  | true => exact ⟨notEnd_of_isAt token found, eq_of_beq found, rfl⟩

theorem readsEnded_eat {kind : TokenKind} (token : kind ≠ .eof) :
    (eat kind).ReadsEnded resync enter := by
  intro around segment proper
  refine (reads_eaten token around segment).weaken ?_ (fun _ => False.elim)
  intro taken later eaten
  cases taken with
  | false =>
      obtain rfl : later = segment := eaten
      exact Segment.adds_refl proper
  | true =>
      obtain ⟨more, -, rfl⟩ := eaten
      exact Segment.adds_bump proper more

theorem readsEnded_expect {kind : TokenKind} (token : kind ≠ .eof) :
    (expect kind).ReadsEnded resync enter := by
  refine (readsEnded_eat token).andThen (fun taken around segment proper => ?_)
  cases taken with
  | true => exact Segment.adds_refl proper
  | false => trivial

theorem readsEnded_closeBrace : closeBrace.ReadsEnded resync enter := by
  refine (readsEnded_eat (by decide)).andThen (fun taken around segment proper => ?_)
  cases taken with
  | true => exact Segment.adds_refl proper
  | false => exact Segment.adds_report proper around _

theorem readsEnded_asLongAs {condition : View → Bool} {body : Production Unit}
    (inner : body.ReadsEnded resync enter) :
    (asLongAs condition body).ReadsEnded resync enter := by
  intro around segment proper
  unfold asLongAs
  rw [read_repeatedly]
  refine Reading.satisfies_iterate_of_kept (Segment.adds_refl proper) ?_ _
  intro later adds
  rw [read_bind, read_look]
  simp only [Reading.andThen]
  split
  · rw [read_bind]
    exact (inner around later adds.proper).andThen (fun _ last further => adds.trans further)
  · exact adds

/-- The terminator after a statement that was just read. -/
theorem reads_terminator {node : Node} {earlier : List Child} (proper : segment.cursor.Proper)
    (same : segment.significant = .ofNode none node :: earlier) :
    ((terminator node.kind).read resync enter around segment).Satisfies
      (fun _ later => later.cursor.Proper ∧ segment.Follows later ∧
        (segment.cursor.IsValid → later.reported = [] →
          ∃ front, later.significant = front ++ earlier ∧ Ended front))
      (fun _ => True) := by
  unfold terminator
  cases ending : terminatorOf node.kind with
  | selfTerminated =>
      refine ⟨proper, Segment.follows_refl segment, fun _ _ => ⟨[.ofNode none node], same, ?_⟩⟩
      refine Ended.selfTerminated ?_
      simp [Child.needsSemicolon, ending]
  | semicolon =>
      rw [read_bind]
      refine ((reads_eaten (by decide) around segment).weaken (fun _ _ => id)
        (fun _ => False.elim)).andThen ?_
      intro taken later eaten
      cases taken with
      | true =>
          obtain ⟨more, kind, rfl⟩ := eaten
          have adds := Segment.adds_bump proper more
          refine ⟨adds.proper, adds.follows, fun _ _ => ?_⟩
          refine ⟨[.leaf none segment.cursor.current, .ofNode none node], ?_, .terminated ?_⟩
          · rw [Segment.significant_bump proper more, same]
            rfl
          · simp [Child.isSemicolon, Child.token?, kind]
      | false =>
          obtain rfl : later = segment := eaten
          have previous : later.cursor.IsValid →
              ((later.view around).previous != TokenKind.error) = true :=
            fun valid => bne_iff_ne.mpr valid.previous
          change ((onlyIf _ _).read resync enter around later).Satisfies _ _
          unfold onlyIf
          rw [read_bind, read_look]
          simp only [Reading.andThen]
          split
          · exact ⟨proper, Segment.follows_apply around later _, fun _ absurd => by cases absurd⟩
          · next accepted =>
              exact ⟨proper, Segment.follows_refl later, fun valid =>
                (accepted (previous valid)).elim⟩

/-- A statement with its semicolon. -/
theorem readsEnded_substatement (entries : EntriesKeep Segment.Follows enter)
    (statements : StatementsYield enter) : (substatement none).ReadsEnded resync enter := by
  refine (readsEnded_eat (by decide)).andThen (fun taken around segment proper => ?_)
  cases taken with
  | true => exact Segment.adds_refl proper
  | false =>
      change ((Production.enter .statement >>= fun _ => look (·.lastNode) >>= fun kind => _).read
        resync enter around segment).Satisfies _ _
      rw [read_bind, read_enter]
      have kept := (entries .statement around segment proper).and
        (statements around segment proper)
      refine (kept.weaken (fun _ _ => id) (fun _ _ => trivial)).andThen ?_
      rintro _ later ⟨⟨laterProper, follows⟩, node, same, -⟩
      rw [read_bind, read_look]
      simp only [Reading.andThen, Segment.lastNode_of_significant around same]
      refine (reads_terminator laterProper same).weaken ?_ (fun _ => id)
      rintro _ last ⟨lastProper, further, ended⟩
      exact ⟨lastProper, follows.trans further, fun valid none => ended (follows.valid valid) none⟩

theorem readsEnded_listedStatement (entries : EntriesKeep Segment.Follows enter)
    (statements : StatementsYield enter) : listedStatement.ReadsEnded resync enter := by
  refine (readsEnded_eat (by decide)).andThen (fun taken around segment proper => ?_)
  cases taken with
  | true => exact Segment.adds_refl proper
  | false =>
      have kept : ((guarded (substatement none)).read resync enter around segment).Satisfies _ _ :=
        Canonical.reads (Segment.follows_keeping resync enter) entries
          (fun _ => canonical_substatement none) proper
      have ends : (substatement none).ReadsEnded resync enter :=
        readsEnded_substatement entries statements
      have inside := ends (segment.flush.following around) segment.flush.emptied
        (proper_emptied proper)
      change ((guarded (substatement none)).read resync enter around segment).Satisfies _ _
      rw [read_guarded] at kept ⊢
      split at kept
      · next inner same =>
          rw [same] at inside
          refine ⟨kept.1, kept.2, fun valid none => ?_⟩
          obtain ⟨front, added, ended⟩ := inside.ended valid.withoutGap none
          refine ⟨front, ?_, ended⟩
          rw [Segment.significant_after, added, Segment.significant_flush proper]
          simp [Segment.significant, Segment.emptied]
      · next error inner same =>
          exact ⟨kept.1, kept.2, fun _ none =>
            absurd none (Segment.reported_recover inner resync (segment.flush.atMark around) _ error)⟩

theorem ReadsEnded.within {α : Type} {body : Production α} (inner : body.ReadsEnded resync enter)
    (change : Context → Context) : (within change body).ReadsEnded resync enter :=
  fun _ segment proper => inner _ segment proper

theorem ReadsEnded.opened {α : Type} {body : Production α} (inner : body.ReadsEnded resync enter) :
    (opened body).ReadsEnded resync enter :=
  fun _ segment proper => inner _ segment proper

theorem readsEnded_bracedStatements (entries : EntriesKeep Segment.Follows enter)
    (statements : StatementsYield enter) : bracedStatements.ReadsEnded resync enter := by
  refine ReadsEnded.opened ((readsEnded_expect (by decide)).andThen (fun _ => ?_))
  refine ReadsEnded.andThen (ReadsEnded.within ?_ _) (fun _ => readsEnded_closeBrace)
  exact readsEnded_asLongAs (readsEnded_listedStatement entries statements)

end Production

/-! ### Blocks -/

/-- Whether a node below the root is in order: it is no root, and if it is a block, it has a semicolon
after each statement that needs one. -/
def Node.EndsBlock (node : Node) : Prop :=
  node.kind ≠ .sourceFile ∧ (node.kind = .block → node.EndsStatements)

theorem endsBlock_of_incidental (node : Node) (incidental : node.kind.isIncidental = true) :
    node.EndsBlock := by
  constructor <;> intro same <;> rw [same] at incidental <;> cases incidental

theorem endsBlock_of_common {node : Node} (common : node.kind.isCommon = true) :
    node.EndsBlock := by
  constructor <;> intro same <;> rw [same] at common <;> cases common

namespace Segment

def EndsBlocks (segment : Segment) : Prop :=
  ∀ child ∈ segment.latest, child.Throughout Node.EndsBlock

/-- Where nothing is reported, only blocks with their semicolons were added. -/
structure Completes (earlier later : Segment) : Prop where
  follows : earlier.Follows later
  blocks : earlier.cursor.IsValid → later.reported = [] → earlier.EndsBlocks → later.EndsBlocks

theorem completes_keeping {resync : Bool}
    {enter : Entry → Surroundings → Segment → Reading Unit}
    (entries : EntriesKeep Follows enter) (statements : StatementsYield enter) :
    Keeping resync enter Completes where
  refl segment := ⟨follows_refl segment, fun _ _ => id⟩
  trans front back := ⟨front.follows.trans back.follows, fun valid none blocks =>
    back.blocks (front.follows.valid valid) none
      (front.blocks valid (back.follows.reported none) blocks)⟩
  apply around segment move _ :=
    ⟨follows_apply around segment move, fun _ _ blocks =>
      Throughout.apply endsBlock_of_incidental blocks around move⟩
  after := by
    intro segment inner completes
    refine ⟨((follows_flush segment).trans completes.follows).onward rfl id, ?_⟩
    intro valid none blocks
    have added := completes.blocks valid.withoutGap none (fun _ member => by cases member)
    exact Throughout.after added (Throughout.flush endsBlock_of_incidental blocks)
  enclosed position common completes :=
    ⟨completes.follows.onward rfl id, fun valid none blocks =>
      Throughout.enclosed (completes.blocks valid none blocks) position
        (endsBlock_of_common common)⟩
  token := by
    intro segment position proper invalid _
    refine ⟨(follows_bumpAs segment id).onward rfl id, fun valid _ _ => ?_⟩
    have more : segment.cursor.isAtEnd = false := by
      rw [TokenCursor.isAtEnd, invalid]
      rfl
    obtain ⟨stop, rest, ahead, -⟩ := proper.advance_eq more
    have current : segment.cursor.current = stop.token := by
      simp [TokenCursor.current, TokenCursor.peek, ahead]
    exact (valid.ahead stop (by simp [ahead]) (current ▸ invalid)).elim
  block := by
    intro around segment inner position proper none done completes
    refine ⟨completes.follows.onward rfl id, fun valid silent blocks => ?_⟩
    have ends : Production.bracedStatements.ReadsEnded resync enter :=
      Production.readsEnded_bracedStatements entries statements
    have adds := ends around segment proper
    rw [done] at adds
    obtain ⟨front, same, ended⟩ := adds.ended valid silent
    have empty : segment.significant = [] := by
      unfold significant
      rw [none]
      rfl
    rw [empty, List.append_nil] at same
    rw [← same] at ended
    exact Throughout.enclosed (completes.blocks valid silent blocks) position
      ⟨(fun absurd => by cases absurd), fun _ => ended.endsStatements .block position⟩
  quick position _ _ _ _ completes :=
    ⟨completes.follows.onward rfl id, fun valid none blocks =>
      Throughout.enclosed (completes.blocks valid none blocks) position ⟨nofun, nofun⟩⟩
  cleared completes :=
    ⟨completes.follows.onward rfl id, fun valid none blocks =>
      Throughout.cleared (completes.blocks valid none blocks)⟩
  failed position error completes := ⟨completes.follows.onward rfl (fun absurd => by cases absurd),
    fun _ absurd => by cases absurd⟩

end Segment

/-! ### Sources without errors -/

/-- Without lexical errors, no token of a source is invalid. -/
theorem initial_valid {source : List Char} (silent : (lex source).errors = []) :
    (Segment.initial (utf8Length source) (lex source).tokens).cursor.IsValid := by
  refine ⟨nofun, fun stop member invalid => ?_⟩
  have counted := lex_reports_invalid source
  rw [silent, List.length_nil, Nat.le_zero, List.countP_eq_zero] at counted
  have inside : stop.token ∈ contentTokens source := by
    rw [← initial_tokens]
    refine List.mem_append_right _ (List.mem_append_right _ (List.mem_flatMap.mpr ⟨stop, member, ?_⟩))
    exact List.mem_cons_self
  exact counted stop.token inside (beq_iff_eq.mpr invalid)

/-- What is read of a source without errors. -/
theorem readSource_ends {resync : Bool} {source : List Char} (lexical : (lex source).errors = [])
    (silent : (readSource resync source).reported = []) :
    (readSource resync source).EndsBlocks ∧ Ended (readSource resync source).significant := by
  obtain ⟨last, done, -, -⟩ := sourceReading_done resync source
  have kept (depth : Nat) : EntriesKeep Segment.Follows (readEntry resync depth) :=
    readEntry_keeps (fun depth => Segment.follows_keeping resync (readEntry resync depth)) depth
  have completes : Segment.Completes _ last :=
    sourceReading_keeps (fun depth => Segment.completes_keeping (kept depth)
      (readEntry_statements resync depth)) source done
  have start := TokenCursor.ofTokens_proper (utf8Length source) (lex source).tokens
  have ends : Production.sourceFile.ReadsEnded resync (readEntry resync (nestingOf source)) :=
    Production.readsEnded_asLongAs (Production.readsEnded_listedStatement (kept (nestingOf source))
      (readEntry_statements resync (nestingOf source)))
  have adds : (sourceReading resync source).Satisfies _ _ :=
    ends .outermost (.initial (utf8Length source) (lex source).tokens) start
  rw [done] at adds
  have valid := initial_valid lexical
  have same : readSource resync source = last.flush := by
    unfold readSource
    rw [done]
  rw [same] at silent ⊢
  constructor
  · exact Segment.Throughout.flush endsBlock_of_incidental (completes.blocks valid silent nofun)
  · rw [Segment.significant_flush adds.proper]
    obtain ⟨front, all, ended⟩ := adds.ended valid silent
    have none : (Segment.initial (utf8Length source) (lex source).tokens).significant = [] := rfl
    rw [none, List.append_nil] at all
    exact all ▸ ended

/-- Where a source is parsed without any error, each statement of a block or of the whole source that
needs a semicolon stands right before one, but for extras. -/
theorem parse_ends_statements (options : ParseOptions) (source : List Char)
    (silent : (parse options source).errors = []) :
    ∀ node ∈ (parse options source).tree.preorder,
      node.kind = .block ∨ node.kind = .sourceFile → node.EndsStatements := by
  obtain ⟨lexical, reported⟩ := silent_of_errors silent
  obtain ⟨blocks, ended⟩ := readSource_ends lexical reported
  have whole := ended.endsStatements .sourceFile 0
  rw [parse_tree]
  intro node member lists
  rcases List.mem_cons.mp member with rfl | below
  · exact whole
  · obtain ⟨child, inside, within⟩ := (Child.mem_preorderOfList _).mp below
    have held := blocks child (List.mem_reverse.mp inside) node within
    exact lists.elim held.2 (fun root => (held.1 root).elim)

/-- A block with statements that need semicolons. -/
theorem parse_ends_statements_of_block :
    (parse {} "{ return 1; }".toList).errors = [] ∧
      ∀ node ∈ (parse {} "{ return 1; }".toList).tree.preorder,
        node.kind = .block ∨ node.kind = .sourceFile → node.EndsStatements := by
  have silent : (parse {} "{ return 1; }".toList).errors = [] := by decide +kernel
  exact ⟨silent, parse_ends_statements {} "{ return 1; }".toList silent⟩

end JaiSyntax
