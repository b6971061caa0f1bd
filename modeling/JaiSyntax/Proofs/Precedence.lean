import JaiSyntax.Proofs.Operators.Climbing
/-!
Operators nest by precedence in every tree, well-formed or not, except where the left operand of a
binary expression ends with a closed construct: the loop that read its last operand stops there, and a
tighter operator that follows is left to the loop around it.
-/

set_option autoImplicit false

namespace JaiSyntax

/-- The operands of all that is read of a source nest, up to left operands that end closed. -/
theorem readSource_nests (resync : Bool) (source : List Char) :
    ∀ child ∈ (readSource resync source).latest, child.Throughout Node.NestsOpenly := by
  have nests := readEntry_nests resync (nestingOf source)
  let start := Segment.initial (utf8Length source) (lex source).tokens
  have proper : start.cursor.Proper := TokenCursor.ofTokens_proper _ _
  have orderly : Production.sourceFile.Orderly (fun kind => kind.isPlain = true) false
      (fun _ _ => True) (Place.mk (start.view .outermost) .nothing) :=
    Production.sourceFile_orderly _
  have grows := orderly.grows nestsOpenly_of_plain nests.cover nests.grow resync nofun
    (Production.describes_start start _) proper (Segment.grows_refl start)
  have ended : ∀ last : Segment, last.Grows Node.NestsOpenly start.latest false →
      ∀ child ∈ last.flush.latest, child.Throughout Node.NestsOpenly := by
    intro last grown child member
    obtain ⟨added, same, all, -⟩ := grown.flush nestsOpenly_of_plain
    rw [same, show start.latest = [] from rfl, List.append_nil] at member
    exact all child member
  unfold readSource sourceReading
  change (Production.sourceFile.read resync (readEntry resync (nestingOf source)) .outermost
    start).Satisfies _ _ at grows
  split
  · next last same =>
      rw [same] at grows
      obtain ⟨-, reached, -, grown, -⟩ := grows
      exact ended last grown.uncovered
  · next error last same =>
      rw [same] at grows
      exact ended last grows.2

/-- In every tree the operands of operators nest by precedence, except that the left operand of a
binary expression may bind looser where it ends with a closed construct; so a tree respects the
precedences if and only if that happens nowhere in it. -/
theorem parse_respects_precedence_iff (options : ParseOptions) (source : List Char) :
    (∀ node ∈ (parse options source).tree.preorder,
        node.Nests (fun child => child.endsClosed = true)) ∧
      ((∀ node ∈ (parse options source).tree.preorder, node.RespectsPrecedence) ↔
        ∀ node ∈ (parse options source).tree.preorder, ¬ node.Regroups) := by
  have nests : ∀ node ∈ (parse options source).tree.preorder, node.NestsOpenly := by
    rw [parse_tree]
    intro node member
    rcases List.mem_cons.mp member with rfl | inside
    · exact nestsOpenly_of_plain _ rfl
    · obtain ⟨child, among, below⟩ := (Child.mem_preorderOfList _).mp inside
      exact readSource_nests options.resyncOnDeclaration source child (List.mem_reverse.mp among)
        node below
  refine ⟨nests, ⟨fun all node member => ?_, fun none node member => ?_⟩⟩
  · exact (Node.respects_iff (nests node member)).mp (all node member)
  · exact (Node.respects_iff (nests node member)).mpr (none node member)

/-- A struct on the right of a sum takes no product, so the sum around it does. -/
theorem parse_regroups_after_struct :
    ∃ node ∈ (parse {} "x := a + struct {} * w;".toList).tree.preorder,
      ¬ node.RespectsPrecedence := by
  have found : ∃ node ∈ (parse {} "x := a + struct {} * w;".toList).tree.preorder,
      node.precedence? = some Prec.multiply ∧
        node.significant.head?.bind Child.precedence? = some Prec.add := by decide +kernel
  obtain ⟨node, member, product, sum⟩ := found
  exact ⟨node, member, fun respects => absurd (respects.left_binds product sum) (by decide)⟩

end JaiSyntax
