import JaiSyntax.Proofs.Production.Placement
/-!
Where a type is asked for, no expression stands. The fields under which nodes record types hold what
the entry for types reads, and that has none of the kinds that only an expression has, however types
and expressions are nested in each other.
-/

set_option autoImplicit false

namespace JaiSyntax

open Production

/-- Entries place types, however deep they are nested. -/
theorem readEntry_places (resync : Bool) (depth : Nat) :
    EntriesPlace (readEntry resync depth) := by
  induction depth with
  | zero => exact ⟨fun _ _ _ _ place => place.unasked, fun _ _ _ _ => trivial⟩
  | succ depth ih =>
      constructor
      · intro strict entry around segment place
        exact (places_ofEntry entry).keeps resync _ ih around segment place
      · -- Outside of a type the entry may read a procedure, so its kind is known only inside of one.
        intro around segment proper inside
        have type : typeEntry.ReadsNode resync (readEntry resync depth)
            (fun _ node => node.kind.isValue = false) around segment :=
          (readsNode_type proper).weaken (fun _ _ type => type.notValue inside)
        unfold ReadsNode at type
        exact type

/-- What is read of a source is in its place. -/
theorem readSource_places (resync : Bool) (source : List Char) (strict : Bool) :
    (readSource resync source).InPlace (Field.isForTypes strict) := by
  have start : (Segment.initial (utf8Length source) (lex source).tokens).InPlace
      (Field.isForTypes strict) :=
    ⟨TokenCursor.ofTokens_proper _ _, fun child member => by cases member⟩
  have kept : (sourceReading resync source).Satisfies _ _ :=
    places_sourceFile.keeps resync _ (readEntry_places resync (nestingOf source)) .outermost _ start
  obtain ⟨last, same, -, -⟩ := sourceReading_done resync source
  rw [same] at kept
  have place : last.InPlace (Field.isForTypes strict) := kept
  unfold readSource
  rw [same]
  exact place.flush

/-- Every node of a source keeps what it records as types free of expressions. -/
theorem keepsTypes_parse (options : ParseOptions) (source : List Char) :
    ∀ node ∈ (parse options source).tree.preorder, node.KeepsTypes := by
  have place := readSource_places options.resyncOnDeclaration source NodeKind.sourceFile.isTyped
  have root : Segment.InPlace (Field.isForTypes false) _ := place.enclosed 0
  rw [parse_tree]
  exact (root.children _ (List.mem_singleton_self _)).below

/-- In the tree of any source, a node that is recorded as a type, under the field of a node that is for
types, has none of the kinds that only an expression has. -/
theorem parse_types_are_no_expressions (options : ParseOptions) (source : List Char) :
    ∀ node ∈ (parse options source).tree.preorder, ∀ field ∈ node.kind.typeFields,
      ∀ child ∈ node.childrenUnder field, ∀ inner, child.node? = some inner →
        inner.kind.isValue = false := by
  intro node member field recorded child under inner same
  obtain ⟨listed, labelled⟩ := List.mem_filter.mp under
  refine keepsTypes_parse options source node member child listed field inner ?_ ?_ same
  · exact beq_iff_eq.mp labelled
  · exact List.contains_iff_mem.mpr recorded

/-- The result of a procedure type that is spelled like a call of a member. -/
theorem parse_types_are_no_expressions_result :
    ∃ node ∈ (parse {} "f: (a: *int) -> A.B(4) = g;".toList).tree.preorder,
      node.kind = .procedureType ∧ .result ∈ node.kind.typeFields ∧
        ∃ child ∈ node.childrenUnder .result, ∃ inner, child.node? = some inner ∧
          inner.kind.isValue = false := by
  have found : ∃ node ∈ (parse {} "f: (a: *int) -> A.B(4) = g;".toList).tree.preorder,
      node.kind = .procedureType ∧ .result ∈ node.kind.typeFields ∧
        ∃ child ∈ node.childrenUnder .result, child.node?.isSome = true := by
    decide +kernel
  obtain ⟨node, member, kind, recorded, child, under, some⟩ := found
  obtain ⟨inner, same⟩ := Option.isSome_iff_exists.mp some
  exact ⟨node, member, kind, recorded, child, under, inner, same,
    parse_types_are_no_expressions {} _ node member .result recorded child under inner same⟩

end JaiSyntax
