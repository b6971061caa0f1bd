import JaiSyntax.Proofs.Type.Term
/-!
The two readings of a type. What is read in the place of a value and turned into types afterwards is
the type itself, except for pointers among the arguments of a type: they stay addresses.
-/

set_option autoImplicit false

namespace JaiSyntax

/-! ### Reading skeletons as types -/

namespace Skeleton

variable {select : Option Field → Option (Option Field)} {field other newField : Option Field}
  {kind : NodeKind} {children rest : List Skeleton}

def IsNode (skeleton : Skeleton) : Prop :=
  ∃ kind children, skeleton = .branch none kind children

theorem withField_reinterpretAs (skeleton : Skeleton) :
    (skeleton.reinterpretAs field).withField other = skeleton.reinterpretAs other := by
  cases skeleton with
  | leaf _ _ _ => rfl
  | branch _ kind _ =>
      simp only [reinterpretAs]
      cases typeReading? kind <;> rfl

theorem IsNode.withField_none {skeleton : Skeleton} (isNode : skeleton.IsNode) :
    skeleton.withField none = skeleton := by
  obtain ⟨kind, children, rfl⟩ := isNode
  rfl

theorem IsNode.asParameter {skeleton : Skeleton} (isNode : skeleton.IsNode) :
    skeleton.asParameter = skeleton.reinterpretAs (some .parameters) := by
  obtain ⟨kind, children, rfl⟩ := isNode
  rfl

theorem IsNode.reinterpreted {skeleton : Skeleton} (isNode : skeleton.IsNode) :
    skeleton.reinterpreted = skeleton.reinterpretAs none := by
  obtain ⟨kind, children, rfl⟩ := isNode
  rfl

/-- Under another field a node is reinterpreted if the field is picked. -/
theorem IsNode.reinterpretAll {skeleton : Skeleton} (isNode : skeleton.IsNode)
    (picked : select field = some newField) :
    reinterpretAll select (skeleton.withField field :: rest) =
      skeleton.reinterpretAs newField :: reinterpretAll select rest := by
  obtain ⟨kind, children, rfl⟩ := isNode
  rw [withField, Skeleton.reinterpretAll, picked, reinterpretAs]

/-- Nothing changes where no field is picked. -/
theorem reinterpretAll_id {skeletons : List Skeleton}
    (unpicked : ∀ field kind children, Skeleton.branch field kind children ∈ skeletons →
      select field = none) :
    reinterpretAll select skeletons = skeletons := by
  induction skeletons with
  | nil => rw [reinterpretAll]
  | cons skeleton rest ih =>
      have later := ih (fun field kind children member =>
        unpicked field kind children (List.mem_cons_of_mem _ member))
      cases skeleton with
      | leaf field kind text => rw [reinterpretAll, later]
      | branch field kind children =>
          rw [reinterpretAll, unpicked field kind children List.mem_cons_self, later]

end Skeleton

namespace Path

theorem term_isNode (path : Path) : path.term.skeleton.IsNode := by
  cases path <;> exact ⟨_, _, rfl⟩

/-- A path is read as the type that it names. -/
theorem reinterpretAs_term (path : Path) (field : Option Field) :
    path.term.skeleton.reinterpretAs field = path.skeleton.withField field := by
  induction path generalizing field with
  | name name => rfl
  | member object member ih =>
      have inside : (Term.member object.term member).skeleton.reinterpretAs field =
          .branch field .qualifiedType (Skeleton.reinterpretAll
            (fun field => if field == some .object then some field else none)
            (object.term.skeleton.withField (some .object) ::
              [(SourceWord.fixed .dot).leaf none, member.word.leaf (some .member)])) := rfl
      have leaves : Skeleton.reinterpretAll
          (fun field => if field == some .object then some field else none)
          [(SourceWord.fixed .dot).leaf none, member.word.leaf (some .member)] =
          [(SourceWord.fixed .dot).leaf none, member.word.leaf (some .member)] := by
        simp only [SourceWord.leaf, Skeleton.reinterpretAll]
      rw [Path.term, inside, object.term_isNode.reinterpretAll (if_pos rfl), leaves, ih]
      rfl

end Path

/-! ### Types that read alike -/

def TypeArguments.HavePointer : TypeArguments → Prop
  | .none => False
  | .integer _ rest => rest.HavePointer
  | .type argument rest => argument.IsPointer ∨ rest.HavePointer

mutual

/-- Whether the value reading of a type, once it is turned into types, is the type. -/
def TypeTerm.ReadsAlike : TypeTerm → Prop
  | .builtin _ => True
  | .path _ => True
  | .applied _ arguments => ¬ arguments.HavePointer
  | .pointer target => target.ReadsAlike
  | .array _ _ => True
  | .polymorphic _ => True
  | .procedure parameters _ => parameters.ReadAlike

def TypeTerms.ReadAlike : TypeTerms → Prop
  | .none => True
  | .cons first .none => first.ReadsAlike
  | .cons _ (.cons _ _) => True

end

theorem TypeTerm.skeleton_isNode (term : TypeTerm) : term.skeleton.IsNode := by
  cases term with
  | path path => cases path <;> exact ⟨_, _, rfl⟩
  | _ => exact ⟨_, _, rfl⟩

theorem TypeTerm.asValue_isNode (term : TypeTerm) : term.asValue.IsNode := by
  cases term with
  | path path => exact path.term_isNode
  | _ => exact ⟨_, _, rfl⟩

/-- The arguments of a type are recorded as arguments. -/
theorem TypeArguments.asValues_fields (arguments : TypeArguments) {field : Option Field}
    {kind : NodeKind} {children : List Skeleton}
    (member : Skeleton.branch field kind children ∈ arguments.asValues) :
    field = some .argument := by
  have item {skeleton : Skeleton}
      (same : Skeleton.branch field kind children = skeleton.withField (some .argument)) :
      field = some .argument := by
    cases skeleton with
    | leaf _ _ _ => cases same
    | branch _ _ _ =>
        cases same
        rfl
  have separator {words : List SourceWord}
      (among : Skeleton.branch field kind children ∈ words.map (SourceWord.leaf · Option.none)) :
      field = some .argument := by
    obtain ⟨word, -, same⟩ := List.mem_map.mp among
    cases same
  cases arguments with
  | none => cases member
  | integer value rest =>
      rcases List.mem_cons.mp member with same | later
      · exact item same
      · rcases List.mem_append.mp later with among | among
        · exact separator among
        · exact rest.asValues_fields among
  | type argument rest =>
      rcases List.mem_cons.mp member with same | later
      · exact item same
      · rcases List.mem_append.mp later with among | among
        · exact separator among
        · exact rest.asValues_fields among

/-- The arguments of a call are those of a type if there is no pointer among them. -/
theorem TypeArguments.asValues_eq_iff (arguments : TypeArguments) :
    arguments.asValues = arguments.skeletons ↔ ¬ arguments.HavePointer := by
  cases arguments with
  | none => exact ⟨fun _ => id, fun _ => rfl⟩
  | integer value rest =>
      rw [asValues, skeletons, List.cons_inj_right, List.append_cancel_left_eq,
        rest.asValues_eq_iff, HavePointer]
  | type argument rest =>
      rw [asValues, skeletons, List.cons_eq_cons, List.append_cancel_left_eq,
        rest.asValues_eq_iff, HavePointer, not_or]
      refine and_congr_left fun _ => ?_
      by_cases pointer : argument.IsPointer
      · rw [if_pos pointer]
        refine iff_of_false (fun same => ?_) (not_not_intro pointer)
        cases argument with
        | pointer target => cases same
        | _ => exact pointer
      · rw [if_neg pointer]
        exact iff_of_true rfl pointer

mutual

/-- The value reading of a type is turned into the type just if no pointers are left as addresses. -/
theorem TypeTerm.reinterpretAs_iff (term : TypeTerm) (field : Option Field) :
    term.asValue.reinterpretAs field = term.skeleton.withField field ↔ term.ReadsAlike := by
  cases term with
  | builtin builtin => exact iff_of_true rfl trivial
  | path path => exact iff_of_true (path.reinterpretAs_term field) trivial
  | applied path arguments =>
      have inside : (TypeTerm.applied path arguments).asValue.reinterpretAs field =
          .branch field .parameterizedStructType (Skeleton.reinterpretAll
            (fun field => if field == some .function then some (some .type) else none)
            (path.term.skeleton.withField (some .function) ::
              (SourceWord.fixed .lParen).leaf none ::
                (arguments.asValues ++ [(SourceWord.fixed .rParen).leaf none]))) := rfl
      have same : Skeleton.reinterpretAll
          (fun field => if field == some .function then some (some .type) else none)
          ((SourceWord.fixed .lParen).leaf none ::
            (arguments.asValues ++ [(SourceWord.fixed .rParen).leaf none])) =
          (SourceWord.fixed .lParen).leaf none ::
            (arguments.asValues ++ [(SourceWord.fixed .rParen).leaf none]) := by
        refine Skeleton.reinterpretAll_id (fun field kind children member => ?_)
        rcases List.mem_cons.mp member with same | later
        · cases same
        · rcases List.mem_append.mp later with among | among
          · rw [arguments.asValues_fields among]
            rfl
          · cases List.mem_singleton.mp among
      rw [inside, path.term_isNode.reinterpretAll (if_pos rfl), same, path.reinterpretAs_term,
        TypeTerm.ReadsAlike, ← arguments.asValues_eq_iff]
      simp [TypeTerm.skeleton, Skeleton.withField]
  | pointer target =>
      have inside : (TypeTerm.pointer target).asValue.reinterpretAs field =
          .branch field .pointerType (Skeleton.reinterpretAll some
            [(SourceWord.fixed .star).leaf none, target.asValue]) := rfl
      have read : Skeleton.reinterpretAll some [target.asValue.withField none] =
          [target.asValue.reinterpretAs none] := by
        rw [target.asValue_isNode.reinterpretAll rfl, Skeleton.reinterpretAll]
      rw [target.asValue_isNode.withField_none] at read
      rw [inside, SourceWord.leaf, Skeleton.reinterpretAll, read, TypeTerm.ReadsAlike,
        ← target.reinterpretAs_iff none, target.skeleton_isNode.withField_none]
      simp [TypeTerm.skeleton, Skeleton.withField, SourceWord.leaf]
  | array size element => exact iff_of_true rfl trivial
  | polymorphic name => exact iff_of_true rfl trivial
  | procedure parameters result =>
      have inside : (TypeTerm.procedure parameters result).asValue.reinterpretAs field =
          (TypeTerm.procedure parameters result).asValue.withField field := rfl
      rw [inside, TypeTerm.ReadsAlike, ← parameters.asValues_iff]
      simp [TypeTerm.skeleton, TypeTerm.asValue, Skeleton.withField]

theorem TypeTerms.asValues_iff (terms : TypeTerms) :
    terms.asValues = terms.skeletons ↔ terms.ReadAlike := by
  match terms with
  | .none => exact iff_of_true rfl trivial
  | .cons first .none =>
      rw [TypeTerms.ReadAlike, ← first.reinterpretAs_iff (some .parameters),
        ← first.asValue_isNode.asParameter]
      exact ⟨fun same => (List.cons.inj same).1, fun same => congrArg (fun skeleton => [skeleton]) same⟩
  | .cons first (.cons second rest) => exact iff_of_true rfl trivial

end

/-! ### Types of one kind of part -/

mutual

def TypeTerm.IsPlain : TypeTerm → Prop
  | .builtin _ => True
  | .path _ => True
  | .applied _ _ => False
  | .pointer target => target.IsPlain
  | .array _ element => element.IsPlain
  | .polymorphic _ => True
  | .procedure parameters result => parameters.ArePlain ∧ result.IsPlain

def TypeTerms.ArePlain : TypeTerms → Prop
  | .none => True
  | .cons first rest => first.IsPlain ∧ rest.ArePlain

end

mutual

def TypeTerm.IsData : TypeTerm → Prop
  | .builtin _ => True
  | .path _ => True
  | .applied _ arguments => arguments.AreData
  | .pointer target => target.IsData
  | .array _ element => element.IsData
  | .polymorphic _ => True
  | .procedure _ _ => False

def TypeArguments.AreData : TypeArguments → Prop
  | .none => True
  | .integer _ rest => rest.AreData
  | .type argument rest => argument.IsData ∧ rest.AreData

end

mutual

theorem TypeTerm.IsPlain.reads {term : TypeTerm} (plain : term.IsPlain) : term.Reads := by
  cases term with
  | pointer target =>
      have inside : target.IsPlain := plain
      exact inside.reads
  | array size element =>
      have inside : element.IsPlain := plain
      exact inside.reads
  | procedure parameters result => exact ⟨plain.1.read, plain.2.reads⟩
  | applied path arguments => exact plain.elim
  | _ => exact trivial

theorem TypeTerms.ArePlain.read {terms : TypeTerms} (plain : terms.ArePlain) : terms.Reads := by
  cases terms with
  | none => exact trivial
  | cons first rest => exact ⟨plain.1.reads, plain.2.read⟩

end

mutual

/-- Without the arguments of types the two readings of a type are alike. -/
theorem TypeTerm.IsPlain.alike {term : TypeTerm} (plain : term.IsPlain) : term.ReadsAlike := by
  cases term with
  | pointer target =>
      have inside : target.IsPlain := plain
      exact inside.alike
  | procedure parameters result => exact plain.1.alike
  | applied path arguments => exact plain.elim
  | _ => exact trivial

theorem TypeTerms.ArePlain.alike {terms : TypeTerms} (plain : terms.ArePlain) :
    terms.ReadAlike := by
  match terms, plain with
  | .none, _ => exact trivial
  | .cons first .none, plain => exact plain.1.alike
  | .cons first (.cons second rest), _ => exact trivial

end

mutual

/-- Without procedure types a type is read in both places. -/
theorem TypeTerm.IsData.reads {term : TypeTerm} (data : term.IsData) :
    term.Reads ∧ term.ReadsAsValue := by
  cases term with
  | applied path arguments =>
      have inside : arguments.AreData := data
      exact inside.read
  | pointer target =>
      have inside : target.IsData := data
      exact inside.reads
  | array size element =>
      have inside : element.IsData := data
      exact ⟨inside.reads.1, inside.reads.1⟩
  | procedure parameters result => exact data.elim
  | _ => exact ⟨trivial, trivial⟩

theorem TypeArguments.AreData.read {arguments : TypeArguments} (data : arguments.AreData) :
    arguments.Reads ∧ arguments.ReadAsValues := by
  cases arguments with
  | none => exact ⟨trivial, trivial⟩
  | integer value rest =>
      have later : rest.AreData := data
      exact later.read
  | type argument rest =>
      obtain ⟨typed, valued⟩ := data.1.reads
      obtain ⟨laterTyped, laterValued⟩ := data.2.read
      have item : if argument.IsPointer then argument.Reads else argument.ReadsAsValue := by
        split
        · exact typed
        · exact valued
      rw [TypeArguments.Reads, TypeArguments.ReadAsValues]
      exact ⟨⟨item, laterTyped⟩, valued, laterValued⟩

end

end JaiSyntax
