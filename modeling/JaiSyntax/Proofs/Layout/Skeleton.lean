import JaiSyntax.Parser.State
/-!
Skeletons of trees. A skeleton keeps the kinds, the fields and the texts of a tree; spans, layout,
comments, notes and deprecation notices are left out.
-/

set_option autoImplicit false

namespace JaiSyntax

/-- A tree without spans and without what may stand anywhere. -/
inductive Skeleton where
  | leaf (field : Option Field) (kind : TokenKind) (text : String)
  | branch (field : Option Field) (kind : NodeKind) (children : List Skeleton)

mutual

def Child.skeleton : Child → Skeleton
  | .leaf field token => .leaf field token.kind token.text
  | .branch field kind _ children => .branch field kind (Child.skeletonsOfList children)

def Child.skeletonsOfList : List Child → List Skeleton
  | [] => []
  | child :: rest =>
      if child.isSignificant then child.skeleton :: Child.skeletonsOfList rest
      else Child.skeletonsOfList rest

end

def Node.skeleton (node : Node) : Skeleton :=
  .branch none node.kind (Child.skeletonsOfList node.children)

namespace Skeleton

def withField (field : Option Field) : Skeleton → Skeleton
  | .leaf _ kind text => .leaf field kind text
  | .branch _ kind children => .branch field kind children

def nodeKind? : Skeleton → Option NodeKind
  | .leaf _ _ _ => none
  | .branch _ kind _ => some kind

/-- Skeletons with the nodes that `select` picks read as types. -/
def reinterpretAll (select : Option Field → Option (Option Field)) :
    List Skeleton → List Skeleton
  | [] => []
  | .leaf field kind text :: rest => .leaf field kind text :: reinterpretAll select rest
  | .branch field kind children :: rest =>
      let read :=
        match select field with
        | none => .branch field kind children
        | some newField =>
            match typeReading? kind with
            | none => .branch newField kind children
            | some reading => .branch newField reading.kind (reinterpretAll reading.select children)
      read :: reinterpretAll select rest

def reinterpretAs (field : Option Field) : Skeleton → Skeleton
  | .leaf _ kind text => .leaf field kind text
  | .branch _ kind children =>
      match typeReading? kind with
      | none => .branch field kind children
      | some reading => .branch field reading.kind (reinterpretAll reading.select children)

def reinterpreted : Skeleton → Skeleton
  | .leaf field kind text => .leaf field kind text
  | .branch field kind children => (Skeleton.branch field kind children).reinterpretAs field

def asParameter : Skeleton → Skeleton
  | .leaf field kind text => .leaf field kind text
  | .branch field kind children =>
      (Skeleton.branch field kind children).reinterpretAs (some .parameters)

def spliced : Skeleton → List Skeleton
  | .leaf field kind text => [.leaf field kind text]
  | .branch _ _ children => children.map asParameter

end Skeleton

namespace Child

@[simp] theorem skeletonsOfList_nil : skeletonsOfList [] = [] := rfl

theorem skeletonsOfList_cons (child : Child) (rest : List Child) :
    skeletonsOfList (child :: rest) =
      if child.isSignificant then child.skeleton :: skeletonsOfList rest
      else skeletonsOfList rest := rfl

/-- The skeleton of a leaf does not depend on the place of its token. -/
theorem skeletonsOfList_leaf {token other : Token} (field : Option Field)
    (kind : token.kind = other.kind) (text : token.text = other.text) :
    skeletonsOfList [.leaf field token] = skeletonsOfList [.leaf field other] := by
  change (if !token.kind.isExtra then [Skeleton.leaf field token.kind token.text] else []) =
    (if !other.kind.isExtra then [Skeleton.leaf field other.kind other.text] else [])
  rw [kind, text]

theorem skeletonsOfList_append (first second : List Child) :
    skeletonsOfList (first ++ second) = skeletonsOfList first ++ skeletonsOfList second := by
  induction first with
  | nil => rfl
  | cons child rest ih =>
      rw [List.cons_append, skeletonsOfList_cons, skeletonsOfList_cons, ih]
      split <;> rfl

theorem skeletonsOfList_reverse (children : List Child) :
    skeletonsOfList children.reverse = (skeletonsOfList children).reverse := by
  induction children with
  | nil => rfl
  | cons child rest ih =>
      rw [List.reverse_cons, skeletonsOfList_append, ih, skeletonsOfList_cons child rest,
        skeletonsOfList_cons child []]
      split
      · rw [List.reverse_cons]
        rfl
      · exact List.append_nil _

theorem skeletonsOfList_extras {children : List Child}
    (extras : ∀ child ∈ children, child.isSignificant = false) :
    skeletonsOfList children = [] := by
  induction children with
  | nil => rfl
  | cons child rest ih =>
      rw [skeletonsOfList_cons, extras child List.mem_cons_self]
      exact ih (fun other member => extras other (List.mem_cons_of_mem child member))

theorem skeleton_withField (field : Option Field) (child : Child) :
    (child.withField field).skeleton = child.skeleton.withField field := by
  cases child <;> rfl

theorem nodeKind?_skeleton (child : Child) :
    child.skeleton.nodeKind? = child.node?.map Node.kind := by
  cases child <;> rfl

theorem skeletonsOfList_withoutFields (children : List Child) :
    skeletonsOfList (children.map (withField none)) =
      (skeletonsOfList children).map (Skeleton.withField none) := by
  induction children with
  | nil => rfl
  | cons child rest ih =>
      have same : (child.withField none).isSignificant = child.isSignificant := by
        cases child <;> rfl
      rw [List.map_cons, skeletonsOfList_cons, skeletonsOfList_cons, same, ih, skeleton_withField]
      split <;> rfl

/-- A type reading never makes an extra of a node, nor a node of an extra. -/
theorem typeReading?_significant {kind : NodeKind} {reading : TypeReading}
    (read : typeReading? kind = some reading) :
    (reading.kind != .deprecatedDirective) = true ∧ (kind != .deprecatedDirective) = true := by
  unfold typeReading? at read
  split at read
  all_goals cases read
  all_goals exact ⟨rfl, rfl⟩

theorem skeletonsOfList_reinterpret (select : Option Field → Option (Option Field))
    (children : List Child) :
    skeletonsOfList (reinterpretChildren select children) =
      Skeleton.reinterpretAll select (skeletonsOfList children) := by
  induction select, children using reinterpretChildren.induct with
  | case1 select => rw [reinterpretChildren, skeletonsOfList_nil, Skeleton.reinterpretAll]
  | case2 select field token rest ih =>
      rw [reinterpretChildren, skeletonsOfList_cons, skeletonsOfList_cons, ih]
      cases (leaf field token).isSignificant with
      | false => rfl
      | true => simp [skeleton, Skeleton.reinterpretAll]
  | case3 select field kind span children rest outer inner =>
      rw [reinterpretChildren, skeletonsOfList_cons, skeletonsOfList_cons, inner]
      cases picked : select field with
      | none =>
          by_cases notice : kind = .deprecatedDirective
          · simp [isSignificant, notice]
          · simp [isSignificant, notice, skeleton, Skeleton.reinterpretAll, picked]
      | some newField =>
          cases reads : typeReading? kind with
          | none =>
              by_cases notice : kind = .deprecatedDirective
              · simp [isSignificant, notice]
              · simp [isSignificant, notice, skeleton, Skeleton.reinterpretAll, picked, reads]
          | some reading =>
              have significant := typeReading?_significant reads
              simp only [isSignificant, significant.1, significant.2, if_true]
              simp [skeleton, Skeleton.reinterpretAll, picked, reads, outer reading]

theorem skeleton_reinterpretAsType (field : Option Field) (node : Node) :
    (ofNode field node.reinterpretAsType).skeleton =
      (ofNode field node).skeleton.reinterpretAs field := by
  unfold Node.reinterpretAsType
  cases reads : typeReading? node.kind with
  | none => simp [ofNode, skeleton, Skeleton.reinterpretAs, reads]
  | some reading =>
      simp [ofNode, skeleton, Skeleton.reinterpretAs, reads, Node.build,
        skeletonsOfList_reinterpret]

theorem isSignificant_reinterpretAs (field other : Option Field) (node : Node) :
    (ofNode field node.reinterpretAsType).isSignificant = (ofNode other node).isSignificant := by
  unfold Node.reinterpretAsType
  cases reads : typeReading? node.kind with
  | none => rfl
  | some reading =>
      have significant := typeReading?_significant reads
      simp [ofNode, isSignificant, Node.build, significant.1, significant.2]

theorem skeletonsOfList_asParameterList (node : Node) :
    skeletonsOfList node.asParameterList =
      (skeletonsOfList node.children).map Skeleton.asParameter := by
  unfold Node.asParameterList
  induction node.children with
  | nil => rfl
  | cons child rest ih =>
      rw [List.map_cons, skeletonsOfList_cons, skeletonsOfList_cons, ih]
      cases child with
      | leaf field token =>
          by_cases extra : token.kind.isExtra = true
          · simp [node?, isSignificant, extra]
          · simp [node?, isSignificant, extra, skeleton, Skeleton.asParameter]
      | branch field kind span children =>
          have same := isSignificant_reinterpretAs (some .parameters) field ⟨kind, span, children⟩
          simp only [node?, same, skeleton_reinterpretAsType]
          by_cases notice : kind = .deprecatedDirective
          · simp [ofNode, isSignificant, notice]
          · simp [ofNode, isSignificant, notice, skeleton, Skeleton.asParameter,
              Skeleton.reinterpretAs]

theorem skeletonsOfList_reinterpreted {child : Child} (significant : child.isSignificant = true) :
    skeletonsOfList (match child.node? with
      | some node => [.ofNode child.field? node.reinterpretAsType]
      | none => [child]) = [child.skeleton.reinterpreted] := by
  cases child with
  | leaf field token =>
      simp only [node?]
      rw [skeletonsOfList_cons, if_pos significant]
      rfl
  | branch field kind span children =>
      have same := isSignificant_reinterpretAs field field ⟨kind, span, children⟩
      change (ofNode field ⟨kind, span, children⟩).isSignificant = true at significant
      simp only [node?, field?]
      rw [skeletonsOfList_cons, same, if_pos significant, skeleton_reinterpretAsType]
      rfl

theorem skeletonsOfList_spliced {child : Child} (significant : child.isSignificant = true) :
    skeletonsOfList (match child.node? with
      | some node => node.asParameterList
      | none => [child]) = child.skeleton.spliced := by
  cases child with
  | leaf field token =>
      simp only [node?]
      rw [skeletonsOfList_cons, if_pos significant]
      rfl
  | branch field kind span children => exact skeletonsOfList_asParameterList _

/-- Replacing the last significant child replaces the last skeleton. -/
theorem skeletonsOfList_replaceLast (change : Child → List Child)
    (changeSkeleton : Skeleton → List Skeleton)
    (same : ∀ child, child.isSignificant = true →
      skeletonsOfList (change child) = changeSkeleton child.skeleton) (latest : List Child) :
    skeletonsOfList (replaceLastSignificant change latest) =
      match skeletonsOfList latest with
      | [] => []
      | last :: earlier => (changeSkeleton last).reverse ++ earlier := by
  induction latest with
  | nil => rfl
  | cons child earlier ih =>
      rw [replaceLastSignificant, skeletonsOfList_cons]
      split
      · next significant =>
          rw [skeletonsOfList_append, skeletonsOfList_reverse, same child significant]
      · next insignificant => rw [skeletonsOfList_cons, if_neg insignificant, ih]

end Child

end JaiSyntax
