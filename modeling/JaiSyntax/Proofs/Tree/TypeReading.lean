import JaiSyntax.Proofs.Reading.Conservation
import JaiSyntax.Tree.Reinterpret
import Mathlib.Logic.Relation
/-!
The type reading of a node. It has the leaves of the node and covers the same part of the source, and reading
it again changes nothing. Where the node is made like an expression that names a type, no part of the result
that stands for a type is left as the expression it was.
-/

set_option autoImplicit false

namespace JaiSyntax

/-- Whether a node covers its children, as one that is built from them does. -/
def Node.IsBuilt (node : Node) : Prop :=
  ∃ position, node.span = Node.spanOf node.children position

/-- Whether a node is made like an expression that names a type: by a member access to such expressions, by a
call of such expressions with nothing but arguments beside them, by an address of such expressions, or in a
way that has no type reading and is none. -/
inductive Node.NamesType : Node → Prop
  | member {span : Span} {children : List Child} :
      (∀ inner, Child.ofNode (some .object) inner ∈ children → NamesType inner) →
      NamesType ⟨.memberExpression, span, children⟩
  | call {span : Span} {children : List Child} :
      (∀ inner, Child.ofNode (some .function) inner ∈ children → NamesType inner) →
      (∀ field inner, Child.ofNode field inner ∈ children →
        field = some .function ∨ field = some .argument) →
      NamesType ⟨.callExpression, span, children⟩
  | address {span : Span} {children : List Child} :
      (∀ field inner, Child.ofNode field inner ∈ children → NamesType inner) →
      NamesType ⟨.address, span, children⟩
  | other {node : Node} :
      node.kind ∉ [NodeKind.memberExpression, .callExpression, .address, .parameterizedStructType,
        .qualifiedType, .pointerType] →
      NamesType node

/-- Whether a type is made out of another one: a type with arguments out of the type that takes them, a
qualified type out of the one before the dot, a pointer type out of the one that it points to. -/
inductive Node.HoldsType : Node → Node → Prop
  | applied {span : Span} {children : List Child} {inner : Node} :
      Child.ofNode (some .type) inner ∈ children →
      HoldsType ⟨.parameterizedStructType, span, children⟩ inner
  | qualified {span : Span} {children : List Child} {inner : Node} :
      Child.ofNode (some .object) inner ∈ children → HoldsType ⟨.qualifiedType, span, children⟩ inner
  | pointer {span : Span} {children : List Child} {field : Option Field} {inner : Node} :
      Child.ofNode field inner ∈ children → HoldsType ⟨.pointerType, span, children⟩ inner

/-! ### Children -/

/-- A child, read as a type under another field if `select` picks its field and it is a node. -/
def Child.readUnder (select : Option Field → Option (Option Field)) (child : Child) : Child :=
  match child.node?, select child.field? with
  | some inner, some field => .ofNode field inner.reinterpretAsType
  | _, _ => child

section Branch

variable {select : Option Field → Option (Option Field)} {field : Option Field} {kind : NodeKind}
  {span : Span} {children : List Child}

theorem Child.readUnder_branch_of_none (unpicked : select field = none) :
    (Child.branch field kind span children).readUnder select = .branch field kind span children := by
  rw [Child.readUnder, show select (Child.branch field kind span children).field? = none from unpicked]
  rfl

theorem Child.readUnder_branch_of_some {newField : Option Field}
    (picked : select field = some newField) :
    (Child.branch field kind span children).readUnder select =
      .ofNode newField (Node.mk kind span children).reinterpretAsType := by
  rw [Child.readUnder,
    show select (Child.branch field kind span children).field? = some newField from picked]
  rfl

end Branch

theorem reinterpretChildren_eq_map (select : Option Field → Option (Option Field))
    (children : List Child) :
    reinterpretChildren select children = children.map (Child.readUnder select) := by
  induction children with
  | nil => rw [reinterpretChildren, List.map_nil]
  | cons child rest ih =>
      cases child with
      | leaf field token =>
          rw [reinterpretChildren, List.map_cons, ih]
          rfl
      | branch field kind span children =>
          rw [reinterpretChildren, List.map_cons, ih]
          congr 1
          cases picked : select field with
          | none => rw [Child.readUnder_branch_of_none picked]
          | some newField =>
              rw [Child.readUnder_branch_of_some picked]
              simp only [Node.reinterpretAsType]
              cases typeReading? kind <;> rfl

/-- A child node of a type reading was a child node before, as it is or still to be read. -/
theorem Child.ofNode_mem_readUnder {select : Option Field → Option (Option Field)}
    {children : List Child} {field : Option Field} {inner : Node}
    (member : Child.ofNode field inner ∈ children.map (Child.readUnder select)) :
    (Child.ofNode field inner ∈ children ∧ select field = none) ∨
      ∃ role part, Child.ofNode role part ∈ children ∧ select role = some field ∧
        inner = part.reinterpretAsType := by
  obtain ⟨child, among, same⟩ := List.mem_map.mp member
  cases child with
  | leaf role token => cases same
  | branch role kind span parts =>
      cases picked : select role with
      | none =>
          rw [Child.readUnder_branch_of_none picked] at same
          obtain ⟨rfl, rfl, rfl, rfl⟩ := Child.branch.inj same
          exact Or.inl ⟨among, picked⟩
      | some newField =>
          rw [Child.readUnder_branch_of_some picked] at same
          have label := congrArg Child.field? same
          have node := congrArg Child.node? same
          exact Or.inr ⟨role, ⟨kind, span, parts⟩, among, picked.trans (congrArg some label),
            (Option.some.inj node).symm⟩

/-! ### Spans -/

namespace Node

theorem spanOf_congr {left right : List Child} (same : left.map Child.span = right.map Child.span)
    (position : Nat) : spanOf left position = spanOf right position := by
  have outer (children : List Child) : spanOf children position =
      ((children.map Child.span).head?.bind
        (fun first => (children.map Child.span).getLast?.map first.merge)).getD (.point position) := by
    rw [spanOf, List.head?_map, List.getLast?_map]
    cases children.head? <;> cases children.getLast? <;> rfl
  rw [outer, outer, same]

theorem IsBuilt.spanOf_start {node : Node} (built : node.IsBuilt) :
    spanOf node.children node.span.start = node.span := by
  obtain ⟨position, same⟩ := built
  rw [same]
  cases node.children with
  | nil => rfl
  | cons first rest => rfl

end Node

theorem spans_reinterpretChildren (select : Option Field → Option (Option Field))
    (children : List Child) (built : ∀ inner ∈ Child.preorderOfList children, inner.IsBuilt) :
    (reinterpretChildren select children).map Child.span = children.map Child.span := by
  induction select, children using reinterpretChildren.induct with
  | case1 select => rw [reinterpretChildren]
  | case2 select field token rest ih =>
      rw [reinterpretChildren, List.map_cons, List.map_cons, ih built]
  | case3 select field kind span children rest outer inner =>
      rw [Child.preorderOfList, Child.preorder, List.cons_append, List.forall_mem_cons,
        List.forall_mem_append] at built
      obtain ⟨own, below, later⟩ := built
      rw [reinterpretChildren, List.map_cons, List.map_cons, inner later]
      congr 1
      split
      · rfl
      · split
        · rfl
        · next reading _ =>
            exact (Node.spanOf_congr (outer reading below) span.start).trans own.spanOf_start

namespace Node

theorem span_reinterpretAsType {node : Node} (built : ∀ inner ∈ node.preorder, inner.IsBuilt) :
    node.reinterpretAsType.span = node.span := by
  obtain ⟨own, below⟩ := List.forall_mem_cons.mp built
  unfold reinterpretAsType
  split
  · rfl
  · next reading _ =>
      have spans := spans_reinterpretChildren reading.select node.children below
      exact (spanOf_congr spans node.span.start).trans own.spanOf_start

/-! ### What is left of the expressions -/

theorem typeReading?_reading {kind : NodeKind} {reading : TypeReading}
    (found : typeReading? kind = some reading) : typeReading? reading.kind = none := by
  unfold typeReading? at found
  split at found <;> simp at found <;> subst found <;> rfl

theorem reinterpretAsType_of_none {node : Node} (none : typeReading? node.kind = none) :
    node.reinterpretAsType = node := by
  rw [reinterpretAsType, none]

theorem reinterpretAsType_reinterpretAsType (node : Node) :
    node.reinterpretAsType.reinterpretAsType = node.reinterpretAsType := by
  cases found : typeReading? node.kind with
  | none => rw [reinterpretAsType_of_none found, reinterpretAsType_of_none found]
  | some reading =>
      have read : node.reinterpretAsType = .build reading.kind
          (reinterpretChildren reading.select node.children) node.span.start := by
        rw [reinterpretAsType, found]
      rw [read]
      exact reinterpretAsType_of_none (typeReading?_reading found)

theorem typeReading?_eq_none {kind : NodeKind}
    (plain : kind ∉ [NodeKind.memberExpression, .callExpression, .address]) :
    typeReading? kind = none := by
  unfold typeReading?
  split <;> first | rfl | simp at plain

theorem NamesType.kind_reinterpretAsType {node : Node} (names : node.NamesType) :
    node.reinterpretAsType.kind ∉ [NodeKind.callExpression, .memberExpression, .address] := by
  cases names with
  | member objects => simp [reinterpretAsType, typeReading?, build]
  | call functions others => simp [reinterpretAsType, typeReading?, build]
  | address targets => simp [reinterpretAsType, typeReading?, build]
  | other plain =>
      simp only [List.mem_cons, not_or] at plain
      rw [reinterpretAsType_of_none (typeReading?_eq_none (by simp [plain]))]
      simp [plain]

/-- What the type reading of an expression is made out of is the type reading of such an expression. -/
theorem NamesType.of_holdsType {node next : Node} (names : node.NamesType)
    (step : HoldsType node.reinterpretAsType next) :
    ∃ part : Node, part.NamesType ∧ next = part.reinterpretAsType := by
  cases names with
  | @member span children objects =>
      change HoldsType (.build .qualifiedType (reinterpretChildren _ children) span.start) next at step
      rw [reinterpretChildren_eq_map] at step
      cases step with
      | qualified member =>
          rcases Child.ofNode_mem_readUnder member with ⟨-, unpicked⟩ | ⟨role, part, among, picked, same⟩
          · cases unpicked
          · have object : role = some .object := by
              by_contra other
              simp [other] at picked
            exact ⟨part, objects part (object ▸ among), same⟩
  | @call span children functions others =>
      change HoldsType
        (.build .parameterizedStructType (reinterpretChildren _ children) span.start) next at step
      rw [reinterpretChildren_eq_map] at step
      cases step with
      | applied member =>
          rcases Child.ofNode_mem_readUnder member with ⟨among, -⟩ | ⟨role, part, among, picked, same⟩
          · -- A function stands under another field than the type it is read as, and so do the arguments.
            rcases others _ _ among with impossible | impossible <;> cases impossible
          · have function : role = some .function := by
              by_contra other
              simp [other] at picked
            exact ⟨part, functions part (function ▸ among), same⟩
  | @address span children targets =>
      change HoldsType (.build .pointerType (reinterpretChildren _ children) span.start) next at step
      rw [reinterpretChildren_eq_map] at step
      cases step with
      | pointer member =>
          rcases Child.ofNode_mem_readUnder member with ⟨-, unpicked⟩ | ⟨role, part, among, -, same⟩
          · cases unpicked
          · exact ⟨part, targets role part among, same⟩
  | other plain =>
      simp only [List.mem_cons, not_or] at plain
      rw [reinterpretAsType_of_none (typeReading?_eq_none (by simp [plain]))] at step
      cases step <;> simp at plain

/-- No type that the type reading of an expression is made out of, however deep, is left as the expression
it was. -/
theorem NamesType.kind_of_reaches {node inner : Node} (names : node.NamesType)
    (reaches : Relation.ReflTransGen HoldsType node.reinterpretAsType inner) :
    inner.kind ∉ [NodeKind.callExpression, .memberExpression, .address] := by
  have reading : ∃ part : Node, part.NamesType ∧ inner = part.reinterpretAsType := by
    induction reaches with
    | refl => exact ⟨node, names, rfl⟩
    | tail _ step ih =>
        obtain ⟨part, named, rfl⟩ := ih
        exact named.of_holdsType step
  obtain ⟨part, named, rfl⟩ := reading
  exact named.kind_reinterpretAsType

/-- Reading a node as a type keeps its leaves, keeps its span if its tree was built from the leaves, and
is done with once. Where the node is made like an expression that names a type, every type that the result
is made out of is one. -/
theorem reinterpretAsType_keeps (node : Node) :
    node.reinterpretAsType.leaves = node.leaves ∧
      ((∀ inner ∈ node.preorder, inner.IsBuilt) → node.reinterpretAsType.span = node.span) ∧
      node.reinterpretAsType.reinterpretAsType = node.reinterpretAsType ∧
      (node.NamesType → ∀ inner, Relation.ReflTransGen HoldsType node.reinterpretAsType inner →
        inner.kind ∉ [NodeKind.callExpression, .memberExpression, .address]) :=
  ⟨leaves_reinterpretAsType node, span_reinterpretAsType, node.reinterpretAsType_reinterpretAsType,
    fun names _ reaches => names.kind_of_reaches reaches⟩

/-- The expression `*A.B` reads as a pointer to a qualified type. -/
theorem reinterpretAsType_keeps_address :
    ∃ node : Node, node.kind = .address ∧ node.leaves.map Token.text = ["*", "A", ".", "B"] ∧
      (∀ inner ∈ node.preorder, inner.IsBuilt) ∧ node.NamesType ∧
      node.reinterpretAsType.span = ⟨0, 4⟩ ∧
      ∀ inner, Relation.ReflTransGen HoldsType node.reinterpretAsType inner →
        inner.kind ∉ [NodeKind.callExpression, .memberExpression, .address] := by
  refine ⟨.build .address [.leaf none ⟨.star, ⟨0, 1⟩, .none, "*"⟩,
    .ofNode none (.build .memberExpression
      [.ofNode (some .object) (.build .identifier [.leaf none ⟨.ident, ⟨1, 2⟩, .none, "A"⟩] 1),
        .leaf none ⟨.dot, ⟨2, 3⟩, .none, "."⟩,
        .ofNode (some .member) (.build .identifier [.leaf none ⟨.ident, ⟨3, 4⟩, .none, "B"⟩] 3)] 1)] 0,
    rfl, rfl, ?built, ?names, (reinterpretAsType_keeps _).2.1 ?built,
    (reinterpretAsType_keeps _).2.2.2 ?names⟩
  case built =>
    refine List.forall_mem_cons.mpr ⟨⟨0, rfl⟩, List.forall_mem_cons.mpr ⟨⟨1, rfl⟩, ?_⟩⟩
    refine List.forall_mem_cons.mpr ⟨⟨1, rfl⟩, List.forall_mem_cons.mpr ⟨⟨3, rfl⟩, ?_⟩⟩
    exact List.forall_mem_nil _
  case names =>
    refine .address ?_
    rintro field ⟨kind, span, children⟩ (_ | ⟨_, _ | ⟨_, ⟨⟩⟩⟩)
    refine .member ?_
    rintro ⟨kind, span, children⟩ (_ | ⟨_, _ | ⟨_, _ | ⟨_, ⟨⟩⟩⟩⟩)
    exact .other (by decide)

end Node

end JaiSyntax
