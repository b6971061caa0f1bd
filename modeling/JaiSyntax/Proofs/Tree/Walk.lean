import JaiSyntax.Tree.Walk
import Mathlib.Algebra.Ring.Nat
import Mathlib.Data.List.Basic
/-!
Walks over a tree. A walk keeps the nodes that it has still to visit on a stack, and puts the child nodes of
each node it visits on top. It ends after all nodes of the tree, each visited before the nodes inside it, and
left to right. So what a search over a tree finds, it finds first in this order.
-/

set_option autoImplicit false

namespace JaiSyntax

/-! ### Trees in order -/

theorem Child.preorderOfList_eq (children : List Child) :
    Child.preorderOfList children = (children.filterMap Child.node?).flatMap Node.preorder := by
  induction children with
  | nil => rfl
  | cons child rest ih =>
      cases child with
      | leaf field token => exact ih
      | branch field kind span inner =>
          rw [Child.preorderOfList, ih]
          rfl

/-- A node comes before its child nodes, and each of them with all that is inside it before the next. -/
theorem Node.preorder_eq (node : Node) :
    node.preorder = node :: node.childNodes.flatMap Node.preorder := by
  rw [Node.preorder, Child.preorderOfList_eq, Node.childNodes]

theorem Child.nodeCountOfList_eq (children : List Child) :
    Child.nodeCountOfList children =
      ((children.filterMap Child.node?).map Node.nodeCount).sum := by
  induction children with
  | nil => rfl
  | cons child rest ih =>
      cases child with
      | leaf field token =>
          rw [Child.nodeCountOfList, ih]
          exact Nat.zero_add _
      | branch field kind span inner =>
          rw [Child.nodeCountOfList, ih]
          rfl

/-- When a node makes way for its child nodes, there is one node less to visit. -/
theorem Node.sum_nodeCount_childNodes (node : Node) (rest : List Node) :
    ((node.childNodes ++ rest).map Node.nodeCount).sum + 1 =
      ((node :: rest).map Node.nodeCount).sum := by
  rw [List.map_append, List.sum_append, List.map_cons, List.sum_cons, Node.nodeCount,
    Child.nodeCountOfList_eq, Node.childNodes]
  omega

/-- A visit with enough budget meets the nodes of each tree on the stack in order. -/
theorem Node.visit_eq (budget : Nat) (stack : List Node)
    (enough : (stack.map Node.nodeCount).sum ≤ budget) :
    Node.visit budget stack = stack.flatMap Node.preorder := by
  induction budget generalizing stack with
  | zero =>
      cases stack with
      | nil => rfl
      | cons node rest =>
          rw [← Node.sum_nodeCount_childNodes] at enough
          omega
  | succ budget ih =>
      cases stack with
      | nil => rfl
      | cons node rest =>
          rw [← Node.sum_nodeCount_childNodes] at enough
          have fewer := Nat.le_of_succ_le_succ enough
          rw [Node.visit, ih _ fewer, List.flatMap_append, List.flatMap_cons, Node.preorder_eq]
          rfl

theorem Node.descendants_eq (node : Node) : node.descendants = node.preorder := by
  rw [Node.descendants, Node.visit_eq _ [node] (by simp), List.flatMap_singleton]

/-! ### Walks on a stack -/

/-- The nodes that a walk has still to visit, the next one last. -/
structure PendingNodes where
  stack : List Node

namespace PendingNodes

/-- Take the node on top, and put its child nodes on the stack from the last to the first. -/
def next? (pending : PendingNodes) : Option (Node × PendingNodes) :=
  match pending.stack.getLast? with
  | none => none
  | some node => some (node, ⟨pending.stack.dropLast ++ node.childNodes.reverse⟩)

/-- Whether a walk comes to its end after just some nodes, in this order. -/
inductive Collects : PendingNodes → List Node → Prop
  | stop {pending : PendingNodes} : pending.next? = none → Collects pending []
  | step {pending later : PendingNodes} {node : Node} {nodes : List Node} :
      pending.next? = some (node, later) → Collects later nodes → Collects pending (node :: nodes)

theorem next?_nil : (PendingNodes.mk []).next? = none := rfl

theorem next?_append (below : List Node) (node : Node) :
    (PendingNodes.mk (below ++ [node])).next? = some (node, ⟨below ++ node.childNodes.reverse⟩) := by
  rw [next?, List.getLast?_concat, List.dropLast_concat]

/-- A walk with some budget on the stack turned around, if it is enough, is one that comes to its end. -/
theorem collects_visit (budget : Nat) (stack : List Node)
    (enough : (stack.map Node.nodeCount).sum ≤ budget) :
    Collects ⟨stack.reverse⟩ (Node.visit budget stack) := by
  induction budget generalizing stack with
  | zero =>
      cases stack with
      | nil => exact .stop next?_nil
      | cons node rest =>
          rw [← Node.sum_nodeCount_childNodes] at enough
          omega
  | succ budget ih =>
      cases stack with
      | nil => exact .stop next?_nil
      | cons node rest =>
          rw [← Node.sum_nodeCount_childNodes] at enough
          have fewer := Nat.le_of_succ_le_succ enough
          have later := ih _ fewer
          rw [List.reverse_append] at later
          rw [List.reverse_cons, Node.visit]
          exact .step (next?_append rest.reverse node) later

theorem Collects.unique {pending : PendingNodes} {nodes others : List Node}
    (collects : Collects pending nodes) (same : Collects pending others) : nodes = others := by
  induction collects generalizing others with
  | stop none =>
      cases same with
      | stop _ => rfl
      | step some _ => exact nomatch none.symm.trans some
  | step some _ ih =>
      cases same with
      | stop none => exact nomatch none.symm.trans some
      | step other later =>
          cases some.symm.trans other
          exact congrArg _ (ih later)

theorem collects_iff (node : Node) (nodes : List Node) :
    Collects ⟨[node]⟩ nodes ↔ nodes = node.preorder := by
  have all : Collects ⟨[node]⟩ node.preorder := by
    rw [← Node.descendants_eq]
    exact collects_visit node.nodeCount [node] (by simp)
  constructor
  · exact fun collects => collects.unique all
  · rintro rfl
    exact all

end PendingNodes

/-! ### Leaves and nodes -/

mutual

theorem Child.leaves_of_preorder {inner : Node} (child : Child) (member : inner ∈ child.preorder) :
    ∀ token ∈ inner.leaves, token ∈ child.leaves := by
  cases child with
  | leaf field token => cases member
  | branch field kind span children =>
      rw [Child.preorder] at member
      rcases List.mem_cons.mp member with rfl | below
      · exact fun token inside => inside
      · exact Child.leaves_of_preorderOfList children below

theorem Child.leaves_of_preorderOfList {inner : Node} (children : List Child)
    (member : inner ∈ Child.preorderOfList children) :
    ∀ token ∈ inner.leaves, token ∈ Child.leavesOfList children := by
  cases children with
  | nil => cases member
  | cons child rest =>
      intro token inside
      rw [Child.preorderOfList, List.mem_append] at member
      rw [Child.leavesOfList, List.mem_append]
      rcases member with first | later
      · exact Or.inl (Child.leaves_of_preorder child first token inside)
      · exact Or.inr (Child.leaves_of_preorderOfList rest later token inside)

end

theorem Node.leaves_of_preorder {node inner : Node} (member : inner ∈ node.preorder) :
    ∀ token ∈ inner.leaves, token ∈ node.leaves :=
  Child.leaves_of_preorder (.ofNode none node) member

theorem Node.leaves_of_childTokens {node : Node} {token : Token}
    (member : token ∈ node.childTokens) : token ∈ node.leaves := by
  rcases node with ⟨kind, span, children⟩
  change token ∈ children.filterMap Child.token? at member
  change token ∈ Child.leavesOfList children
  obtain ⟨child, inside, same⟩ := List.mem_filterMap.mp member
  cases child with
  | branch field kind span inner => cases same
  | leaf field other =>
      cases same
      induction children with
      | nil => cases inside
      | cons first rest ih =>
          rw [Child.leavesOfList, List.mem_append]
          rcases List.mem_cons.mp inside with rfl | later
          · exact Or.inl List.mem_cons_self
          · exact Or.inr (ih (List.mem_filterMap.mpr ⟨_, later, rfl⟩) later)

mutual

theorem Child.holder_of_leaves {token : Token} (child : Child) (member : token ∈ child.leaves) :
    child.token? = some token ∨ ∃ inner ∈ child.preorder, token ∈ inner.childTokens := by
  cases child with
  | leaf field other =>
      rw [Child.leaves, List.mem_singleton] at member
      exact Or.inl (congrArg some member.symm)
  | branch field kind span children =>
      rw [Child.preorder]
      rcases Child.holder_of_leavesOfList children member with direct | ⟨inner, below, inside⟩
      · exact Or.inr ⟨⟨kind, span, children⟩, List.mem_cons_self, direct⟩
      · exact Or.inr ⟨inner, List.mem_cons_of_mem _ below, inside⟩

theorem Child.holder_of_leavesOfList {token : Token} (children : List Child)
    (member : token ∈ Child.leavesOfList children) :
    token ∈ children.filterMap Child.token? ∨
      ∃ inner ∈ Child.preorderOfList children, token ∈ inner.childTokens := by
  cases children with
  | nil => cases member
  | cons child rest =>
      rw [Child.leavesOfList, List.mem_append] at member
      rw [Child.preorderOfList]
      rcases member with first | later
      · rcases Child.holder_of_leaves child first with direct | ⟨inner, below, inside⟩
        · exact Or.inl (List.mem_filterMap.mpr ⟨child, List.mem_cons_self, direct⟩)
        · exact Or.inr ⟨inner, List.mem_append_left _ below, inside⟩
      · rcases Child.holder_of_leavesOfList rest later with direct | ⟨inner, below, inside⟩
        · obtain ⟨holder, among, same⟩ := List.mem_filterMap.mp direct
          exact Or.inl (List.mem_filterMap.mpr ⟨holder, List.mem_cons_of_mem _ among, same⟩)
        · exact Or.inr ⟨inner, List.mem_append_right _ below, inside⟩

end

theorem Node.mem_leaves_iff {node : Node} {token : Token} :
    token ∈ node.leaves ↔ ∃ inner ∈ node.preorder, token ∈ inner.childTokens := by
  constructor
  · intro member
    rcases Child.holder_of_leavesOfList node.children member with direct | ⟨inner, below, inside⟩
    · exact ⟨node, List.mem_cons_self, direct⟩
    · exact ⟨inner, List.mem_cons_of_mem _ below, inside⟩
  · rintro ⟨inner, below, inside⟩
    exact Node.leaves_of_preorder below token (Node.leaves_of_childTokens inside)

/-! ### Searches -/

theorem Node.isErroneous_iff {node : Node} :
    node.isErroneous = true ↔
      node.kind = .error ∨ ∃ token ∈ node.childTokens, token.kind = .error := by
  rw [Node.isErroneous, Bool.or_eq_true, List.any_eq_true, beq_iff_eq]
  simp only [beq_iff_eq]

theorem Node.hasError_iff_exists_isErroneous {node : Node} :
    node.hasError = true ↔ ∃ inner ∈ node.preorder,
      inner.kind = .error ∨ ∃ token ∈ inner.childTokens, token.kind = .error := by
  rw [Node.hasError, Node.descendants_eq, List.any_eq_true]
  simp only [Node.isErroneous_iff]

/-- A tree holds an error just if one of its nodes is an error or one of its leaves is an invalid token. -/
theorem Node.hasError_iff {node : Node} :
    node.hasError = true ↔
      (∃ inner ∈ node.preorder, inner.kind = .error) ∨ ∃ token ∈ node.leaves, token.kind = .error := by
  rw [Node.hasError_iff_exists_isErroneous]
  constructor
  · rintro ⟨inner, below, error | ⟨token, inside, invalid⟩⟩
    · exact Or.inl ⟨inner, below, error⟩
    · exact Or.inr ⟨token, Node.mem_leaves_iff.mpr ⟨inner, below, inside⟩, invalid⟩
  · rintro (⟨inner, below, error⟩ | ⟨token, leaf, invalid⟩)
    · exact ⟨inner, below, Or.inl error⟩
    · obtain ⟨inner, below, inside⟩ := Node.mem_leaves_iff.mp leaf
      exact ⟨inner, below, Or.inr ⟨token, inside, invalid⟩⟩

theorem Node.find?_eq_some_iff {node found : Node} {kind : NodeKind} :
    node.find? kind = some found ↔ ∃ before after, node.preorder = before ++ found :: after ∧
      found.kind = kind ∧ ∀ earlier ∈ before, earlier.kind ≠ kind := by
  rw [Node.find?, Node.descendants_eq, List.find?_eq_some_iff_append]
  simp only [beq_iff_eq, Bool.not_eq_true', beq_eq_false_iff_ne]
  constructor
  · rintro ⟨same, before, after, parts, earlier⟩
    exact ⟨before, after, parts, same, earlier⟩
  · rintro ⟨before, after, parts, same, earlier⟩
    exact ⟨same, before, after, parts, earlier⟩

theorem Node.find?_eq_none_iff {node : Node} {kind : NodeKind} :
    node.find? kind = none ↔ ∀ inner ∈ node.preorder, inner.kind ≠ kind := by
  rw [Node.find?, Node.descendants_eq, List.find?_eq_none]
  simp only [beq_iff_eq, ne_eq]

/-- A walk on a stack comes to its end after the nodes of the tree in pre-order, and these are its
descendants. The node found for a kind is the first of that kind among them, and a tree holds an error just
if one of them is an error or holds an invalid token, which is a leaf that is one. -/
theorem Node.descendants_preorder (node : Node) :
    node.preorder = node :: node.childNodes.flatMap Node.preorder ∧
      (∀ nodes, PendingNodes.Collects ⟨[node]⟩ nodes ↔ nodes = node.preorder) ∧
      node.descendants = node.preorder ∧
      (∀ kind found, node.find? kind = some found ↔ ∃ before after,
        node.preorder = before ++ found :: after ∧ found.kind = kind ∧
          ∀ earlier ∈ before, earlier.kind ≠ kind) ∧
      (∀ kind, node.find? kind = none ↔ ∀ inner ∈ node.preorder, inner.kind ≠ kind) ∧
      (node.hasError = true ↔ ∃ inner ∈ node.preorder,
        inner.kind = .error ∨ ∃ token ∈ inner.childTokens, token.kind = .error) ∧
      (node.hasError = true ↔ (∃ inner ∈ node.preorder, inner.kind = .error) ∨
        ∃ token ∈ node.leaves, token.kind = .error) :=
  ⟨node.preorder_eq, PendingNodes.collects_iff node, node.descendants_eq,
    fun _ _ => Node.find?_eq_some_iff, fun _ => Node.find?_eq_none_iff,
    Node.hasError_iff_exists_isErroneous, Node.hasError_iff⟩

end JaiSyntax
