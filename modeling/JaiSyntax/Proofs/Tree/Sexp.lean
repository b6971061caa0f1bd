import JaiSyntax.Tree.Sexp
import Mathlib.Data.List.Basic
/-!
Symbolic expressions are faithful. What one shows of a tree is its named skeleton: the nodes and the leaves
that have a name, each with its field, in order. The skeleton is read back from the expression, so two trees
with the same expression have the same skeleton, and nothing else of them is told.
-/

set_option autoImplicit false

namespace JaiSyntax

/-- An entry of a named skeleton: a node or a leaf with a name, the field it is recorded under, and the
entries inside it. -/
inductive NamedEntry where
  | mk (field : Option Field) (name : String) (children : List NamedEntry)

mutual

/-- The entry of a child of a node of `parent` kind. A leaf without a name has none, and neither has the name
inside an identifier or a builtin type. -/
def Child.named (parent : NodeKind) : Child → List NamedEntry
  | .leaf field token =>
      if parent.isNameLeaf then []
      else (token.kind.leafName?.map (fun name => NamedEntry.mk field name [])).toList
  | .branch field kind _ children => [.mk field kind.name (Child.namedOfList kind children)]

def Child.namedOfList (parent : NodeKind) : List Child → List NamedEntry
  | [] => []
  | child :: rest => child.named parent ++ Child.namedOfList parent rest

end

def Node.named (node : Node) : NamedEntry :=
  .mk none node.kind.name (Child.namedOfList node.kind node.children)

/-! ### Skeletons as text -/

def fieldLabel : Option Field → List Char
  | none => []
  | some field => field.key.toList ++ [':', ' ']

mutual

def NamedEntry.text : NamedEntry → List Char
  | .mk field name children =>
      fieldLabel field ++ '(' :: (name.toList ++ (NamedEntry.textOfList children ++ [')']))

def NamedEntry.textOfList : List NamedEntry → List Char
  | [] => []
  | entry :: rest => ' ' :: (entry.text ++ NamedEntry.textOfList rest)

end

theorem NamedEntry.textOfList_append (left right : List NamedEntry) :
    textOfList (left ++ right) = textOfList left ++ textOfList right := by
  induction left with
  | nil => rfl
  | cons entry rest ih => simp [textOfList, ih]

theorem toList_sexpLead (field : Option Field) : (sexpLead field).toList = ' ' :: fieldLabel field := by
  cases field <;> simp [sexpLead, fieldLabel]

mutual

theorem Child.toList_sexp (parent : NodeKind) (child : Child) :
    (child.sexp parent).toList = NamedEntry.textOfList (child.named parent) := by
  cases child with
  | leaf field token =>
      rw [Child.sexp, Child.named]
      split
      · rfl
      · cases token.kind.leafName? with
        | none => rfl
        | some name => simp [toList_sexpLead, NamedEntry.text, NamedEntry.textOfList]
  | branch field kind span children =>
      simp [Child.sexp, Child.named, NamedEntry.text, NamedEntry.textOfList, toList_sexpLead,
        Child.toList_sexpOfList kind children]

theorem Child.toList_sexpOfList (parent : NodeKind) (children : List Child) :
    (Child.sexpOfList parent children).toList =
      NamedEntry.textOfList (Child.namedOfList parent children) := by
  cases children with
  | nil => rfl
  | cons child rest =>
      rw [Child.sexpOfList, Child.namedOfList, String.toList_append, NamedEntry.textOfList_append,
        Child.toList_sexp parent child, Child.toList_sexpOfList parent rest]

end

theorem Node.toList_sexp (node : Node) : node.sexp.toList = node.named.text := by
  simp [Node.sexp, Node.named, NamedEntry.text, fieldLabel, Child.toList_sexpOfList]

/-! ### Reading -/

/-- An entry that is still open while an expression is read, with its latest entry first. -/
structure OpenEntry where
  field : Option Field
  name : String
  latest : List NamedEntry

/-- How far an expression has been read: the letters since the last mark, the latest first; the field told
for the next entry; the open entries, the innermost first; and the entries outside all of them. -/
structure SexpReader where
  word : List Char
  field : Option Field
  stack : List OpenEntry
  finished : List NamedEntry

namespace SexpReader

def attach (reader : SexpReader) (entry : NamedEntry) : SexpReader :=
  match reader.stack with
  | [] => { reader with finished := entry :: reader.finished }
  | innermost :: outer =>
      { reader with stack := { innermost with latest := entry :: innermost.latest } :: outer }

/-- Where a word ends, an entry of this name is open. -/
def endWord (reader : SexpReader) : SexpReader :=
  match reader.word with
  | [] => reader
  | word =>
      { reader with
        word := []
        field := none
        stack := ⟨reader.field, String.ofList word.reverse, []⟩ :: reader.stack }

def close (reader : SexpReader) : SexpReader :=
  match reader.stack with
  | [] => reader
  | ⟨field, name, latest⟩ :: outer =>
      { reader with stack := outer }.attach (.mk field name latest.reverse)

/-- Read a character. A word before a colon is a field, any other the name of an entry. -/
def read (reader : SexpReader) : Char → SexpReader
  | '(' => reader
  | ' ' => reader.endWord
  | ')' => reader.endWord.close
  | ':' => { reader with word := [], field := Field.ofKey? (String.ofList reader.word.reverse) }
  | letter => { reader with word := letter :: reader.word }

end SexpReader

def NamedEntry.ofSexp? (text : String) : Option NamedEntry :=
  match text.toList.foldl SexpReader.read ⟨[], none, [], []⟩ with
  | ⟨[], none, [], [entry]⟩ => some entry
  | _ => none

/-! ### Words -/

/-- Whether a text has letters only, none of which is a mark. -/
def IsSexpWord (text : String) : Prop :=
  text.toList ≠ [] ∧ ∀ letter ∈ text.toList, letter ∉ [' ', '(', ')', ':']

-- Letter by letter: a search for an instance may settle on one that tries all characters there are.
instance (text : String) : Decidable (IsSexpWord text) :=
  decidable_of_iff
    (text.toList ≠ [] ∧ text.toList.all (fun letter => letter ∉ [' ', '(', ')', ':']) = true)
    (by simp [IsSexpWord])

theorem NodeKind.isSexpWord_name (kind : NodeKind) : IsSexpWord kind.name := by
  cases kind <;> decide +kernel

theorem TokenKind.isSexpWord_leafName {kind : TokenKind} {name : String}
    (named : kind.leafName? = some name) : IsSexpWord name := by
  unfold leafName? at named
  split at named <;> cases named <;> decide +kernel

theorem Field.isSexpWord_key (field : Field) : IsSexpWord field.key := by
  cases field <;> decide +kernel

theorem Field.ofKey?_key (field : Field) : Field.ofKey? field.key = some field := by
  cases field <;> decide +kernel

inductive NamedEntry.IsLegible : NamedEntry → Prop
  | mk {field : Option Field} {name : String} {children : List NamedEntry} :
      IsSexpWord name → (∀ child ∈ children, child.IsLegible) → IsLegible (.mk field name children)

mutual

theorem Child.isLegible_named (parent : NodeKind) (child : Child) :
    ∀ entry ∈ child.named parent, entry.IsLegible := by
  cases child with
  | leaf field token =>
      intro entry member
      rw [Child.named] at member
      split at member
      · cases member
      · cases named : token.kind.leafName? with
        | none =>
            rw [named] at member
            cases member
        | some name =>
            rw [named] at member
            obtain rfl := List.mem_singleton.mp member
            exact .mk (TokenKind.isSexpWord_leafName named) (List.forall_mem_nil _)
  | branch field kind span children =>
      rw [Child.named]
      exact List.forall_mem_singleton.mpr
        (.mk kind.isSexpWord_name (Child.isLegible_namedOfList kind children))

theorem Child.isLegible_namedOfList (parent : NodeKind) (children : List Child) :
    ∀ entry ∈ Child.namedOfList parent children, entry.IsLegible := by
  cases children with
  | nil => exact List.forall_mem_nil _
  | cons child rest =>
      rw [Child.namedOfList]
      exact List.forall_mem_append.mpr
        ⟨Child.isLegible_named parent child, Child.isLegible_namedOfList parent rest⟩

end

theorem Node.isLegible_named (node : Node) : node.named.IsLegible :=
  .mk node.kind.isSexpWord_name (Child.isLegible_namedOfList node.kind node.children)

/-! ### Reading back -/

namespace SexpReader

theorem endWord_endWord (reader : SexpReader) : reader.endWord.endWord = reader.endWord := by
  rcases reader with ⟨_ | ⟨letter, word⟩, field, stack, finished⟩ <;> rfl

theorem read_letter {letter : Char} (plain : letter ∉ [' ', '(', ')', ':']) (reader : SexpReader) :
    reader.read letter = { reader with word := letter :: reader.word } := by
  simp only [List.mem_cons, List.not_mem_nil, or_false, not_or] at plain
  obtain ⟨blank, opening, closing, colon⟩ := plain
  unfold read
  split <;> first | contradiction | rfl

theorem foldl_read_letters {letters : List Char}
    (plain : ∀ letter ∈ letters, letter ∉ [' ', '(', ')', ':']) (reader : SexpReader) :
    letters.foldl read reader = { reader with word := letters.reverse ++ reader.word } := by
  induction letters generalizing reader with
  | nil => rfl
  | cons letter rest ih =>
      obtain ⟨first, later⟩ := List.forall_mem_cons.mp plain
      rw [List.foldl_cons, read_letter first, ih later]
      simp

theorem foldl_read_fieldLabel (field : Option Field) (stack : List OpenEntry)
    (finished : List NamedEntry) :
    (fieldLabel field).foldl read ⟨[], none, stack, finished⟩ = ⟨[], field, stack, finished⟩ := by
  cases field with
  | none => rfl
  | some field =>
      rw [fieldLabel, List.foldl_append, foldl_read_letters field.isSexpWord_key.2]
      simp [read, endWord, Field.ofKey?_key]

/-- A word that is followed by entries, or by the end of the entry that it names, has ended. -/
theorem foldl_read_endWord (entries : List NamedEntry) (reader : SexpReader) :
    (NamedEntry.textOfList entries ++ [')']).foldl read reader =
      (NamedEntry.textOfList entries ++ [')']).foldl read reader.endWord := by
  cases entries with
  | nil =>
      change reader.endWord.close = reader.endWord.endWord.close
      rw [endWord_endWord]
  | cons entry rest =>
      rw [NamedEntry.textOfList, List.cons_append, List.foldl_cons, List.foldl_cons]
      change List.foldl read reader.endWord _ = List.foldl read reader.endWord.endWord _
      rw [endWord_endWord]

mutual

/-- Reading the text of an entry puts it behind the others, wherever that is. -/
theorem foldl_read_text (entry : NamedEntry) (legible : entry.IsLegible) (stack : List OpenEntry)
    (finished : List NamedEntry) :
    entry.text.foldl read ⟨[], none, stack, finished⟩ =
      attach ⟨[], none, stack, finished⟩ entry := by
  rcases entry with ⟨field, name, children⟩
  obtain ⟨⟨some, plain⟩, inner⟩ := legible
  -- Nothing marks the end of a name but the blank or the closing mark that comes next.
  have opened : (SexpReader.mk name.toList.reverse field stack finished).endWord =
      ⟨[], none, ⟨field, name, []⟩ :: stack, finished⟩ := by
    rw [endWord]
    split
    · next empty => exact absurd (List.reverse_eq_nil_iff.mp empty) some
    · rw [List.reverse_reverse, String.ofList_toList]
  rw [NamedEntry.text, List.foldl_append, foldl_read_fieldLabel, List.foldl_cons]
  change List.foldl read ⟨[], field, stack, finished⟩ _ = _
  rw [List.foldl_append, foldl_read_letters plain, List.append_nil, foldl_read_endWord, opened,
    List.foldl_append, foldl_read_textOfList children inner]
  change attach ⟨[], none, stack, finished⟩ (.mk field name (children.reverse ++ []).reverse) = _
  rw [List.append_nil, List.reverse_reverse]

theorem foldl_read_textOfList (entries : List NamedEntry) (legible : ∀ entry ∈ entries, entry.IsLegible)
    (innermost : OpenEntry) (outer : List OpenEntry) (finished : List NamedEntry) :
    (NamedEntry.textOfList entries).foldl read ⟨[], none, innermost :: outer, finished⟩ =
      ⟨[], none, { innermost with latest := entries.reverse ++ innermost.latest } :: outer,
        finished⟩ := by
  cases entries with
  | nil => rfl
  | cons entry rest =>
      obtain ⟨first, later⟩ := List.forall_mem_cons.mp legible
      rw [NamedEntry.textOfList, List.foldl_cons]
      change List.foldl read ⟨[], none, innermost :: outer, finished⟩ _ = _
      rw [List.foldl_append, foldl_read_text entry first]
      change List.foldl read
        ⟨[], none, { innermost with latest := entry :: innermost.latest } :: outer, finished⟩ _ = _
      rw [foldl_read_textOfList rest later, List.reverse_cons, List.append_assoc]
      rfl

end

end SexpReader

theorem NamedEntry.ofSexp?_eq_some {text : String} {entry : NamedEntry} (legible : entry.IsLegible)
    (written : text.toList = entry.text) : ofSexp? text = some entry := by
  rw [ofSexp?, written, SexpReader.foldl_read_text entry legible]
  rfl

/-- The named skeleton of a tree is read back from its expression, and two trees have the same expression
just if they have the same named skeleton. -/
theorem Node.sexp_faithful (node other : Node) :
    NamedEntry.ofSexp? node.sexp = some node.named ∧
      (node.sexp = other.sexp ↔ node.named = other.named) := by
  have readBack (tree : Node) : NamedEntry.ofSexp? tree.sexp = some tree.named :=
    NamedEntry.ofSexp?_eq_some tree.isLegible_named tree.toList_sexp
  refine ⟨readBack node, fun same => ?_, fun same => ?_⟩
  · exact Option.some.inj ((readBack node).symm.trans (same ▸ readBack other))
  · rw [← String.toList_inj, node.toList_sexp, other.toList_sexp, same]

end JaiSyntax
