/-
  Nodes that show a document tree.

  A tree may stand anywhere in a text, and its texts in any style.  `Tree.shownBy` holds of
  every node that means the tree and carries no tags; the document that is made of a tree
  without ever being written down is one of them.
-/
import HpcBlueprint.Yaml.Node
import Mathlib.Data.List.Forall2

namespace HpcBlueprint.Yaml

/-! ## Views of a node -/

namespace Node

/-- Style, text and meaning of a scalar without a tag. -/
def scalar? : Node → Option (ScalarStyle × String × Scalar)
  | .scalar _ none style text meaning => some (style, text, meaning)
  | _ => none

/-- The items of a sequence without a tag. -/
def items? : Node → Option (List Node)
  | .sequence _ none nodes => some nodes
  | _ => none

/-- The entries of a mapping without a tag. -/
def entries? : Node → Option (List (Option String × Node × Node))
  | .mapping _ none nodes => some nodes
  | _ => none

variable {node : Node}

theorem scalar?_eq_some_iff {style : ScalarStyle} {text : String} {meaning : Scalar} :
    node.scalar? = some (style, text, meaning) ↔
      ∃ mark, node = .scalar mark none style text meaning := by
  constructor
  · intro h
    unfold scalar? at h
    split at h
    · rename_i mark style' text' meaning'
      cases h
      exact ⟨mark, rfl⟩
    · cases h
  · rintro ⟨mark, rfl⟩
    rfl

theorem items?_eq_some_iff {nodes : List Node} :
    node.items? = some nodes ↔ ∃ mark, node = .sequence mark none nodes := by
  constructor
  · intro h
    unfold items? at h
    split at h
    · rename_i mark nodes'
      cases h
      exact ⟨mark, rfl⟩
    · cases h
  · rintro ⟨mark, rfl⟩
    rfl

theorem entries?_eq_some_iff {nodes : List (Option String × Node × Node)} :
    node.entries? = some nodes ↔ ∃ mark, node = .mapping mark none nodes := by
  constructor
  · intro h
    unfold entries? at h
    split at h
    · rename_i mark nodes'
      cases h
      exact ⟨mark, rfl⟩
    · cases h
  · rintro ⟨mark, rfl⟩
    rfl

end Node

namespace Tree

/-! ## Nodes that show a tree -/

mutual

/-- Whether a node means a tree and has no tags. -/
@[simp] def shownBy : Tree → Node → Bool
  | .null, node => node.scalar? == some (.plain, "null", .null)
  | .bool b, node => node.scalar? == some (.plain, toString b, .bool b)
  | .number n, node => node.scalar? == some (.plain, n.text, .number n)
  | .string s, node => node.scalar?.map (·.2) == some (s, .text s)
  | .sequence items, node => node.items?.any (itemsShownBy items)
  | .mapping entries, node => node.entries?.any (entriesShownBy entries)
  | .tagged _ _, _ => false

/-- Whether nodes show the items of a sequence. -/
@[simp] def itemsShownBy : List Tree → List Node → Bool
  | [], nodes => nodes.isEmpty
  | t :: rest, nodes =>
    match nodes with
    | [] => false
    | node :: nodes => shownBy t node && itemsShownBy rest nodes

/-- Whether nodes show the entries of a mapping. -/
@[simp] def entriesShownBy : List (Tree × Tree) → List (Option String × Node × Node) → Bool
  | [], nodes => nodes.isEmpty
  | (k, t) :: rest, nodes =>
    match nodes with
    | [] => false
    | (_, key, value) :: nodes => shownBy k key && shownBy t value && entriesShownBy rest nodes

end

variable {node : Node}

theorem shownBy_null_iff :
    Tree.null.shownBy node ↔ ∃ mark, node = .scalar mark none .plain "null" .null := by
  rw [shownBy, beq_iff_eq, Node.scalar?_eq_some_iff]

theorem shownBy_bool_iff {b : Bool} :
    (Tree.bool b).shownBy node ↔
      ∃ mark, node = .scalar mark none .plain (toString b) (.bool b) := by
  rw [shownBy, beq_iff_eq, Node.scalar?_eq_some_iff]

theorem shownBy_number_iff {n : Number} :
    (Tree.number n).shownBy node ↔
      ∃ mark, node = .scalar mark none .plain n.text (.number n) := by
  rw [shownBy, beq_iff_eq, Node.scalar?_eq_some_iff]

theorem shownBy_string_iff {s : String} :
    (Tree.string s).shownBy node ↔ ∃ mark style, node = .scalar mark none style s (.text s) := by
  rw [shownBy, beq_iff_eq, Option.map_eq_some_iff]
  constructor
  · rintro ⟨⟨style, text, meaning⟩, hscalar, heq⟩
    obtain ⟨rfl, rfl⟩ := Prod.mk.inj heq
    obtain ⟨mark, rfl⟩ := Node.scalar?_eq_some_iff.mp hscalar
    exact ⟨mark, style, rfl⟩
  · rintro ⟨mark, style, rfl⟩
    exact ⟨(style, s, .text s), rfl, rfl⟩

theorem itemsShownBy_iff {items : List Tree} {nodes : List Node} :
    itemsShownBy items nodes ↔ List.Forall₂ (fun t node => shownBy t node) items nodes := by
  induction items generalizing nodes with
  | nil => simp
  | cons t rest ih =>
      cases nodes with
      | nil => simp
      | cons node nodes => rw [itemsShownBy, Bool.and_eq_true, ih, List.forall₂_cons]

theorem entriesShownBy_iff {entries : List (Tree × Tree)}
    {nodes : List (Option String × Node × Node)} :
    entriesShownBy entries nodes ↔
      List.Forall₂ (fun e n => e.1.shownBy n.2.1 ∧ e.2.shownBy n.2.2) entries nodes := by
  induction entries generalizing nodes with
  | nil => simp
  | cons e rest ih =>
      cases nodes with
      | nil => simp
      | cons n nodes =>
          rw [entriesShownBy, Bool.and_eq_true, Bool.and_eq_true, ih, List.forall₂_cons]

theorem shownBy_sequence_iff {items : List Tree} :
    (Tree.sequence items).shownBy node ↔
      ∃ mark nodes, node = .sequence mark none nodes ∧
        List.Forall₂ (fun t node => shownBy t node) items nodes := by
  rw [shownBy, Option.any_eq_true]
  constructor
  · rintro ⟨nodes, hitems, hshown⟩
    obtain ⟨mark, rfl⟩ := Node.items?_eq_some_iff.mp hitems
    exact ⟨mark, nodes, rfl, itemsShownBy_iff.mp hshown⟩
  · rintro ⟨mark, nodes, rfl, hshown⟩
    exact ⟨nodes, rfl, itemsShownBy_iff.mpr hshown⟩

theorem shownBy_mapping_iff {entries : List (Tree × Tree)} :
    (Tree.mapping entries).shownBy node ↔
      ∃ mark nodes, node = .mapping mark none nodes ∧
        List.Forall₂ (fun e n => e.1.shownBy n.2.1 ∧ e.2.shownBy n.2.2) entries nodes := by
  rw [shownBy, Option.any_eq_true]
  constructor
  · rintro ⟨nodes, hentries, hshown⟩
    obtain ⟨mark, rfl⟩ := Node.entries?_eq_some_iff.mp hentries
    exact ⟨mark, nodes, rfl, entriesShownBy_iff.mp hshown⟩
  · rintro ⟨mark, nodes, rfl, hshown⟩
    exact ⟨nodes, rfl, entriesShownBy_iff.mpr hshown⟩

/-! ## Trees that were never written down -/

attribute [simp] Node.ofTree Node.ofTrees Node.ofEntries

/-- The document made of a tree shows it. -/
def IsShown (t : Tree) : Prop := t.shownBy (Node.ofTree t)

@[simp] theorem isShown_null : IsShown .null :=
  shownBy_null_iff.mpr ⟨Mark.start, by simp⟩

@[simp] theorem isShown_bool (b : Bool) : IsShown (.bool b) :=
  shownBy_bool_iff.mpr ⟨Mark.start, by simp⟩

@[simp] theorem isShown_number (n : Number) : IsShown (.number n) :=
  shownBy_number_iff.mpr ⟨Mark.start, by simp⟩

@[simp] theorem isShown_string (s : String) : IsShown (.string s) :=
  shownBy_string_iff.mpr ⟨Mark.start, .doubleQuoted, by simp⟩

@[simp] theorem isShown_sequence_iff {items : List Tree} :
    IsShown (.sequence items) ↔ ∀ t ∈ items, t.IsShown := by
  have hitems : itemsShownBy items (Node.ofTrees items) ↔ ∀ t ∈ items, t.IsShown := by
    induction items with
    | nil => simp
    | cons t rest ih =>
        rw [Node.ofTrees, itemsShownBy, Bool.and_eq_true, ih, List.forall_mem_cons]
        rfl
  rw [← hitems, IsShown, Node.ofTree, shownBy]
  rfl

/-- The entries of a mapping are shown by the document made of it. -/
def EntriesShown (entries : List (Tree × Tree)) : Prop :=
  ∀ e ∈ entries, e.1.IsShown ∧ e.2.IsShown

@[simp] theorem entriesShown_nil : EntriesShown [] := fun _ h => absurd h List.not_mem_nil

@[simp] theorem entriesShown_cons {e : Tree × Tree} {entries : List (Tree × Tree)} :
    EntriesShown (e :: entries) ↔ (e.1.IsShown ∧ e.2.IsShown) ∧ EntriesShown entries :=
  List.forall_mem_cons

@[simp] theorem entriesShown_append {entries more : List (Tree × Tree)} :
    EntriesShown (entries ++ more) ↔ EntriesShown entries ∧ EntriesShown more :=
  List.forall_mem_append

@[simp] theorem isShown_mapping_iff {entries : List (Tree × Tree)} :
    IsShown (.mapping entries) ↔ EntriesShown entries := by
  have hentries : entriesShownBy entries (Node.ofEntries entries) ↔ EntriesShown entries := by
    induction entries with
    | nil => simp
    | cons e rest ih =>
        rw [Node.ofEntries, entriesShownBy, Bool.and_eq_true, Bool.and_eq_true, ih,
          entriesShown_cons]
        rfl
  rw [← hentries, IsShown, Node.ofTree, shownBy]
  rfl

end Tree
end HpcBlueprint.Yaml
