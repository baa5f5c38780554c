/-
  What decoders read from nodes that show a tree.

  A decoder `Reads` a tree as a value if it makes that value of every node that shows the
  tree.  Decoders are put together from smaller ones, so there is one lemma for each way of
  putting them together; a record is read field by field, from one draft to the next.
-/
import HpcBlueprint.Blueprint.Encode
import HpcBlueprint.Proofs.Except
import HpcBlueprint.Proofs.Yaml.Shows

namespace HpcBlueprint.Yaml

namespace Decoder

variable {α β σ : Type}

/-! ## Scalars and collections -/

/-- A decoder makes a value of every node that shows a tree. -/
def Reads (d : Decoder α) (t : Tree) (a : α) : Prop :=
  ∀ path node, t.shownBy node → d path node = .ok a

namespace Reads

theorem text (s : String) : Reads Decoder.text (.string s) s := by
  intro path node h
  obtain ⟨mark, style, rfl⟩ := Tree.shownBy_string_iff.mp h
  rfl

theorem bool (b : Bool) : Reads Decoder.bool (.bool b) b := by
  intro path node h
  obtain ⟨mark, rfl⟩ := Tree.shownBy_bool_iff.mp h
  cases b with
  | false => rfl
  | true => rfl

/-- A mapping stands for a value that is there. -/
theorem optional {d : Decoder α} {entries : List (Tree × Tree)} {a : α}
    (h : Reads d (.mapping entries) a) :
    Reads (Decoder.optional d) (.mapping entries) (some a) := by
  intro path node hshown
  have hread := h path node hshown
  obtain ⟨mark, nodes, rfl, -⟩ := Tree.shownBy_mapping_iff.mp hshown
  simp only [Decoder.optional, hread]
  rfl

theorem eachItem {d : Decoder β} {f : α → Tree} {g : α → β} {xs : List α}
    (h : ∀ x ∈ xs, Reads d (f x) (g x)) {nodes : List Node}
    (hnodes : List.Forall₂ (fun t node => t.shownBy node) (xs.map f) nodes) (path : Path)
    (i : Nat) : Decoder.eachItem d path i nodes = .ok (xs.map g) := by
  induction xs generalizing nodes i with
  | nil =>
      cases hnodes
      rfl
  | cons x rest ih =>
      obtain ⟨node, nodes', hnode, hrest, rfl⟩ := List.forall₂_cons_left_iff.mp hnodes
      have hx := h x List.mem_cons_self (.index i :: path) node hnode
      have hmore := ih (fun y hy => h y (List.mem_cons_of_mem _ hy)) hrest (i + 1)
      simp only [Decoder.eachItem, hx, hmore]
      rfl

theorem list {d : Decoder β} {f : α → Tree} {g : α → β} {xs : List α}
    (h : ∀ x ∈ xs, Reads d (f x) (g x)) :
    Reads (Decoder.list d) (.sequence (xs.map f)) (xs.map g) := by
  intro path node hshown
  obtain ⟨mark, nodes, rfl, hnodes⟩ := Tree.shownBy_sequence_iff.mp hshown
  simp only [Decoder.list, eachItem h hnodes path 0]
  rfl

theorem eachEntry {d : Decoder α} {f : α → Tree} {m : List (String × α)}
    (h : ∀ k x, (k, x) ∈ m → Reads d (f x) x) {nodes : List (Option String × Node × Node)}
    (hnodes : List.Forall₂ (fun e n => e.1.shownBy n.2.1 ∧ e.2.shownBy n.2.2)
      (m.map fun (k, x) => (Tree.string k, f x)) nodes) (path : Path) :
    Decoder.eachEntry d path nodes = .ok m := by
  induction m generalizing nodes with
  | nil =>
      cases hnodes
      rfl
  | cons entry rest ih =>
      obtain ⟨k, x⟩ := entry
      obtain ⟨⟨label, key, value⟩, nodes', ⟨hkey, hvalue⟩, hrest, rfl⟩ :=
        List.forall₂_cons_left_iff.mp hnodes
      have hk := Reads.text k path key hkey
      have hx := h k x List.mem_cons_self (entryStep label :: path) value hvalue
      have hmore := ih (fun k' y hy => h k' y (List.mem_cons_of_mem _ hy)) hrest
      simp only [Decoder.eachEntry, hk, hx, hmore]
      rfl

theorem pairs {d : Decoder α} {f : α → Tree} {m : List (String × α)}
    (h : ∀ k x, (k, x) ∈ m → Reads d (f x) x) :
    Reads (Decoder.pairs d) (.mapping (m.map fun (k, x) => (.string k, f x))) m := by
  intro path node hshown
  obtain ⟨mark, nodes, rfl, hnodes⟩ := Tree.shownBy_mapping_iff.mp hshown
  simp only [Decoder.pairs, eachEntry h hnodes path]
  rfl

/-! ## Any data -/

theorem tree_null : Reads Decoder.tree .null .null := by
  intro path node h
  obtain ⟨mark, rfl⟩ := Tree.shownBy_null_iff.mp h
  rfl

theorem tree_bool (b : Bool) : Reads Decoder.tree (.bool b) (.bool b) := by
  intro path node h
  obtain ⟨mark, rfl⟩ := Tree.shownBy_bool_iff.mp h
  rfl

theorem tree_number (n : Number) : Reads Decoder.tree (.number n) (.number n) := by
  intro path node h
  obtain ⟨mark, rfl⟩ := Tree.shownBy_number_iff.mp h
  rfl

theorem tree_string (s : String) : Reads Decoder.tree (.string s) (.string s) := by
  intro path node h
  obtain ⟨mark, style, rfl⟩ := Tree.shownBy_string_iff.mp h
  rfl

theorem treeItems {items : List Tree} (h : ∀ t ∈ items, Reads Decoder.tree t t)
    {nodes : List Node} (hnodes : List.Forall₂ (fun t node => t.shownBy node) items nodes)
    (path : Path) (i : Nat) : Decoder.treeItems path i nodes = .ok items := by
  induction items generalizing nodes i with
  | nil =>
      cases hnodes
      rfl
  | cons t rest ih =>
      obtain ⟨node, nodes', hnode, hrest, rfl⟩ := List.forall₂_cons_left_iff.mp hnodes
      have ht := h t List.mem_cons_self (.index i :: path) node hnode
      have hmore := ih (fun u hu => h u (List.mem_cons_of_mem _ hu)) hrest (i + 1)
      rw [Decoder.treeItems, ht, Except.bind, hmore]
      rfl

theorem tree_sequence {items : List Tree} (h : ∀ t ∈ items, Reads Decoder.tree t t) :
    Reads Decoder.tree (.sequence items) (.sequence items) := by
  intro path node hshown
  obtain ⟨mark, nodes, rfl, hnodes⟩ := Tree.shownBy_sequence_iff.mp hshown
  rw [Decoder.tree, treeItems h hnodes path 0]
  rfl

theorem treeEntries {entries : List (Tree × Tree)}
    (h : ∀ e ∈ entries, Reads Decoder.tree e.1 e.1 ∧ Reads Decoder.tree e.2 e.2)
    (seen : List Tree) (fresh : ∀ e ∈ entries, ∀ k ∈ seen, k.sameKey e.1 = false)
    (distinct : entries.Pairwise fun e e' => e.1.sameKey e'.1 = false)
    {nodes : List (Option String × Node × Node)}
    (hnodes : List.Forall₂ (fun e n => e.1.shownBy n.2.1 ∧ e.2.shownBy n.2.2) entries nodes)
    (path : Path) : Decoder.treeEntries path seen nodes = .ok entries := by
  induction entries generalizing seen nodes with
  | nil =>
      cases hnodes
      rfl
  | cons e rest ih =>
      obtain ⟨⟨label, key, value⟩, nodes', ⟨hkey, hvalue⟩, hrest, rfl⟩ :=
        List.forall₂_cons_left_iff.mp hnodes
      obtain ⟨hfirst, hdistinct⟩ := List.pairwise_cons.mp distinct
      have hk := (h e List.mem_cons_self).1 path key hkey
      have ht := (h e List.mem_cons_self).2 (entryStep label :: path) value hvalue
      have hnew : seen.find? (·.sameKey e.1) = none := by
        rw [List.find?_eq_none]
        intro k hmem
        simp [fresh e List.mem_cons_self k hmem]
      -- one key more has been seen, and what is left is different from that too
      have hmore := ih (fun e' he' => h e' (List.mem_cons_of_mem _ he')) (e.1 :: seen)
        (by
          intro e' he' k hmem
          rcases List.mem_cons.mp hmem with rfl | hmem
          · exact hfirst e' he'
          · exact fresh e' (List.mem_cons_of_mem _ he') k hmem)
        hdistinct hrest
      simp only [Decoder.treeEntries, hk, ht, hnew, hmore, Except.bind, Except.map]

/-- A mapping without a key that occurs twice reads as itself. -/
theorem tree_mapping {entries : List (Tree × Tree)}
    (h : ∀ e ∈ entries, Reads Decoder.tree e.1 e.1 ∧ Reads Decoder.tree e.2 e.2)
    (distinct : entries.Pairwise fun e e' => e.1.sameKey e'.1 = false) :
    Reads Decoder.tree (.mapping entries) (.mapping entries) := by
  intro path node hshown
  obtain ⟨mark, nodes, rfl, hnodes⟩ := Tree.shownBy_mapping_iff.mp hshown
  have hentries := treeEntries h [] (by simp) distinct hnodes path
  rw [Decoder.tree, hentries]
  rfl

/-- A value that is made of a tree. -/
theorem ofTree {read : Tree → Except String α} {t : Tree} {a : α}
    (h : Reads Decoder.tree t t) (hread : read t = .ok a) : Reads (Decoder.ofTree read) t a := by
  intro path node hshown
  rw [Decoder.ofTree, h path node hshown]
  simp [bind, Except.bind, hread]

end Reads

/-! ## Records -/

/-- Reading entries that show fields takes one draft to another, if no field has been seen
    before whose name is among `names`. -/
def ReadsFields (known : List String) (read : String → σ → Decoder σ) (names : List String)
    (fields : List (Tree × Tree)) (draft done : σ) : Prop :=
  ∀ path seen nodes, (∀ name ∈ names, name ∉ seen) →
    List.Forall₂ (fun e n => e.1.shownBy n.2.1 ∧ e.2.shownBy n.2.2) fields nodes →
    eachField known read path seen draft nodes = .ok done

namespace ReadsFields

variable {known names : List String} {read : String → σ → Decoder σ}
  {fields : List (Tree × Tree)} {draft done : σ} {name : String} {t : Tree}

theorem nil : ReadsFields known read names [] draft draft := by
  intro path seen nodes _ hnodes
  cases hnodes
  rfl

/-- A field that is always written. -/
theorem field (next : σ) (hknown : name ∈ known) (hname : name ∉ names)
    (hread : Reads (read name draft) t next)
    (rest : ReadsFields known read names fields next done) :
    ReadsFields known read (name :: names) (Tree.field name t :: fields) draft done := by
  intro path seen nodes hseen hnodes
  obtain ⟨⟨label, key, value⟩, nodes', ⟨hkey, hvalue⟩, hrest, rfl⟩ :=
    List.forall₂_cons_left_iff.mp hnodes
  obtain ⟨mark, style, rfl⟩ := Tree.shownBy_string_iff.mp hkey
  have hnew : name ∉ seen := hseen name List.mem_cons_self
  have hvalue := hread (entryStep label :: path) value hvalue
  have hmore := rest path (name :: seen) nodes' (by
    intro other hother hmem
    rcases List.mem_cons.mp hmem with rfl | hmem
    · exact hname hother
    · exact hseen other (List.mem_cons_of_mem _ hother) hmem) hrest
  simp [eachField, fieldName, hknown, hnew, hvalue, hmore, bind, Except.bind]

/-- A field that is left out where its value is the one with which reading begins. -/
theorem fieldIf {present : Bool} {a first : α} (store : α → σ) (hknown : name ∈ known)
    (hname : name ∉ names) (hread : present = true → Reads (read name (store first)) t (store a))
    (hskip : present = false → a = first)
    (rest : ReadsFields known read names fields (store a) done) :
    ReadsFields known read (name :: names) (Tree.fieldIf present name t ++ fields) (store first)
      done := by
  cases present with
  | true => exact field _ hknown hname (hread rfl) rest
  | false =>
      -- the draft holds the value already, so reading goes on with the same draft
      rw [← hskip rfl]
      intro path seen nodes hseen hnodes
      exact rest path seen nodes (fun other hother => hseen other (List.mem_cons_of_mem _ hother))
        hnodes

/-- A record whose fields make a complete draft. -/
theorem record (names : List String) (done : σ) {type : String}
    {finish : σ → Except Problem α} {a : α} (h : ReadsFields known read names fields draft done)
    (hfinish : finish done = .ok a) :
    Reads (Decoder.record type known draft read finish) (.mapping fields) a := by
  intro path node hshown
  obtain ⟨mark, nodes, rfl, hnodes⟩ := Tree.shownBy_mapping_iff.mp hshown
  have hfields := h path [] nodes (by simp) hnodes
  simp only [Decoder.record, hfields, hfinish, bind, Except.bind]
  rfl

end ReadsFields

end Decoder
end HpcBlueprint.Yaml
