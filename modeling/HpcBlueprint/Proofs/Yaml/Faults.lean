/-
  Faults in documents, and decoders that notice them.

  Where a text cannot be read on, its document holds a fault.  The decoders of blueprints
  pass over nothing, so whatever they read is without faults (`Notices`); and in a document
  without faults nothing can be wrong but its data.
-/
import HpcBlueprint.Proofs.Except
import HpcBlueprint.Yaml.Decode

namespace HpcBlueprint.Yaml

/-! ## Nodes without faults -/

/-- Nothing in a node is a fault. -/
inductive Node.Faultless : Node → Prop
  | scalar (mark : Mark) (tag : Option String) (style : ScalarStyle) (text : String)
      (meaning : Scalar) : Faultless (.scalar mark tag style text meaning)
  | sequence {mark : Mark} {tag : Option String} {items : List Node}
      (faultless : ∀ node ∈ items, node.Faultless) : Faultless (.sequence mark tag items)
  | mapping {mark : Mark} {tag : Option String} {entries : List (Option String × Node × Node)}
      (keys : ∀ e ∈ entries, e.2.1.Faultless) (values : ∀ e ∈ entries, e.2.2.Faultless) :
      Faultless (.mapping mark tag entries)
  | absent (mark : Mark) : Faultless (.absent mark)

/-- What holds of scalars, of nothing and of faults, and of a collection whenever it holds of
    all its members, holds of every node. -/
@[elab_as_elim]
theorem Node.nested {motive : Node → Prop}
    (scalar : ∀ mark tag style text meaning, motive (.scalar mark tag style text meaning))
    (sequence : ∀ mark tag items, (∀ node ∈ items, motive node) →
      motive (.sequence mark tag items))
    (mapping : ∀ mark tag entries, (∀ e ∈ entries, motive e.2.1 ∧ motive e.2.2) →
      motive (.mapping mark tag entries))
    (absent : ∀ mark, motive (.absent mark)) (fault : ∀ e, motive (.fault e)) (node : Node) :
    motive node :=
  -- the recursor goes through lists of items, lists of entries and single entries on its own
  @Node.rec motive (fun items => ∀ node ∈ items, motive node)
    (fun entries => ∀ e ∈ entries, motive e.2.1 ∧ motive e.2.2)
    (fun e => motive e.2.1 ∧ motive e.2.2) (fun e => motive e.1 ∧ motive e.2)
    scalar sequence mapping absent fault
    (List.forall_mem_nil _) (fun _ _ first rest => List.forall_mem_cons.mpr ⟨first, rest⟩)
    (List.forall_mem_nil _) (fun _ _ first rest => List.forall_mem_cons.mpr ⟨first, rest⟩)
    (fun _ _ h => h) (fun _ _ key value => ⟨key, value⟩) node

@[simp] theorem placedAt_eq_ok {α : Type} {node : Node} {path : Path} {r : Except Error α}
    {a : α} : placedAt node path r = .ok a ↔ r = .ok a :=
  mapError_eq_ok

theorem refuse_ne_ok {α : Type} {wanted : String} {path : Path} {node : Node} {a : α} :
    refuse wanted path node ≠ .ok a := by
  rw [refuse, ne_eq, placedAt_eq_ok]
  nofun

theorem faultless_of_isBlankNode {node : Node} (h : isBlankNode node = true) :
    node.Faultless := by
  cases node with
  | scalar => exact .scalar ..
  | absent mark => exact .absent mark
  | sequence | mapping | fault => cases h

namespace Decoder

variable {α β σ : Type}

/-! ## Noticing faults -/

/-- A decoder reads nothing from a node if there is a fault in it. -/
def NoticesAt (d : Decoder α) (node : Node) : Prop :=
  ∀ path a, d path node = .ok a → node.Faultless

/-- A decoder reads nothing from a node in which there is a fault. -/
def Notices (d : Decoder α) : Prop := ∀ node, d.NoticesAt node

theorem notices_text : Notices text := by
  intro node path a h
  cases node with
  | scalar => exact .scalar ..
  | sequence | mapping | absent | fault => exact absurd h refuse_ne_ok

theorem notices_bool : Notices bool := by
  intro node path a h
  cases node with
  | scalar => exact .scalar ..
  | sequence | mapping | absent | fault => exact absurd h refuse_ne_ok

theorem notices_variant (variants : List (String × α)) : Notices (variant variants) := by
  intro node path a h
  cases node with
  | scalar => exact .scalar ..
  | sequence | mapping =>
      -- a tag on a collection may name a variant, but then nothing may stand behind it
      dsimp only [variant] at h
      split at h
      · obtain ⟨b, -, hunit⟩ := bind_eq_ok.mp h
        exact absurd hunit refuse_ne_ok
      · exact absurd h refuse_ne_ok
  | absent | fault => exact absurd h refuse_ne_ok

namespace Notices

theorem map {d : Decoder α} (h : Notices d) (f : α → β) :
    Notices fun path node => (d path node).map f := by
  intro node path b hread
  obtain ⟨a, ha, -⟩ := map_eq_ok.mp hread
  exact h node path a ha

theorem optional {d : Decoder α} (h : Notices d) : Notices (Decoder.optional d) := by
  intro node path a hread
  cases node with
  | scalar => exact .scalar ..
  | absent mark => exact .absent mark
  | fault e => cases hread
  | sequence | mapping =>
      obtain ⟨b, hb, -⟩ := functorMap_eq_ok.mp hread
      exact h _ path b hb

theorem eachItem {d : Decoder α} (h : Notices d) {path : Path} {i : Nat} {items : List Node}
    {as : List α} (hread : Decoder.eachItem d path i items = .ok as) :
    ∀ node ∈ items, node.Faultless := by
  induction items generalizing i as with
  | nil => exact List.forall_mem_nil _
  | cons first rest ih =>
      simp only [Decoder.eachItem, bind_eq_ok] at hread
      obtain ⟨a, ha, more, hmore, -⟩ := hread
      exact List.forall_mem_cons.mpr ⟨h first _ a ha, ih hmore⟩

theorem list {d : Decoder α} (h : Notices d) : Notices (Decoder.list d) := by
  intro node path as hread
  unfold Decoder.list at hread
  split at hread
  · exact .sequence (h.eachItem (placedAt_eq_ok.mp hread))
  · split at hread
    · rename_i hblank
      exact faultless_of_isBlankNode hblank
    · exact absurd hread refuse_ne_ok

theorem eachEntry {d : Decoder α} (h : Notices d) {path : Path}
    {entries : List (Option String × Node × Node)} {as : List (String × α)}
    (hread : Decoder.eachEntry d path entries = .ok as) :
    ∀ e ∈ entries, e.2.1.Faultless ∧ e.2.2.Faultless := by
  induction entries generalizing as with
  | nil => exact List.forall_mem_nil _
  | cons first rest ih =>
      simp only [Decoder.eachEntry, bind_eq_ok] at hread
      obtain ⟨k, hk, a, ha, more, hmore, -⟩ := hread
      exact List.forall_mem_cons.mpr ⟨⟨notices_text _ _ k hk, h _ _ a ha⟩, ih hmore⟩

theorem pairs {d : Decoder α} (h : Notices d) : Notices (Decoder.pairs d) := by
  intro node path as hread
  unfold Decoder.pairs at hread
  split at hread
  · have hentries := h.eachEntry (placedAt_eq_ok.mp hread)
    exact .mapping (fun e he => (hentries e he).1) fun e he => (hentries e he).2
  · split at hread
    · rename_i hblank
      exact faultless_of_isBlankNode hblank
    · exact absurd hread refuse_ne_ok

/-! ## Records -/

theorem fieldName {known : List String} : Notices (Decoder.fieldName known) := by
  intro node path a hread
  cases node with
  | scalar => exact .scalar ..
  | sequence | mapping | absent | fault => exact absurd hread refuse_ne_ok

theorem eachField {known : List String} {read : String → σ → Decoder σ}
    (h : ∀ name draft, Notices (read name draft)) {path : Path} {seen : List String}
    {draft done : σ} {entries : List (Option String × Node × Node)}
    (hread : Decoder.eachField known read path seen draft entries = .ok done) :
    ∀ e ∈ entries, e.2.1.Faultless ∧ e.2.2.Faultless := by
  induction entries generalizing seen draft with
  | nil => exact List.forall_mem_nil _
  | cons first rest ih =>
      simp only [Decoder.eachField, bind_eq_ok] at hread
      obtain ⟨name, hname, hread⟩ := hread
      split at hread
      · cases hread
      · obtain ⟨next, hnext, hrest⟩ := bind_eq_ok.mp hread
        exact List.forall_mem_cons.mpr
          ⟨⟨fieldName _ _ name hname, h name draft _ _ next hnext⟩, ih hrest⟩

/-- A record has no other fields than those that are read. -/
theorem record {type : String} {known : List String} {draft : σ} {read : String → σ → Decoder σ}
    {finish : σ → Except Problem α} (h : ∀ name draft, Notices (read name draft)) :
    Notices (Decoder.record type known draft read finish) := by
  intro node path a hread
  unfold Decoder.record at hread
  dsimp only at hread
  split at hread
  · obtain ⟨done, hdone, -⟩ := bind_eq_ok.mp (placedAt_eq_ok.mp hread)
    have hentries := eachField h hdone
    exact .mapping (fun e he => (hentries e he).1) fun e he => (hentries e he).2
  · split at hread
    · rename_i hblank
      exact faultless_of_isBlankNode hblank
    · exact absurd hread refuse_ne_ok

end Notices

/-! ## Any data -/

theorem faultless_of_alternativeItems {items : List Node}
    (h : ∀ node ∈ items, NoticesAt alternative node) {path : Path} {i : Nat}
    (hread : alternativeItems path i items = .ok ()) : ∀ node ∈ items, node.Faultless := by
  induction items generalizing i with
  | nil => exact List.forall_mem_nil _
  | cons first rest ih =>
      rw [alternativeItems, exceptBind_eq_ok] at hread
      obtain ⟨a, ha, hrest⟩ := hread
      obtain ⟨hfirst, hmore⟩ := List.forall_mem_cons.mp h
      exact List.forall_mem_cons.mpr ⟨hfirst _ a ha, ih hmore hrest⟩

theorem faultless_of_alternativeEntries {entries : List (Option String × Node × Node)}
    (h : ∀ e ∈ entries, NoticesAt alternative e.2.1 ∧ NoticesAt alternative e.2.2) {path : Path}
    (hread : alternativeEntries path entries = .ok ()) :
    ∀ e ∈ entries, e.2.1.Faultless ∧ e.2.2.Faultless := by
  induction entries with
  | nil => exact List.forall_mem_nil _
  | cons first rest ih =>
      simp only [alternativeEntries, exceptBind_eq_ok] at hread
      obtain ⟨k, hk, v, hv, hrest⟩ := hread
      obtain ⟨hfirst, hmore⟩ := List.forall_mem_cons.mp h
      exact List.forall_mem_cons.mpr ⟨⟨hfirst.1 _ k hk, hfirst.2 _ v hv⟩, ih hmore hrest⟩

theorem faultless_of_treeItems {items : List Node} (h : ∀ node ∈ items, NoticesAt tree node)
    {path : Path} {i : Nat} {ts : List Tree} (hread : treeItems path i items = .ok ts) :
    ∀ node ∈ items, node.Faultless := by
  induction items generalizing i ts with
  | nil => exact List.forall_mem_nil _
  | cons first rest ih =>
      simp only [treeItems, exceptBind_eq_ok, map_eq_ok] at hread
      obtain ⟨t, ht, more, hrest, -⟩ := hread
      obtain ⟨hfirst, hmore⟩ := List.forall_mem_cons.mp h
      exact List.forall_mem_cons.mpr ⟨hfirst _ t ht, ih hmore hrest⟩

theorem faultless_of_treeEntries {entries : List (Option String × Node × Node)}
    (h : ∀ e ∈ entries, NoticesAt tree e.2.1 ∧ NoticesAt tree e.2.2) {path : Path}
    {seen : List Tree} {es : List (Tree × Tree)} (hread : treeEntries path seen entries = .ok es) :
    ∀ e ∈ entries, e.2.1.Faultless ∧ e.2.2.Faultless := by
  induction entries generalizing seen es with
  | nil => exact List.forall_mem_nil _
  | cons first rest ih =>
      simp only [treeEntries, exceptBind_eq_ok] at hread
      obtain ⟨k, hk, hread⟩ := hread
      split at hread
      · cases hread
      · simp only [exceptBind_eq_ok, map_eq_ok] at hread
        obtain ⟨v, hv, more, hrest, -⟩ := hread
        obtain ⟨hfirst, hmore⟩ := List.forall_mem_cons.mp h
        exact List.forall_mem_cons.mpr ⟨⟨hfirst.1 _ k hk, hfirst.2 _ v hv⟩, ih hmore hrest⟩

/-- The scalar, the items and the entries of any data are all gone through. -/
theorem notices_alternative : Notices alternative := by
  intro node path a hread
  induction node using Node.nested generalizing path a with
  | scalar => exact .scalar ..
  | absent mark => exact .absent mark
  | fault e =>
      rw [alternative] at hread
      cases hread
  | sequence mark tag items ih =>
      rw [alternative, placedAt_eq_ok] at hread
      split at hread
      · cases hread
      · obtain ⟨⟨⟩, hitems, -⟩ := map_eq_ok.mp hread
        exact .sequence (faultless_of_alternativeItems ih hitems)
  | mapping mark tag entries ih =>
      rw [alternative, placedAt_eq_ok] at hread
      split at hread
      · cases hread
      · obtain ⟨⟨⟩, hentries, -⟩ := map_eq_ok.mp hread
        have hall := faultless_of_alternativeEntries ih hentries
        exact .mapping (fun e he => (hall e he).1) fun e he => (hall e he).2

theorem notices_tree : Notices tree := by
  intro node path t hread
  induction node using Node.nested generalizing path t with
  | scalar => exact .scalar ..
  | absent mark => exact .absent mark
  | fault e =>
      rw [tree] at hread
      cases hread
  | sequence mark tag items ih =>
      rw [tree, placedAt_eq_ok] at hread
      obtain ⟨ts, hitems, -⟩ := map_eq_ok.mp hread
      exact .sequence (faultless_of_treeItems ih hitems)
  | mapping mark tag entries ih =>
      rw [tree, placedAt_eq_ok] at hread
      obtain ⟨es, hentries, -⟩ := map_eq_ok.mp hread
      have hall := faultless_of_treeEntries ih hentries
      exact .mapping (fun e he => (hall e he).1) fun e he => (hall e he).2

theorem notices_ofTree (read : Tree → Except String α) : Notices (ofTree read) := by
  intro node path a hread
  obtain ⟨t, ht, -⟩ := bind_eq_ok.mp hread
  exact notices_tree node path t ht

end Decoder

/-! ## Data that is wrong -/

/-- What is wrong is the data, not the text. -/
def Error.IsData (e : Error) : Prop := ∃ problem place, e = .data problem place

theorem Error.IsData.of_problem (problem : Problem) (place : Option Place) :
    IsData (.data problem place) := ⟨problem, place, rfl⟩

theorem isData_of_placedAt {α : Type} {node : Node} {path : Path} {r : Except Error α} {e : Error}
    (hr : ∀ e, r = .error e → e.IsData) (h : placedAt node path r = .error e) : e.IsData := by
  obtain ⟨e', he', rfl⟩ := mapError_eq_error.mp h
  obtain ⟨problem, place, rfl⟩ := hr e' he'
  cases place with
  | none => exact .of_problem _ _
  | some place => exact .of_problem _ _

namespace Decoder

theorem isData_of_treeItems {items : List Node}
    (h : ∀ node ∈ items, ∀ path e, tree path node = .error e → e.IsData) {path : Path} {i : Nat}
    {e : Error} (hread : treeItems path i items = .error e) : e.IsData := by
  induction items generalizing i with
  | nil =>
      rw [treeItems] at hread
      cases hread
  | cons first rest ih =>
      obtain ⟨hfirst, hmore⟩ := List.forall_mem_cons.mp h
      simp only [treeItems, exceptBind_eq_error, map_eq_error] at hread
      rcases hread with hfails | ⟨t, -, hfails⟩
      · exact hfirst _ e hfails
      · exact ih hmore hfails

theorem isData_of_treeEntries {entries : List (Option String × Node × Node)}
    (keys : ∀ x ∈ entries, ∀ path e, tree path x.2.1 = .error e → e.IsData)
    (values : ∀ x ∈ entries, ∀ path e, tree path x.2.2 = .error e → e.IsData) {path : Path}
    {seen : List Tree} {e : Error} (hread : treeEntries path seen entries = .error e) :
    e.IsData := by
  induction entries generalizing seen with
  | nil =>
      rw [treeEntries] at hread
      cases hread
  | cons first rest ih =>
      obtain ⟨hkey, hkeys⟩ := List.forall_mem_cons.mp keys
      obtain ⟨hvalue, hvalues⟩ := List.forall_mem_cons.mp values
      simp only [treeEntries, exceptBind_eq_error] at hread
      rcases hread with hfails | ⟨k, -, hread⟩
      · exact hkey _ e hfails
      · split at hread
        · -- the key stands there already
          cases hread
          exact .of_problem _ _
        · simp only [exceptBind_eq_error, map_eq_error] at hread
          rcases hread with hfails | ⟨v, -, hfails⟩
          · exact hvalue _ e hfails
          · exact ih hkeys hvalues hfails

/-- Without faults, only the data of a document can be wrong. -/
theorem isData_of_tree {node : Node} (faultless : node.Faultless) {path : Path} {e : Error}
    (h : tree path node = .error e) : e.IsData := by
  induction faultless generalizing path e with
  | scalar =>
      rw [tree] at h
      refine isData_of_placedAt (fun e he => ?_) h
      split at he
      · cases he
      · cases he
        exact .of_problem _ _
  | absent mark =>
      rw [tree] at h
      cases h
  | sequence _ ih =>
      rw [tree] at h
      refine isData_of_placedAt (fun e he => ?_) h
      exact isData_of_treeItems (fun node hnode _ e => ih node hnode) (map_eq_error.mp he)
  | mapping _ _ keys values =>
      rw [tree] at h
      refine isData_of_placedAt (fun e he => ?_) h
      exact isData_of_treeEntries (fun x hx _ e => keys x hx) (fun x hx _ e => values x hx)
        (map_eq_error.mp he)

/-- What is nested too deeply to be read as any data cannot be read at all. -/
theorem Notices.fails_of_tooDeep {α : Type} {d : Decoder α} (h : Notices d) {text : String}
    {mark : Mark} (deep : ofText tree text = .error (.tooDeep mark)) :
    ∃ e, ofText d text = .error e := by
  cases hread : d [] (Node.ofStream (Stream.ofText text)) with
  | error e => exact ⟨e, by rw [ofText, hread]; rfl⟩
  | ok a =>
      exfalso
      have faultless := h _ [] a hread
      rcases exceptBind_eq_error.mp deep with hfails | ⟨t, -, hcomplete⟩
      · obtain ⟨problem, place, heq⟩ := isData_of_tree faultless hfails
        cases heq
      · split at hcomplete <;> cases hcomplete

end Decoder
end HpcBlueprint.Yaml
