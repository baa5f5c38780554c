/-
  A blueprint reads back from its document.

  Every part of a blueprint is read from any node that shows its tree: a field that is left
  out holds the value with which reading begins, and a map of values is put together again
  entry by entry, to any depth.  Only the schemas of modules are not written.
-/
import HpcBlueprint.Blueprint.Decode
import HpcBlueprint.Proofs.Blueprint.Proper
import HpcBlueprint.Proofs.Yaml.Reads

namespace HpcBlueprint

open Yaml (Tree Decoder Node)
open Yaml.Decoder (Reads ReadsFields)

/-! ## What is not written -/

/-- A module without its schema. -/
def Module.withoutSchema (m : Module) : Module := { m with schema := none }

/-- A group whose modules have no schemas. -/
def Group.withoutSchemas (g : Group) : Group :=
  { g with modules := g.modules.map Module.withoutSchema }

/-- A blueprint whose modules have no schemas. -/
def Blueprint.withoutSchemas (b : Blueprint) : Blueprint :=
  { b with groups := b.groups.map Group.withoutSchemas }

/-! ## Values -/

namespace Value

theorem toTrees_eq_map (items : List Value) : toTrees items = items.map toTree := by
  induction items with
  | nil => rw [toTrees, List.map_nil]
  | cons v rest ih => rw [toTrees, ih, List.map_cons]

theorem toTreeEntries_eq_map (entries : List (String × Value)) :
    toTreeEntries entries = entries.map fun (k, v) => (.string k, v.toTree) := by
  induction entries with
  | nil => rw [toTreeEntries, List.map_nil]
  | cons e rest ih => rw [toTreeEntries, ih, List.map_cons]

/-- Distinct names are distinct keys. -/
theorem pairwise_sameKey_toTreeEntries {entries : List (String × Value)}
    (distinct : OrderedMap.Distinct entries) :
    (toTreeEntries entries).Pairwise fun e e' => e.1.sameKey e'.1 = false := by
  rw [toTreeEntries_eq_map, List.pairwise_map]
  have hkeys : entries.Pairwise fun e e' => e.1 ≠ e'.1 := List.pairwise_map.mp distinct
  refine hkeys.imp fun hne => ?_
  rw [Tree.sameKey, beq_eq_false_iff_ne]
  exact hne

/-- The document of a value reads as the tree that it was made of. -/
theorem reads_tree {v : Value} (proper : v.Proper) : Reads Decoder.tree v.toTree v.toTree := by
  induction v using nested with
  | null =>
      rw [toTree]
      exact .tree_null
  | bool b =>
      rw [toTree]
      exact .tree_bool b
  | number n =>
      rw [toTree]
      exact .tree_number n
  | string s =>
      rw [toTree]
      exact .tree_string s
  | list items ih =>
      have hitems := proper_list_iff.mp proper
      rw [toTree, toTrees_eq_map]
      refine .tree_sequence fun t ht => ?_
      obtain ⟨v, hv, rfl⟩ := List.mem_map.mp ht
      exact ih v hv (hitems v hv)
  | map entries ih =>
      obtain ⟨distinct, hentries⟩ := proper_map_iff.mp proper
      rw [toTree]
      refine .tree_mapping (fun e he => ?_) (pairwise_sameKey_toTreeEntries distinct)
      rw [toTreeEntries_eq_map] at he
      obtain ⟨⟨k, v⟩, hmem, rfl⟩ := List.mem_map.mp he
      exact ⟨.tree_string k, ih k v hmem (hentries k v hmem)⟩

theorem ofItems_toTrees {items : List Value} (h : ∀ v ∈ items, ofTree v.toTree = .ok v) :
    ofItems (toTrees items) = .ok items := by
  induction items with
  | nil => rw [toTrees, ofItems]
  | cons v rest ih =>
      rw [toTrees, ofItems, h v List.mem_cons_self,
        Except.bind, ih fun w hw => h w (List.mem_cons_of_mem _ hw)]
      rfl

/-- The entries of a map are set one after the other. -/
theorem ofEntries_toTreeEntries {m entries : OrderedMap Value}
    (h : ∀ k v, (k, v) ∈ entries → ofTree v.toTree = .ok v) :
    ofEntries m (toTreeEntries entries) = .ok (m.insertAll entries) := by
  induction entries generalizing m with
  | nil =>
      rw [toTreeEntries, ofEntries]
      rfl
  | cons e rest ih =>
      obtain ⟨k, v⟩ := e
      have hnext : m.insertAll ((k, v) :: rest) = (m.insert k v).insertAll rest := rfl
      rw [toTreeEntries, ofEntries, keyText, Except.bind, h k v List.mem_cons_self, Except.bind,
        hnext]
      exact ih fun k' v' hmem => h k' v' (List.mem_cons_of_mem _ hmem)

/-- A value is the value of its tree. -/
theorem ofTree_toTree {v : Value} (proper : v.Proper) : ofTree v.toTree = .ok v := by
  induction v using nested with
  | null => rw [toTree, ofTree]
  | bool b => rw [toTree, ofTree]
  | number n => rw [toTree, ofTree]
  | string s => rw [toTree, ofTree]
  | list items ih =>
      have hitems := proper_list_iff.mp proper
      rw [toTree, ofTree, ofItems_toTrees fun v hv => ih v hv (hitems v hv)]
      rfl
  | map entries ih =>
      obtain ⟨distinct, hentries⟩ := proper_map_iff.mp proper
      -- the entries are set one by one in an empty map, in which none of them meets its name
      have hadded := ofEntries_toTreeEntries (m := []) fun k v hmem =>
        ih k v hmem (hentries k v hmem)
      have hsame : OrderedMap.insertAll [] entries = entries :=
        OrderedMap.ofList_of_distinct distinct
      rw [toTree, ofTree, hadded, hsame]
      rfl

theorem reads {v : Value} (proper : v.Proper) : Reads decoder v.toTree v := by
  refine .ofTree (reads_tree proper) ?_
  rw [ofTree_toTree proper]
  rfl

end Value

/-- A map of values reads back from its tree. -/
theorem reads_valuesDecoder {m : OrderedMap Value} (proper : OrderedMap.Proper m) :
    Reads valuesDecoder (valuesTree m) m := by
  obtain ⟨distinct, hvalues⟩ := proper
  have hpairs : Reads (Decoder.pairs Value.decoder) (valuesTree m) m := by
    rw [valuesTree, Value.toTreeEntries_eq_map]
    exact .pairs fun k v hmem => Value.reads (hvalues k v hmem)
  intro path node hshown
  rw [valuesDecoder, hpairs path node hshown, Except.map, OrderedMap.ofList_of_distinct distinct]

/-- Names read back from the sequence of their texts. -/
theorem reads_names (names : List String) :
    Reads (Decoder.list Decoder.text) (.sequence (names.map .string)) names := by
  have hlist := Reads.list (g := id) fun name (_ : name ∈ names) => .text name
  rwa [List.map_id] at hlist

theorem reads_nameSetDecoder {s : NameSet} (sorted : NameSet.Sorted s) :
    Reads nameSetDecoder (.sequence (s.map .string)) s := by
  intro path node hshown
  rw [nameSetDecoder, reads_names s path node hshown, Except.map,
    NameSet.ofList_of_sorted sorted]

/-! ## Outputs, levels and kinds -/

theorem Output.ofTree_toTree (o : Output) : ofTree o.toTree = .ok o := by
  obtain ⟨name, description, isSensitive⟩ := o
  by_cases hempty : description = ""
  · subst hempty
    cases isSensitive <;> rfl
  · have hpresent : (!description.isEmpty) = true := by simpa using hempty
    rw [toTree, hpresent]
    cases isSensitive <;> rfl

theorem Output.reads (o : Output) : Reads decoder o.toTree o := by
  have htree : Reads Decoder.tree o.toTree o.toTree := by
    rw [toTree]
    refine .tree_mapping (fun e he => ?_) ?_
    · simp only [Tree.field, Tree.fieldIf, List.cons_append, List.mem_cons, List.mem_append,
        List.mem_ite_nil_right, List.not_mem_nil, or_false] at he
      rcases he with rfl | ⟨-, rfl⟩ | ⟨-, rfl⟩
      · exact ⟨.tree_string _, .tree_string _⟩
      · exact ⟨.tree_string _, .tree_string _⟩
      · exact ⟨.tree_string _, .tree_bool _⟩
    · cases o.description.isEmpty <;> cases o.isSensitive <;>
        simp [Tree.field, Tree.fieldIf, Yaml.Tree.sameKey]
  refine .ofTree htree ?_
  rw [ofTree_toTree]
  rfl

/-- A level is written by its name, which no other type of value takes. -/
theorem ValidationLevel.reads (level : ValidationLevel) :
    Reads decoder (.string level.name) level := by
  intro path node hshown
  obtain ⟨mark, style, rfl⟩ := Yaml.Tree.shownBy_string_iff.mp hshown
  -- names of levels are compared in capitals, hence the computation
  have hname : ofName? level.name = some level := by
    cases level <;> decide +kernel
  have halternative : Decoder.alternative path (.scalar mark none style level.name
      (.text level.name)) = .ok (.scalar (.text level.name)) := by
    rw [Decoder.alternative]
    rfl
  rw [decoder, halternative]
  simp only [bind, Except.bind, hname]

theorem ModuleKind.reads (kind : ModuleKind) : Reads decoder (.string kind.name) kind := by
  intro path node hshown
  obtain ⟨mark, style, rfl⟩ := Yaml.Tree.shownBy_string_iff.mp hshown
  cases kind <;> rfl

theorem reads_outputs (outputs : List Output) :
    Reads (Decoder.list Output.decoder) (.sequence (outputs.map Output.toTree)) outputs := by
  have hlist := Reads.list (g := id) fun o (_ : o ∈ outputs) => Output.reads o
  rwa [List.map_id] at hlist

/-! ## Records -/

/-- A field that is stored in a draft. -/
theorem reads_field {α σ : Type} {d : Decoder α} {t : Tree} {a : α} (h : Reads d t a)
    (store : α → σ) : Reads (field d store) t (store a) := by
  intro path node hshown
  rw [field, h path node hshown]
  rfl

theorem Backend.isEmpty_iff {b : Backend} : b.isEmpty = true ↔ b = Backend.empty := by
  obtain ⟨type, configuration⟩ := b
  simp [Backend.isEmpty, Backend.empty]

theorem Backend.reads {b : Backend} (proper : b.Proper) : Reads decoder b.toTree b := by
  rw [toTree, decoder, ← List.append_nil (Tree.fieldIf _ _ _)]
  refine ReadsFields.record ["type", "configuration"] b ?_ rfl
  refine .field (⟨b.type, []⟩ : Backend) (by decide) (by decide)
    (reads_field (.text b.type) _) ?_
  exact .fieldIf (fun x => (⟨b.type, x⟩ : Backend)) (by decide) (by decide)
    (fun _ => reads_field (reads_valuesDecoder proper) _) (by simp) .nil

theorem ValidatorEntry.reads {v : ValidatorEntry} (proper : v.Proper) :
    Reads decoder v.toTree v := by
  rw [toTree, decoder, List.cons_append, ← List.append_nil (Tree.fieldIf _ "inputs" _)]
  refine ReadsFields.record ["validator", "skip", "inputs"]
    ⟨some v.validator, v.skip, v.inputs⟩ ?_ rfl
  refine .field (⟨some v.validator, false, []⟩ : Draft) (by decide) (by decide)
    (reads_field (.text v.validator) _) ?_
  refine .fieldIf (fun x => (⟨some v.validator, x, []⟩ : Draft)) (by decide) (by decide)
    (fun hskip => ?_) id ?_
  · rw [hskip]
    exact reads_field (.bool true) _
  exact .fieldIf (fun x => (⟨some v.validator, v.skip, x⟩ : Draft)) (by decide) (by decide)
    (fun _ => reads_field (reads_valuesDecoder proper) _) (by simp) .nil

theorem Module.reads {m : Module} (proper : m.Proper) :
    Reads decoder m.toTree m.withoutSchema := by
  rw [toTree, decoder, ← List.append_nil (Tree.fieldIf _ "outputs" _)]
  simp only [List.cons_append, List.nil_append, List.append_assoc]
  refine ReadsFields.record ["id", "source", "kind", "use", "settings", "outputs"]
    ⟨some m.id, some m.source, m.kind, m.uses, m.settings, m.outputs⟩ ?_ rfl
  refine .field (⟨some m.id, none, .terraform, [], [], []⟩ : Draft) (by decide)
    (by decide) (reads_field (.text m.id) _) ?_
  refine .field (⟨some m.id, some m.source, .terraform, [], [], []⟩ : Draft)
    (by decide) (by decide) (reads_field (.text m.source) _) ?_
  refine .field (⟨some m.id, some m.source, m.kind, [], [], []⟩ : Draft)
    (by decide) (by decide) (reads_field (ModuleKind.reads m.kind) _) ?_
  refine .fieldIf (fun x => (⟨some m.id, some m.source, m.kind, x, [], []⟩ : Draft))
    (by decide) (by decide) (fun _ => reads_field (reads_names m.uses) _) (by simp) ?_
  refine .fieldIf (fun x => (⟨some m.id, some m.source, m.kind, m.uses, x, []⟩ : Draft))
    (by decide) (by decide) (fun _ => reads_field (reads_valuesDecoder proper) _) (by simp) ?_
  exact .fieldIf (fun x => (⟨some m.id, some m.source, m.kind, m.uses, m.settings, x⟩ : Draft))
    (by decide) (by decide) (fun _ => reads_field (reads_outputs m.outputs) _) (by simp) .nil

theorem Group.reads {g : Group} (proper : g.Proper) : Reads decoder g.toTree g.withoutSchemas := by
  have hmodules := Reads.list fun m hm => Module.reads (proper.modules m hm)
  rw [toTree, decoder]
  cases hbackend : g.backend with
  | none =>
      refine ReadsFields.record ["group", "modules"]
        ⟨some g.name, g.backend, some (g.modules.map Module.withoutSchema)⟩ ?_ rfl
      refine .field _ (by decide) (by decide) (reads_field (.text g.name) _) ?_
      rw [hbackend]
      exact .field _ (by decide) (by decide) (reads_field hmodules _) .nil
  | some backend =>
      have hb := Backend.reads (proper.backend backend hbackend)
      refine ReadsFields.record ["group", "terraform_backend", "modules"]
        ⟨some g.name, g.backend, some (g.modules.map Module.withoutSchema)⟩ ?_ rfl
      refine .field _ (by decide) (by decide) (reads_field (.text g.name) _) ?_
      rw [hbackend]
      refine .field _ (by decide) (by decide) (reads_field hb.optional _) ?_
      exact .field _ (by decide) (by decide) (reads_field hmodules _) .nil

theorem Blueprint.reads {b : Blueprint} (proper : b.Proper) :
    Reads decoder b.toTree b.withoutSchemas := by
  have hvalidators : Reads (Decoder.list ValidatorEntry.decoder)
      (.sequence (b.validators.map ValidatorEntry.toTree)) b.validators := by
    have hlist := Reads.list (g := id) fun v hv => ValidatorEntry.reads (proper.validators v hv)
    rwa [List.map_id] at hlist
  have hgroups := Reads.list fun g hg => Group.reads (proper.groups g hg)
  rw [toTree, decoder]
  simp only [List.cons_append, List.nil_append, List.append_assoc]
  refine ReadsFields.record fieldNames ⟨some b.name, b.toolkitVersion,
    b.validators, b.level, b.skipped, b.vars, b.backendDefaults,
    some (b.groups.map Group.withoutSchemas)⟩ ?_ rfl
  -- a draft for each field: what has been read up to there, and the defaults behind it
  refine .field (⟨some b.name, "", [], .warning, [], [], Backend.empty, none⟩ : Draft)
    (by decide) (by decide) (reads_field (.text b.name) _) ?_
  refine .fieldIf
    (fun x => (⟨some b.name, x, [], .warning, [], [], Backend.empty, none⟩ : Draft))
    (by decide) (by decide) (fun _ => reads_field (.text b.toolkitVersion) _) (by simp) ?_
  refine .fieldIf
    (fun x => (⟨some b.name, b.toolkitVersion, x, .warning, [], [], Backend.empty, none⟩ : Draft))
    (by decide) (by decide) (fun _ => reads_field hvalidators _) (by simp) ?_
  refine .field (⟨some b.name, b.toolkitVersion, b.validators, b.level, [], [],
    Backend.empty, none⟩ : Draft) (by decide) (by decide)
    (reads_field (ValidationLevel.reads b.level) _) ?_
  refine .fieldIf (fun x => (⟨some b.name, b.toolkitVersion, b.validators, b.level, x, [],
    Backend.empty, none⟩ : Draft)) (by decide) (by decide)
    (fun _ => reads_field (reads_nameSetDecoder proper.skipped) _) (by simp) ?_
  refine .field (⟨some b.name, b.toolkitVersion, b.validators, b.level, b.skipped, b.vars,
    Backend.empty, none⟩ : Draft) (by decide) (by decide)
    (reads_field (reads_valuesDecoder proper.vars) _) ?_
  refine .fieldIf (fun x => (⟨some b.name, b.toolkitVersion, b.validators, b.level, b.skipped,
    b.vars, x, none⟩ : Draft)) (by decide) (by decide)
    (fun _ => reads_field (Backend.reads proper.backendDefaults) _)
    (by simp [Backend.isEmpty_iff]) ?_
  exact .field _ (by decide) (by decide) (reads_field hgroups _) .nil

/-! ## Documents -/

theorem Value.isShown_toTree (v : Value) : v.toTree.IsShown := by
  induction v using nested with
  | null => simp [toTree]
  | bool b => simp [toTree]
  | number n => simp [toTree]
  | string s => simp [toTree]
  | list items ih => simpa [toTree, toTrees_eq_map] using ih
  | map entries ih =>
      rw [toTree, toTreeEntries_eq_map, Yaml.Tree.isShown_mapping_iff]
      intro e he
      obtain ⟨⟨k, v⟩, hmem, rfl⟩ := List.mem_map.mp he
      exact ⟨Yaml.Tree.isShown_string k, ih k v hmem⟩

@[simp] theorem isShown_valuesTree (m : OrderedMap Value) : (valuesTree m).IsShown := by
  have h := Value.isShown_toTree (.map m)
  rwa [Value.toTree] at h

@[simp] theorem isShown_field {name : String} {t : Tree} :
    ((Tree.field name t).1.IsShown ∧ (Tree.field name t).2.IsShown) ↔ t.IsShown := by
  simp [Tree.field]

@[simp] theorem entriesShown_fieldIf {present : Bool} {name : String} {t : Tree} :
    Yaml.Tree.EntriesShown (Tree.fieldIf present name t) ↔ (present = true → t.IsShown) := by
  cases present <;> simp [Tree.fieldIf]

theorem Output.isShown_toTree (o : Output) : o.toTree.IsShown := by
  simp [toTree]

theorem Backend.isShown_toTree (b : Backend) : b.toTree.IsShown := by
  simp [toTree]

theorem ValidatorEntry.isShown_toTree (v : ValidatorEntry) : v.toTree.IsShown := by
  simp [toTree]

theorem Module.isShown_toTree (m : Module) : m.toTree.IsShown := by
  simp [toTree, Output.isShown_toTree]

theorem Group.isShown_toTree (g : Group) : g.toTree.IsShown := by
  cases hbackend : g.backend with
  | none => simp [toTree, hbackend, Module.isShown_toTree]
  | some b => simp [toTree, hbackend, Module.isShown_toTree, Backend.isShown_toTree]

/-- Nothing in the document of a blueprint has a tag. -/
theorem Blueprint.isShown_toTree (b : Blueprint) : b.toTree.IsShown := by
  simp [toTree, ValidatorEntry.isShown_toTree, Backend.isShown_toTree, Group.isShown_toTree]

/-- Decoding the document that is made of a blueprint gives the blueprint back without the
    schemas of its modules. -/
theorem Blueprint.decoder_ofTree_toTree {b : Blueprint} (proper : b.Proper) (path : Yaml.Path) :
    decoder path (Node.ofTree b.toTree) = .ok b.withoutSchemas :=
  Blueprint.reads proper path _ b.isShown_toTree

/-- A blueprint with fields that are there, empty and absent. -/
def Blueprint.assorted : Blueprint where
  name := "assorted"
  toolkitVersion := "v0.1.0"
  validators := [⟨"test_module_not_used", true, []⟩,
    ⟨"test_regex", false, [("pattern", .string "true"), ("vars", .list [.string "", .null])]⟩]
  level := .error
  skipped := ["a", "b"]
  vars := [("deployment_name", .string "d"), ("zone", .map [("name", .string "~"),
    ("sizes", .list [.number (.int 0), .number (.float .nan), .bool false]), ("tags", .map [])])]
  backendDefaults := ⟨"", [("bucket", .null)]⟩
  groups := [⟨"primary", some Backend.empty,
      [⟨"network", "./network", .terraform, [], [("zone", .string "$(vars.zone)")],
        [⟨"id", "", true⟩, Output.named "address"], some ⟨[], [], ["compute"]⟩⟩,
       ⟨"image", "./image", .packer, ["network"], [], [], none⟩]⟩,
    ⟨"cluster", none, []⟩]

theorem Blueprint.proper_assorted : assorted.Proper where
  validators := by simp [assorted, ValidatorEntry.Proper]
  skipped := List.pairwise_pair.mpr (by decide)
  vars := by simp [assorted]
  backendDefaults := by simp [assorted, Backend.Proper]
  groups := by
    simp [assorted, Group.proper_iff, Module.Proper, Backend.Proper, Backend.empty]

theorem Blueprint.decoder_ofTree_toTree_assorted :
    assorted.Proper ∧
      decoder [] (Node.ofTree assorted.toTree) = .ok assorted.withoutSchemas ∧
      assorted.withoutSchemas ≠ assorted :=
  ⟨proper_assorted, decoder_ofTree_toTree proper_assorted [], by decide⟩

end HpcBlueprint
