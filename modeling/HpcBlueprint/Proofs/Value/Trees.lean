/-
  The trees that are values, and the value that each of them is.

  A tree is a value unless something in it is tagged or something in it is keyed by anything but
  a text, a number or a boolean, at any depth.  `Tree.Means` says which value it is: a sequence is
  read item by item, and a mapping holds every name where it stands first, with the value under
  it that stands last, since keys that differ may have the same text.  The trees that values are
  written as never come to that, so they are read back as they were.
-/
import HpcBlueprint.Proofs.Blueprint.RoundTrip

namespace HpcBlueprint

/-! ## Lists side by side -/

section

variable {α β : Type} {R S : α → β → Prop} {as : List α} {bs : List β}

/-- A list has a partner if each of its members has one. -/
theorem exists_forall₂_iff : (∃ bs, List.Forall₂ R as bs) ↔ ∀ a ∈ as, ∃ b, R a b := by
  induction as with
  | nil => simp
  | cons a rest ih =>
      rw [List.forall_mem_cons, ← ih]
      constructor
      · rintro ⟨bs, h⟩
        obtain ⟨b, bs', hb, hrest, -⟩ := List.forall₂_cons_left_iff.mp h
        exact ⟨⟨b, hb⟩, bs', hrest⟩
      · rintro ⟨⟨b, hb⟩, bs, hrest⟩
        exact ⟨b :: bs, .cons hb hrest⟩

/-- Each member of the second list has a partner in the first. -/
theorem exists_mem_of_forall₂ (h : List.Forall₂ R as bs) {b : β} (hb : b ∈ bs) :
    ∃ a ∈ as, R a b := by
  induction h with
  | nil => cases hb
  | cons hab _ ih =>
      rcases List.mem_cons.mp hb with rfl | hb
      · exact ⟨_, List.mem_cons_self, hab⟩
      · obtain ⟨a, ha, hab'⟩ := ih hb
        exact ⟨a, List.mem_cons_of_mem _ ha, hab'⟩

theorem forall₂_and_iff :
    List.Forall₂ (fun a b => R a b ∧ S a b) as bs ↔
      List.Forall₂ R as bs ∧ List.Forall₂ S as bs := by
  constructor
  · intro h
    exact ⟨h.imp fun _ _ => And.left, h.imp fun _ _ => And.right⟩
  · rintro ⟨hR, hS⟩
    exact List.Forall₂.mp (fun _ _ => And.intro) hR hS

/-- Only how the members of the first list are related matters. -/
theorem forall₂_iff_of_mem (h : ∀ a ∈ as, ∀ b, R a b ↔ S a b) :
    List.Forall₂ R as bs ↔ List.Forall₂ S as bs := by
  induction as generalizing bs with
  | nil => rw [List.forall₂_nil_left_iff, List.forall₂_nil_left_iff]
  | cons a rest ih =>
      obtain ⟨ha, hrest⟩ := List.forall_mem_cons.mp h
      simp only [List.forall₂_cons_left_iff, ha, ih hrest]

end

namespace Yaml.Tree

/-! ## Places in a tree -/

/-- What holds of scalars, of a sequence or mapping whenever it holds of all that stands in it,
    and of a tagged tree whenever it holds of what is tagged, holds of every tree. -/
@[elab_as_elim]
theorem nested {motive : Tree → Prop} (null : motive .null) (bool : ∀ b, motive (.bool b))
    (number : ∀ n, motive (.number n)) (string : ∀ s, motive (.string s))
    (sequence : ∀ items, (∀ t ∈ items, motive t) → motive (.sequence items))
    (mapping : ∀ entries, (∀ e ∈ entries, motive e.1 ∧ motive e.2) → motive (.mapping entries))
    (tagged : ∀ tag t, motive t → motive (.tagged tag t)) (t : Tree) : motive t :=
  -- the recursor goes through lists of items, lists of entries and single entries on its own
  @Tree.rec motive (fun items => ∀ t ∈ items, motive t)
    (fun entries => ∀ e ∈ entries, motive e.1 ∧ motive e.2) (fun e => motive e.1 ∧ motive e.2)
    null bool number string sequence mapping tagged
    (List.forall_mem_nil _) (fun _ _ first rest => List.forall_mem_cons.mpr ⟨first, rest⟩)
    (List.forall_mem_nil _) (fun _ _ first rest => List.forall_mem_cons.mpr ⟨first, rest⟩)
    (fun _ _ key value => ⟨key, value⟩) t

/-- A tree stands in another one: it is the whole of it, or stands in an item, a key or a value
    of it or under its tag. -/
inductive Occurs : Tree → Tree → Prop
  | here {t : Tree} : Occurs t t
  | item {u t : Tree} {items : List Tree} (member : t ∈ items) (inside : Occurs u t) :
      Occurs u (.sequence items)
  | key {u k t : Tree} {entries : List (Tree × Tree)} (member : (k, t) ∈ entries)
      (inside : Occurs u k) : Occurs u (.mapping entries)
  | value {u k t : Tree} {entries : List (Tree × Tree)} (member : (k, t) ∈ entries)
      (inside : Occurs u t) : Occurs u (.mapping entries)
  | tagged {u t : Tree} {tag : String} (inside : Occurs u t) : Occurs u (.tagged tag t)

theorem Occurs.trans {s t u : Tree} (inner : Occurs s t) (outer : Occurs t u) : Occurs s u := by
  induction outer with
  | here => exact inner
  | item member _ ih => exact .item member ih
  | key member _ ih => exact .key member ih
  | value member _ ih => exact .value member ih
  | tagged _ ih => exact .tagged ih

/-! ## Plain trees -/

/-- A text, number or boolean, with its text. -/
inductive Spells : Tree → String → Prop
  | string (s : String) : Spells (.string s) s
  | number (n : Number) : Spells (.number n) n.text
  | bool (b : Bool) : Spells (.bool b) (toString b)

/-- Nothing in a tree is tagged, and every key in it is a text, a number or a boolean. -/
structure IsPlain (t : Tree) : Prop where
  untagged : ∀ tag u, ¬ Occurs (.tagged tag u) t
  keys : ∀ entries, Occurs (.mapping entries) t → ∀ k u, (k, u) ∈ entries → ∃ name, k.Spells name

theorem IsPlain.of_occurs {t u : Tree} (h : t.IsPlain) (inside : Occurs u t) : u.IsPlain where
  untagged tag s hs := h.untagged tag s (hs.trans inside)
  keys entries hentries := h.keys entries (hentries.trans inside)

@[simp] theorem isPlain_null : IsPlain .null := ⟨nofun, nofun⟩

@[simp] theorem isPlain_bool (b : Bool) : IsPlain (.bool b) := ⟨nofun, nofun⟩

@[simp] theorem isPlain_number (n : Number) : IsPlain (.number n) := ⟨nofun, nofun⟩

@[simp] theorem isPlain_string (s : String) : IsPlain (.string s) := ⟨nofun, nofun⟩

theorem Spells.isPlain {k : Tree} {name : String} (h : k.Spells name) : k.IsPlain := by
  cases h with
  | string => exact isPlain_string _
  | number => exact isPlain_number _
  | bool => exact isPlain_bool _

theorem isPlain_sequence_iff {items : List Tree} :
    IsPlain (.sequence items) ↔ ∀ t ∈ items, t.IsPlain := by
  constructor
  · intro h t ht
    exact h.of_occurs (.item ht .here)
  · intro h
    constructor
    · intro tag u occurs
      cases occurs with
      | item member inside => exact (h _ member).untagged tag u inside
    · intro entries occurs
      cases occurs with
      | item member inside => exact (h _ member).keys entries inside

theorem isPlain_mapping_iff {entries : List (Tree × Tree)} :
    IsPlain (.mapping entries) ↔ ∀ e ∈ entries, (∃ name, e.1.Spells name) ∧ e.2.IsPlain := by
  constructor
  · rintro h ⟨k, t⟩ he
    exact ⟨h.keys entries .here k t he, h.of_occurs (.value he .here)⟩
  · intro h
    have hkey : ∀ k t, (k, t) ∈ entries → k.IsPlain := by
      intro k t he
      obtain ⟨name, hname⟩ := (h (k, t) he).1
      exact hname.isPlain
    constructor
    · intro tag u occurs
      cases occurs with
      | key member inside => exact (hkey _ _ member).untagged tag u inside
      | value member inside => exact (h _ member).2.untagged tag u inside
    · intro entries' occurs
      cases occurs with
      | here => exact fun k u he => (h (k, u) he).1
      | key member inside => exact (hkey _ _ member).keys entries' inside
      | value member inside => exact (h _ member).2.keys entries' inside

theorem not_isPlain_tagged {tag : String} {t : Tree} : ¬ IsPlain (.tagged tag t) :=
  fun h => h.untagged tag t .here

/-! ## Meanings -/

/-- A tree means a value: a scalar means itself, a sequence the list of what its items mean, and
    a mapping the map of what its entries mean under the texts of their keys. -/
inductive Means : Tree → Value → Prop
  | null : Means .null .null
  | bool (b : Bool) : Means (.bool b) (.bool b)
  | number (n : Number) : Means (.number n) (.number n)
  | string (s : String) : Means (.string s) (.string s)
  | list {items : List Tree} {values : List Value} (means : List.Forall₂ Means items values) :
      Means (.sequence items) (.list values)
  | map {entries : List (Tree × Tree)} {pairs : List (String × Value)} {m : OrderedMap Value}
      (names : List.Forall₂ (fun e p => e.1.Spells p.1) entries pairs)
      (values : List.Forall₂ (fun e p => Means e.2 p.2) entries pairs) (isMap : m.IsMapOf pairs) :
      Means (.mapping entries) (.map m)

end Yaml.Tree

open Yaml (Tree)

namespace Value

/-! ## Reading a tree -/

theorem keyText_eq_ok_iff {k : Tree} {name : String} : keyText k = .ok name ↔ k.Spells name := by
  constructor
  · intro h
    cases k with
    | string =>
        cases h
        exact .string _
    | number =>
        cases h
        exact .number _
    | bool =>
        cases h
        exact .bool _
    | null | sequence | mapping | tagged => cases h
  · intro h
    cases h <;> rfl

/-- The items of a sequence are read one by one. -/
theorem ofItems_eq_ok_iff {items : List Tree} {values : List Value} :
    ofItems items = .ok values ↔ List.Forall₂ (fun t v => ofTree t = .ok v) items values := by
  induction items generalizing values with
  | nil => simp [ofItems, eq_comm]
  | cons t rest ih =>
      rw [ofItems, exceptBind_eq_ok, List.forall₂_cons_left_iff]
      constructor
      · rintro ⟨v, hv, hrest⟩
        obtain ⟨vs, hvs, rfl⟩ := map_eq_ok.mp hrest
        exact ⟨v, vs, hv, ih.mp hvs, rfl⟩
      · rintro ⟨v, vs, hv, hvs, rfl⟩
        exact ⟨v, hv, map_eq_ok.mpr ⟨vs, ih.mpr hvs, rfl⟩⟩

/-- The entries of a mapping are read one by one and set one after the other. -/
theorem ofEntries_eq_ok_iff {m n : OrderedMap Value} {entries : List (Tree × Tree)} :
    ofEntries m entries = .ok n ↔
      ∃ pairs : List (String × Value),
        List.Forall₂ (fun e p => e.1.Spells p.1 ∧ ofTree e.2 = .ok p.2) entries pairs ∧
          n = m.insertAll pairs := by
  induction entries generalizing m with
  | nil =>
      rw [ofEntries, Except.ok.injEq]
      constructor
      · rintro rfl
        exact ⟨[], .nil, rfl⟩
      · rintro ⟨pairs, hpairs, rfl⟩
        rw [List.forall₂_nil_left_iff.mp hpairs]
        rfl
  | cons e rest ih =>
      obtain ⟨k, t⟩ := e
      rw [ofEntries, exceptBind_eq_ok]
      constructor
      · rintro ⟨name, hname, hrest⟩
        obtain ⟨v, hv, hset⟩ := exceptBind_eq_ok.mp hrest
        obtain ⟨pairs, hpairs, rfl⟩ := ih.mp hset
        exact ⟨(name, v) :: pairs, .cons ⟨keyText_eq_ok_iff.mp hname, hv⟩ hpairs, rfl⟩
      · rintro ⟨pairs, hpairs, rfl⟩
        obtain ⟨⟨name, v⟩, pairs', ⟨hname, hv⟩, hrest, rfl⟩ := List.forall₂_cons_left_iff.mp hpairs
        exact ⟨name, keyText_eq_ok_iff.mpr hname,
          exceptBind_eq_ok.mpr ⟨v, hv, ih.mpr ⟨pairs', hrest, rfl⟩⟩⟩

theorem ofTree_sequence_eq_ok_iff {items : List Tree} {v : Value} :
    ofTree (.sequence items) = .ok v ↔
      ∃ values, List.Forall₂ (fun t v => ofTree t = .ok v) items values ∧ .list values = v := by
  simp only [ofTree, map_eq_ok, ofItems_eq_ok_iff]

theorem ofTree_mapping_eq_ok_iff {entries : List (Tree × Tree)} {v : Value} :
    ofTree (.mapping entries) = .ok v ↔
      ∃ pairs : List (String × Value),
        List.Forall₂ (fun e p => e.1.Spells p.1 ∧ ofTree e.2 = .ok p.2) entries pairs ∧
          .map (OrderedMap.ofList pairs) = v := by
  rw [ofTree, map_eq_ok]
  constructor
  · rintro ⟨m, hm, rfl⟩
    obtain ⟨pairs, hpairs, rfl⟩ := ofEntries_eq_ok_iff.mp hm
    exact ⟨pairs, hpairs, rfl⟩
  · rintro ⟨pairs, hpairs, rfl⟩
    exact ⟨_, ofEntries_eq_ok_iff.mpr ⟨pairs, hpairs, rfl⟩, rfl⟩

theorem ofTree_tagged_ne_ok {tag : String} {t : Tree} {v : Value} :
    ofTree (.tagged tag t) ≠ .ok v := by
  intro h
  rw [ofTree] at h
  cases h

/-! ## Which trees are values -/

/-- A tree can be read as a value exactly if it is plain. -/
theorem exists_ofTree_eq_ok_iff {t : Tree} : (∃ v, ofTree t = .ok v) ↔ t.IsPlain := by
  induction t using Tree.nested with
  | null | bool | number | string => simp [ofTree]
  | sequence items ih =>
      calc (∃ v, ofTree (.sequence items) = .ok v)
          ↔ ∃ values, List.Forall₂ (fun t v => ofTree t = .ok v) items values := by
            simp [ofTree_sequence_eq_ok_iff]
        _ ↔ ∀ t ∈ items, ∃ v, ofTree t = .ok v := exists_forall₂_iff
        _ ↔ ∀ t ∈ items, t.IsPlain := forall₂_congr ih
        _ ↔ (Tree.sequence items).IsPlain := Tree.isPlain_sequence_iff.symm
  | mapping entries ih =>
      have hentry : ∀ e ∈ entries,
          (∃ p : String × Value, e.1.Spells p.1 ∧ ofTree e.2 = .ok p.2) ↔
            (∃ name, e.1.Spells name) ∧ e.2.IsPlain := by
        intro e he
        rw [← (ih e he).2, Prod.exists, exists_and_exists_comm]
      calc (∃ v, ofTree (.mapping entries) = .ok v)
          ↔ ∃ pairs : List (String × Value), List.Forall₂
              (fun e p => e.1.Spells p.1 ∧ ofTree e.2 = .ok p.2) entries pairs := by
            simp [ofTree_mapping_eq_ok_iff]
        _ ↔ ∀ e ∈ entries, ∃ p : String × Value, e.1.Spells p.1 ∧ ofTree e.2 = .ok p.2 :=
            exists_forall₂_iff
        _ ↔ ∀ e ∈ entries, (∃ name, e.1.Spells name) ∧ e.2.IsPlain := forall₂_congr hentry
        _ ↔ (Tree.mapping entries).IsPlain := Tree.isPlain_mapping_iff.symm
  | tagged tag t ih =>
      constructor
      · rintro ⟨v, hv⟩
        exact absurd hv ofTree_tagged_ne_ok
      · exact fun h => absurd h Tree.not_isPlain_tagged

/-- What a tree is read as is what it means. -/
theorem ofTree_eq_ok_iff_means {t : Tree} {v : Value} : ofTree t = .ok v ↔ t.Means v := by
  induction t using Tree.nested generalizing v with
  | null | bool | number | string =>
      rw [ofTree, Except.ok.injEq]
      constructor
      · rintro rfl
        constructor
      · intro means
        cases means
        rfl
  | sequence items ih =>
      rw [ofTree_sequence_eq_ok_iff]
      constructor
      · rintro ⟨values, hvalues, rfl⟩
        exact .list ((forall₂_iff_of_mem fun t ht _ => ih t ht).mp hvalues)
      · intro means
        cases means with
        | list means => exact ⟨_, (forall₂_iff_of_mem fun t ht _ => ih t ht).mpr means, rfl⟩
  | mapping entries ih =>
      have hpairs : ∀ pairs : List (String × Value),
          List.Forall₂ (fun e p => e.1.Spells p.1 ∧ ofTree e.2 = .ok p.2) entries pairs ↔
            List.Forall₂ (fun e p => e.1.Spells p.1) entries pairs ∧
              List.Forall₂ (fun e p => e.2.Means p.2) entries pairs := by
        intro pairs
        rw [forall₂_and_iff]
        exact and_congr_right fun _ => forall₂_iff_of_mem fun e he p => (ih e he).2
      rw [ofTree_mapping_eq_ok_iff]
      constructor
      · rintro ⟨pairs, h, rfl⟩
        obtain ⟨hnames, hvalues⟩ := (hpairs pairs).mp h
        exact .map hnames hvalues (OrderedMap.isMapOf_iff.mpr rfl)
      · intro means
        cases means with
        | map hnames hvalues isMap =>
            exact ⟨_, (hpairs _).mpr ⟨hnames, hvalues⟩,
              congrArg Value.map (OrderedMap.isMapOf_iff.mp isMap).symm⟩
  | tagged tag t ih =>
      constructor
      · exact fun h => absurd h ofTree_tagged_ne_ok
      · intro means
        cases means

/-! ## Values and their trees -/

/-- Whatever is read from a tree is proper. -/
theorem proper_of_ofTree {t : Tree} {v : Value} (h : ofTree t = .ok v) : v.Proper := by
  induction t using Tree.nested generalizing v with
  | null | bool | number | string =>
      rw [ofTree, Except.ok.injEq] at h
      rw [← h]
      simp
  | sequence items ih =>
      obtain ⟨values, hvalues, rfl⟩ := ofTree_sequence_eq_ok_iff.mp h
      refine proper_list_iff.mpr fun v hv => ?_
      obtain ⟨t, ht, hread⟩ := exists_mem_of_forall₂ hvalues hv
      exact ih t ht hread
  | mapping entries ih =>
      obtain ⟨pairs, hpairs, rfl⟩ := ofTree_mapping_eq_ok_iff.mp h
      -- the map is built from nothing, one proper value after the other
      refine proper_map_iff.mpr (OrderedMap.proper_nil.insertAll fun k v hv => ?_)
      obtain ⟨e, he, -, hread⟩ := exists_mem_of_forall₂ hpairs hv
      exact (ih e he).2 hread
  | tagged tag t ih => exact absurd h ofTree_tagged_ne_ok

/-- A tree can be read as a value exactly if nothing in it is tagged and all keys in it are texts,
    numbers and booleans, and it is read as the value that it means.  The values that are read
    are the proper ones, and each of them is what its own tree is read as. -/
theorem ofTree_retraction :
    (∀ t : Tree, (∃ v, ofTree t = .ok v) ↔ t.IsPlain) ∧
      (∀ (t : Tree) (v : Value), ofTree t = .ok v ↔ t.Means v) ∧
      (∀ v : Value, v.Proper ↔ ofTree v.toTree = .ok v) ∧
      ∀ v : Value, v.Proper ↔ ∃ t, ofTree t = .ok v := by
  refine ⟨fun _ => exists_ofTree_eq_ok_iff, fun _ _ => ofTree_eq_ok_iff_means, ?_, ?_⟩
  · intro v
    exact ⟨ofTree_toTree, proper_of_ofTree⟩
  · intro v
    constructor
    · exact fun proper => ⟨v.toTree, ofTree_toTree proper⟩
    · rintro ⟨t, ht⟩
      exact proper_of_ofTree ht

/-- A text and a boolean are one name if they have one text. -/
example :
    ofTree (.mapping [(.bool true, .null), (.number (.int 7), .sequence [.string "true"]),
      (.string "true", .bool false)]) =
    .ok (.map [("true", .bool false), ("7", .list [.string "true"])]) := by
  rfl

/-! ## Integers -/

/-- The integers among the values, as far as 64 bits with a sign hold them. -/
theorem int64?_eq_some_iff {v : Value} {n : Int} :
    v.int64? = some n ↔ v = .number (.int n) ∧ -Int.pow 2 63 ≤ n ∧ n < Int.pow 2 63 := by
  constructor
  · intro h
    unfold int64? at h
    split at h
    · rename_i k
      split at h
      · rename_i hrange
        cases h
        rw [Bool.and_eq_true, decide_eq_true_iff, decide_eq_true_iff] at hrange
        exact ⟨rfl, hrange⟩
      · cases h
    · cases h
  · rintro ⟨rfl, hrange⟩
    rw [int64?, if_pos]
    rw [Bool.and_eq_true, decide_eq_true_iff, decide_eq_true_iff]
    exact hrange

end Value
end HpcBlueprint
