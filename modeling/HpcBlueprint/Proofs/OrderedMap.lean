/-
  What the operations of an `OrderedMap` do to its names and its entries.

  `insert` either appends a new entry or changes one in place, so `Distinct` is kept by every
  operation, and a look-up in a map with distinct names is membership. Setting many names puts
  each where it is set first, with the value that it is set to last. `mapM` succeeds
  when its function does at every entry, and then keeps names and order.
-/
import HpcBlueprint.OrderedMap
import HpcBlueprint.Proofs.Except
import Mathlib.Data.List.Induction
import Mathlib.Data.List.Nodup

namespace HpcBlueprint

/-- Only the entries under its key matter to a look-up. -/
theorem lookup_filter {κ α : Type} [BEq κ] [LawfulBEq κ] {p : κ → Bool} {key : κ}
    (h : p key = true) (entries : List (κ × α)) :
    (entries.filter fun entry => p entry.1).lookup key = entries.lookup key := by
  induction entries with
  | nil => rfl
  | cons entry rest ih =>
      obtain ⟨k, a⟩ := entry
      cases hkept : p k with
      | true => simp [List.lookup_cons, hkept, ih]
      | false =>
          have hne : (key == k) = false := by
            rw [beq_eq_false_iff_ne]
            rintro rfl
            rw [h] at hkept
            cases hkept
          simp [List.lookup_cons, hkept, hne, ih]

theorem lookup_filter_ne {κ α : Type} [BEq κ] [LawfulBEq κ] {key dropped : κ}
    (h : key ≠ dropped) (entries : List (κ × α)) :
    (entries.filter (·.1 != dropped)).lookup key = entries.lookup key :=
  lookup_filter (p := (· != dropped)) (by simpa using h) entries

/-- What is found under a key is changed like everything else. -/
theorem lookup_map {κ α β : Type} [BEq κ] (f : α → β) (entries : List (κ × α)) (key : κ) :
    (entries.map fun (k, a) => (k, f a)).lookup key = (entries.lookup key).map f := by
  induction entries with
  | nil => rfl
  | cons entry rest ih =>
      obtain ⟨k, a⟩ := entry
      rw [List.map_cons, List.lookup_cons, List.lookup_cons, ih]
      cases key == k <;> rfl

/-- An element behind a list is a first occurrence if the list does not have it. -/
theorem eraseDups_concat (l : List String) (x : String) :
    (l ++ [x]).eraseDups = if x ∈ l then l.eraseDups else l.eraseDups ++ [x] := by
  rw [List.eraseDups_append, List.removeAll]
  by_cases hmem : x ∈ l
  · rw [List.filter_cons_of_neg (by simpa using hmem), if_pos hmem, List.filter_nil,
      List.eraseDups_nil, List.append_nil]
  · rw [List.filter_cons_of_pos (by simpa using hmem), if_neg hmem, List.filter_nil,
      List.eraseDups_cons, List.filter_nil, List.eraseDups_nil]

theorem eraseDups_of_nodup {names : List String} (h : names.Nodup) : names.eraseDups = names := by
  induction names using List.reverseRecOn with
  | nil => rfl
  | append_singleton names name ih =>
      have hnew : name ∉ names := fun hmem =>
        (List.nodup_append.mp h).2.2 name hmem name (List.mem_singleton_self _) rfl
      rw [eraseDups_concat, if_neg hnew, ih (List.nodup_append.mp h).1]

namespace OrderedMap

variable {α β ε : Type} {m : OrderedMap α} {name other : String} {a b : α}

/-! ## Names -/

@[simp] theorem keys_nil : keys ([] : OrderedMap α) = [] := rfl

@[simp] theorem keys_cons (k : String) (a : α) (m : OrderedMap α) :
    keys ((k, a) :: m) = k :: keys m := rfl

@[simp] theorem keys_append (m n : OrderedMap α) : keys (m ++ n) = keys m ++ keys n :=
  List.map_append

theorem mem_keys : name ∈ keys m ↔ ∃ a, (name, a) ∈ m := by
  simp [keys]

/-! ## Look-ups -/

@[simp] theorem get?_nil : get? ([] : OrderedMap α) name = none := rfl

theorem get?_cons (k : String) (a : α) (m : OrderedMap α) (name : String) :
    get? ((k, a) :: m) name = if name = k then some a else get? m name := by
  by_cases h : name = k
  · simp [get?, h]
  · have hb : (name == k) = false := by simpa using h
    simp only [get?, List.lookup_cons, hb, if_neg h]

/-- What a look-up finds stands in the map. -/
theorem mem_of_get?_eq_some (h : get? m name = some a) : (name, a) ∈ m := by
  induction m with
  | nil => simp at h
  | cons entry rest ih =>
      obtain ⟨k, b⟩ := entry
      rw [get?_cons] at h
      by_cases hk : name = k
      · rw [if_pos hk] at h
        simp [hk, Option.some.inj h]
      · rw [if_neg hk] at h
        exact List.mem_cons_of_mem _ (ih h)

theorem get?_eq_none_iff : get? m name = none ↔ name ∉ keys m := by
  induction m with
  | nil => simp
  | cons entry rest ih =>
      obtain ⟨k, b⟩ := entry
      rw [get?_cons]
      by_cases hk : name = k
      · simp [hk]
      · simp [hk, ih]

theorem contains_iff : contains m name = true ↔ name ∈ keys m := by
  have h : get? m name = none ↔ name ∉ keys m := get?_eq_none_iff
  cases hg : get? m name with
  | none => simp [contains, hg, h.mp hg]
  | some a =>
      have hmem : name ∈ keys m := mem_keys.mpr ⟨a, mem_of_get?_eq_some hg⟩
      simp [contains, hg, hmem]

/-- A known name has a value. -/
theorem exists_get?_eq_some (h : name ∈ keys m) : ∃ a, get? m name = some a := by
  cases hg : get? m name with
  | none => exact absurd h (get?_eq_none_iff.mp hg)
  | some a => exact ⟨a, rfl⟩

/-- Where names are distinct, an entry is what the look-up of its name finds. -/
theorem get?_eq_some_of_mem (distinct : Distinct m) (h : (name, a) ∈ m) :
    get? m name = some a := by
  induction m with
  | nil => simp at h
  | cons entry rest ih =>
      obtain ⟨k, b⟩ := entry
      rw [get?_cons]
      have hd : k ∉ keys rest ∧ Distinct rest := List.nodup_cons.mp distinct
      rcases List.mem_cons.mp h with heq | hmem
      · obtain ⟨rfl, rfl⟩ := Prod.mk.inj heq
        rw [if_pos rfl]
      · have hne : name ≠ k := fun hk => hd.1 (hk ▸ mem_keys.mpr ⟨a, hmem⟩)
        rw [if_neg hne]
        exact ih hd.2 hmem

/-! ## Insertion -/

/-- A new name goes to the end. -/
theorem insert_of_not_mem (h : name ∉ keys m) : insert m name a = m ++ [(name, a)] := by
  induction m with
  | nil => rfl
  | cons entry rest ih =>
      obtain ⟨k, b⟩ := entry
      rw [keys_cons, List.mem_cons, not_or] at h
      have hb : (k == name) = false := by simpa using Ne.symm h.1
      simp only [insert, hb, Bool.false_eq_true, if_false, ih h.2, List.cons_append]

/-- The names after an insertion: a known name keeps its place. -/
theorem keys_insert :
    keys (insert m name a) = if name ∈ keys m then keys m else keys m ++ [name] := by
  induction m with
  | nil => simp [insert]
  | cons entry rest ih =>
      obtain ⟨k, b⟩ := entry
      by_cases hk : k = name
      · simp [insert, hk]
      · have hb : (k == name) = false := by simpa using hk
        simp only [insert, hb, Bool.false_eq_true, if_false, keys_cons, ih, List.mem_cons,
          Ne.symm hk, false_or]
        split <;> simp

theorem mem_keys_insert : other ∈ keys (insert m name a) ↔ other = name ∨ other ∈ keys m := by
  rw [keys_insert]
  split
  · rename_i hmem
    constructor
    · exact Or.inr
    · rintro (rfl | h)
      · exact hmem
      · exact h
  · rw [List.mem_append, List.mem_singleton, or_comm]

theorem get?_insert :
    get? (insert m name a) other = if other = name then some a else get? m other := by
  induction m with
  | nil => simp [insert, get?_cons]
  | cons entry rest ih =>
      obtain ⟨k, b⟩ := entry
      by_cases hk : k = name
      · subst hk
        simp only [insert, beq_self_eq_true, if_true, get?_cons]
        split <;> rfl
      · have hb : (k == name) = false := by simpa using hk
        simp only [insert, hb, Bool.false_eq_true, if_false, get?_cons, ih]
        by_cases ho : other = k
        · rw [if_pos ho, if_pos ho, if_neg (ho ▸ hk)]
        · rw [if_neg ho, if_neg ho]

/-- An entry after an insertion is the inserted one or an earlier one. -/
theorem mem_of_mem_insert (h : (other, b) ∈ insert m name a) :
    (other = name ∧ b = a) ∨ (other, b) ∈ m := by
  induction m with
  | nil => simpa [insert] using h
  | cons entry rest ih =>
      obtain ⟨k, c⟩ := entry
      by_cases hk : k = name
      · simp only [insert, hk, beq_self_eq_true, if_true, List.mem_cons, Prod.mk.injEq] at h
        rcases h with h | h
        · exact Or.inl h
        · exact Or.inr (List.mem_cons_of_mem _ h)
      · have hb : (k == name) = false := by simpa using hk
        simp only [insert, hb, Bool.false_eq_true, if_false, List.mem_cons] at h
        rcases h with h | h
        · exact Or.inr (h ▸ List.mem_cons_self)
        · rcases ih h with h' | h'
          · exact Or.inl h'
          · exact Or.inr (List.mem_cons_of_mem _ h')

theorem distinct_nil : Distinct ([] : OrderedMap α) := List.nodup_nil

theorem distinct_insert (distinct : Distinct m) : Distinct (insert m name a) := by
  unfold Distinct
  rw [keys_insert]
  split
  · exact distinct
  · rename_i hmem
    rw [List.nodup_append]
    refine ⟨distinct, List.nodup_cons.mpr ⟨by simp, List.nodup_nil⟩, ?_⟩
    intro x hx y hy hxy
    rw [List.mem_singleton] at hy
    exact hmem (hy ▸ hxy ▸ hx)

theorem distinct_insertAll (distinct : Distinct m) (entries : List (String × α)) :
    Distinct (insertAll m entries) := by
  induction entries generalizing m with
  | nil => exact distinct
  | cons entry rest ih => exact ih (distinct_insert distinct)

/-- New names go to the end in order. -/
theorem insertAll_of_distinct {entries : OrderedMap α} (distinct : Distinct (m ++ entries)) :
    insertAll m entries = m ++ entries := by
  induction entries generalizing m with
  | nil => exact (List.append_nil m).symm
  | cons entry rest ih =>
      obtain ⟨k, b⟩ := entry
      have hsplit : m ++ (k, b) :: rest = (m ++ [(k, b)]) ++ rest := by simp
      have hnew : k ∉ keys m := by
        intro hmem
        rw [Distinct, keys_append, keys_cons] at distinct
        exact (List.nodup_append.mp distinct).2.2 k hmem k List.mem_cons_self rfl
      have hnext : insertAll m ((k, b) :: rest) = insertAll (insert m k b) rest := rfl
      rw [hnext, insert_of_not_mem hnew, hsplit]
      exact ih (hsplit ▸ distinct)

/-- A map with distinct names is the map of its entries. -/
theorem ofList_of_distinct (distinct : Distinct m) : ofList m = m :=
  insertAll_of_distinct (m := []) distinct

/-! ## Setting many names -/

theorem insertAll_concat (m : OrderedMap α) (entries : List (String × α)) (entry : String × α) :
    insertAll m (entries ++ [entry]) = (insertAll m entries).insert entry.1 entry.2 :=
  List.foldl_concat _ _ _ _

/-- Names that are set one after the other stand behind the known ones, in the order in which
    they are first set. -/
theorem keys_insertAll (m : OrderedMap α) (entries : List (String × α)) :
    keys (insertAll m entries) =
      keys m ++ (entries.map (·.1)).eraseDups.filter (· ∉ keys m) := by
  induction entries using List.reverseRecOn with
  | nil => simp [insertAll]
  | append_singleton entries entry ih =>
      rw [insertAll_concat, keys_insert, ih, List.map_append, List.map_singleton,
        eraseDups_concat]
      by_cases hset : entry.1 ∈ entries.map (·.1)
      · by_cases hknown : entry.1 ∈ keys m
        · simp [hset, hknown]
        · rw [if_pos hset, if_pos]
          refine List.mem_append_right _ (List.mem_filter.mpr ⟨?_, by simpa using hknown⟩)
          rwa [List.mem_eraseDups]
      · by_cases hknown : entry.1 ∈ keys m
        · simp [hset, hknown]
        · rw [if_neg hset, List.filter_append, List.filter_singleton, if_neg]
          · simp [hknown]
          · rw [List.mem_append, not_or, List.mem_filter, List.mem_eraseDups]
            exact ⟨hknown, fun hmem => hset hmem.1⟩

/-- The value that a name is set to last wins. -/
theorem get?_insertAll (m : OrderedMap α) (entries : List (String × α)) (name : String) :
    get? (insertAll m entries) name = (get? entries.reverse name).or (get? m name) := by
  induction entries using List.reverseRecOn with
  | nil => rfl
  | append_singleton entries entry ih =>
      rw [insertAll_concat, get?_insert, ih, List.reverse_concat, get?_cons]
      by_cases hname : name = entry.1
      · rw [if_pos hname, if_pos hname, Option.some_or]
      · rw [if_neg hname, if_neg hname]

theorem get?_reverse (distinct : Distinct m) (name : String) : get? m.reverse name = get? m name := by
  have hreverse : Distinct m.reverse := by
    rw [Distinct, keys, List.map_reverse]
    exact List.nodup_reverse.mpr distinct
  cases hget : get? m name with
  | none =>
      rw [get?_eq_none_iff, keys, List.map_reverse, List.mem_reverse]
      exact get?_eq_none_iff.mp hget
  | some a =>
      exact get?_eq_some_of_mem hreverse (List.mem_reverse.mpr (mem_of_get?_eq_some hget))

/-! ## The map of a list of entries -/

/-- Maps with the same distinct names in the same order, and the same value for each, are the
    same. -/
theorem eq_of_keys_of_get? {n : OrderedMap α} (distinct : Distinct m) (hkeys : keys m = keys n)
    (hget : ∀ name, get? m name = get? n name) : m = n := by
  induction m generalizing n with
  | nil =>
      rw [keys_nil, eq_comm, keys, List.map_eq_nil_iff] at hkeys
      exact hkeys.symm
  | cons entry rest ih =>
      obtain ⟨k, a⟩ := entry
      obtain ⟨hk, hrest⟩ := List.nodup_cons.mp distinct
      cases n with
      | nil => cases hkeys
      | cons entry' rest' =>
          obtain ⟨k', a'⟩ := entry'
          obtain ⟨rfl, hkeys'⟩ : k = k' ∧ keys rest = keys rest' := List.cons.inj hkeys
          have ha : some a = some a' := by simpa [get?_cons] using hget k
          have hget' : ∀ name, get? rest name = get? rest' name := by
            intro name
            by_cases hname : name = k
            · -- neither rest has the first name again
              subst hname
              rw [get?_eq_none_iff.mpr hk, get?_eq_none_iff.mpr (hkeys' ▸ hk)]
            · simpa [get?_cons, hname] using hget name
          rw [Option.some.inj ha, ih hrest hkeys' hget']

/-- A map holds what entries give: every name where it is given first, and the value that is
    given for it last. -/
structure IsMapOf (m : OrderedMap α) (entries : List (String × α)) : Prop where
  keys : m.keys = (entries.map (·.1)).eraseDups
  get? : ∀ name, m.get? name = OrderedMap.get? entries.reverse name

/-- The map of entries arises by setting their names one after the other. -/
theorem isMapOf_iff {entries : List (String × α)} : m.IsMapOf entries ↔ m = ofList entries := by
  have hof : (ofList entries).IsMapOf entries := by
    constructor
    · simp [ofList, keys_insertAll]
    · intro name
      rw [ofList, get?_insertAll, get?_nil, Option.or_none]
  constructor
  · intro h
    have hsame : ofList entries = m :=
      eq_of_keys_of_get? (distinct_insertAll distinct_nil entries) (hof.keys.trans h.keys.symm)
        fun name => (hof.get? name).trans (h.get? name).symm
    exact hsame.symm
  · rintro rfl
    exact hof

/-! ## Changing every value -/

/-- If a function succeeds exactly on some values, and computes `g` there, then `mapM`
    succeeds when all values are such, and applies `g` to each in place. -/
theorem mapM_eq_ok_iff {f : String → α → Except ε β} {P : α → Prop} {g : α → β}
    (spec : ∀ k a b, f k a = .ok b ↔ P a ∧ b = g a) {n : OrderedMap β} :
    mapM f m = .ok n ↔ (∀ k a, (k, a) ∈ m → P a) ∧ n = m.map fun (k, a) => (k, g a) := by
  induction m generalizing n with
  | nil => simp [mapM, eq_comm]
  | cons entry rest ih =>
      obtain ⟨k, a⟩ := entry
      simp only [mapM, bind_eq_ok, pure_eq_ok, spec, ih, List.map_cons]
      constructor
      · rintro ⟨b, ⟨ha, rfl⟩, rest', ⟨hrest, rfl⟩, rfl⟩
        refine ⟨?_, rfl⟩
        intro k' a' hmem
        rcases List.mem_cons.mp hmem with heq | hmem
        · obtain ⟨rfl, rfl⟩ := Prod.mk.inj heq
          exact ha
        · exact hrest k' a' hmem
      · rintro ⟨hall, rfl⟩
        exact ⟨g a, ⟨hall k a List.mem_cons_self, rfl⟩, _,
          ⟨fun k' a' hmem => hall k' a' (List.mem_cons_of_mem _ hmem), rfl⟩, rfl⟩

end OrderedMap
end HpcBlueprint
