/-
  The texts of a substituted value, and the values of settled variables.

  The texts of a substituted value are those that substitution makes of its texts, so a
  value is left as it is exactly when each of its texts is.  Where names are distinct,
  settling appends: every variable comes to have what the earlier ones, settled, make of it.
-/
import HpcBlueprint.Proofs.Expand.Passes
import Mathlib.Data.List.Induction

namespace HpcBlueprint

variable {vars : OrderedMap Value}

/-! ## Texts -/

theorem map_eq_self_iff {α : Type} {f : α → α} {l : List α} :
    l.map f = l ↔ ∀ x ∈ l, f x = x := by
  conv_lhs => rhs; rw [← List.map_id l]
  exact List.map_inj_left

/-- A map is left as it is exactly when each of its values is. -/
theorem OrderedMap.subst_eq_self_iff {m : OrderedMap Value} :
    OrderedMap.subst vars m = m ↔ ∀ k v, (k, v) ∈ m → v.subst vars = v := by
  have hmap : OrderedMap.subst vars m = m ↔
      ∀ entry ∈ m, (entry.1, entry.2.subst vars) = entry := map_eq_self_iff
  rw [hmap]
  constructor
  · intro h k v hv
    exact (Prod.mk.inj (h (k, v) hv)).2
  · rintro h ⟨k, v⟩ hv
    exact Prod.ext rfl (h k v hv)

namespace Value

theorem mem_texts_subst {v : Value} {t : String} :
    t ∈ (v.subst vars).texts ↔ ∃ text ∈ v.texts, t ∈ (substText vars text).texts := by
  induction v using Value.nested with
  | null => simp [subst, texts]
  | bool b => simp [subst, texts]
  | number n => simp [subst, texts]
  | string text => simp [subst]
  | list items ih =>
      simp only [subst, substItems_eq_map, mem_texts_list, List.mem_map]
      constructor
      · rintro ⟨_, ⟨v, hv, rfl⟩, ht⟩
        obtain ⟨text, htext, ht⟩ := (ih v hv).mp ht
        exact ⟨text, ⟨v, hv, htext⟩, ht⟩
      · rintro ⟨text, ⟨v, hv, htext⟩, ht⟩
        exact ⟨_, ⟨v, hv, rfl⟩, (ih v hv).mpr ⟨text, htext, ht⟩⟩
  | map entries ih =>
      have hentries : substEntries vars entries = OrderedMap.subst vars entries :=
        substEntries_eq_map vars entries
      simp only [subst, hentries, mem_texts_map, OrderedMap.mem_subst]
      constructor
      · rintro ⟨k, w, ⟨v, hv, rfl⟩, ht⟩
        obtain ⟨text, htext, ht⟩ := (ih k v hv).mp ht
        exact ⟨text, ⟨k, v, hv, htext⟩, ht⟩
      · rintro ⟨text, ⟨k, v, hv, htext⟩, ht⟩
        exact ⟨k, _, ⟨v, hv, rfl⟩, (ih k v hv).mpr ⟨text, htext, ht⟩⟩

theorem forall_texts_subst {v : Value} {P : String → Prop} :
    (∀ t ∈ (v.subst vars).texts, P t) ↔
      ∀ text ∈ v.texts, ∀ t ∈ (substText vars text).texts, P t := by
  simp only [mem_texts_subst]
  constructor
  · intro h text htext t ht
    exact h t ⟨text, htext, ht⟩
  · rintro h t ⟨text, htext, ht⟩
    exact h text htext t ht

/-- A value is left as it is exactly when each of its texts is. -/
theorem subst_eq_self_iff {v : Value} :
    v.subst vars = v ↔ ∀ t ∈ v.texts, substText vars t = .string t := by
  induction v using Value.nested with
  | null => simp [subst, texts]
  | bool b => simp [subst, texts]
  | number n => simp [subst, texts]
  | string text => simp [subst]
  | list items ih =>
      simp only [subst, substItems_eq_map, list.injEq, map_eq_self_iff, mem_texts_list]
      constructor
      · rintro h t ⟨v, hv, ht⟩
        exact (ih v hv).mp (h v hv) t ht
      · intro h v hv
        exact (ih v hv).mpr fun t ht => h t ⟨v, hv, ht⟩
  | map entries ih =>
      have hentries : substEntries vars entries = OrderedMap.subst vars entries :=
        substEntries_eq_map vars entries
      simp only [subst, hentries, map.injEq, OrderedMap.subst_eq_self_iff, mem_texts_map]
      constructor
      · rintro h t ⟨k, v, hv, ht⟩
        exact (ih k v hv).mp (h k v hv) t ht
      · intro h k v hv
        exact (ih k v hv).mpr fun t ht => h t ⟨k, v, hv, ht⟩

end Value

theorem OrderedMap.forall_texts_subst {m : OrderedMap Value} {P : String → Prop} :
    (∀ k v, (k, v) ∈ OrderedMap.subst vars m → ∀ t ∈ v.texts, P t) ↔
      ∀ k v, (k, v) ∈ m → ∀ text ∈ v.texts, ∀ t ∈ (Value.substText vars text).texts, P t := by
  simp only [OrderedMap.mem_subst]
  constructor
  · intro h k v hv
    exact Value.forall_texts_subst.mp (h k _ ⟨v, hv, rfl⟩)
  · rintro h k _ ⟨v, hv, rfl⟩
    exact Value.forall_texts_subst.mpr (h k v hv)

/-! ## Settled variables -/

namespace Expand

/-- A new variable is settled behind those before it. -/
theorem settle_concat {before : OrderedMap Value} {name : String} {v : Value}
    (distinct : OrderedMap.Distinct (before ++ [(name, v)])) :
    settle [] (before ++ [(name, v)]) =
      settle [] before ++ [(name, v.subst (settle [] before))] := by
  have hnew : name ∉ OrderedMap.keys (settle [] before) := by
    rw [OrderedMap.Distinct, OrderedMap.keys_append, List.nodup_append] at distinct
    rw [mem_keys_settle, OrderedMap.keys_nil]
    rintro (h | h)
    · exact absurd h List.not_mem_nil
    · exact distinct.2.2 name h name (by simp) rfl
  rw [settle_append, settle, settle, OrderedMap.insert_of_not_mem hnew]

theorem distinct_of_append {before after : OrderedMap Value}
    (distinct : OrderedMap.Distinct (before ++ after)) : OrderedMap.Distinct before := by
  rw [OrderedMap.Distinct, OrderedMap.keys_append, List.nodup_append] at distinct
  exact distinct.1

/-- A member of a list with one more element at the end is that one or stands before it. -/
theorem concat_eq_append_cons {α : Type} {before front after : List α} {last x : α} :
    before ++ [last] = front ++ x :: after ↔
      (before = front ∧ last = x ∧ after = []) ∨
        ∃ mid, after = mid ++ [last] ∧ before = front ++ x :: mid := by
  constructor
  · intro h
    rcases List.eq_nil_or_concat after with rfl | ⟨mid, final, rfl⟩
    · obtain ⟨rfl, hlast⟩ := List.append_inj' h rfl
      exact Or.inl ⟨rfl, (List.cons.inj hlast).1, rfl⟩
    · rw [List.concat_eq_append, ← List.cons_append, ← List.append_assoc] at h
      obtain ⟨rfl, hlast⟩ := List.append_inj' h rfl
      rw [List.cons.injEq] at hlast
      exact Or.inr ⟨mid, by rw [List.concat_eq_append, hlast.1], rfl⟩
  · rintro (⟨rfl, rfl, rfl⟩ | ⟨mid, rfl, rfl⟩)
    · rfl
    · rw [List.append_assoc, List.cons_append]

/-- A settled variable is what the earlier ones, settled, make of a variable. -/
theorem mem_settle {all : OrderedMap Value} (distinct : OrderedMap.Distinct all) {name : String}
    {w : Value} :
    (name, w) ∈ settle [] all ↔
      ∃ before v after, all = before ++ (name, v) :: after ∧ w = v.subst (settle [] before) := by
  -- from the end, since what the last variable comes to be leaves those before it
  induction all using List.reverseRecOn with
  | nil => simp [settle]
  | append_singleton before entry ih =>
      obtain ⟨last, u⟩ := entry
      simp only [settle_concat distinct, List.mem_append, ih (distinct_of_append distinct),
        List.mem_singleton, concat_eq_append_cons]
      constructor
      · rintro (⟨front, v, after, rfl, rfl⟩ | heq)
        · exact ⟨front, v, _, Or.inr ⟨after, rfl, rfl⟩, rfl⟩
        · obtain ⟨rfl, rfl⟩ := Prod.mk.inj heq
          exact ⟨before, u, [], Or.inl ⟨rfl, rfl, rfl⟩, rfl⟩
      · rintro ⟨front, v, after, ⟨rfl, heq, -⟩ | ⟨mid, -, rfl⟩, rfl⟩
        · obtain ⟨rfl, rfl⟩ := Prod.mk.inj heq
          exact Or.inr rfl
        · exact Or.inl ⟨front, v, mid, rfl, rfl⟩

/-- Variables are their own values exactly when those before it leave each as it is. -/
theorem settle_eq_self_iff {all : OrderedMap Value} (distinct : OrderedMap.Distinct all) :
    settle [] all = all ↔ ∀ before name v after, all = before ++ (name, v) :: after →
      v.subst (settle [] before) = v := by
  induction all using List.reverseRecOn with
  | nil => simp [settle]
  | append_singleton before entry ih =>
      obtain ⟨last, u⟩ := entry
      have hsplit : settle [] (before ++ [(last, u)]) = before ++ [(last, u)] ↔
          settle [] before = before ∧ u.subst (settle [] before) = u := by
        rw [settle_concat distinct]
        constructor
        · intro h
          obtain ⟨hbefore, hlast⟩ := List.append_inj' h rfl
          exact ⟨hbefore, (Prod.mk.inj (List.cons.inj hlast).1).2⟩
        · rintro ⟨hbefore, hlast⟩
          rw [hlast, hbefore]
      rw [hsplit, ih (distinct_of_append distinct)]
      simp only [concat_eq_append_cons]
      constructor
      · rintro ⟨hbefore, hlast⟩ front name v after (⟨rfl, heq, -⟩ | ⟨mid, -, rfl⟩)
        · obtain ⟨rfl, rfl⟩ := Prod.mk.inj heq
          exact hlast
        · exact hbefore front name v mid rfl
      · intro h
        exact ⟨fun front name v mid heq => h front name v _ (Or.inr ⟨mid, rfl, heq⟩),
          h before last u [] (Or.inl ⟨rfl, rfl, rfl⟩)⟩

/-- Settling more variables behind some leaves the values of these. -/
theorem prefix_settle_append {before after : OrderedMap Value}
    (distinct : OrderedMap.Distinct (before ++ after)) :
    settle [] before <+: settle [] (before ++ after) := by
  induction after using List.reverseRecOn with
  | nil => exact ⟨[], by rw [List.append_nil, List.append_nil]⟩
  | append_singleton after entry ih =>
      rw [← List.append_assoc] at distinct ⊢
      rw [settle_concat distinct]
      exact (ih (distinct_of_append distinct)).trans (List.prefix_append _ _)

/-- Settling keeps the names in their order. -/
theorem keys_settle {all : OrderedMap Value} (distinct : OrderedMap.Distinct all) :
    OrderedMap.keys (settle [] all) = OrderedMap.keys all := by
  induction all using List.reverseRecOn with
  | nil => rfl
  | append_singleton before entry ih =>
      obtain ⟨last, u⟩ := entry
      rw [settle_concat distinct, OrderedMap.keys_append, OrderedMap.keys_append,
        ih (distinct_of_append distinct)]
      rfl

/-- The earlier variables, settled, are the first of all settled ones. -/
theorem settle_eq_take {before after : OrderedMap Value}
    (distinct : OrderedMap.Distinct (before ++ after)) :
    settle [] before = (settle [] (before ++ after)).take before.length := by
  have hlength : (settle [] before).length = before.length := by
    have hkeys := congrArg List.length (keys_settle (distinct_of_append distinct))
    rwa [OrderedMap.keys, OrderedMap.keys, List.length_map, List.length_map] at hkeys
  have hprefix := List.prefix_iff_eq_take.mp (prefix_settle_append distinct)
  rwa [hlength] at hprefix

/-- The value of a settled variable is what the variables before it make of it. -/
theorem get?_settle {before after : OrderedMap Value} {name : String} {v : Value}
    (distinct : OrderedMap.Distinct (before ++ (name, v) :: after)) :
    OrderedMap.get? (settle [] (before ++ (name, v) :: after)) name =
      some (v.subst ((settle [] (before ++ (name, v) :: after)).take before.length)) := by
  have hmem := (mem_settle distinct).mpr ⟨before, v, after, rfl, rfl⟩
  rw [← settle_eq_take distinct]
  exact OrderedMap.get?_eq_some_of_mem (distinct_settle OrderedMap.distinct_nil _) hmem

end Expand
end HpcBlueprint
