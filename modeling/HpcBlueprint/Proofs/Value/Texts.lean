/-
  The texts nested in a value.

  `Value.nested` is the induction that follows lists and maps to any depth; with it the
  texts of a list or map are those of its members, in order.
-/
import HpcBlueprint.Expand.Resolve

namespace HpcBlueprint
namespace Value

/-! ## Induction over nested values -/

/-- What holds of scalars, and of a list or map whenever it holds of all its members,
    holds of every value. -/
@[elab_as_elim]
theorem nested {motive : Value → Prop} (null : motive .null) (bool : ∀ b, motive (.bool b))
    (number : ∀ n, motive (.number n)) (string : ∀ s, motive (.string s))
    (list : ∀ items, (∀ v ∈ items, motive v) → motive (.list items))
    (map : ∀ entries, (∀ k v, (k, v) ∈ entries → motive v) → motive (.map entries))
    (v : Value) : motive v := by
  have itemsNil : ∀ v ∈ ([] : List Value), motive v := fun _ h => absurd h List.not_mem_nil
  have itemsCons : ∀ first rest, motive first → (∀ v ∈ rest, motive v) →
      ∀ v ∈ first :: rest, motive v := by
    intro first rest hfirst hrest v hv
    rcases List.mem_cons.mp hv with rfl | hv
    · exact hfirst
    · exact hrest v hv
  have entriesNil : ∀ k v, (k, v) ∈ ([] : List (String × Value)) → motive v :=
    fun _ _ h => absurd h List.not_mem_nil
  have entriesCons : ∀ (first : String × Value) rest, motive first.2 →
      (∀ k v, (k, v) ∈ rest → motive v) → ∀ k v, (k, v) ∈ first :: rest → motive v := by
    intro first rest hfirst hrest k v hv
    rcases List.mem_cons.mp hv with heq | hv
    · rw [← heq] at hfirst
      exact hfirst
    · exact hrest k v hv
  -- the recursor goes through lists of items, lists of entries and single entries on its own
  exact @Value.rec motive (fun items => ∀ v ∈ items, motive v)
    (fun entries => ∀ k v, (k, v) ∈ entries → motive v) (fun entry => motive entry.2)
    null bool number string list map itemsNil itemsCons entriesNil entriesCons
    (fun _ _ h => h) v

/-! ## Texts of lists and maps -/

@[simp] theorem texts_string (s : String) : (Value.string s).texts = [s] := by
  simp [texts]

theorem textsOfItems_eq_flatMap (items : List Value) :
    textsOfItems items = items.flatMap texts := by
  induction items with
  | nil => simp [textsOfItems]
  | cons v rest ih => simp [textsOfItems, ih]

theorem textsOfEntries_eq_flatMap (entries : List (String × Value)) :
    textsOfEntries entries = entries.flatMap (·.2.texts) := by
  induction entries with
  | nil => simp [textsOfEntries]
  | cons entry rest ih => simp [textsOfEntries, ih]

theorem mem_texts_list {items : List Value} {t : String} :
    t ∈ (Value.list items).texts ↔ ∃ v ∈ items, t ∈ v.texts := by
  rw [texts, textsOfItems_eq_flatMap, List.mem_flatMap]

theorem mem_texts_map {entries : List (String × Value)} {t : String} :
    t ∈ (Value.map entries).texts ↔ ∃ k v, (k, v) ∈ entries ∧ t ∈ v.texts := by
  rw [texts, textsOfEntries_eq_flatMap, List.mem_flatMap]
  constructor
  · rintro ⟨⟨k, v⟩, hmem, ht⟩
    exact ⟨k, v, hmem, ht⟩
  · rintro ⟨k, v, hmem, ht⟩
    exact ⟨(k, v), hmem, ht⟩

/-- The references of a value are those of its texts. -/
theorem mem_references {v : Value} {r : Reference} :
    r ∈ v.references ↔ ∃ t ∈ v.texts, r ∈ Expression.references t := by
  rw [references, List.mem_flatMap]

end Value

/-- A text refers to what it consists of, or to what its segments refer to. -/
theorem Expression.mem_references {text : String} {r : Reference} :
    r ∈ Expression.references text ↔
      Expression.parse text = .ok (.whole r) ∨
        ∃ segments, Expression.parse text = .ok (.template segments) ∧ .ref r ∈ segments := by
  unfold Expression.references
  cases Expression.parse text with
  | error e => simp
  | ok e =>
      cases e with
      | literal => simp
      | whole r' => simp [eq_comm]
      | template segments =>
          simp only [List.mem_filterMap, Except.ok.injEq, reduceCtorEq, false_or,
            Expression.template.injEq, exists_eq_left']
          constructor
          · rintro ⟨segment, hmem, hr⟩
            cases segment with
            | text t => simp at hr
            | ref r' => exact Option.some.inj hr ▸ hmem
          · intro hmem
            exact ⟨_, hmem, rfl⟩

theorem Expression.references_of_literal {text : String}
    (h : Expression.parse text = .ok .literal) : Expression.references text = [] := by
  simp [Expression.references, h]

theorem Expression.references_of_whole {text : String} {r : Reference}
    (h : Expression.parse text = .ok (.whole r)) : Expression.references text = [r] := by
  simp [Expression.references, h]

theorem OrderedMap.mem_references {m : OrderedMap Value} {r : Reference} :
    r ∈ m.references ↔
      ∃ k v t, (k, v) ∈ m ∧ t ∈ v.texts ∧ r ∈ Expression.references t := by
  simp only [OrderedMap.references, List.mem_flatMap, Value.mem_references]
  constructor
  · rintro ⟨⟨k, v⟩, hmem, t, ht, hr⟩
    exact ⟨k, v, t, hmem, ht, hr⟩
  · rintro ⟨k, v, t, hmem, ht, hr⟩
    exact ⟨(k, v), hmem, t, ht, hr⟩

end HpcBlueprint
