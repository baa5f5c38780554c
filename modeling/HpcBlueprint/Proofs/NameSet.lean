/-
  Sets of names are strictly increasing lists.

  Adding a name keeps a list strictly increasing, so the names of a set, added one after the
  other to an empty one, give the same set.
-/
import HpcBlueprint.OrderedMap

namespace HpcBlueprint
namespace NameSet

/-- Strictly increasing by code points. -/
def Sorted (s : NameSet) : Prop := s.Pairwise (· < ·)

theorem mem_insert {s : NameSet} {name other : String} :
    other ∈ insert s name ↔ other = name ∨ other ∈ s := by
  induction s with
  | nil => simp [insert]
  | cons x rest ih =>
      rw [insert]
      split
      · exact List.mem_cons
      · split
        · rename_i heq
          rw [← eq_of_beq heq]
          simp
        · rw [List.mem_cons, ih, List.mem_cons, or_left_comm]

theorem mem_union {s : NameSet} {names : List String} {other : String} :
    other ∈ union s names ↔ other ∈ s ∨ other ∈ names := by
  unfold union
  induction names generalizing s with
  | nil => simp
  | cons name rest ih =>
      rw [List.foldl_cons, ih, mem_insert, List.mem_cons, or_comm (a := other = name), or_assoc]

theorem mem_ofList {names : List String} {other : String} :
    other ∈ ofList names ↔ other ∈ names := by
  have h : other ∈ union [] names ↔ other ∈ [] ∨ other ∈ names := mem_union
  simpa [union, ofList] using h

theorem Sorted.nodup {s : NameSet} (sorted : Sorted s) : s.Nodup := by
  refine List.Pairwise.imp ?_ sorted
  rintro x _ hlt rfl
  exact String.lt_irrefl x hlt

theorem sorted_insert {s : NameSet} (sorted : Sorted s) (name : String) :
    Sorted (insert s name) := by
  induction s with
  | nil => simp [insert, Sorted]
  | cons x rest ih =>
      obtain ⟨hx, hrest⟩ := List.pairwise_cons.mp sorted
      rw [insert]
      split
      · rename_i hlt
        refine List.pairwise_cons.mpr ⟨?_, sorted⟩
        intro y hy
        rcases List.mem_cons.mp hy with rfl | hy
        · exact hlt
        · exact String.lt_trans hlt (hx y hy)
      · rename_i hlt
        split
        · exact sorted
        · rename_i hne
          refine List.pairwise_cons.mpr ⟨?_, ih hrest⟩
          intro y hy
          rcases mem_insert.mp hy with rfl | hy
          · -- the new name is neither before `x` nor `x` itself
            have hle : x ≤ y := String.not_lt.mp hlt
            have hxy : x ≠ y := by simpa using hne
            by_cases hxlt : x < y
            · exact hxlt
            · exact absurd (String.le_antisymm hle (String.not_lt.mp hxlt)) hxy
          · exact hx y hy

theorem sorted_union {s : NameSet} (sorted : Sorted s) (names : List String) :
    Sorted (union s names) := by
  induction names generalizing s with
  | nil => exact sorted
  | cons name rest ih => exact ih (sorted_insert sorted name)

theorem sorted_ofList (names : List String) : Sorted (ofList names) :=
  sorted_union List.Pairwise.nil names

/-- A name behind all others goes to the end. -/
theorem insert_of_forall_lt {s : NameSet} {name : String} (h : ∀ x ∈ s, x < name) :
    insert s name = s ++ [name] := by
  induction s with
  | nil => rfl
  | cons x rest ih =>
      have hx : x < name := h x List.mem_cons_self
      have hlt : ¬ name < x := fun hnx => String.lt_irrefl x (String.lt_trans hx hnx)
      have hne : ¬ (x == name) = true := by
        rw [beq_iff_eq]
        rintro rfl
        exact String.lt_irrefl x hx
      rw [insert, if_neg hlt, if_neg hne, ih fun y hy => h y (List.mem_cons_of_mem _ hy)]
      rfl

theorem union_of_sorted {s names : NameSet} (sorted : Sorted (s ++ names)) :
    union s names = s ++ names := by
  induction names generalizing s with
  | nil => exact (List.append_nil s).symm
  | cons name rest ih =>
      have hname : ∀ x ∈ s, x < name := fun x hx =>
        (List.pairwise_append.mp sorted).2.2 x hx name List.mem_cons_self
      have hnext : union s (name :: rest) = union (insert s name) rest := rfl
      rw [hnext, insert_of_forall_lt hname, ih (by simpa using sorted), List.append_assoc,
        List.singleton_append]

/-- A set is the set of its names. -/
theorem ofList_of_sorted {s : NameSet} (sorted : Sorted s) : ofList s = s :=
  union_of_sorted sorted

end NameSet
end HpcBlueprint
