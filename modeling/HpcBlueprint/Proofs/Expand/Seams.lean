/-
  What comes of putting variables into a longer text.

  Neither the plain segments of a text nor the values that are put in need to open a
  reference for the outcome to open one: a reference may be put together where two of them
  meet.  `opens_fill_iff` says that this is the only way, and `fill_ne` that what is put in
  never restores the text.
-/
import HpcBlueprint.Proofs.Expand.Substitution
import HpcBlueprint.Proofs.Number
import HpcBlueprint.Proofs.Reference.Openings

namespace HpcBlueprint

/-! ## Texts of scalars -/

/-- A value of which every text is a literal. -/
def Value.IsLiteral (v : Value) : Prop := ∀ t ∈ v.texts, Expression.parse t = .ok .literal

/-- A map of such values. -/
def OrderedMap.IsLiteral (m : OrderedMap Value) : Prop := ∀ k v, (k, v) ∈ m → v.IsLiteral

/-- The text of a scalar whose texts are literals opens no reference. -/
theorem Value.IsLiteral.not_opens {v : Value} {t : String} (h : v.IsLiteral)
    (ht : v.scalarText = some t) : ¬ Opens t.toList := by
  cases v with
  | null => exact not_opens_of_not_mem (by simp [← Option.some.inj ht])
  | bool b => exact not_opens_of_not_mem (by rw [← Option.some.inj ht]; cases b <;> decide)
  | number n =>
      rw [← Option.some.inj ht]
      exact not_opens_of_not_mem n.dollar_not_mem_text
  | string s =>
      rw [← Option.some.inj ht]
      exact Expression.parse_eq_literal_iff.mp (h s (by simp))
  | list items => cases ht
  | map entries => cases ht

namespace Expand

variable {vars : OrderedMap Value}

/-! ## Filled texts -/

/-- A text filled with variables begins a reference where two of its segments meet. -/
def OpensAtSeam (vars : OrderedMap Value) (segments : List Segment) : Prop :=
  ∃ front back, segments = front ++ back ∧ EndsOpen (Expression.fill vars front).toList ∧
    (Expression.fill vars back).toList.head? = some '('

theorem fill_append (front back : List Segment) :
    (Expression.fill vars (front ++ back)).toList =
      (Expression.fill vars front).toList ++ (Expression.fill vars back).toList := by
  induction front with
  | nil => simp [Expression.fill]
  | cons segment rest ih => simp [Expression.fill, ih]

/-- A filled segment of a text opens no reference. -/
theorem not_opens_fill (literal : vars.IsLiteral) {segment : Segment}
    (plain : ∀ t, segment = .text t → ¬ Opens t.toList)
    (noOutput : ∀ module name, segment ≠ .ref (.output module name)) :
    ¬ Opens (segment.fill vars).toList := by
  cases segment with
  | text t => exact plain t rfl
  | ref r =>
      cases r with
      | output module name => exact absurd rfl (noOutput module name)
      | var name =>
          rw [Segment.fill]
          cases hv : vars.get? name with
          | none => exact not_opens_nil
          | some v =>
              rw [Option.bind_some]
              cases ht : v.scalarText with
              | none => exact not_opens_nil
              | some t =>
                  have hmem := OrderedMap.mem_of_get?_eq_some hv
                  exact (literal name v hmem).not_opens ht

/-- An opening behind a text that has none lies where two segments meet, or where the first
    one meets that text. -/
theorem exists_seam (literal : vars.IsLiteral) {segments : List Segment}
    (plain : ∀ t, .text t ∈ segments → ¬ Opens t.toList)
    (noOutput : ∀ module name, .ref (.output module name) ∉ segments) {done : List Char}
    (hdone : ¬ Opens done) (hopens : Opens (done ++ (Expression.fill vars segments).toList)) :
    ∃ front back, segments = front ++ back ∧
      EndsOpen (done ++ (Expression.fill vars front).toList) ∧
      (Expression.fill vars back).toList.head? = some '(' := by
  induction segments generalizing done with
  | nil => exact absurd (by simpa [Expression.fill] using hopens) hdone
  | cons segment rest ih =>
      have hsegment : ¬ Opens (segment.fill vars).toList :=
        not_opens_fill literal (fun t ht => plain t (ht ▸ List.mem_cons_self))
          fun module name hr => noOutput module name (hr ▸ List.mem_cons_self)
      rw [Expression.fill, String.toList_append, ← List.append_assoc] at hopens
      by_cases hnext : Opens (done ++ (segment.fill vars).toList)
      · -- neither part opens a reference alone, so it is put together in front of the segment
        rcases opens_append hnext with h | ⟨hends, hhead⟩ | h
        · exact absurd h hdone
        · refine ⟨[], segment :: rest, rfl, by simpa [Expression.fill] using hends, ?_⟩
          rw [Expression.fill, String.toList_append, List.head?_append, hhead, Option.some_or]
        · exact absurd h hsegment
      · obtain ⟨front, back, rfl, hends, hhead⟩ :=
          ih (fun t ht => plain t (List.mem_cons_of_mem _ ht))
            (fun module name hr => noOutput module name (List.mem_cons_of_mem _ hr)) hnext hopens
        refine ⟨segment :: front, back, rfl, ?_, hhead⟩
        rwa [Expression.fill, String.toList_append, ← List.append_assoc]

/-- With literals put in, a text whose plain segments open no reference opens one exactly
    where two segments meet. -/
theorem opens_fill_iff (literal : vars.IsLiteral) {segments : List Segment}
    (plain : ∀ t, .text t ∈ segments → ¬ Opens t.toList)
    (noOutput : ∀ module name, .ref (.output module name) ∉ segments) :
    Opens (Expression.fill vars segments).toList ↔ OpensAtSeam vars segments := by
  constructor
  · intro hopens
    exact exists_seam literal plain noOutput not_opens_nil hopens
  · rintro ⟨front, back, rfl, hends, hhead⟩
    rw [fill_append]
    exact hends.opens hhead

/-! ## What is put in never restores the text -/

/-- A text that is put in at a reference ends with its dollar sign or before: if it began no
    later than the reference and held the parenthesis too, it would open a reference. -/
theorem length_le_of_not_opens {before done value behind filled : List Char}
    (heq : before ++ '$' :: '(' :: behind = done ++ (value ++ filled))
    (hle : done.length ≤ before.length) (unescaped : before.getLast? ≠ some '\\')
    (hvalue : ¬ Opens value) : done.length + value.length ≤ before.length + 1 := by
  have hdone : done <+: before :=
    List.prefix_of_prefix_length_le (List.prefix_append done _) (heq ▸ List.prefix_append before _)
      hle
  obtain ⟨mid, rfl⟩ := hdone
  rw [List.append_assoc] at heq
  have hmid : mid ++ '$' :: '(' :: behind = value ++ filled := List.append_cancel_left heq
  rw [List.length_append] at *
  by_cases hlen : mid.length + 2 ≤ value.length
  · -- the value would hold the whole beginning of the reference, which nothing escapes
    have hstart : mid ++ ['$', '('] <+: value :=
      List.prefix_of_prefix_length_le ⟨behind, by rw [← hmid]; simp⟩ (List.prefix_append _ filled)
        (by simpa using hlen)
    obtain ⟨after, rfl⟩ := hstart
    refine absurd ⟨mid, after, by simp, fun hlast => unescaped ?_⟩ hvalue
    rw [List.getLast?_append, hlast, Option.some_or]
  · omega

/-- A filled text that is as long as the written one holds no reference: it falls behind at the
    first one and never catches up. -/
theorem fill_falls_behind (literal : vars.IsLiteral) {segments : List Segment}
    {before done : List Char} (hle : done.length ≤ before.length)
    (heq : before ++ Expression.written segments =
      done ++ (Expression.fill vars segments).toList)
    (unescaped : ∀ front r back, segments = front ++ .ref r :: back →
      (before ++ Expression.written front).getLast? ≠ some '\\')
    (plain : ∀ t, .text t ∈ segments → ¬ Opens t.toList)
    (noOutput : ∀ module name, .ref (.output module name) ∉ segments) :
    done.length = before.length ∧ ∀ r, .ref r ∉ segments := by
  induction segments generalizing before done with
  | nil =>
      have hsame : before = done := by simpa [Expression.written, Expression.fill] using heq
      exact ⟨by rw [hsame], by simp⟩
  | cons segment rest ih =>
      rw [Expression.written, Expression.fill, String.toList_append] at heq
      -- the induction hypothesis behind this segment, whatever its written length
      have hrest : ∀ {value : List Char}, value = (segment.fill vars).toList →
          done.length + value.length ≤ before.length + segment.source.toList.length →
          done.length + value.length = before.length + segment.source.toList.length ∧
            ∀ r, .ref r ∉ rest := by
        intro value hvalue hlen
        rw [← hvalue, ← List.append_assoc, ← List.append_assoc] at heq
        have hnext := ih (by simpa using hlen) heq
          (fun front r back hsplit => by
            rw [List.append_assoc]
            exact unescaped (segment :: front) r back (hsplit ▸ rfl))
          (fun t ht => plain t (List.mem_cons_of_mem _ ht))
          (fun module name hr => noOutput module name (List.mem_cons_of_mem _ hr))
        simpa using hnext
      cases segment with
      | text t =>
          obtain ⟨hsame, hnone⟩ := hrest rfl (by simpa [Segment.fill, Segment.source] using hle)
          refine ⟨by simpa [Segment.fill, Segment.source] using hsame, ?_⟩
          intro r hr
          rcases List.mem_cons.mp hr with heq | hr
          · exact Segment.noConfusion heq
          · exact hnone r hr
      | ref r =>
          have hvalue : ¬ Opens ((Segment.ref r).fill vars).toList :=
            not_opens_fill literal (fun t ht => plain t (ht ▸ List.mem_cons_self))
              fun module name hr => noOutput module name (hr ▸ List.mem_cons_self)
          obtain ⟨inner, hr⟩ := r.exists_toList_text
          rw [Segment.source, hr] at heq hrest
          have hlen := length_le_of_not_opens heq hle
            (by simpa [Expression.written] using unescaped [] r rest rfl) hvalue
          -- the value ends a character short of what is written, and what follows would
          -- have to make up for it
          have hbehind := (hrest rfl (by simp; omega)).1
          simp at hbehind
          omega

/-- Putting literals in for the references of a text changes it. -/
theorem fill_ne (literal : vars.IsLiteral) {text : String} {segments : List Segment}
    (cuts : Expression.Cuts text.toList segments)
    (noOutput : ∀ module name, .ref (.output module name) ∉ segments) {r : Reference}
    (hr : .ref r ∈ segments) : Expression.fill vars segments ≠ text := by
  intro hsame
  have heq : [] ++ Expression.written segments =
      [] ++ (Expression.fill vars segments).toList := by
    rw [hsame, cuts.written_eq]
  exact (fill_falls_behind literal (Nat.le_refl _) heq (by simpa using cuts.unescaped)
    cuts.plain noOutput).2 r hr

end Expand
end HpcBlueprint
