/-
  When an expanded blueprint is closed.

  A blueprint is closed if every text in it is a literal or, in a setting, the whole
  reference to an output that is declared.  Resolving alone does not achieve that: a
  variable that is put into a longer text may put a new reference together with what stands
  next to it, which is looked at no more.  `Blueprint.Seamless` says of the blueprint that
  is resolved that this does not happen, and it is exactly what is missing.
-/
import HpcBlueprint.Proofs.Expand.Seams
import HpcBlueprint.Proofs.Expand.Settled
import HpcBlueprint.Proofs.Expand.WellFormed

namespace HpcBlueprint

open Expand

namespace Blueprint

/-- A module of group `i` may refer to an output that the schema of its module declares. -/
def Declares (b : Blueprint) (own : String) (i : Nat) (module name : String) : Prop :=
  ∃ target schema, b.Sees own i module target ∧ target.schema = some schema ∧
    ∃ o ∈ schema.outputs, o.name = name

/-- The whole text is a reference that a setting may hold. -/
def HoldsOutput (b : Blueprint) (position : Position) (text : String) : Prop :=
  ∃ own i module name, position = .inModule own i ∧
    Expression.parse text = .ok (.whole (.output module name)) ∧ b.Declares own i module name

/-- Nothing in a blueprint is left to be resolved. -/
def Closed (b : Blueprint) : Prop :=
  ∀ position known text, b.Site position known text →
    Expression.parse text = .ok .literal ∨ b.HoldsOutput position text

/-- Putting variables into longer texts puts no reference together, except one that a
    setting may hold. -/
def Seamless (b : Blueprint) : Prop :=
  ∀ position known text segments, b.Site position known text →
    Expression.parse text = .ok (.template segments) →
      OpensAtSeam (settle [] known) segments →
        b.HoldsOutput position (Expression.fill (settle [] known) segments)

/-- The schemas of all modules are known. -/
def Known (b : Blueprint) : Prop :=
  ∀ g ∈ b.groups, ∀ m ∈ g.modules, ∃ schema, m.schema = some schema

variable {b : Blueprint}

/-! ## One text -/

theorem declares_of_offers (known : b.Known) {own : String} {i : Nat} {module name : String}
    (h : b.Offers own i module name) : b.Declares own i module name := by
  obtain ⟨target, hsees, hout⟩ := h
  obtain ⟨schema, hschema⟩ : ∃ schema, target.schema = some schema := by
    obtain ⟨-, j, hmem, -⟩ := hsees
    exact forall_modules_iff.mpr known j target hmem
  exact ⟨target, schema, hsees, hschema, hout schema hschema⟩

/-- What a text that can be resolved comes to be is closed, unless a reference is put
    together in it. -/
theorem closed_substText_iff (known : b.Known) {position : Position} {earlier : OrderedMap Value}
    {text : String} (literal : OrderedMap.IsLiteral (settle [] earlier))
    (h : b.Resolvable position earlier text) :
    (∀ t ∈ (Value.substText (settle [] earlier) text).texts,
        Expression.parse t = .ok .literal ∨ b.HoldsOutput position t) ↔
      ∀ segments, Expression.parse text = .ok (.template segments) →
        OpensAtSeam (settle [] earlier) segments →
          b.HoldsOutput position (Expression.fill (settle [] earlier) segments) := by
  -- a literal, a variable behind literals and an output that is declared are closed anyway; only a
  -- template depends on its seams
  obtain ⟨e, hparse⟩ := h.parses
  unfold Value.substText
  cases e with
  | literal => simp [hparse]
  | whole r =>
      cases r with
      | var name =>
          have hknown := h.vars_known name (Expression.mem_references.mpr (Or.inl hparse))
          obtain ⟨v, hv⟩ := OrderedMap.exists_get?_eq_some (keys_settle_nil.mpr hknown)
          have hliteral := literal name v (OrderedMap.mem_of_get?_eq_some hv)
          simp only [hparse, hv, Option.getD_some, Except.ok.injEq, reduceCtorEq, false_imp_iff,
            implies_true, iff_true]
          exact fun t ht => Or.inl (hliteral t ht)
      | output module name =>
          obtain ⟨-, own, i, hpos, hoffers⟩ := h.outputs_offered module name
            (Expression.mem_references.mpr (Or.inl hparse))
          simp only [hparse, Value.texts_string, List.mem_singleton, forall_eq, Except.ok.injEq,
            reduceCtorEq, false_imp_iff, implies_true, iff_true]
          exact Or.inr ⟨own, i, module, name, hpos, hparse, declares_of_offers known hoffers⟩
  | template segments =>
      obtain ⟨segments', hscan, rfl, -⟩ := Expression.classifies_of_parse hparse
      have hcuts := Expression.scan_cuts hscan
      have hnone := h.not_output_of_template hparse
      simp only [hparse, Value.texts_string, List.mem_singleton, forall_eq, Except.ok.injEq,
        Expression.template.injEq, forall_eq', Expression.parse_eq_literal_iff,
        opens_fill_iff literal hcuts.plain hnone]
      exact imp_iff_not_or.symm

/-! ## The texts of a resolved blueprint -/

/-- The texts of the settled variables are what becomes of those of the variables. -/
theorem forall_texts_values (distinct : b.vars.Distinct) {P : String → Prop} :
    (∀ before name w after, b.values = before ++ (name, w) :: after → ∀ t ∈ w.texts, P t) ↔
      ∀ before name v after, b.vars = before ++ (name, v) :: after → ∀ text ∈ v.texts,
        ∀ t ∈ (Value.substText (settle [] before) text).texts, P t := by
  have hmem : ∀ name w, (name, w) ∈ b.values ↔ ∃ before v after,
      b.vars = before ++ (name, v) :: after ∧ w = v.subst (settle [] before) :=
    fun name w => mem_settle distinct
  constructor
  · intro h before name v after hsplit
    obtain ⟨front, back, hvalues⟩ :=
      List.append_of_mem ((hmem name _).mpr ⟨before, v, after, hsplit, rfl⟩)
    exact Value.forall_texts_subst.mp (h front name _ back hvalues)
  · intro h front name w back hvalues
    obtain ⟨before, v, after, hsplit, rfl⟩ := (hmem name w).mp (hvalues ▸ by simp)
    exact Value.forall_texts_subst.mpr (h before name v after hsplit)

theorem forall_texts_modules {P : Nat → String → String → Prop} :
    (∀ i m, (i, m) ∈ b.substituted.modules → ∀ key v, (key, v) ∈ m.settings →
        ∀ t ∈ v.texts, P i m.id t) ↔
      ∀ i m, (i, m) ∈ b.modules → ∀ key v, (key, v) ∈ m.settings → ∀ text ∈ v.texts,
        ∀ t ∈ (Value.substText b.values text).texts, P i m.id t := by
  simp only [mem_modules_substituted]
  constructor
  · intro h i m hm
    exact OrderedMap.forall_texts_subst.mp (h i _ ⟨m, hm, rfl⟩)
  · rintro h i _ ⟨m, hm, rfl⟩
    exact OrderedMap.forall_texts_subst.mpr (h i m hm)

theorem forall_texts_validators {P : String → Prop} :
    (∀ entry ∈ b.substituted.validators, ∀ key v, (key, v) ∈ entry.inputs →
        ∀ t ∈ v.texts, P t) ↔
      ∀ entry ∈ b.validators, ∀ key v, (key, v) ∈ entry.inputs → ∀ text ∈ v.texts,
        ∀ t ∈ (Value.substText b.values text).texts, P t := by
  simp only [substituted, List.forall_mem_map]
  exact forall₂_congr fun _ _ => OrderedMap.forall_texts_subst

theorem forall_texts_backends {P : String → Prop} :
    (∀ g ∈ b.substituted.groups, ∀ backend, g.backend = some backend →
        ∀ key v, (key, v) ∈ backend.configuration → ∀ t ∈ v.texts, P t) ↔
      ∀ g ∈ b.groups, ∀ backend, g.backend = some backend →
        ∀ key v, (key, v) ∈ backend.configuration → ∀ text ∈ v.texts,
          ∀ t ∈ (Value.substText b.values text).texts, P t := by
  simp only [substituted, List.forall_mem_map, Group.subst, Option.map_eq_some_iff]
  refine forall₂_congr fun g _ => ?_
  constructor
  · intro h backend hbackend
    exact OrderedMap.forall_texts_subst.mp (h _ ⟨backend, hbackend, rfl⟩)
  · rintro h _ ⟨backend, hbackend, rfl⟩
    exact OrderedMap.forall_texts_subst.mpr (h backend hbackend)

/-- The texts of a resolved blueprint are what becomes of those of the blueprint. -/
theorem forall_site_substituted_iff (distinct : b.vars.Distinct)
    {P : Position → String → Prop} :
    (∀ position known text, b.substituted.Site position known text → P position text) ↔
      ∀ position known text, b.Site position known text →
        ∀ t ∈ (Value.substText (settle [] known) text).texts, P position t := by
  -- the places of the blueprint and of what becomes of it, kind by kind
  rw [forall_site_iff, forall_site_iff]
  exact and_congr (forall_texts_values distinct)
    (and_congr (forall_texts_modules (P := fun i id t => P (.inModule id i) t))
      (and_congr forall_texts_validators
        (and_congr OrderedMap.forall_texts_subst forall_texts_backends)))

/-- Resolving leaves what a module sees. -/
theorem sees_substituted {own id : String} {i : Nat} {target : Module} :
    b.substituted.Sees own i id target ↔
      ∃ target', b.Sees own i id target' ∧ target = target'.subst b.values := by
  simp only [Sees, mem_modules_substituted]
  constructor
  · rintro ⟨hne, j, ⟨target', hmem, rfl⟩, hid, hle, hkind⟩
    exact ⟨target', ⟨hne, j, hmem, hid, hle, hkind⟩, rfl⟩
  · rintro ⟨target', ⟨hne, j, hmem, hid, hle, hkind⟩, rfl⟩
    exact ⟨hne, j, ⟨target', hmem, rfl⟩, hid, hle, hkind⟩

theorem holdsOutput_substituted {position : Position} {text : String} :
    b.substituted.HoldsOutput position text ↔ b.HoldsOutput position text := by
  have hdeclares : ∀ own i module name,
      b.substituted.Declares own i module name ↔ b.Declares own i module name := by
    intro own i module name
    simp only [Declares, sees_substituted]
    constructor
    · rintro ⟨_, schema, ⟨target, hsees, rfl⟩, hschema, hout⟩
      exact ⟨target, schema, hsees, hschema, hout⟩
    · rintro ⟨target, schema, hsees, hschema, hout⟩
      exact ⟨_, schema, ⟨target, hsees, rfl⟩, hschema, hout⟩
  simp only [HoldsOutput, hdeclares]

theorem not_holdsOutput_inVariable {text : String} : ¬ b.HoldsOutput .inVariable text := by
  rintro ⟨own, i, module, name, hpos, -⟩
  exact Position.noConfusion hpos

/-- The variables come to be literals, one after the other, if each does behind literals. -/
theorem isLiteral_settle (step : ∀ earlier name v after, b.vars = earlier ++ (name, v) :: after →
      OrderedMap.IsLiteral (settle [] earlier) → (v.subst (settle [] earlier)).IsLiteral)
    {before after : OrderedMap Value} (hsplit : b.vars = before ++ after) :
    OrderedMap.IsLiteral (settle [] before) := by
  induction before using List.reverseRecOn generalizing after with
  | nil => exact fun _ _ h => absurd h List.not_mem_nil
  | append_singleton earlier entry ih =>
      obtain ⟨name, v⟩ := entry
      rw [List.append_assoc, List.singleton_append] at hsplit
      have hearlier := ih hsplit
      intro k w hmem
      rw [settle_append, settle, settle] at hmem
      rcases OrderedMap.mem_of_mem_insert hmem with ⟨-, rfl⟩ | hmem
      · exact step earlier name v after hsplit hearlier
      · exact hearlier k w hmem

/-- Where no reference is put together, every variable comes to be a literal. -/
theorem Seamless.isLiteral_settle (wellFormed : b.WellFormed) (known : b.Known)
    (seamless : b.Seamless) {before after : OrderedMap Value} (hsplit : b.vars = before ++ after) :
    OrderedMap.IsLiteral (settle [] before) := by
  refine Blueprint.isLiteral_settle (fun earlier name v after hsplit hearlier => ?_) hsplit
  refine Value.forall_texts_subst.mpr fun text htext t ht => ?_
  have hsite : b.Site .inVariable earlier text := .inVar hsplit htext
  have hclosed := (closed_substText_iff known hearlier
    (wellFormed.texts_resolvable _ _ _ hsite)).mpr
      fun segments hparse => seamless _ _ _ segments hsite hparse
  exact (hclosed t ht).resolve_right not_holdsOutput_inVariable

/-- The variables of a closed blueprint are literals, with all that they were settled with. -/
theorem Closed.isLiteral_settle (distinct : b.vars.Distinct) (closed : b.substituted.Closed)
    {before after : OrderedMap Value} (hsplit : b.vars = before ++ after) :
    OrderedMap.IsLiteral (settle [] before) := by
  intro k w hmem t ht
  have hvalue : (k, w) ∈ b.values := by
    rw [values, hsplit]
    exact (prefix_settle_append (hsplit ▸ distinct)).subset hmem
  obtain ⟨front, back, hvalues⟩ := List.append_of_mem hvalue
  exact (closed _ _ t (.inVar hvalues ht)).resolve_right not_holdsOutput_inVariable

/-- The variables that a text may refer to begin the variables of the blueprint. -/
theorem Site.exists_vars_eq {position : Position} {known : OrderedMap Value} {text : String}
    (h : b.Site position known text) : ∃ after, b.vars = known ++ after := by
  cases h with
  | inVar split mem => exact ⟨_, split⟩
  | _ => exact ⟨[], (List.append_nil _).symm⟩

/-- A resolved blueprint is closed exactly when no reference is put together in it. -/
theorem closed_substituted_iff (distinct : b.vars.Distinct) (wellFormed : b.WellFormed)
    (known : b.Known) : b.substituted.Closed ↔ b.Seamless := by
  have hclosed : b.substituted.Closed ↔
      ∀ position earlier text, b.Site position earlier text →
        ∀ t ∈ (Value.substText (settle [] earlier) text).texts,
          Expression.parse t = .ok .literal ∨ b.HoldsOutput position t := by
    rw [← forall_site_substituted_iff distinct]
    simp only [Closed, holdsOutput_substituted]
  -- text by text the two agree behind variables that are literals, and either of them
  -- makes the variables literals
  have htext : (∀ before after, b.vars = before ++ after →
        OrderedMap.IsLiteral (settle [] before)) →
      (b.substituted.Closed ↔ b.Seamless) := by
    intro hliteral
    rw [hclosed]
    constructor
    · intro h position earlier text segments hsite
      obtain ⟨after, hsplit⟩ := hsite.exists_vars_eq
      exact (closed_substText_iff known (hliteral _ _ hsplit)
        (wellFormed.texts_resolvable _ _ _ hsite)).mp (h position earlier text hsite) segments
    · intro h position earlier text hsite
      obtain ⟨after, hsplit⟩ := hsite.exists_vars_eq
      exact (closed_substText_iff known (hliteral _ _ hsplit)
        (wellFormed.texts_resolvable _ _ _ hsite)).mpr
          fun segments => h position earlier text segments hsite
  constructor
  · intro h
    exact (htext fun _ _ => h.isLiteral_settle distinct).mp h
  · intro h
    exact (htext fun _ _ => h.isLiteral_settle wellFormed known).mpr h

end Blueprint
end HpcBlueprint
