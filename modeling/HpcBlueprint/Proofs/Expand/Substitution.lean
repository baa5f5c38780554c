/-
  Resolving is substitution where it succeeds.

  `Value.subst` puts the values of variables into a value and never fails; `Expand.settle`
  does so for the variables themselves, each with those before it.  `Scope.Admits` says
  when a text can be resolved.  `resolve_eq_ok_iff` ties the two to the pass that runs: it
  succeeds exactly when every nested text is admitted, and then it substitutes.
-/
import HpcBlueprint.Expand.Materialize
import HpcBlueprint.Proofs.OrderedMap
import HpcBlueprint.Proofs.Value.Texts

namespace HpcBlueprint

/-! ## Substitution -/

/-- A segment as it reads once its variable has been put in. -/
def Segment.fill (vars : OrderedMap Value) : Segment → String
  | .text t => t
  | .ref (.var name) => ((vars.get? name).bind Value.scalarText).getD ""
  | .ref (.output module name) => (Reference.output module name).text

/-- The text of segments with the scalar texts of variables put in. -/
def Expression.fill (vars : OrderedMap Value) : List Segment → String
  | [] => ""
  | segment :: rest => segment.fill vars ++ fill vars rest

namespace Value

/-- The value that a text stands for: that of a variable if the text is exactly a reference
    to it, else the text, with the variables inside a longer text put in. -/
def substText (vars : OrderedMap Value) (text : String) : Value :=
  match Expression.parse text with
  | .ok (.whole (.var name)) => (vars.get? name).getD (.string text)
  | .ok (.template segments) => .string (Expression.fill vars segments)
  | _ => .string text

mutual

/-- A value with variables put in for the references to them, at any depth. -/
def subst (vars : OrderedMap Value) : Value → Value
  | .string text => substText vars text
  | .list items => .list (substItems vars items)
  | .map entries => .map (substEntries vars entries)
  | .null => .null
  | .bool b => .bool b
  | .number n => .number n

/-- The items of a list with variables put in. -/
def substItems (vars : OrderedMap Value) : List Value → List Value
  | [] => []
  | v :: rest => v.subst vars :: substItems vars rest

/-- The values of a map with variables put in, under the same keys. -/
def substEntries (vars : OrderedMap Value) : List (String × Value) → List (String × Value)
  | [] => []
  | (key, v) :: rest => (key, v.subst vars) :: substEntries vars rest

end

theorem substItems_eq_map (vars : OrderedMap Value) (items : List Value) :
    substItems vars items = items.map (·.subst vars) := by
  induction items with
  | nil => rw [substItems, List.map_nil]
  | cons v rest ih => rw [substItems, List.map_cons, ih]

theorem substEntries_eq_map (vars : OrderedMap Value) (entries : List (String × Value)) :
    substEntries vars entries = entries.map fun (key, v) => (key, v.subst vars) := by
  induction entries with
  | nil => rw [substEntries, List.map_nil]
  | cons entry rest ih =>
      obtain ⟨key, v⟩ := entry
      rw [substEntries, List.map_cons, ih]

end Value

/-- A map with variables put into its values. -/
def OrderedMap.subst (vars m : OrderedMap Value) : OrderedMap Value :=
  m.map fun (key, v) => (key, v.subst vars)

@[simp] theorem OrderedMap.keys_subst (vars m : OrderedMap Value) :
    OrderedMap.keys (OrderedMap.subst vars m) = OrderedMap.keys m := by
  simp [OrderedMap.keys, OrderedMap.subst]

theorem OrderedMap.mem_subst {vars m : OrderedMap Value} {key : String} {w : Value} :
    (key, w) ∈ OrderedMap.subst vars m ↔ ∃ v, (key, v) ∈ m ∧ w = v.subst vars := by
  constructor
  · intro h
    obtain ⟨⟨k, v⟩, hmem, heq⟩ := List.mem_map.mp h
    obtain ⟨rfl, rfl⟩ := Prod.mk.inj heq
    exact ⟨v, hmem, rfl⟩
  · rintro ⟨v, hmem, rfl⟩
    exact List.mem_map.mpr ⟨(key, v), hmem, rfl⟩

/-- The values of variables, each with those before it put in; `done` holds earlier ones. -/
def Expand.settle (done : OrderedMap Value) : List (String × Value) → OrderedMap Value
  | [] => done
  | (name, v) :: rest => settle (done.insert name (v.subst done)) rest

/-- The values that the variables of a blueprint come to have. -/
def Blueprint.values (b : Blueprint) : OrderedMap Value := Expand.settle [] b.vars

namespace Expand

theorem settle_append (done : OrderedMap Value) (before after : List (String × Value)) :
    settle done (before ++ after) = settle (settle done before) after := by
  induction before generalizing done with
  | nil => rfl
  | cons entry rest ih =>
      obtain ⟨name, v⟩ := entry
      exact ih _

theorem distinct_settle {done : OrderedMap Value} (distinct : OrderedMap.Distinct done)
    (vars : List (String × Value)) : OrderedMap.Distinct (settle done vars) := by
  induction vars generalizing done with
  | nil => exact distinct
  | cons entry rest ih =>
      obtain ⟨name, v⟩ := entry
      exact ih (OrderedMap.distinct_insert distinct)

/-- Settling gives a value to the variables it goes through, and to no others. -/
theorem mem_keys_settle {done : OrderedMap Value} {vars : List (String × Value)}
    {name : String} :
    name ∈ OrderedMap.keys (settle done vars) ↔
      name ∈ OrderedMap.keys done ∨ name ∈ OrderedMap.keys vars := by
  induction vars generalizing done with
  | nil => simp [settle]
  | cons entry rest ih =>
      obtain ⟨n, v⟩ := entry
      rw [settle, ih, OrderedMap.mem_keys_insert, OrderedMap.keys_cons, List.mem_cons]
      constructor
      · rintro ((h | h) | h)
        · exact Or.inr (Or.inl h)
        · exact Or.inl h
        · exact Or.inr (Or.inr h)
      · rintro (h | h | h)
        · exact Or.inl (Or.inr h)
        · exact Or.inl (Or.inl h)
        · exact Or.inr h

/-! ## When a text can be resolved -/

namespace Scope

variable (s : Scope)

/-- An output of a module that may be referred to: of another terraform module, not from a
    later group, which declares the output as far as its schema is known. -/
def Provides (module name : String) : Prop :=
  ∃ own i, s.position = .inModule own i ∧ module ≠ own ∧
    ∃ j target, s.blueprint.module? module = some (j, target) ∧ j ≤ i ∧
      target.kind = .terraform ∧
      ∀ schema, target.schema = some schema → schema.hasOutput name = true

/-- Every reference of a template is a variable with a scalar value. -/
def Fills (segments : List Segment) : Prop :=
  ∀ r, .ref r ∈ segments →
    ∃ name v t, r = .var name ∧ s.vars.get? name = some v ∧ v.scalarText = some t

/-- What a text may be in this scope. -/
def Grants : Expression → Prop
  | .literal => True
  | .whole (.var name) => name ∈ s.vars.keys
  | .whole (.output module name) => s.Provides module name
  | .template segments => s.Fills segments

/-- A text that can be resolved. -/
def Admits (text : String) : Prop := ∃ e, Expression.parse text = .ok e ∧ s.Grants e

/-! ## The spec of the pass -/

variable {s}

theorem lookup_eq_ok_iff {path name : String} {v : Value} :
    s.lookup path name = .ok v ↔ s.vars.get? name = some v := by
  unfold lookup
  cases s.vars.get? name with
  | none => simp
  | some w => simp

/-- In a setting of a module, what is provided depends on that module and its group. -/
theorem provides_iff {own : String} {i : Nat} {module name : String}
    (hpos : s.position = .inModule own i) :
    s.Provides module name ↔ module ≠ own ∧
      ∃ j target, s.blueprint.module? module = some (j, target) ∧ j ≤ i ∧
        target.kind = .terraform ∧
        ∀ schema, target.schema = some schema → schema.hasOutput name = true := by
  constructor
  · rintro ⟨own', i', hpos', h⟩
    rw [hpos] at hpos'
    obtain ⟨rfl, rfl⟩ := Position.inModule.inj hpos'
    exact h
  · intro h
    exact ⟨own, i, hpos, h⟩

theorem not_provides {module name : String} (hpos : ∀ own i, s.position ≠ .inModule own i) :
    ¬ s.Provides module name := by
  rintro ⟨own, i, h, -⟩
  exact hpos own i h

theorem checkOutput_eq_ok_iff {path module name : String} :
    s.checkOutput path module name = .ok () ↔ s.Provides module name := by
  unfold checkOutput
  -- the checks in their order: a setting, a known module, another one, an earlier group, its
  -- kind, its schema
  cases hpos : s.position with
  | inVariable => simp [not_provides, hpos]
  | elsewhere => simp [not_provides, hpos]
  | inModule own i =>
      rw [provides_iff hpos]
      cases hmod : s.blueprint.module? module with
      | none => simp
      | some found =>
          obtain ⟨j, target⟩ := found
          by_cases hown : module = own
          · simp [hown]
          · by_cases hlater : i < j
            · have hle : ¬ j ≤ i := by omega
              simp [hown, hlater, hle, and_assoc]
            · have hle : j ≤ i := by omega
              cases hkind : target.kind with
              | packer => simp [hown, hlater, hkind, and_assoc]
              | terraform =>
                  cases hschema : target.schema with
                  | none => simp [hown, hlater, hkind, hschema, hle, and_assoc]
                  | some schema => simp [hown, hlater, hkind, hschema, hle, and_assoc]

/-- Whether the rest of a template can be filled does not depend on a plain segment. -/
theorem fills_text {u : String} {rest : List Segment} :
    s.Fills (.text u :: rest) ↔ s.Fills rest := by
  constructor
  · intro h r hr
    exact h r (List.mem_cons_of_mem _ hr)
  · intro h r hr
    rcases List.mem_cons.mp hr with heq | hr
    · exact Segment.noConfusion heq
    · exact h r hr

theorem fills_ref {r : Reference} {rest : List Segment} :
    s.Fills (.ref r :: rest) ↔
      (∃ name v t, r = .var name ∧ s.vars.get? name = some v ∧ v.scalarText = some t) ∧
        s.Fills rest := by
  constructor
  · intro h
    exact ⟨h r List.mem_cons_self, fun r' hr' => h r' (List.mem_cons_of_mem _ hr')⟩
  · rintro ⟨hr, hrest⟩ r' hr'
    rcases List.mem_cons.mp hr' with heq | hr'
    · rw [Segment.ref.inj heq]
      exact hr
    · exact hrest r' hr'

theorem fill_eq_ok_iff {path : String} {segments : List Segment} {t : String} :
    s.fill path segments = .ok t ↔
      s.Fills segments ∧ t = Expression.fill s.vars segments := by
  -- a plain segment is always filled, an output never, a variable by the scalar text of its value
  induction segments generalizing t with
  | nil =>
      simp only [fill, Except.ok.injEq, Fills, List.not_mem_nil, false_imp_iff, implies_true,
        true_and, Expression.fill]
      exact eq_comm
  | cons segment rest ih =>
      cases segment with
      | text u =>
          simp only [fill, bind_eq_ok, pure_eq_ok, ih, fills_text, Expression.fill,
            Segment.fill]
          constructor
          · rintro ⟨u', ⟨hrest, rfl⟩, rfl⟩
            exact ⟨hrest, rfl⟩
          · rintro ⟨hrest, rfl⟩
            exact ⟨_, ⟨hrest, rfl⟩, rfl⟩
      | ref r =>
          rw [fills_ref]
          cases r with
          | output module name => simp [fill]
          | var name =>
              simp only [fill, bind_eq_ok, lookup_eq_ok_iff, Expression.fill, Segment.fill]
              constructor
              · rintro ⟨v, hv, h⟩
                cases ht : v.scalarText with
                | none => simp [ht] at h
                | some u =>
                    simp only [ht, bind_eq_ok, pure_eq_ok, ih] at h
                    obtain ⟨u', ⟨hrest, rfl⟩, rfl⟩ := h
                    exact ⟨⟨⟨name, v, u, rfl, hv, ht⟩, hrest⟩, by simp [hv, ht]⟩
              · rintro ⟨⟨⟨name', v, u, heq, hv, ht⟩, hrest⟩, rfl⟩
                rw [← Reference.var.inj heq] at hv
                refine ⟨v, hv, ?_⟩
                simp only [ht, bind_eq_ok, pure_eq_ok, ih]
                exact ⟨_, ⟨hrest, rfl⟩, by simp [hv, ht]⟩

/-- One text resolves when it is admitted, to what substitution makes of it. -/
theorem resolveText_eq_ok_iff {path text : String} {w : Value} :
    s.resolveText path text = .ok w ↔ s.Admits text ∧ w = Value.substText s.vars text := by
  unfold resolveText Value.substText Admits
  cases hparse : Expression.parse text with
  | error e => simp
  | ok e =>
      simp only [Except.ok.injEq, exists_eq_left']
      match e with
      | .literal => simp [Grants, eq_comm]
      | .whole (.var name) =>
          simp only [lookup_eq_ok_iff, Grants]
          constructor
          · intro h
            exact ⟨OrderedMap.mem_keys.mpr ⟨w, OrderedMap.mem_of_get?_eq_some h⟩, by simp [h]⟩
          · rintro ⟨hmem, rfl⟩
            obtain ⟨v, hv⟩ := OrderedMap.exists_get?_eq_some hmem
            simp [hv]
      | .whole (.output module name) =>
          simp only [map_eq_ok, Grants]
          constructor
          · rintro ⟨u, hu, rfl⟩
            exact ⟨checkOutput_eq_ok_iff.mp hu, rfl⟩
          · rintro ⟨hprov, rfl⟩
            exact ⟨(), checkOutput_eq_ok_iff.mpr hprov, rfl⟩
      | .template segments =>
          simp only [map_eq_ok, fill_eq_ok_iff, Grants]
          constructor
          · rintro ⟨t, ⟨hfill, rfl⟩, rfl⟩
            exact ⟨hfill, rfl⟩
          · rintro ⟨hfill, rfl⟩
            exact ⟨_, ⟨hfill, rfl⟩, rfl⟩

/-- A value of which every text can be resolved. -/
def AdmitsValue (s : Scope) (v : Value) : Prop := ∀ t ∈ v.texts, s.Admits t

/-- A map of which every text can be resolved. -/
def AdmitsMap (s : Scope) (m : OrderedMap Value) : Prop := ∀ k v, (k, v) ∈ m → s.AdmitsValue v

theorem resolveItems_eq_ok_iff {items : List Value} {path : String} {i : Nat} {ws : List Value}
    (spec : ∀ v ∈ items, ∀ path w,
      s.resolve path v = .ok w ↔ s.AdmitsValue v ∧ w = v.subst s.vars) :
    s.resolveItems path i items = .ok ws ↔
      (∀ v ∈ items, s.AdmitsValue v) ∧ ws = items.map (·.subst s.vars) := by
  induction items generalizing i ws with
  | nil => simp [resolveItems, eq_comm]
  | cons v rest ih =>
      have hrest := fun w hw => spec w (List.mem_cons_of_mem v hw)
      simp only [resolveItems, exceptBind_eq_ok, map_eq_ok, spec v List.mem_cons_self, ih hrest,
        List.mem_cons, forall_eq_or_imp, List.map_cons]
      constructor
      · rintro ⟨w, ⟨hv, rfl⟩, ws', ⟨hall, rfl⟩, rfl⟩
        exact ⟨⟨hv, hall⟩, rfl⟩
      · rintro ⟨⟨hv, hall⟩, rfl⟩
        exact ⟨_, ⟨hv, rfl⟩, _, ⟨hall, rfl⟩, rfl⟩

theorem resolveEntries_eq_ok_iff {entries : List (String × Value)} {path : String}
    {ws : List (String × Value)}
    (spec : ∀ k v, (k, v) ∈ entries → ∀ path w,
      s.resolve path v = .ok w ↔ s.AdmitsValue v ∧ w = v.subst s.vars) :
    s.resolveEntries path entries = .ok ws ↔
      s.AdmitsMap entries ∧ ws = OrderedMap.subst s.vars entries := by
  induction entries generalizing ws with
  | nil => simp [resolveEntries, AdmitsMap, OrderedMap.subst, eq_comm]
  | cons entry rest ih =>
      obtain ⟨key, v⟩ := entry
      have hrest := fun k w hw => spec k w (List.mem_cons_of_mem (key, v) hw)
      simp only [resolveEntries, exceptBind_eq_ok, map_eq_ok,
        spec key v List.mem_cons_self, ih hrest, AdmitsMap, List.mem_cons, Prod.mk.injEq,
        OrderedMap.subst, List.map_cons]
      constructor
      · rintro ⟨w, ⟨hv, rfl⟩, ws', ⟨hall, rfl⟩, rfl⟩
        refine ⟨?_, rfl⟩
        rintro k v' (⟨rfl, rfl⟩ | hmem)
        · exact hv
        · exact hall k v' hmem
      · rintro ⟨hall, rfl⟩
        exact ⟨_, ⟨hall key v (Or.inl ⟨rfl, rfl⟩), rfl⟩, _,
          ⟨fun k v' hmem => hall k v' (Or.inr hmem), rfl⟩, rfl⟩

/-- Resolving a value succeeds exactly when each of its texts is admitted, wherever it is
    nested, and then it substitutes. -/
theorem resolve_eq_ok_iff {v : Value} {path : String} {w : Value} :
    s.resolve path v = .ok w ↔ s.AdmitsValue v ∧ w = v.subst s.vars := by
  induction v using Value.nested generalizing path w with
  | null => simp [resolve, AdmitsValue, Value.texts, Value.subst, eq_comm]
  | bool b => simp [resolve, AdmitsValue, Value.texts, Value.subst, eq_comm]
  | number n => simp [resolve, AdmitsValue, Value.texts, Value.subst, eq_comm]
  | string text => simp [resolve, resolveText_eq_ok_iff, AdmitsValue, Value.subst]
  | list items ih =>
      simp only [resolve, map_eq_ok, resolveItems_eq_ok_iff (fun v hv _ _ => ih v hv),
        AdmitsValue, Value.mem_texts_list, Value.subst, Value.substItems_eq_map]
      constructor
      · rintro ⟨ws, ⟨hall, rfl⟩, rfl⟩
        refine ⟨?_, rfl⟩
        rintro t ⟨v, hv, ht⟩
        exact hall v hv t ht
      · rintro ⟨hall, rfl⟩
        exact ⟨_, ⟨fun v hv t ht => hall t ⟨v, hv, ht⟩, rfl⟩, rfl⟩
  | map entries ih =>
      simp only [resolve, map_eq_ok, resolveEntries_eq_ok_iff (fun k v hv _ _ => ih k v hv),
        AdmitsMap, AdmitsValue, Value.mem_texts_map, Value.subst, Value.substEntries_eq_map,
        OrderedMap.subst]
      constructor
      · rintro ⟨ws, ⟨hall, rfl⟩, rfl⟩
        refine ⟨?_, rfl⟩
        rintro t ⟨k, v, hv, ht⟩
        exact hall k v hv t ht
      · rintro ⟨hall, rfl⟩
        exact ⟨_, ⟨fun k v hv t ht => hall t ⟨k, v, hv, ht⟩, rfl⟩, rfl⟩

end Scope

theorem resolveMap_eq_ok_iff {s : Scope} {path : String} {m n : OrderedMap Value} :
    resolveMap s path m = .ok n ↔ s.AdmitsMap m ∧ n = OrderedMap.subst s.vars m :=
  OrderedMap.mapM_eq_ok_iff (P := s.AdmitsValue) (g := (·.subst s.vars))
    fun _ _ _ => Scope.resolve_eq_ok_iff

/-- The variables resolve when each does with those before it settled. -/
theorem resolveVars_eq_ok_iff {b : Blueprint} {done vars : OrderedMap Value}
    {rest : List (String × Value)} :
    resolveVars b done rest = .ok vars ↔
      (∀ before name v after, rest = before ++ (name, v) :: after →
        Scope.AdmitsValue ⟨settle done before, .inVariable, b⟩ v) ∧
      vars = settle done rest := by
  -- the scope of a variable is `done` with the variables since the beginning settled in it
  induction rest generalizing done with
  | nil =>
      simp only [resolveVars, Except.ok.injEq, settle, List.nil_eq_append_iff, reduceCtorEq,
        and_false, false_imp_iff, implies_true, true_and]
      exact eq_comm
  | cons entry rest ih =>
      obtain ⟨name, v⟩ := entry
      simp only [resolveVars, bind_eq_ok, Scope.resolve_eq_ok_iff, ih, settle]
      constructor
      · rintro ⟨w, ⟨hv, rfl⟩, hrest, rfl⟩
        refine ⟨?_, rfl⟩
        intro before name' v' after heq
        cases before with
        | nil =>
            obtain ⟨hentry, -⟩ := List.cons.inj heq
            obtain ⟨rfl, rfl⟩ := Prod.mk.inj hentry
            exact hv
        | cons first before =>
            obtain ⟨rfl, hsplit⟩ := List.cons.inj heq
            exact hrest before name' v' after hsplit
      · rintro ⟨hall, rfl⟩
        refine ⟨_, ⟨hall [] name v rest rfl, rfl⟩, ?_, rfl⟩
        intro before name' v' after hsplit
        exact hall ((name, v) :: before) name' v' after (by rw [hsplit]; rfl)

end Expand
end HpcBlueprint
