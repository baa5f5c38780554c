/-
  The default backend under overrides.

  The overrides of one run describe a backend: each key has the text that is given for it
  last, and keys stand in the order in which they are first given.  Applying the overrides
  one after the other builds that backend from nothing, so settings have no backend of their
  own left.  Whether it also takes the place of the blueprint's is decided by its type: a
  backend without one counts as none given.
-/
import HpcBlueprint.Blueprint.Override
import HpcBlueprint.Proofs.Expand.Expansion
import HpcBlueprint.Proofs.OrderedMap
import HpcBlueprint.Proofs.Text.Search

namespace HpcBlueprint

/-! ## What overrides describe -/

namespace Overrides

/-- The key of an override is what stands before its first equals sign. -/
def key (pair : String) : String := String.ofList (pair.toList.takeWhile (· != '='))

/-- The text of an override is what stands behind its first equals sign. -/
def text (pair : String) : String := String.ofList ((pair.toList.dropWhile (· != '=')).drop 1)

/-- The text that is given last for a key. -/
def last? (pairs : List String) (k : String) : Option String :=
  (pairs.reverse.find? (key · == k)).map text

/-- The keys of the configuration in the order in which they are first given. -/
def configured (pairs : List String) : List String :=
  ((pairs.map key).filter (· != "type")).eraseDups

/-- The backend that overrides describe. -/
def described (pairs : List String) : Backend where
  type := (last? pairs "type").getD Settings.defaultBackendType
  configuration := (configured pairs).map fun k => (k, .string ((last? pairs k).getD ""))

/-- An override with an equals sign has two sides. -/
theorem splitPair_eq {pair : String} (h : '=' ∈ pair.toList) :
    Settings.splitPair pair = .ok (key pair, text pair) := by
  rw [Settings.splitPair, Text.splitOnce_of_mem h, key, text]

/-! ## One override more -/

theorem last?_concat (pairs : List String) (pair k : String) :
    last? (pairs ++ [pair]) k = if key pair = k then some (text pair) else last? pairs k := by
  rw [last?, List.reverse_concat, last?]
  by_cases hk : key pair = k
  · rw [List.find?_cons_of_pos (by simpa using hk), if_pos hk, Option.map_some]
  · rw [List.find?_cons_of_neg (by simpa using hk), if_neg hk]

theorem configured_concat (pairs : List String) (pair : String) :
    configured (pairs ++ [pair]) =
      if key pair = "type" ∨ key pair ∈ configured pairs then configured pairs
      else configured pairs ++ [key pair] := by
  by_cases htype : key pair = "type"
  · simp [configured, htype]
  · have hkeep : [key pair].filter (· != "type") = [key pair] :=
      List.filter_eq_self.mpr (by simpa using htype)
    simp only [configured, List.map_append, List.map_singleton, List.filter_append, hkeep,
      eraseDups_concat, List.mem_eraseDups, htype, false_or]

theorem nodup_configured (pairs : List String) : (configured pairs).Nodup := by
  induction pairs using List.reverseRecOn with
  | nil => exact List.nodup_nil
  | append_singleton pairs pair ih =>
      rw [configured_concat]
      split
      · exact ih
      · rename_i hnew
        rw [← List.concat_eq_append]
        exact ih.concat fun hmem => hnew (Or.inr hmem)

end Overrides

/-- Setting a name in a map that is computed from distinct names. -/
theorem OrderedMap.insert_map {α : Type} {names : List String} (distinct : names.Nodup)
    (f : String → α) (name : String) (a : α) :
    OrderedMap.insert (names.map fun k => (k, f k)) name a =
      (if name ∈ names then names else names ++ [name]).map fun k =>
        (k, if name = k then a else f k) := by
  induction names with
  | nil => simp [OrderedMap.insert]
  | cons k rest ih =>
      obtain ⟨hk, hrest⟩ := List.nodup_cons.mp distinct
      by_cases hname : k = name
      · subst hname
        have hkept : ∀ k' ∈ rest, (k', f k') = (k', if k = k' then a else f k') := by
          intro k' hk'
          have hne : k ≠ k' := fun heq => hk (heq ▸ hk')
          rw [if_neg hne]
        rw [if_pos List.mem_cons_self, List.map_cons, List.map_cons, OrderedMap.insert,
          if_pos (beq_self_eq_true k), if_pos rfl, List.map_congr_left hkept]
      · have hb : ¬ (k == name) = true := by simpa using hname
        rw [List.map_cons, OrderedMap.insert, if_neg hb, ih hrest]
        by_cases hmem : name ∈ rest
        · simp [hmem, Ne.symm hname]
        · simp [hmem, Ne.symm hname]

namespace Overrides

/-- The backend that overrides describe, changed by one override more. -/
theorem described_concat (pairs : List String) (pair : String) :
    described (pairs ++ [pair]) =
      if key pair = "type" then { described pairs with type := text pair }
      else { described pairs with
        configuration := (described pairs).configuration.insert (key pair)
          (.string (text pair)) } := by
  -- the type is no entry of the configuration, so either the one or the other changes
  by_cases htype : key pair = "type"
  · have hkept : ∀ k ∈ configured pairs,
        (k, Value.string ((last? (pairs ++ [pair]) k).getD "")) =
          (k, Value.string ((last? pairs k).getD "")) := by
      intro k hk
      have hne : key pair ≠ k := by
        rw [configured, List.mem_eraseDups] at hk
        have hk' : k ≠ "type" := by simpa using List.of_mem_filter hk
        exact fun heq => hk' (heq ▸ htype)
      rw [last?_concat, if_neg hne]
    rw [if_pos htype, described, configured_concat, if_pos (Or.inl htype),
      List.map_congr_left hkept, last?_concat, if_pos htype]
    rfl
  · have hlast : ∀ k, (k, Value.string ((last? (pairs ++ [pair]) k).getD "")) =
        (k, if key pair = k then Value.string (text pair)
          else Value.string ((last? pairs k).getD "")) := by
      intro k
      rw [last?_concat]
      split <;> rfl
    rw [if_neg htype, described, configured_concat, last?_concat, if_neg htype]
    simp only [htype, false_or, hlast, described]
    rw [OrderedMap.insert_map (nodup_configured pairs)]

end Overrides

namespace Settings

/-! ## Applying overrides -/

theorem putBackend_append (b : Backend) (pairs more : List String) :
    putBackend b (pairs ++ more) = (putBackend b pairs).bind fun b => putBackend b more := by
  induction pairs generalizing b with
  | nil => rfl
  | cons pair rest ih =>
      rw [List.cons_append, putBackend, putBackend]
      cases splitPair pair with
      | error e => rfl
      | ok sides => exact ih _

/-- Overrides put one after the other into no backend make the backend they describe. -/
theorem putBackend_eq_described {pairs : List String} (h : ∀ pair ∈ pairs, '=' ∈ pair.toList) :
    putBackend ⟨defaultBackendType, []⟩ pairs = .ok (Overrides.described pairs) := by
  induction pairs using List.reverseRecOn with
  | nil => rfl
  | append_singleton pairs pair ih =>
      have hpairs : ∀ p ∈ pairs, '=' ∈ p.toList := fun p hp => h p (List.mem_append_left _ hp)
      have hpair : '=' ∈ pair.toList := h pair (List.mem_append_right _ List.mem_cons_self)
      rw [putBackend_append, ih hpairs, Overrides.described_concat]
      simp only [Except.bind, putBackend, Overrides.splitPair_eq hpair, beq_iff_eq]
      rfl

/-- Overrides of the backend leave nothing of the one that settings had. -/
theorem overrideBackend_eq_described (s : Settings) {pairs : List String} (hne : pairs ≠ [])
    (h : ∀ pair ∈ pairs, '=' ∈ pair.toList) :
    s.overrideBackend pairs = ⟨{ s with backendDefaults := Overrides.described pairs }, none⟩ := by
  have hpairs : ¬ pairs.isEmpty = true := by rwa [List.isEmpty_iff]
  rw [overrideBackend, if_neg hpairs, putBackend_eq_described h]

/-- The other overrides do not look at the backend: they fail or not, and otherwise leave it. -/
theorem override_backend {s : Settings} {o : Overrides} (hne : o.backend ≠ [])
    (h : ∀ pair ∈ o.backend, '=' ∈ pair.toList) :
    (s.override o).toExcept = (s.override { o with backend := [] }).toExcept.map fun s' =>
      { s' with backendDefaults := Overrides.described o.backend } := by
  simp only [override, overrideBackend_eq_described _ hne h]
  cases hvars : (s.overrideVars o.vars).failure with
  | some e => simp only [Overridden.andThen, Overridden.toExcept, hvars, Except.map]
  | none =>
      cases hlevel : o.level with
      | none =>
          simp only [Overridden.andThen, Overridden.toExcept, hvars, Except.map, overrideBackend,
            overrideLevel, List.isEmpty_nil, if_true]
          rfl
      | some name =>
          simp only [Overridden.andThen, Overridden.toExcept, hvars, Except.map, overrideBackend,
            overrideLevel, List.isEmpty_nil, if_true]
          cases ValidationLevel.ofName? name <;> rfl

end Settings

/-! ## The backend of an expansion -/

namespace Blueprint

variable {b f : Blueprint} {s : Settings} {finished : List Finished}

/-- Once settings are merged in, an expansion leaves the default backend until it resolves. -/
theorem backendDefaults_of_unresolved (h : b.unresolved s finished = .ok f) :
    f.backendDefaults = (b.merge s).backendDefaults := by
  simp only [unresolved, readied, attach, bind_eq_ok, pure_eq_ok] at h
  obtain ⟨ready, ⟨-, -, rfl⟩, attached, ⟨groups, -, rfl⟩, rfl⟩ := h
  unfold filled withValidators spreadBackend
  split <;> split <;> rfl

/-- A backend is the default one with which an expansion under settings works: the merge
    leaves it, and it is there when references are resolved. -/
def WorksWith (b : Blueprint) (s : Settings) (backend : Backend) : Prop :=
  (b.merge s).backendDefaults = backend ∧
    ∀ finished f, b.unresolved s finished = .ok f → f.backendDefaults = backend

theorem worksWith_merged (b : Blueprint) (s : Settings) :
    b.WorksWith s (b.merge s).backendDefaults :=
  ⟨rfl, fun _ _ h => backendDefaults_of_unresolved h⟩

/-- The merge asks for the type that overrides give last: only an empty one counts as none. -/
theorem isEmpty_type_described {pairs : List String} :
    (Overrides.described pairs).type.isEmpty = true ↔ Overrides.last? pairs "type" = some "" := by
  rw [Overrides.described]
  cases Overrides.last? pairs "type" with
  | none => simp [Settings.defaultBackendType]
  | some name => simp

/-- Overrides of the backend apply whenever the others do and leave nothing of the backend in
    the settings.  What they describe takes the place of the blueprint's own backend, unless
    the type that is given last is empty; then that one stays as it is. -/
theorem worksWith_override (s : Settings) {o : Overrides} (hne : o.backend ≠ [])
    (h : ∀ pair ∈ o.backend, '=' ∈ pair.toList) :
    ((s.override o).toExcept = (s.override { o with backend := [] }).toExcept.map fun s' =>
      { s' with backendDefaults := Overrides.described o.backend }) ∧
    ∀ (s' : Settings) (b : Blueprint), (s.override o).toExcept = .ok s' →
      (Overrides.last? o.backend "type" ≠ some "" →
        b.WorksWith s' (Overrides.described o.backend)) ∧
      (Overrides.last? o.backend "type" = some "" → b.WorksWith s' b.backendDefaults) := by
  have hoverride := Settings.override_backend (s := s) hne h
  refine ⟨hoverride, ?_⟩
  intro s' b hs'
  obtain ⟨s₀, -, rfl⟩ := map_eq_ok.mp (hoverride ▸ hs')
  have hworks := worksWith_merged b { s₀ with backendDefaults := Overrides.described o.backend }
  constructor
  · intro htype
    rw [merge, if_neg fun hempty => htype (isEmpty_type_described.mp hempty)] at hworks
    exact hworks
  · intro htype
    rw [merge, if_pos (isEmpty_type_described.mpr htype)] at hworks
    exact hworks

/-- Overrides that give the bucket twice, around a type. -/
def rebucketed : Overrides := { Overrides.none with backend := ["bucket=a=b", "type=s3", "bucket="] }

/-- Settings with a backend of their own. -/
def filed : Settings :=
  { Settings.empty with backendDefaults := ⟨"gcs", [("prefix", .string "file")]⟩ }

theorem worksWith_override_rebucketed :
    rebucketed.backend ≠ [] ∧ (∀ pair ∈ rebucketed.backend, '=' ∈ pair.toList) ∧
    Overrides.last? rebucketed.backend "type" ≠ some "" ∧
    Overrides.described rebucketed.backend = ⟨"s3", [("bucket", .string "")]⟩ ∧
    (filed.override rebucketed).toExcept =
      .ok { filed with backendDefaults := Overrides.described rebucketed.backend } ∧
    seamed.WorksWith { filed with backendDefaults := Overrides.described rebucketed.backend }
      (Overrides.described rebucketed.backend) := by
  have hne : rebucketed.backend ≠ [] := by decide
  have hpairs : ∀ pair ∈ rebucketed.backend, '=' ∈ pair.toList := by decide
  have htype : Overrides.last? rebucketed.backend "type" ≠ some "" := by decide
  have hrun : (filed.override rebucketed).toExcept =
      .ok { filed with backendDefaults := Overrides.described rebucketed.backend } := by rfl
  exact ⟨hne, hpairs, htype, by decide, hrun,
    ((worksWith_override filed hne hpairs).2 _ seamed hrun).1 htype⟩

/-- Overrides that give an empty type. -/
def untyped : Overrides := { Overrides.none with backend := ["bucket=x", "type="] }

/-- A blueprint that works with its own backend although an override gives another. -/
theorem exists_override_not_worksWith :
    ∃ (s s' : Settings) (o : Overrides) (b : Blueprint),
      o.backend ≠ [] ∧ (∀ pair ∈ o.backend, '=' ∈ pair.toList) ∧
      (s.override o).toExcept = .ok s' ∧
      ¬ b.WorksWith s' (Overrides.described o.backend) := by
  refine ⟨filed, { filed with backendDefaults := Overrides.described untyped.backend }, untyped,
    { seamed with backendDefaults := ⟨"s3", [("bucket", .string "own")]⟩ },
    by decide, by decide, by rfl, ?_⟩
  rintro ⟨hmerged, -⟩
  have hother : (⟨"s3", [("bucket", .string "own")]⟩ : Backend) ≠
      Overrides.described untyped.backend := by decide
  exact hother hmerged

end Blueprint
end HpcBlueprint
