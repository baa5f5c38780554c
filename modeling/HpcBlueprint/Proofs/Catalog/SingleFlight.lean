/-
  What several calls to a catalog at a time share.

  A cell is taken by the one call that works on it, and only while nothing is remembered under
  its key (`Session.Sound`).  As nothing that is remembered is ever forgotten or replaced, no
  fetch or load is started again after one has succeeded, and all calls for a source and kind
  return the one schema that is remembered.
-/
import HpcBlueprint.Proofs.Catalog.Concurrent

namespace HpcBlueprint
namespace Catalog

variable {ω : Type} {c : Catalog ω}

/-! ## Remembering -/

/-- Whatever is remembered at first is remembered later on. -/
structure Memory.Within (earlier later : Memory) : Prop where
  schema : ∀ {source kind e}, earlier.entry? source kind = some e →
    later.entry? source kind = some e
  package : ∀ {package dir}, earlier.packages.lookup package = some dir →
    later.packages.lookup package = some dir

namespace Memory

theorem Within.refl (m : Memory) : m.Within m := ⟨id, id⟩

theorem Within.schema_ne_none {earlier later : Memory} (h : earlier.Within later)
    {source : String} {kind : ModuleKind} (known : earlier.entry? source kind ≠ none) :
    later.entry? source kind ≠ none := by
  obtain ⟨e, he⟩ := Option.ne_none_iff_exists'.mp known
  simp [h.schema he]

theorem Within.package_ne_none {earlier later : Memory} (h : earlier.Within later)
    {package : String} (known : earlier.packages.lookup package ≠ none) :
    later.packages.lookup package ≠ none := by
  obtain ⟨dir, hdir⟩ := Option.ne_none_iff_exists'.mp known
  simp [h.package hdir]

theorem within_learn {m : Memory} {source : String} {kind : ModuleKind}
    (unknown : m.entry? source kind = none) (schema : Schema) :
    m.Within (m.learn source kind schema) := by
  refine ⟨fun {source' kind' e} h => ?_, id⟩
  by_cases hkey : (source', kind') = (source, kind)
  · obtain ⟨rfl, rfl⟩ := Prod.mk.inj hkey
    rw [unknown] at h
    cases h
  · rw [entry?_learn_ne hkey]
    exact h

end Memory

theorem within_of_download {s s' : State ω} {package : String}
    {outcome : Except FetchError String}
    (unknown : s.memory.packages.lookup package = none)
    (h : c.download package s = (outcome, s')) : s.memory.Within s'.memory := by
  refine ⟨fun hentry => ?_, fun {other dir} hlookup => ?_⟩
  · rw [entry?_of_download h]
    exact hentry
  · by_cases hother : other = package
    · rw [hother, unknown] at hlookup
      cases hlookup
    · rw [lookup_packages_of_ne h hother]
      exact hlookup

/-! ## Single steps -/

/-- A call that moves on goes on loading and fetching what it did, and returns only what is
    remembered. -/
theorem Moves.spec {s : State ω} {call call' : Call} (h : Moves c s call call') :
    call'.loads? = call.loads? ∧ call'.fetches? = call.fetches? ∧
      ∀ key e, call' = .returned key (.ok e) → s.memory.entry? key.1 key.2 = some e := by
  cases h with
  | ask key => exact ⟨rfl, rfl, fun _ _ h => Call.noConfusion h⟩
  | @remember key e known =>
      refine ⟨rfl, rfl, fun key' e' h => ?_⟩
      cases h
      exact known
  | @locate key known =>
      cases (c.directory key.1 key.2 s).1 with
      | error e => exact ⟨rfl, rfl, fun _ _ h => Call.noConfusion h⟩
      | ok dir => exact ⟨rfl, rfl, fun _ _ h => Call.noConfusion h⟩
  | read => exact ⟨rfl, rfl, fun _ _ h => Call.noConfusion h⟩

namespace Call

theorem loads?_fetched (key : Key) (outcome : Except FetchError String) :
    (fetched key outcome).loads? = some key := by
  cases outcome <;> rfl

theorem fetches?_fetched (key : Key) (outcome : Except FetchError String) :
    (fetched key outcome).fetches? = none := by
  cases outcome <;> rfl

theorem fetched_ne_returned (key key' : Key) (outcome : Except FetchError String)
    (result : Except Error Entry) : fetched key outcome ≠ .returned key' result := by
  cases outcome <;> exact fun h => Call.noConfusion h

end Call

namespace Session

/-- The cells that are taken are taken by the calls that work on them, and nothing is
    remembered under their keys; what calls have returned is remembered. -/
structure Sound (s : Session ω) : Prop where
  loads : Marked (Call.loads? ∘ s.calls) s.loading
  fetches : Marked (Call.fetches? ∘ s.calls) s.fetching
  unknownSchema : ∀ {key t}, s.loading key = some t →
    s.state.memory.entry? key.1 key.2 = none
  unknownPackage : ∀ {package t}, s.fetching package = some t →
    s.state.memory.packages.lookup package = none
  returned : ∀ {t key e}, s.calls t = .returned key (.ok e) →
    s.state.memory.entry? key.1 key.2 = some e

theorem Sound.loading_of_loaded {s : Session ω} (sound : s.Sound) {t : Nat} {key : Key}
    {outcome : Except Error Schema} (loaded : s.calls t = .loaded key outcome) :
    s.loading key = some t :=
  (sound.loads t key).mp (by simp [loaded, Call.loads?])

theorem Sound.fetching_of_fetching {s : Session ω} (sound : s.Sound) {t : Nat} {key : Key}
    (fetching : s.calls t = .fetching key) : s.fetching key.package = some t :=
  (sound.fetches t key.package).mp (by simp [fetching, Call.fetches?])

theorem Initial.sound {s : Session ω} (h : s.Initial) : s.Sound := by
  refine ⟨fun t key => ?_, fun t package => ?_, fun hloading => ?_, fun hfetching => ?_,
    fun {t key e} hcall => ?_⟩
  · simp [h.calls, h.loading, Call.loads?]
  · simp [h.calls, h.fetching, Call.fetches?]
  · rw [h.loading] at hloading
    cases hloading
  · rw [h.fetching] at hfetching
    cases hfetching
  · rw [h.calls] at hcall
    cases hcall

variable {s s' : Session ω} {event : Event}

/-- Nothing that is remembered is forgotten or replaced. -/
theorem Step.within (sound : s.Sound) (h : Step c s event s') :
    s.state.memory.Within s'.state.memory := by
  cases h with
  | move moves => exact .refl _
  | elsewhere w => exact .refl _
  | loadStart asked unknown free => exact .refl _
  | @loadEnd t key outcome loaded =>
      cases outcome with
      | error e => exact .refl _
      | ok schema =>
          have unknown := sound.unknownSchema (sound.loading_of_loaded loaded)
          exact Memory.within_learn unknown schema
  | fetchStart locating remote unknown free => exact .refl _
  | @fetchEnd t key outcome state fetching fetched =>
      have unknown := sound.unknownPackage (sound.fetching_of_fetching fetching)
      exact within_of_download unknown fetched

/-- A call that comes to another point changes only what itself works on. -/
theorem comp_update_of_eq {κ : Type} {works : Call → Option κ} {calls : Nat → Call} {t : Nat}
    {call : Call} (h : works call = works (calls t)) :
    works ∘ Function.update calls t call = works ∘ calls := by
  rw [Function.comp_update, h]
  exact Function.update_eq_self t (works ∘ calls)

/-- What a call has returned is still remembered after others have gone on. -/
theorem returned_of_within {later : Memory} (sound : s.Sound)
    (within : s.state.memory.Within later) {t : Nat} {call : Call}
    (hcall : ∀ key e, call = .returned key (.ok e) → later.entry? key.1 key.2 = some e) {u : Nat}
    {key : Key} {e : Entry} (h : Function.update s.calls t call u = .returned key (.ok e)) :
    later.entry? key.1 key.2 = some e := by
  by_cases hu : u = t
  · rw [hu, Function.update_self] at h
    exact hcall key e h
  · rw [Function.update_of_ne hu] at h
    exact within.schema (sound.returned h)

/-- A cell that is still taken after one was taken or given back. -/
theorem of_update_taken {κ : Type} [DecidableEq κ] {takenBy : κ → Option Nat} {key k : κ}
    {now : Option Nat} {t : Nat} (h : Function.update takenBy key now k = some t) :
    k = key ∧ now = some t ∨ k ≠ key ∧ takenBy k = some t := by
  by_cases hk : k = key
  · rw [hk, Function.update_self] at h
    exact .inl ⟨hk, h⟩
  · rw [Function.update_of_ne hk] at h
    exact .inr ⟨hk, h⟩

theorem entry?_keep_ne {st : State ω} {key k : Key} (hk : k ≠ key)
    (outcome : Except Error Schema) :
    Memory.entry? (st.keep key outcome).memory k.1 k.2 = st.memory.entry? k.1 k.2 := by
  cases outcome with
  | error e => rfl
  | ok schema => exact Memory.entry?_learn_ne hk st.memory schema

theorem packages_keep (st : State ω) (key : Key) (outcome : Except Error Schema) :
    (st.keep key outcome).memory.packages = st.memory.packages := by
  cases outcome <;> rfl

/-- Every step keeps the cells in order. -/
theorem Step.sound (sound : s.Sound) (h : Step c s event s') : s'.Sound := by
  have hwithin := h.within sound
  cases h with
  | @move t call moves =>
      -- the call goes on working on what it worked on
      obtain ⟨hloads, hfetches, hreturned⟩ := moves.spec
      refine ⟨?_, ?_, sound.unknownSchema, sound.unknownPackage,
        returned_of_within sound hwithin hreturned⟩
      · rw [go, comp_update_of_eq hloads]
        exact sound.loads
      · rw [go, comp_update_of_eq hfetches]
        exact sound.fetches
  | elsewhere w =>
      exact ⟨sound.loads, sound.fetches, sound.unknownSchema, sound.unknownPackage,
        sound.returned⟩
  | @loadStart t key asked unknown free =>
      refine ⟨?_, ?_, fun {k u} htaken => ?_, sound.unknownPackage,
        returned_of_within sound hwithin fun _ _ h => Call.noConfusion h⟩
      · rw [Function.comp_update]
        exact sound.loads.take (by simp [asked, Call.loads?]) free
      · rw [comp_update_of_eq (by rw [asked]; rfl)]
        exact sound.fetches
      · rcases of_update_taken htaken with ⟨rfl, -⟩ | ⟨-, htaken⟩
        · exact unknown
        · exact sound.unknownSchema htaken
  | @loadEnd t key outcome loaded =>
      refine ⟨?_, ?_, fun {k u} htaken => ?_, fun {package u} htaken => ?_,
        returned_of_within sound hwithin fun k e h => ?_⟩
      · rw [Function.comp_update]
        exact sound.loads.release (by simp [loaded, Call.loads?])
      · rw [comp_update_of_eq (by rw [loaded]; rfl)]
        exact sound.fetches
      · -- the cell that is given back is not taken, and the others stay empty
        rcases of_update_taken htaken with ⟨-, hnone⟩ | ⟨hk, htaken⟩
        · cases hnone
        · rw [entry?_keep_ne hk]
          exact sound.unknownSchema htaken
      · rw [packages_keep]
        exact sound.unknownPackage htaken
      · -- what is returned has just been remembered
        cases outcome with
        | error e' => cases h
        | ok schema =>
            cases h
            exact Memory.entry?_learn_self s.state.memory key.1 key.2 schema
  | @fetchStart t key locating remote unknown free =>
      refine ⟨?_, ?_, sound.unknownSchema, fun {package u} htaken => ?_,
        returned_of_within sound hwithin fun _ _ h => Call.noConfusion h⟩
      · rw [comp_update_of_eq (by rw [locating]; rfl)]
        exact sound.loads
      · rw [Function.comp_update]
        exact sound.fetches.take (by simp [locating, Call.fetches?]) free
      · rcases of_update_taken htaken with ⟨rfl, -⟩ | ⟨-, htaken⟩
        · exact unknown
        · exact sound.unknownPackage htaken
  | @fetchEnd t key outcome state fetching fetched =>
      refine ⟨?_, ?_, fun {k u} htaken => ?_, fun {package u} htaken => ?_,
        returned_of_within sound hwithin fun k e h => ?_⟩
      · rw [comp_update_of_eq (by rw [fetching, Call.loads?_fetched]; rfl)]
        exact sound.loads
      · rw [Function.comp_update, Call.fetches?_fetched]
        exact sound.fetches.release (by simp [fetching, Call.fetches?])
      · rw [entry?_of_download fetched]
        exact sound.unknownSchema htaken
      · rcases of_update_taken htaken with ⟨-, hnone⟩ | ⟨hpackage, htaken⟩
        · cases hnone
        · rw [lookup_packages_of_ne fetched hpackage]
          exact sound.unknownPackage htaken
      · exact absurd h (Call.fetched_ne_returned key k outcome _)

/-! ## Runs -/

theorem Run.sound {start : Session ω} {events : List Event} (init : start.Initial)
    (h : Run c start events s) : s.Sound := by
  induction h with
  | start => exact init.sound
  | step _ step ih => exact step.sound ih

/-- What a step in which a fetch ends has done. -/
theorem Step.of_fetchEnded {package : String} {succeeded : Bool}
    (h : Step c s (.fetchEnded package succeeded) s') :
    ∃ t key outcome, s.calls t = .fetching key ∧ key.package = package ∧
      outcome.isOk = succeeded ∧ c.download package s.state = (outcome, s'.state) ∧
      s'.fetching package = none := by
  generalize hevent : Event.fetchEnded package succeeded = event at h
  cases h with
  | @fetchEnd t key outcome state fetching fetched =>
      obtain ⟨rfl, rfl⟩ := Event.fetchEnded.inj hevent
      exact ⟨t, key, outcome, fetching, rfl, rfl, fetched, Function.update_self ..⟩
  | move | elsewhere | loadStart | loadEnd | fetchStart => cases hevent

/-- What a step in which a load ends has done. -/
theorem Step.of_loadEnded {key : Key} {succeeded : Bool}
    (h : Step c s (.loadEnded key succeeded) s') :
    ∃ t outcome, s.calls t = .loaded key outcome ∧ outcome.isOk = succeeded ∧
      s'.state = s.state.keep key outcome ∧ s'.loading key = none := by
  generalize hevent : Event.loadEnded key succeeded = event at h
  cases h with
  | @loadEnd t key outcome loaded =>
      obtain ⟨rfl, rfl⟩ := Event.loadEnded.inj hevent
      exact ⟨t, outcome, loaded, rfl, rfl, Function.update_self ..⟩
  | move | elsewhere | loadStart | fetchStart | fetchEnd => cases hevent

/-- What a fetch that succeeds brings is remembered. -/
theorem Step.package_of_fetchEnded {package : String}
    (h : Step c s (.fetchEnded package true) s') :
    s'.state.memory.packages.lookup package ≠ none := by
  obtain ⟨t, key, outcome, -, -, hok, fetched, -⟩ := h.of_fetchEnded
  cases outcome with
  | error e => cases hok
  | ok dir => simp [lookup_packages_of_download fetched]

/-- What a load that succeeds brings is remembered. -/
theorem Step.schema_of_loadEnded {key : Key} (h : Step c s (.loadEnded key true) s') :
    s'.state.memory.entry? key.1 key.2 ≠ none := by
  obtain ⟨t, outcome, -, hok, hstate, -⟩ := h.of_loadEnded
  cases outcome with
  | error e => cases hok
  | ok schema =>
      rw [hstate, State.keep, State.learn, Memory.entry?_learn_self]
      exact Option.some_ne_none _

theorem Step.lookup_of_fetchStarted {package : String}
    (h : Step c s (.fetchStarted package) s') : s.state.memory.packages.lookup package = none := by
  generalize hevent : Event.fetchStarted package = event at h
  cases h with
  | fetchStart locating remote unknown free =>
      rw [Event.fetchStarted.inj hevent]
      exact unknown
  | move | elsewhere | loadStart | loadEnd | fetchEnd => cases hevent

theorem Step.entry?_of_loadStarted {key : Key} (h : Step c s (.loadStarted key) s') :
    s.state.memory.entry? key.1 key.2 = none := by
  generalize hevent : Event.loadStarted key = event at h
  cases h with
  | loadStart asked unknown free =>
      rw [Event.loadStarted.inj hevent]
      exact unknown
  | move | elsewhere | loadEnd | fetchStart | fetchEnd => cases hevent

/-- Whatever was fetched or loaded with success is remembered ever after. -/
theorem Run.remembered {start : Session ω} {events : List Event} (init : start.Initial)
    (h : Run c start events s) :
    (∀ package, .fetchEnded package true ∈ events →
      s.state.memory.packages.lookup package ≠ none) ∧
    (∀ key, .loadEnded key true ∈ events → s.state.memory.entry? key.1 key.2 ≠ none) := by
  induction h with
  | start =>
      exact ⟨fun _ h => absurd h List.not_mem_nil, fun _ h => absurd h List.not_mem_nil⟩
  | step before step ih =>
      obtain ⟨hpackages, hschemas⟩ := ih
      have hwithin := step.within (before.sound init)
      refine ⟨fun package h => ?_, fun key h => ?_⟩
      · rcases List.mem_append.mp h with h | h
        · exact hwithin.package_ne_none (hpackages package h)
        · rw [← List.mem_singleton.mp h] at step
          exact step.package_of_fetchEnded
      · rcases List.mem_append.mp h with h | h
        · exact hwithin.schema_ne_none (hschemas key h)
        · rw [← List.mem_singleton.mp h] at step
          exact step.schema_of_loadEnded

theorem Run.pairwise_events {start : Session ω} {events : List Event} (init : start.Initial)
    (h : Run c start events s) :
    events.Pairwise fun earlier later =>
      (∀ package, earlier = .fetchEnded package true → later ≠ .fetchStarted package) ∧
      (∀ key, earlier = .loadEnded key true → later ≠ .loadStarted key) := by
  induction h with
  | start => exact .nil
  | step before step ih =>
      obtain ⟨hpackages, hschemas⟩ := before.remembered init
      refine List.pairwise_append.mpr ⟨ih, List.pairwise_singleton _ _, ?_⟩
      intro earlier hearlier later hlater
      rw [List.mem_singleton.mp hlater]
      refine ⟨fun package h hlater => ?_, fun key h hlater => ?_⟩
      · rw [hlater] at step
        exact hpackages package (h ▸ hearlier) step.lookup_of_fetchStarted
      · rw [hlater] at step
        exact hschemas key (h ▸ hearlier) step.entry?_of_loadStarted

/-! ## After a failure -/

/-- A fetch that fails leaves the cell of its package empty. -/
theorem Step.packageEmpty_of_fetchEnded (sound : s.Sound) {package : String}
    (h : Step c s (.fetchEnded package false) s') : s'.PackageEmpty package := by
  obtain ⟨t, key, outcome, fetching, rfl, hfailed, fetched, hfree⟩ := h.of_fetchEnded
  cases outcome with
  | ok dir => cases hfailed
  | error e =>
      refine ⟨?_, hfree⟩
      rw [packages_of_download_error fetched]
      exact sound.unknownPackage (sound.fetching_of_fetching fetching)

/-- A load that fails leaves the cell of its source and kind empty. -/
theorem Step.schemaEmpty_of_loadEnded (sound : s.Sound) {key : Key}
    (h : Step c s (.loadEnded key false) s') : s'.SchemaEmpty key := by
  obtain ⟨t, outcome, loaded, hfailed, hstate, hfree⟩ := h.of_loadEnded
  cases outcome with
  | ok schema => cases hfailed
  | error e =>
      refine ⟨?_, hfree⟩
      rw [hstate]
      exact sound.unknownSchema (sound.loading_of_loaded loaded)

/-- What a step is in which a call comes to another point. -/
theorem Step.of_calls_ne {t : Nat} (h : Step c s event s') (hgone : s'.calls t ≠ s.calls t) :
    (event = .other ∧ Moves c s.state (s.calls t) (s'.calls t)) ∨
      (∃ key, s.calls t = .asked key ∧ event = .loadStarted key) ∨
      (∃ key outcome, s.calls t = .loaded key outcome) ∨
      (∃ key, s.calls t = .locating key ∧ event = .fetchStarted key.package) ∨
      ∃ key, s.calls t = .fetching key := by
  -- a step moves one call, so the one that comes to another point is that one
  have hactor : ∀ {u : Nat} {call : Call},
      Function.update s.calls u call t ≠ s.calls t → t = u := by
    intro u call hne
    by_contra hu
    exact hne (Function.update_of_ne hu call s.calls)
  cases h with
  | @move u call moves =>
      obtain rfl := hactor hgone
      have hcall : (s.go t call).calls t = call := Function.update_self ..
      rw [hcall]
      exact .inl ⟨rfl, moves⟩
  | elsewhere w => exact absurd rfl hgone
  | loadStart asked unknown free =>
      obtain rfl := hactor hgone
      exact .inr (.inl ⟨_, asked, rfl⟩)
  | loadEnd loaded =>
      obtain rfl := hactor hgone
      exact .inr (.inr (.inl ⟨_, _, loaded⟩))
  | fetchStart locating remote unknown free =>
      obtain rfl := hactor hgone
      exact .inr (.inr (.inr (.inl ⟨_, locating, rfl⟩)))
  | fetchEnd fetching fetched =>
      obtain rfl := hactor hgone
      exact .inr (.inr (.inr (.inr ⟨_, fetching⟩)))

/-- A call that finds the cell of its source and kind empty can load, and nothing else brings
    it on. -/
theorem loadStarts_of_schemaEmpty {t : Nat} {key : Key} (asked : s.calls t = .asked key)
    (empty : s.SchemaEmpty key) :
    (∃ s', Step c s (.loadStarted key) s' ∧ (s'.calls t).loads? = some key) ∧
      ∀ event s', Step c s event s' → s'.calls t ≠ s.calls t → event = .loadStarted key := by
  refine ⟨⟨_, .loadStart asked empty.1 empty.2, by simp [Call.loads?]⟩, fun event s' h hgone => ?_⟩
  rcases h.of_calls_ne hgone with ⟨-, hmoves⟩ | ⟨k, hasked, rfl⟩ | ⟨k, outcome, hloaded⟩ |
    ⟨k, hlocating, -⟩ | ⟨k, hfetching⟩
  · rw [asked] at hmoves
    generalize s'.calls t = call at hmoves
    cases hmoves with
    | remember known =>
        rw [empty.1] at known
        cases known
  · rw [asked] at hasked
    rw [Call.asked.inj hasked]
  · rw [asked] at hloaded
    cases hloaded
  · rw [asked] at hlocating
    cases hlocating
  · rw [asked] at hfetching
    cases hfetching

/-- A call that loads a remote source and finds the cell of its package empty can fetch, and
    nothing else brings it on. -/
theorem fetchStarts_of_packageEmpty {t : Nat} {key : Key} (locating : s.calls t = .locating key)
    (remote : Source.kind key.1 = .remote) (empty : s.PackageEmpty key.package) :
    (∃ s', Step c s (.fetchStarted key.package) s' ∧
        (s'.calls t).fetches? = some key.package) ∧
      ∀ event s', Step c s event s' → s'.calls t ≠ s.calls t →
        event = .fetchStarted key.package := by
  refine ⟨⟨_, .fetchStart locating remote empty.1 empty.2, by simp [Call.fetches?]⟩,
    fun event s' h hgone => ?_⟩
  rcases h.of_calls_ne hgone with ⟨-, hmoves⟩ | ⟨k, hasked, -⟩ | ⟨k, outcome, hloaded⟩ |
    ⟨k, hlocating, rfl⟩ | ⟨k, hfetching⟩
  · rw [locating] at hmoves
    generalize s'.calls t = call at hmoves
    cases hmoves with
    | locate known => exact absurd empty.1 (known remote)
  · rw [locating] at hasked
    cases hasked
  · rw [locating] at hloaded
    cases hloaded
  · rw [locating] at hlocating
    rw [Call.locating.inj hlocating]
  · rw [locating] at hfetching
    cases hfetching

/-- What a call has returned does not change. -/
theorem Step.calls_of_returned {t : Nat} {key : Key} {outcome : Except Error Entry}
    (h : Step c s event s') (returned : s.calls t = .returned key outcome) :
    s'.calls t = .returned key outcome := by
  by_contra hgone
  rw [← returned] at hgone
  rcases h.of_calls_ne hgone with ⟨-, hmoves⟩ | ⟨k, hcall, -⟩ | ⟨k, result, hcall⟩ |
    ⟨k, hcall, -⟩ | ⟨k, hcall⟩
  · rw [returned] at hmoves
    generalize s'.calls t = call at hmoves
    cases hmoves
  all_goals
    rw [returned] at hcall
    cases hcall

/-! ## Single flight -/

/-- What holds of a run and the session that it leads to when cells are filled once. -/
structure SingleFlight (c : Catalog ω) (events : List Event) (s : Session ω) : Prop where
  /-- At most one call at a time fetches a package. -/
  fetch : ∀ package t u, (s.calls t).fetches? = some package →
    (s.calls u).fetches? = some package → t = u
  /-- At most one call at a time loads a source and kind. -/
  load : ∀ key t u, (s.calls t).loads? = some key → (s.calls u).loads? = some key → t = u
  /-- After a fetch or load has succeeded no further one is started. -/
  once : events.Pairwise fun earlier later =>
    (∀ package, earlier = .fetchEnded package true → later ≠ .fetchStarted package) ∧
    (∀ key, earlier = .loadEnded key true → later ≠ .loadStarted key)
  /-- Calls that return a schema for a source and kind return the same one. -/
  agree : ∀ key t u e e', s.calls t = .returned key (.ok e) → s.calls u = .returned key (.ok e') →
    e = e'
  /-- What a call has returned does not change. -/
  final : ∀ t key outcome, s.calls t = .returned key outcome → ∀ event s', Step c s event s' →
    s'.calls t = .returned key outcome
  /-- A fetch that fails leaves its cell empty. -/
  fetchFailed : ∀ package s', Step c s (.fetchEnded package false) s' → s'.PackageEmpty package
  /-- A load that fails leaves its cell empty. -/
  loadFailed : ∀ key s', Step c s (.loadEnded key false) s' → s'.SchemaEmpty key
  /-- A call that finds the cell of its package empty fetches it, and does nothing else. -/
  fetchAgain : ∀ t key, s.calls t = .locating key → Source.kind key.1 = .remote →
    s.PackageEmpty key.package →
    (∃ s', Step c s (.fetchStarted key.package) s' ∧ (s'.calls t).fetches? = some key.package) ∧
      ∀ event s', Step c s event s' → s'.calls t ≠ s.calls t → event = .fetchStarted key.package
  /-- A call that finds the cell of its source and kind empty loads, and does nothing else. -/
  loadAgain : ∀ t key, s.calls t = .asked key → s.SchemaEmpty key →
    (∃ s', Step c s (.loadStarted key) s' ∧ (s'.calls t).loads? = some key) ∧
      ∀ event s', Step c s event s' → s'.calls t ≠ s.calls t → event = .loadStarted key

/-- However many calls are made, and however their steps and changes of the workspace follow
    one another, every package and every schema is brought in at most once. -/
theorem single_flight {start : Session ω} {events : List Event} (init : start.Initial)
    (run : Run c start events s) : SingleFlight c events s where
  fetch _ _ _ ht hu := (run.sound init).fetches.eq ht hu
  load _ _ _ ht hu := (run.sound init).loads.eq ht hu
  once := run.pairwise_events init
  agree _ _ _ _ _ ht hu := by
    have hsame := (run.sound init).returned ht
    rw [(run.sound init).returned hu] at hsame
    exact (Option.some.inj hsame).symm
  final _ _ _ returned _ _ h := h.calls_of_returned returned
  fetchFailed _ _ h := h.packageEmpty_of_fetchEnded (run.sound init)
  loadFailed _ _ h := h.schemaEmpty_of_loadEnded (run.sound init)
  fetchAgain _ _ locating remote empty := fetchStarts_of_packageEmpty locating remote empty
  loadAgain _ _ asked empty := loadStarts_of_schemaEmpty asked empty

/-- A catalog that can fetch packages while nothing outside is in the way. -/
def blockable : Catalog Bool :=
  ⟨"embedded", [⟨"test", fun _ => true, fun package dest w =>
    match w.outside, w.files.makeDirectory dest with
    | false, .ok fs => (.ok (), { w with files := fs })
    | _, _ => (.error (.unsupported package), w)⟩]⟩

/-- Nothing is remembered, after some downloads that failed. -/
def nothing (blocked : Bool) (downloads : Nat) : State Bool :=
  ⟨{ Memory.empty with downloads }, ⟨⟨[(["tmp"], .directory)], []⟩, blocked⟩⟩

/-- No call has been made, and something outside is in the way. -/
def blocked : Session Bool where
  state := nothing true 0
  loading _ := none
  fetching _ := none
  calls _ := .idle

/-- Two calls load modules of one package.  The first one fails to fetch it, and so the second
    one fetches it after that. -/
theorem single_flight_retried :
    blocked.Initial ∧ ∃ events s, Run blockable blocked events s ∧
      events = [.other, .loadStarted ("fake://pkg//a", .terraform), .fetchStarted "fake://pkg",
        .other, .loadStarted ("fake://pkg//b", .terraform), .fetchEnded "fake://pkg" false,
        .other, .fetchStarted "fake://pkg", .fetchEnded "fake://pkg" true] ∧
      SingleFlight blockable events s := by
  have init : blocked.Initial := ⟨fun _ => rfl, fun _ => rfl, fun _ => rfl⟩
  have failing : blockable.download (Key.package ("fake://pkg//a", .terraform)) blocked.state =
      (.error (.unsupported "fake://pkg"), nothing true 1) := by rfl
  have fetching : blockable.download (Key.package ("fake://pkg//b", .terraform))
      (nothing false 1) = (.ok "/tmp/module-1", _) := Prod.ext (by rfl) rfl
  have remote : Source.kind "fake://pkg//a" = .remote := by decide
  have remote' : Source.kind "fake://pkg//b" = .remote := by decide
  have unasked : Run blockable blocked [] blocked := .start
  have first := ((unasked.step (.move (t := 0) (.ask ("fake://pkg//a", .terraform)))).step
    (.loadStart (t := 0) rfl rfl rfl)).step (.fetchStart (t := 0) rfl remote rfl rfl)
  have second := (first.step (.move (t := 1) (.ask ("fake://pkg//b", .terraform)))).step
    (.loadStart (t := 1) rfl rfl (by decide))
  have failed := second.step (.fetchEnd (t := 0) rfl failing)
  have unblocked := failed.step (.elsewhere (nothing false 1).workspace)
  have again := unblocked.step (.fetchStart (t := 1) rfl remote' rfl (by decide +kernel))
  have fetched := again.step (.fetchEnd (t := 1) rfl fetching)
  exact ⟨init, _, _, fetched, by decide, single_flight init fetched⟩

end Session

end Catalog
end HpcBlueprint
