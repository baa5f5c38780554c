/-
  A call that is alone.

  When no other call does anything and the cells that it needs are free, the steps of a call
  lead where `lookup` leads, to the same outcome and the same state.
-/
import HpcBlueprint.Proofs.Catalog.Concurrent

namespace HpcBlueprint
namespace Catalog

variable {ω : Type} {c : Catalog ω}

/-! ## Directories -/

theorem directory_of_download {key : Key} {s s' : State ω} {outcome : Except FetchError String}
    (remote : Source.kind key.1 = .remote) (h : c.download key.package s = (outcome, s')) :
    c.directory key.1 key.2 s =
      (match outcome with
        | .ok root =>
          .ok (Path.join (Path.join root packageName) (Source.splitPackage key.1).2)
        | .error e =>
          .error (.fetch (explain key.1 key.2 (Source.splitPackage key.1).2 e)), s') := by
  rw [Key.package] at h
  rw [directory, remote]
  dsimp only
  rw [h]
  cases outcome <;> rfl

theorem download_of_known {package root : String} {s : State ω}
    (known : s.memory.packages.lookup package = some root) :
    c.download package s = (.ok root, s) := by
  rw [download, known]

/-- Finding a directory changes nothing, unless a package has to be fetched. -/
theorem directory_snd_of_known {key : Key} {s : State ω}
    (known : Source.kind key.1 = .remote → s.memory.packages.lookup key.package ≠ none) :
    (c.directory key.1 key.2 s).2 = s := by
  cases hkind : Source.kind key.1 with
  | embedded => rw [directory, hkind]
  | «local» =>
      rw [directory, hkind]
      dsimp only
      split <;> rfl
  | remote =>
      obtain ⟨root, hroot⟩ := Option.ne_none_iff_exists'.mp (known hkind)
      rw [directory_of_download hkind (download_of_known hroot)]

namespace Session

/-! ## Loading -/

theorem Run.trans {s s' s'' : Session ω} {front back : List Event} (h : Run c s front s')
    (h' : Run c s' back s'') : Run c s (front ++ back) s'' := by
  induction h' with
  | start => rwa [List.append_nil]
  | step before step ih =>
      rw [← List.append_assoc]
      exact .step ih step

/-- What one call does, while all others stay where they are. -/
structure Proceeds (c : Catalog ω) (t : Nat) (s s' : Session ω) : Prop where
  run : ∃ events, Run c s events s'
  others : ∀ u, u ≠ t → s'.calls u = s.calls u

theorem Proceeds.of_step {t : Nat} {s s' : Session ω} {event : Event} (step : Step c s event s')
    (others : ∀ u, u ≠ t → s'.calls u = s.calls u) : Proceeds c t s s' :=
  ⟨⟨_, .step .start step⟩, others⟩

theorem Proceeds.trans {t : Nat} {s s' s'' : Session ω} (h : Proceeds c t s s')
    (h' : Proceeds c t s' s'') : Proceeds c t s s'' := by
  obtain ⟨front, hfront⟩ := h.run
  obtain ⟨back, hback⟩ := h'.run
  exact ⟨⟨_, hfront.trans hback⟩, fun u hu => (h'.others u hu).trans (h.others u hu)⟩

theorem Proceeds.of_moves {s : Session ω} {t : Nat} {call : Call}
    (moves : Moves c s.state (s.calls t) call) : Proceeds c t s (s.go t call) :=
  .of_step (.move moves) fun _ hu => Function.update_of_ne hu ..

/-- A call that can find its directory loads what `load` does. -/
theorem proceeds_of_known {s : Session ω} {t : Nat} {key : Key}
    (locating : s.calls t = .locating key)
    (known : Source.kind key.1 = .remote → s.state.memory.packages.lookup key.package ≠ none) :
    ∃ s', Proceeds c t s s' ∧ s'.calls t = .loaded key (c.load key.1 key.2 s.state).1 ∧
      s'.state = (c.load key.1 key.2 s.state).2 := by
  have hsame := directory_snd_of_known (c := c) known
  have hfound : Proceeds c t s (s.go t (.located key (c.directory key.1 key.2 s.state).1)) :=
    .of_moves (locating ▸ .locate known)
  rw [load]
  cases hdirectory : c.directory key.1 key.2 s.state with
  | mk outcome state =>
      rw [hdirectory] at hsame hfound
      subst hsame
      cases outcome with
      | error e => exact ⟨_, hfound, Function.update_self .., rfl⟩
      | ok dir =>
          have hreading : (s.go t (.reading key dir)).calls t = .reading key dir :=
            Function.update_self ..
          exact ⟨_, hfound.trans (.of_moves (hreading ▸ .read)), Function.update_self .., rfl⟩

/-- A call that is alone fetches a package that is not remembered. -/
theorem proceeds_of_unknown {s : Session ω} {t : Nat} {key : Key}
    (locating : s.calls t = .locating key) (remote : Source.kind key.1 = .remote)
    (unknown : s.state.memory.packages.lookup key.package = none)
    (free : s.fetching key.package = none) :
    ∃ s', Proceeds c t s s' ∧ s'.calls t = .fetched key (c.download key.package s.state).1 ∧
      s'.state = (c.download key.package s.state).2 := by
  let fetching : Session ω :=
    { s with
      fetching := Function.update s.fetching key.package (some t)
      calls := Function.update s.calls t (.fetching key) }
  have hstart : Proceeds c t s fetching :=
    .of_step (.fetchStart locating remote unknown free) fun _ hu => Function.update_of_ne hu ..
  have hcall : fetching.calls t = .fetching key := Function.update_self ..
  cases hdownload : c.download key.package s.state with
  | mk outcome state =>
      have hend : Proceeds c t fetching _ :=
        .of_step (.fetchEnd hcall hdownload) fun _ hu => Function.update_of_ne hu ..
      exact ⟨_, hstart.trans hend, Function.update_self .., rfl⟩

/-- A call that is alone loads what `load` does. -/
theorem proceeds_of_locating {s : Session ω} {t : Nat} {key : Key}
    (locating : s.calls t = .locating key) (free : s.fetching key.package = none) :
    ∃ s', Proceeds c t s s' ∧ s'.calls t = .loaded key (c.load key.1 key.2 s.state).1 ∧
      s'.state = (c.load key.1 key.2 s.state).2 := by
  by_cases known : Source.kind key.1 = .remote → s.state.memory.packages.lookup key.package ≠ none
  · exact proceeds_of_known locating known
  · -- the package is fetched first
    obtain ⟨remote, unknown⟩ := Classical.not_imp.mp known
    obtain ⟨fetched, hfetch, hcall, hstate⟩ :=
      proceeds_of_unknown (c := c) locating remote (not_not.mp unknown) free
    cases hdownload : c.download key.package s.state with
    | mk outcome state =>
        rw [hdownload] at hcall hstate
        have hdirectory := directory_of_download remote hdownload
        cases outcome with
        | error e =>
            refine ⟨fetched, hfetch, ?_, ?_⟩
            · rw [hcall, load, hdirectory]
              rfl
            · rw [hstate, load, hdirectory]
        | ok root =>
            have hroot := lookup_packages_of_download hdownload
            obtain ⟨s', hload, hloaded, hloadedState⟩ := proceeds_of_known (s := fetched) hcall
              fun _ => by simp [hstate, hroot]
            have hsame : c.load key.1 key.2 s.state = c.load key.1 key.2 fetched.state := by
              rw [hstate, load, load, hdirectory,
                directory_of_download remote (download_of_known hroot)]
            rw [hsame]
            exact ⟨s', hfetch.trans hload, hloaded, hloadedState⟩

/-! ## Looking up -/

/-- A schema that is not remembered is loaded, and remembered if it can be. -/
theorem lookup_of_unknown {source : String} {kind : ModuleKind} {st : State ω}
    (unknown : st.memory.entry? source kind = none) :
    c.lookup source kind st =
      ((c.load source kind st).1.map
          fun schema => ⟨(c.load source kind st).2.memory.entries, schema⟩,
        (c.load source kind st).2.keep (source, kind) (c.load source kind st).1) := by
  rw [lookup, unknown]
  dsimp only
  rcases c.load source kind st with ⟨_ | schema, state⟩ <;> rfl

/-- A call that is alone does what `lookup` does. -/
theorem proceeds_lookup {s : Session ω} {t : Nat} {source : String} {kind : ModuleKind}
    (asked : s.calls t = .asked (source, kind)) (freeSchema : s.loading (source, kind) = none)
    (freePackage : s.fetching (Key.package (source, kind)) = none) :
    ∃ s', Proceeds c t s s' ∧
      s'.calls t = .returned (source, kind) (c.lookup source kind s.state).1 ∧
      s'.state = (c.lookup source kind s.state).2 := by
  cases hentry : s.state.memory.entry? source kind with
  | some e =>
      have hmoves : Moves c s.state (s.calls t) (.returned (source, kind) (.ok e)) :=
        asked ▸ .remember hentry
      rw [lookup, hentry]
      exact ⟨_, .of_moves hmoves, Function.update_self .., rfl⟩
  | none =>
      -- the call takes the cell of its schema, locates and loads, and gives the cell back
      let loading : Session ω :=
        { s with
          loading := Function.update s.loading (source, kind) (some t)
          calls := Function.update s.calls t (.locating (source, kind)) }
      have hstart : Proceeds c t s loading :=
        .of_step (.loadStart asked hentry freeSchema) fun _ hu => Function.update_of_ne hu ..
      have hcall : loading.calls t = .locating (source, kind) := Function.update_self ..
      obtain ⟨s', hload, hloaded, hstate⟩ := proceeds_of_locating (c := c) hcall freePackage
      have hend : Proceeds c t s' _ :=
        .of_step (.loadEnd hloaded) fun _ hu => Function.update_of_ne hu ..
      rw [lookup_of_unknown hentry]
      refine ⟨_, (hstart.trans hload).trans hend, (Function.update_self ..).trans ?_, ?_⟩
      · rw [hstate]
      · change s'.state.keep _ _ = _
        rw [hstate]

end Session

end Catalog
end HpcBlueprint
