/-
  Computations in `Except`.

  Every check and every pass of the library runs in `Except`. These lemmas take a run apart
  at its binds, mostly one that ended in `.ok`, so that the proofs about a pass never unfold
  the monad.
-/

namespace HpcBlueprint

variable {ε ε' α β : Type}

/-- A sequence succeeds when both of its steps do. -/
@[simp] theorem bind_eq_ok {x : Except ε α} {f : α → Except ε β} {b : β} :
    (x >>= f) = .ok b ↔ ∃ a, x = .ok a ∧ f a = .ok b := by
  cases x with
  | error e => simp [Bind.bind, Except.bind]
  | ok a => simp [Bind.bind, Except.bind]

/-- A check and what follows it. -/
theorem checkBind_eq_ok {x : Except ε Unit} {f : Unit → Except ε β} {b : β} :
    (x >>= f) = .ok b ↔ x = .ok () ∧ f () = .ok b := by
  rw [bind_eq_ok]
  constructor
  · rintro ⟨⟨⟩, h⟩
    exact h
  · intro h
    exact ⟨(), h⟩

/-- The same for the function that `>>=` stands for. -/
@[simp] theorem exceptBind_eq_ok {x : Except ε α} {f : α → Except ε β} {b : β} :
    x.bind f = .ok b ↔ ∃ a, x = .ok a ∧ f a = .ok b :=
  bind_eq_ok

@[simp] theorem map_eq_ok {x : Except ε α} {f : α → β} {b : β} :
    x.map f = .ok b ↔ ∃ a, x = .ok a ∧ f a = b := by
  cases x with
  | error e => simp [Except.map]
  | ok a => simp [Except.map]

@[simp] theorem functorMap_eq_ok {x : Except ε α} {f : α → β} {b : β} :
    f <$> x = .ok b ↔ ∃ a, x = .ok a ∧ f a = b :=
  map_eq_ok

@[simp] theorem pure_eq_ok {a b : α} : (pure a : Except ε α) = .ok b ↔ a = b := by
  simp [pure, Except.pure]

theorem eq_ok_of_toOption {x : Except ε α} {a : α} (h : x.toOption = some a) : x = .ok a := by
  cases x with
  | error e => cases h
  | ok b => rw [Option.some.inj h]

@[simp] theorem mapError_eq_ok {x : Except ε α} {f : ε → ε'} {a : α} :
    x.mapError f = .ok a ↔ x = .ok a := by
  cases x with
  | error e =>
    constructor <;> intro h <;> cases h
  | ok b =>
    constructor <;> intro h <;> cases h <;> rfl

/-! ## Changing what comes out -/

/-- What is changed at the end of a sequence is changed at the end of its second step. -/
theorem exceptMap_bind {γ : Type} (x : Except ε α) (f : α → Except ε β) (g : β → γ) :
    (x >>= f).map g = x >>= fun a => (f a).map g := by
  cases x <;> rfl

/-- What the first step yields is changed on its way to the second. -/
theorem bind_exceptMap {γ : Type} (x : Except ε α) (g : α → β) (f : β → Except ε γ) :
    x.map g >>= f = x >>= fun a => f (g a) := by
  cases x <;> rfl

/-! ## Failures -/

theorem exists_eq_error_of_toOption {x : Except ε α} (h : x.toOption = none) :
    ∃ e, x = .error e := by
  cases x with
  | error e => exact ⟨e, rfl⟩
  | ok a => cases h

theorem exceptBind_eq_error {x : Except ε α} {f : α → Except ε β} {e : ε} :
    x.bind f = .error e ↔ x = .error e ∨ ∃ a, x = .ok a ∧ f a = .error e := by
  cases x with
  | error e' => simp [Except.bind]
  | ok a => simp [Except.bind]

theorem map_eq_error {x : Except ε α} {f : α → β} {e : ε} :
    x.map f = .error e ↔ x = .error e := by
  cases x with
  | error e' => simp [Except.map]
  | ok a => simp [Except.map]

theorem mapError_eq_error {x : Except ε α} {f : ε → ε'} {e : ε'} :
    x.mapError f = .error e ↔ ∃ e', x = .error e' ∧ f e' = e := by
  cases x with
  | error e' =>
    constructor
    · intro h
      cases h
      exact ⟨e', rfl, rfl⟩
    · rintro ⟨_, h, rfl⟩
      cases h
      rfl
  | ok a =>
    constructor
    · intro h
      cases h
    · rintro ⟨_, h, -⟩
      cases h

/-! ## Two runs -/

/-- Two runs fail with the same error, or end with results that are related. -/
inductive SameOutcome (P : α → β → Prop) : Except ε α → Except ε β → Prop
  | error (e : ε) : SameOutcome P (.error e) (.error e)
  | ok {a : α} {b : β} (results : P a b) : SameOutcome P (.ok a) (.ok b)

/-- Outcomes are the same but for what a function drops. -/
theorem sameOutcome_invImage_iff {f : α → β} {x y : Except ε α} :
    SameOutcome (InvImage Eq f) x y ↔ x.map f = y.map f := by
  constructor
  · intro h
    cases h with
    | error e => rfl
    | ok results => exact congrArg Except.ok results
  · intro h
    cases x with
    | error e =>
        cases y with
        | error e' =>
            obtain rfl : e = e' := Except.error.inj h
            exact .error e
        | ok b => cases h
    | ok a =>
        cases y with
        | error e' => cases h
        | ok b => exact .ok (Except.ok.inj h)

/-- Two sequences end alike if their first steps do and their second steps do from there. -/
theorem SameOutcome.bind {α' β' : Type} {P : α → β → Prop} {P' : α' → β' → Prop}
    {x : Except ε α} {y : Except ε β} {f : α → Except ε α'} {g : β → Except ε β'}
    (h : SameOutcome P x y) (next : ∀ a b, P a b → SameOutcome P' (f a) (g b)) :
    SameOutcome P' (x >>= f) (y >>= g) := by
  cases h with
  | error e => exact .error e
  | ok results => exact next _ _ results

/-- Two runs that end alike and leave related states behind. -/
inductive SameEnd {σ τ : Type} (P : α → β → Prop) (Q : σ → τ → Prop) :
    Except ε α × σ → Except ε β × τ → Prop
  | error (e : ε) {s : σ} {t : τ} (states : Q s t) : SameEnd P Q (.error e, s) (.error e, t)
  | ok {a : α} {b : β} {s : σ} {t : τ} (results : P a b) (states : Q s t) :
      SameEnd P Q (.ok a, s) (.ok b, t)

theorem sameEnd_iff {σ τ : Type} {P : α → β → Prop} {Q : σ → τ → Prop} {r : Except ε α × σ}
    {r' : Except ε β × τ} : SameEnd P Q r r' ↔ SameOutcome P r.1 r'.1 ∧ Q r.2 r'.2 := by
  constructor
  · intro h
    cases h with
    | error e states => exact ⟨.error e, states⟩
    | ok results states => exact ⟨.ok results, states⟩
  · obtain ⟨x, s⟩ := r
    obtain ⟨y, t⟩ := r'
    rintro ⟨houtcome, hstates⟩
    cases houtcome with
    | error e => exact .error e hstates
    | ok results => exact .ok results hstates

end HpcBlueprint
