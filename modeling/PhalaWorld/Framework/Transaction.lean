import PhalaWorld.Framework.Runs

/-! # Transactions over a store

    A computation over a store returns a value or fails. The writes made
    before a failure stay in the store: only `transactional` takes them
    back. Both halves are needed to model code in which some entry points
    are transactional and others are not.

    For each combinator there is one lemma that says when it succeeds and
    one that says when it fails; a program built from the combinators is
    inverted by `simp` with these lemmas, and never by unfolding `Tx`.
-/

namespace Transaction

open LTS

/-- A computation over the store `σ` that returns an `α` or fails with an `ε`. -/
def Tx (σ ε α : Type) : Type := σ → Except ε α × σ

variable {σ ε α β : Type}

instance : Monad (Tx σ ε) where
  pure a := fun s => (.ok a, s)
  bind x f := fun s =>
    match x s with
    | (.ok a, s') => f a s'
    | (.error e, s') => (.error e, s')

/-! ### Combinators -/

/-- The store as it is. -/
def read : Tx σ ε σ := fun s => (.ok s, s)

/-- Overwrites the store. -/
def write (f : σ → σ) : Tx σ ε Unit := fun s => (.ok (), f s)

/-- Fails. -/
def fail (e : ε) : Tx σ ε α := fun s => (.error e, s)

/-- Fails unless `p` holds. -/
def ensure (p : Prop) [Decidable p] (e : ε) : Tx σ ε Unit :=
  if p then pure () else fail e

/-- Runs `x` if `p` holds. -/
def when (p : Prop) [Decidable p] (x : Tx σ ε Unit) : Tx σ ε Unit :=
  if p then x else pure ()

/-- The value of an option, or failure. -/
def ok_or : Option α → ε → Tx σ ε α
  | some a, _ => pure a
  | none, e => fail e

/-- A change of the store that may itself fail, and then writes nothing. -/
def attempt (f : σ → Except ε σ) : Tx σ ε Unit := fun s =>
  match f s with
  | .ok s' => (.ok (), s')
  | .error e => (.error e, s)

/-- Takes back every write if `x` fails. -/
def transactional (x : Tx σ ε α) : Tx σ ε α := fun s =>
  match x s with
  | (.ok a, s') => (.ok a, s')
  | (.error e, _) => (.error e, s)

/-- Runs `f` on the elements of a list, in order, up to the first failure. -/
def forEach (f : β → Tx σ ε Unit) : List β → Tx σ ε Unit
  | [] => pure ()
  | b :: l => do
    f b
    forEach f l

/-! ### When they succeed -/

section success
variable {s s' : σ}

theorem pure_run (a : α) (s : σ) : (pure a : Tx σ ε α) s = (.ok a, s) := rfl

theorem fail_run (e : ε) (s : σ) : (fail e : Tx σ ε α) s = (.error e, s) := rfl

@[simp] theorem pure_ok {a b : α} : (pure a : Tx σ ε α) s = (.ok b, s') ↔ b = a ∧ s' = s := by
  rw [pure_run]; simp [eq_comm]

@[simp] theorem read_ok {a : σ} : (read : Tx σ ε σ) s = (.ok a, s') ↔ a = s ∧ s' = s := by
  simp [read, eq_comm]

@[simp] theorem write_ok {f : σ → σ} {u : Unit} :
    (write f : Tx σ ε Unit) s = (.ok u, s') ↔ s' = f s := by
  simp [write, eq_comm]

@[simp] theorem fail_ok {e : ε} {a : α} : (fail e : Tx σ ε α) s ≠ (.ok a, s') := by
  simp [fail]

theorem bind_run {x : Tx σ ε α} {f : α → Tx σ ε β} :
    (x >>= f) s = match x s with
      | (.ok a, s') => f a s'
      | (.error e, s') => (.error e, s') := rfl

@[simp] theorem bind_ok {x : Tx σ ε α} {f : α → Tx σ ε β} {b : β} {s'' : σ} :
    (x >>= f) s = (.ok b, s'') ↔ ∃ a s', x s = (.ok a, s') ∧ f a s' = (.ok b, s'') := by
  rw [bind_run]
  constructor
  · intro h
    match hx : x s with
    | (.ok a, s') => rw [hx] at h; exact ⟨a, s', rfl, h⟩
    | (.error e, s') => rw [hx] at h; cases h
  · rintro ⟨a, s', hx, hf⟩
    rw [hx]; exact hf

/-- `bind_ok` for a first half that returns nothing. -/
@[simp high] theorem bind_unit_ok {x : Tx σ ε Unit} {f : Unit → Tx σ ε β} {b : β} {s'' : σ} :
    (x >>= f) s = (.ok b, s'') ↔ ∃ s', x s = (.ok (), s') ∧ f () s' = (.ok b, s'') := by
  rw [bind_ok]
  exact ⟨fun ⟨(), h⟩ => h, fun h => ⟨(), h⟩⟩

@[simp] theorem ensure_ok {p : Prop} [Decidable p] {e : ε} {u : Unit} :
    (ensure p e : Tx σ ε Unit) s = (.ok u, s') ↔ p ∧ s' = s := by
  unfold ensure
  split
  · next hp => simp [hp]
  · next hp => simp [hp]

@[simp] theorem when_ok {p : Prop} [Decidable p] {x : Tx σ ε Unit} {u : Unit} :
    (when p x) s = (.ok u, s') ↔ (p ∧ x s = (.ok (), s')) ∨ (¬ p ∧ s' = s) := by
  unfold when
  split
  · next hp => simp [hp]
  · next hp => simp [hp]

@[simp] theorem ok_or_ok {o : Option α} {e : ε} {a : α} :
    (ok_or o e : Tx σ ε α) s = (.ok a, s') ↔ o = some a ∧ s' = s := by
  cases o with
  | none => simp [ok_or]
  | some b => simp [ok_or, eq_comm (a := a)]

@[simp] theorem attempt_ok {f : σ → Except ε σ} {u : Unit} :
    (attempt f) s = (.ok u, s') ↔ f s = .ok s' := by
  unfold attempt
  cases f s <;> simp

@[simp] theorem transactional_ok {x : Tx σ ε α} {a : α} :
    transactional x s = (.ok a, s') ↔ x s = (.ok a, s') := by
  unfold transactional
  match x s with
  | (.ok _, _) => rfl
  | (.error _, _) => simp

/-- A loop succeeds when each of its rounds does. -/
@[simp] theorem forEach_ok {f : β → Tx σ ε Unit} {l : List β} {u : Unit} :
    forEach f l s = (.ok u, s') ↔ Chain (fun s b s' => f b s = (.ok (), s')) s l s' := by
  induction l generalizing s with
  | nil => simp [forEach]
  | cons b l ih => simp [forEach, ih]

end success

/-! ### When they fail -/

section failure
variable {s s' : σ} {e : ε}

@[simp] theorem pure_error {a : α} : (pure a : Tx σ ε α) s ≠ (.error e, s') := by
  rw [pure_run]; simp

@[simp] theorem read_error : (read : Tx σ ε σ) s ≠ (.error e, s') := by
  simp [read]

@[simp] theorem write_error {f : σ → σ} : (write f : Tx σ ε Unit) s ≠ (.error e, s') := by
  simp [write]

@[simp] theorem fail_error {e' : ε} :
    (fail e' : Tx σ ε α) s = (.error e, s') ↔ e' = e ∧ s' = s := by
  rw [fail_run]; simp [eq_comm (a := s)]

@[simp] theorem bind_error {x : Tx σ ε α} {f : α → Tx σ ε β} {s'' : σ} :
    (x >>= f) s = (.error e, s'') ↔
      x s = (.error e, s'') ∨ ∃ a s', x s = (.ok a, s') ∧ f a s' = (.error e, s'') := by
  rw [bind_run]
  match x s with
  | (.ok a, s') => simp
  | (.error e', s') => simp

/-- `bind_error` for a first half that returns nothing. -/
@[simp high] theorem bind_unit_error {x : Tx σ ε Unit} {f : Unit → Tx σ ε β} {s'' : σ} :
    (x >>= f) s = (.error e, s'') ↔
      x s = (.error e, s'') ∨ ∃ s', x s = (.ok (), s') ∧ f () s' = (.error e, s'') := by
  rw [bind_error]
  refine or_congr_right ⟨fun ⟨(), h⟩ => h, fun h => ⟨(), h⟩⟩

@[simp] theorem ensure_error {p : Prop} [Decidable p] {e' : ε} :
    (ensure p e' : Tx σ ε Unit) s = (.error e, s') ↔ ¬ p ∧ e' = e ∧ s' = s := by
  unfold ensure
  split
  · next hp => simp [hp]
  · next hp => simp [hp]

@[simp] theorem when_error {p : Prop} [Decidable p] {x : Tx σ ε Unit} :
    (when p x) s = (.error e, s') ↔ p ∧ x s = (.error e, s') := by
  unfold when
  split
  · next hp => simp [hp]
  · next hp => simp [hp]

@[simp] theorem ok_or_error {o : Option α} {e' : ε} :
    (ok_or o e' : Tx σ ε α) s = (.error e, s') ↔ o = none ∧ e' = e ∧ s' = s := by
  cases o with
  | none => simp [ok_or]
  | some b => simp [ok_or]

@[simp] theorem attempt_error {f : σ → Except ε σ} :
    (attempt f) s = (.error e, s') ↔ f s = .error e ∧ s' = s := by
  unfold attempt
  cases f s <;> simp [eq_comm (a := s)]

@[simp] theorem transactional_error {x : Tx σ ε α} :
    transactional x s = (.error e, s') ↔ (∃ s₁, x s = (.error e, s₁)) ∧ s' = s := by
  unfold transactional
  match x s with
  | (.ok _, _) => simp
  | (.error _, s₁) => simp [eq_comm (a := s)]

/-- A loop fails in one of its rounds, after the rounds before it succeeded. -/
theorem forEach_error {f : β → Tx σ ε Unit} {l : List β} :
    forEach f l s = (.error e, s') ↔ ∃ done b rest s₁, l = done ++ b :: rest ∧
      Chain (fun s b s' => f b s = (.ok (), s')) s done s₁ ∧ f b s₁ = (.error e, s') := by
  constructor
  · intro h
    induction l generalizing s with
    | nil => simp [forEach] at h
    | cons b l ih =>
      simp only [forEach, ↓bind_unit_error] at h
      rcases h with hb | ⟨s₁, hb, hl⟩
      · exact ⟨[], b, l, s, rfl, .nil s, hb⟩
      · obtain ⟨done, b', rest, s₂, rfl, hdone, hb'⟩ := ih hl
        exact ⟨b :: done, b', rest, s₂, rfl, .cons hb hdone, hb'⟩
  · rintro ⟨done, b, rest, s₁, rfl, hdone, hb⟩
    induction hdone with
    | nil => exact bind_unit_error.mpr (.inl hb)
    | cons hr _ ih => exact bind_unit_error.mpr (.inr ⟨_, hr, ih hb⟩)

/-- A loop whose rounds cannot fail cannot fail. -/
theorem forEach_ne_error {f : β → Tx σ ε Unit} (hf : ∀ b s s', f b s ≠ (.error e, s'))
    (l : List β) : forEach f l s ≠ (.error e, s') := by
  induction l generalizing s with
  | nil => simp [forEach]
  | cons b l ih => simp [forEach, hf, ih]

/-- A failed transaction leaves the store as it was. -/
theorem transactional_rollback {x : Tx σ ε α} (h : transactional x s = (.error e, s')) :
    s' = s :=
  (transactional_error.mp h).2

end failure

/-- Sequencing is associative. -/
theorem bind_bind {γ : Type} (x : Tx σ ε α) (f : α → Tx σ ε β) (g : β → Tx σ ε γ) :
    x >>= f >>= g = x >>= fun a => f a >>= g := by
  funext s
  rw [bind_run, bind_run, bind_run]
  match x s with
  | (.ok a, s') => rfl
  | (.error e, s') => rfl

/-- A computation either succeeds or fails. -/
theorem run_cases (x : Tx σ ε α) (s : σ) :
    (∃ a s', x s = (.ok a, s')) ∨ ∃ e s', x s = (.error e, s') := by
  match x s with
  | (.ok a, s') => exact .inl ⟨a, s', rfl⟩
  | (.error e, s') => exact .inr ⟨e, s', rfl⟩

end Transaction
