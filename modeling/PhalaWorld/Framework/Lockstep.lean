import PhalaWorld.Framework.Transaction

/-! # Two transactions in lockstep

    The same program may be run over two stores, one the image of the other
    under a map `φ`, and by two machines that differ in what they do at
    certain points. `Lockstep` says that from one state no difference shows:
    both return the same, the store left by one is the image of the store
    left by the other, and neither fails in a way called `bad`.

    There is one rule for each combinator, so that lockstep is proved along
    the program, and only the points where the machines may differ need an
    argument of their own.
-/

namespace Transaction

open LTS

variable {σ τ ε α β : Type}

/-- From `s` and its image, `x` and `y` do the same, and do not fail in a
    way that is `bad`. -/
def Lockstep (φ : σ → τ) (bad : ε → Prop) (x : Tx σ ε α) (y : Tx τ ε α) (s : σ) : Prop :=
  y (φ s) = ((x s).1, φ (x s).2) ∧ ∀ e, (x s).1 = .error e → ¬ bad e

namespace Lockstep
variable {φ : σ → τ} {bad : ε → Prop} {s : σ} {e : ε}

theorem pure (a : α) : Lockstep φ bad (pure a) (pure a) s :=
  ⟨rfl, fun _ h => by cases h⟩

theorem fail (h : ¬ bad e) : Lockstep φ bad (fail e : Tx σ ε α) (fail e) s := by
  refine ⟨rfl, ?_⟩
  intro e' he
  cases he
  exact h

theorem write {f : σ → σ} {g : τ → τ} (h : g (φ s) = φ (f s)) :
    Lockstep φ bad (write f) (write g) s :=
  ⟨congrArg (Prod.mk _) h, fun _ h => by cases h⟩

theorem ensure {p : Prop} [Decidable p] (h : ¬ bad e) :
    Lockstep φ bad (ensure p e) (ensure p e) s := by
  unfold Transaction.ensure
  split
  · exact pure ()
  · exact fail h

theorem when {p : Prop} [Decidable p] {x : Tx σ ε Unit} {y : Tx τ ε Unit}
    (h : p → Lockstep φ bad x y s) : Lockstep φ bad (when p x) (when p y) s := by
  unfold Transaction.when
  split
  · next hp => exact h hp
  · exact pure ()

theorem ok_or {o : Option α} (h : ¬ bad e) : Lockstep φ bad (ok_or o e) (ok_or o e) s := by
  cases o with
  | none => exact fail h
  | some a => exact pure a

theorem attempt {f : σ → Except ε σ} {g : τ → Except ε τ} (h : g (φ s) = (f s).map φ)
    (hbad : ∀ e, f s = .error e → ¬ bad e) : Lockstep φ bad (attempt f) (attempt g) s := by
  unfold Lockstep Transaction.attempt
  rw [h]
  cases hf : f s with
  | ok s' => exact ⟨rfl, fun _ he => by cases he⟩
  | error e =>
    refine ⟨rfl, ?_⟩
    intro e' he
    cases he
    exact hbad e hf

/-- The second halves need to agree where the first half leads only. -/
theorem bind {x : Tx σ ε α} {y : Tx τ ε α} {f : α → Tx σ ε β} {g : α → Tx τ ε β}
    (hx : Lockstep φ bad x y s)
    (hf : ∀ a s', x s = (.ok a, s') → Lockstep φ bad (f a) (g a) s') :
    Lockstep φ bad (x >>= f) (y >>= g) s := by
  obtain ⟨heq, hsafe⟩ := hx
  unfold Lockstep
  rw [bind_run, bind_run, heq]
  rcases run_cases x s with ⟨a, s', h⟩ | ⟨e, s', h⟩ <;> rw [h] at hsafe ⊢
  · exact hf a s' h
  · refine ⟨rfl, ?_⟩
    intro e' he
    cases he
    exact hsafe e rfl

/-- `bind` for second halves that agree everywhere. -/
theorem seq {x : Tx σ ε α} {y : Tx τ ε α} {f : α → Tx σ ε β} {g : α → Tx τ ε β}
    (hx : Lockstep φ bad x y s) (hf : ∀ a s', Lockstep φ bad (f a) (g a) s') :
    Lockstep φ bad (x >>= f) (y >>= g) s :=
  bind hx fun a s' _ => hf a s'

/-- `bind` for a first half that leaves the store alone. -/
theorem look {x : Tx σ ε α} {y : Tx τ ε α} {f : α → Tx σ ε β} {g : α → Tx τ ε β}
    (hx : Lockstep φ bad x y s) (hsame : ∀ a s', x s = (.ok a, s') → s' = s)
    (hf : ∀ a, x s = (.ok a, s) → Lockstep φ bad (f a) (g a) s) :
    Lockstep φ bad (x >>= f) (y >>= g) s := by
  apply bind hx
  intro a s' h
  obtain rfl := hsame a s' h
  exact hf a h

/-- Both read the store, each its own. -/
theorem read {f : σ → Tx σ ε β} {g : τ → Tx τ ε β} (h : Lockstep φ bad (f s) (g (φ s)) s) :
    Lockstep φ bad (read >>= f) (read >>= g) s := h

theorem transactional {x : Tx σ ε α} {y : Tx τ ε α} (h : Lockstep φ bad x y s) :
    Lockstep φ bad (transactional x) (transactional y) s := by
  obtain ⟨heq, hsafe⟩ := h
  unfold Lockstep Transaction.transactional
  rw [heq]
  rcases run_cases x s with ⟨a, s', h⟩ | ⟨e, s', h⟩ <;> rw [h] at hsafe ⊢
  · exact ⟨rfl, hsafe⟩
  · exact ⟨rfl, hsafe⟩

/-- A loop whose rounds keep an invariant needs its rounds to agree under
    the invariant only. -/
theorem forEach {f : β → Tx σ ε Unit} {g : β → Tx τ ε Unit} {I : σ → Prop}
    (hkeep : ∀ b s s', I s → f b s = (.ok (), s') → I s')
    (h : ∀ b s, I s → Lockstep φ bad (f b) (g b) s) (l : List β) (hI : I s) :
    Lockstep φ bad (forEach f l) (forEach g l) s := by
  induction l generalizing s with
  | nil => exact pure ()
  | cons b l ih =>
    apply bind (h b s hI)
    intro _ s' hs'
    exact ih (hkeep b s s' hI hs')

end Lockstep

end Transaction
