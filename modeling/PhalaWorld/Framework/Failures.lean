import PhalaWorld.Framework.Transaction

/-! # What a computation does not fail with

    A failure is meant for the caller, or it is one that should never
    happen. `Avoids bad x` says that `x` does not fail in a way that is
    `bad`, whatever store it is started in. There is one rule for each
    combinator, so that a proof of it has the shape of the program.

    `AvoidsAt bad x s` says so of one store. A program that looks around
    before it writes is still in that store when it acts on what it saw
    (`AvoidsAt.look`).
-/

namespace Transaction

variable {σ ε α β : Type}

/-- Started in any store, `x` does not fail in a way that is `bad`. -/
def Avoids (bad : ε → Prop) (x : Tx σ ε α) : Prop :=
  ∀ s e s', x s = (.error e, s') → ¬ bad e

namespace Avoids
variable {bad : ε → Prop} {e : ε}

theorem pure (a : α) : Avoids bad (pure a : Tx σ ε α) :=
  fun _ _ _ h => absurd h pure_error

theorem write (f : σ → σ) : Avoids bad (write f : Tx σ ε Unit) :=
  fun _ _ _ h => absurd h write_error

theorem fail (h : ¬ bad e) : Avoids bad (fail e : Tx σ ε α) := by
  intro s e' s' hx
  obtain ⟨rfl, _⟩ := fail_error.mp hx
  exact h

theorem ensure {p : Prop} [Decidable p] (h : ¬ p → ¬ bad e) :
    Avoids bad (ensure p e : Tx σ ε Unit) := by
  intro s e' s' hx
  obtain ⟨hp, rfl, _⟩ := ensure_error.mp hx
  exact h hp

theorem when {p : Prop} [Decidable p] {x : Tx σ ε Unit} (h : p → Avoids bad x) :
    Avoids bad (when p x) := by
  intro s e' s' hx
  obtain ⟨hp, hx⟩ := when_error.mp hx
  exact h hp s e' s' hx

theorem ok_or {o : Option α} (h : o = none → ¬ bad e) : Avoids bad (ok_or o e : Tx σ ε α) := by
  intro s e' s' hx
  obtain ⟨ho, rfl, _⟩ := ok_or_error.mp hx
  exact h ho

theorem bind {x : Tx σ ε α} {f : α → Tx σ ε β} (hx : Avoids bad x) (hf : ∀ a, Avoids bad (f a)) :
    Avoids bad (x >>= f) := by
  intro s e s' h
  rcases bind_error.mp h with h | ⟨a, s₁, _, h⟩
  · exact hx s e s' h
  · exact hf a s₁ e s' h

/-- What follows a `read` may be anything that avoids it. -/
theorem read {f : σ → Tx σ ε β} (hf : ∀ s, Avoids bad (f s)) : Avoids bad (read >>= f) :=
  bind (fun _ _ _ h => absurd h read_error) hf

theorem transactional {x : Tx σ ε α} (h : Avoids bad x) : Avoids bad (transactional x) := by
  intro s e s' hx
  obtain ⟨⟨s₁, hx⟩, _⟩ := transactional_error.mp hx
  exact h s e s₁ hx

theorem forEach {f : β → Tx σ ε Unit} (h : ∀ b, Avoids bad (f b)) (l : List β) :
    Avoids bad (forEach f l) := by
  induction l with
  | nil => exact pure ()
  | cons b l ih => exact bind (h b) fun _ => ih

end Avoids

/-! ### In one store -/

/-- Started in `s`, `x` does not fail in a way that is `bad`. -/
def AvoidsAt (bad : ε → Prop) (x : Tx σ ε α) (s : σ) : Prop :=
  ∀ e s', x s = (.error e, s') → ¬ bad e

namespace AvoidsAt
variable {bad : ε → Prop} {e : ε} {s : σ}

theorem of_avoids {x : Tx σ ε α} (h : Avoids bad x) : AvoidsAt bad x s := h s

/-- After a first part that writes nothing, the store is the same. -/
theorem look {x : Tx σ ε α} {f : α → Tx σ ε β} (hx : AvoidsAt bad x s)
    (hsame : ∀ a s', x s = (.ok a, s') → s' = s)
    (hf : ∀ a, x s = (.ok a, s) → AvoidsAt bad (f a) s) : AvoidsAt bad (x >>= f) s := by
  intro e s' h
  rcases bind_error.mp h with hfail | ⟨a, s₁, ha, hrest⟩
  · exact hx e s' hfail
  · have hs := hsame a s₁ ha
    rw [hs] at ha hrest
    exact hf a ha e s' hrest

theorem read {f : σ → Tx σ ε β} (hf : AvoidsAt bad (f s) s) : AvoidsAt bad (read >>= f) s := by
  intro e s' h
  exact hf e s' h

theorem bind {x : Tx σ ε α} {f : α → Tx σ ε β} (hx : AvoidsAt bad x s)
    (hf : ∀ a, Avoids bad (f a)) : AvoidsAt bad (x >>= f) s := by
  intro e s' h
  rcases bind_error.mp h with h | ⟨a, s₁, _, h⟩
  · exact hx e s' h
  · exact hf a s₁ e s' h

theorem transactional {x : Tx σ ε α} (h : AvoidsAt bad x s) :
    AvoidsAt bad (transactional x) s := by
  intro e s' hx
  obtain ⟨⟨s₁, hx⟩, _⟩ := transactional_error.mp hx
  exact h e s₁ hx

end AvoidsAt

end Transaction
