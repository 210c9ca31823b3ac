import Mathlib.Algebra.Ring.Nat
import PhalaWorld.Framework.Automaton
import PhalaWorld.Model.Types

/-! # The life of an Origin of Shell

    What may happen to one Origin of Shell, as an automaton that knows
    nothing of the pallets. It is minted to an account, that account starts
    its incubation, it is fed until its hatch time, which is only brought
    forward, and after that time it is hatched for the account.

    * `Stage.after`: what each stage allows.
    * `Biography`: what a life looks like that got to a given stage.
    * `biography`: what the automaton allows are the biographies.
-/

namespace PhalaWorld

open LTS

variable {AccountId : Type}

/-- What can happen to an Origin of Shell. -/
inductive Deed (AccountId : Type) where
  | born (owner : AccountId) (traits : Traits)
  | started (sender : AccountId) (hatch_time : Nat)
  | fed (now : Nat)
  | rescheduled (old_hatch_time new_hatch_time : Nat)
  | hatched (owner : AccountId) (now : Nat)
  deriving DecidableEq

/-- How far it has got. -/
inductive Stage (AccountId : Type) where
  | unborn
  | live (owner : AccountId) (traits : Traits)
  | incubating (owner : AccountId) (traits : Traits) (hatch_time : Nat)
  | hatched (hatch_time : Nat)
  deriving DecidableEq

/-- What each stage allows. -/
def Stage.after [DecidableEq AccountId] : Stage AccountId → Deed AccountId →
    Option (Stage AccountId)
  | .unborn, .born owner traits => some (.live owner traits)
  | .live owner traits, .started sender t =>
      if sender = owner then some (.incubating owner traits t) else none
  | .incubating owner traits t, .fed now =>
      if now ≤ t then some (.incubating owner traits t) else none
  | .incubating owner traits t, .rescheduled old new =>
      if old = t ∧ new ≤ t then some (.incubating owner traits new) else none
  | .incubating owner _ t, .hatched a now =>
      if a = owner ∧ t < now then some (.hatched t) else none
  -- the hatch time stays behind, and can still be updated
  | .hatched t, .rescheduled old new => if old = t ∧ new ≤ t then some (.hatched new) else none
  | _, _ => none

/-! ### Biographies -/

/-- What a deed takes off the hatch time. -/
def Deed.relief : Deed AccountId → Nat
  | .rescheduled old new => old - new
  | _ => 0

/-- A deed of a shell whose hatch time was `t₀` at first: it is fed, no later
    than that, or its hatch time is brought forward. -/
inductive Deed.Tends (t₀ : Nat) : Deed AccountId → Prop
  | fed {now : Nat} : now ≤ t₀ → Deed.Tends t₀ (.fed now)
  | rescheduled {old new : Nat} : new ≤ old → old ≤ t₀ → Deed.Tends t₀ (.rescheduled old new)

/-- Deeds that tend to a shell, and bring its hatch time from `t₀` to `t`. -/
structure Tending (t₀ : Nat) (ds : List (Deed AccountId)) (t : Nat) : Prop where
  tends : ∀ d ∈ ds, d.Tends t₀
  time : t + (ds.map Deed.relief).sum = t₀

/-- The deeds of a life, oldest first, that got to a stage: after a hatch
    nothing is left to do but to bring the hatch time forward. -/
inductive Biography : List (Deed AccountId) → Stage AccountId → Prop
  | unborn : Biography [] .unborn
  | live {owner : AccountId} {traits : Traits} :
      Biography [.born owner traits] (.live owner traits)
  | incubating {owner : AccountId} {traits : Traits} {t₀ t : Nat} {mid : List (Deed AccountId)} :
      Tending t₀ mid t →
      Biography (.born owner traits :: .started owner t₀ :: mid) (.incubating owner traits t)
  | hatched {owner : AccountId} {traits : Traits} {t₀ t₁ t now : Nat}
      {mid late : List (Deed AccountId)} : Tending t₀ mid t₁ → t₁ < now → Tending t₁ late t →
      (∀ d ∈ late, ∀ time, d ≠ .fed time) →
      Biography (.born owner traits :: .started owner t₀ :: (mid ++ .hatched owner now :: late))
        (.hatched t)

section biographies
variable {ds : List (Deed AccountId)} {t₀ t : Nat}

theorem Tending.nil (t : Nat) : Tending t ([] : List (Deed AccountId)) t :=
  ⟨fun _ hd => absurd hd List.not_mem_nil, rfl⟩

theorem Tending.le (h : Tending t₀ ds t) : t ≤ t₀ :=
  Nat.le_of_add_right_le (Nat.le_of_eq h.time)

theorem Tending.fed (h : Tending t₀ ds t) {now : Nat} (hnow : now ≤ t) :
    Tending t₀ (ds ++ [.fed now]) t := by
  constructor
  · intro d hd
    rcases List.mem_append.mp hd with hd | hd
    · exact h.tends d hd
    · rw [List.mem_singleton.mp hd]
      exact .fed (Nat.le_trans hnow h.le)
  · have htime := h.time
    simp only [List.map_append, List.map_singleton, List.sum_append, List.sum_singleton,
      Deed.relief]
    omega

theorem Tending.rescheduled (h : Tending t₀ ds t) {new : Nat} (hnew : new ≤ t) :
    Tending t₀ (ds ++ [.rescheduled t new]) new := by
  constructor
  · intro d hd
    rcases List.mem_append.mp hd with hd | hd
    · exact h.tends d hd
    · rw [List.mem_singleton.mp hd]
      exact .rescheduled hnew h.le
  · have htime := h.time
    simp only [List.map_append, List.map_singleton, List.sum_append, List.sum_singleton,
      Deed.relief]
    omega

variable [DecidableEq AccountId]

/-- A deed that is allowed continues the biography. -/
theorem Biography.step {q q' : Stage AccountId} {d : Deed AccountId} (h : Biography ds q)
    (hd : q.after d = some q') : Biography (ds ++ [d]) q' := by
  unfold Stage.after at hd
  split at hd
  · -- the shell is minted
    obtain rfl := Option.some.inj hd
    cases h
    exact .live
  · -- its owner starts the incubation
    split at hd
    · next hsender =>
      obtain rfl := Option.some.inj hd
      cases h
      rw [hsender]
      exact .incubating (.nil _)
    · cases hd
  · split at hd
    · next hnow =>
      obtain rfl := Option.some.inj hd
      cases h with
      | incubating htending => exact .incubating (htending.fed hnow)
    · cases hd
  · split at hd
    · next hold =>
      obtain ⟨rfl, hnew⟩ := hold
      obtain rfl := Option.some.inj hd
      cases h with
      | incubating htending => exact .incubating (htending.rescheduled hnew)
    · cases hd
  · -- the shell is hatched for its owner
    split at hd
    · next howner =>
      obtain ⟨rfl, hlt⟩ := howner
      obtain rfl := Option.some.inj hd
      cases h with
      | incubating htending =>
        exact .hatched htending hlt (.nil _) fun d hd => absurd hd List.not_mem_nil
    · cases hd
  · split at hd
    · next hold =>
      obtain ⟨rfl, hnew⟩ := hold
      obtain rfl := Option.some.inj hd
      cases h with
      | @hatched owner traits t₀ t₁ t now mid late htending hlt hlate hfed =>
        rw [List.cons_append, List.cons_append, List.append_assoc, List.cons_append]
        refine .hatched htending hlt (hlate.rescheduled hnew) ?_
        intro d hd time
        rcases List.mem_append.mp hd with hd | hd
        · exact hfed d hd time
        · rw [List.mem_singleton.mp hd]
          intro heq
          cases heq
    · cases hd
  · cases hd

/-- What the automaton allows are the biographies. -/
theorem biography {q : Stage AccountId} (h : Leads Stage.after .unborn ds q) : Biography ds q :=
  h.invariant .unborn fun _ _ _ _ hds hd => hds.step hd

end biographies

end PhalaWorld
