import Mathlib.Order.Bounds.Basic
import Mathlib.Data.List.Chain
import Mathlib.Data.List.Induction

/-! # A counter that pursues a target

    At every tick a target is read. A counter that is behind takes one step
    towards it, and otherwise stays, so that it lags behind a target that
    jumps and catches up one step a tick.

    * `tick`, `pursue`: one tick, and all of them from zero.
    * `limits`: what the counter can be after the ticks at most.
    * `pursue_isLeast`: where the target never goes back, the counter is the
      least of these limits.
    * `pursue_eq_getLast`: a target that moves by single steps is met at
      every tick.
-/

namespace Pursuit

/-- The counter after a tick. -/
def tick (count target : Nat) : Nat :=
  if count < target then count + 1 else count

/-- The counter after all targets of a list were read, from zero. -/
def pursue (targets : List Nat) : Nat := targets.foldl tick 0

/-- A counter can be no further than the number of ticks, nor further than a
    target it has read and one step for each tick since. -/
def limits (targets : List Nat) : Set Nat :=
  {m | m = targets.length ∨
    ∃ i, ∃ h : i < targets.length, m = targets[i] + (targets.length - (i + 1))}

/-! ### One tick -/

/-- A counter that is not ahead is not ahead after the tick either. -/
theorem tick_eq {count target : Nat} (h : count ≤ target) :
    tick count target = min (count + 1) target := by
  unfold tick
  split <;> omega

/-! ### All ticks -/

@[simp] theorem pursue_nil : pursue [] = 0 := rfl

theorem pursue_append (targets : List Nat) (target : Nat) :
    pursue (targets ++ [target]) = tick (pursue targets) target := by
  unfold pursue
  rw [List.foldl_append]
  rfl

/-- The counter stays below what all targets are below. -/
theorem pursue_le {targets : List Nat} {m : Nat} (h : ∀ t ∈ targets, t ≤ m) :
    pursue targets ≤ m := by
  induction targets using List.reverseRecOn with
  | nil => exact Nat.zero_le m
  | append_singleton targets target ih =>
    have hpast : pursue targets ≤ m := ih fun t ht => h t (List.mem_append_left _ ht)
    have hlast : target ≤ m := h target (List.mem_append_right _ List.mem_cons_self)
    rw [pursue_append, tick]
    split <;> omega

/-- With one more tick every limit is one higher, and the target is a new one. -/
theorem mem_limits_append {targets : List Nat} {target m : Nat} :
    m ∈ limits (targets ++ [target]) ↔ m = target ∨ ∃ m' ∈ limits targets, m = m' + 1 := by
  constructor
  · intro h
    rcases h with rfl | ⟨i, hi, rfl⟩
    · refine .inr ⟨targets.length, .inl rfl, ?_⟩
      rw [List.length_append, List.length_singleton]
    · rw [List.length_append, List.length_singleton] at hi ⊢
      by_cases hlt : i < targets.length
      · refine .inr ⟨targets[i] + (targets.length - (i + 1)), .inr ⟨i, hlt, rfl⟩, ?_⟩
        rw [List.getElem_append_left hlt]
        omega
      · have hlast : i = targets.length := by omega
        subst hlast
        apply Or.inl
        rw [List.getElem_concat_length]
        · omega
        · rfl
  · intro h
    rcases h with rfl | ⟨m', rfl | ⟨i, hi, rfl⟩, rfl⟩
    · refine .inr ⟨targets.length, by simp, ?_⟩
      simp
    · refine .inl ?_
      rw [List.length_append, List.length_singleton]
    · refine .inr ⟨i, by rw [List.length_append]; omega, ?_⟩
      rw [List.getElem_append_left hi, List.length_append, List.length_singleton]
      omega

/-- **The counter.** Where the target never goes back, the counter is the
    least of its limits. -/
theorem pursue_isLeast {targets : List Nat} (h : targets.Pairwise (· ≤ ·)) :
    IsLeast (limits targets) (pursue targets) := by
  induction targets using List.reverseRecOn with
  | nil =>
    refine ⟨.inl rfl, ?_⟩
    intro m _
    exact Nat.zero_le m
  | append_singleton targets target ih =>
    obtain ⟨hsorted, _, hle⟩ := List.pairwise_append.mp h
    obtain ⟨hmem, hlower⟩ := ih hsorted
    have hbehind : pursue targets ≤ target :=
      pursue_le fun t ht => hle t ht target List.mem_cons_self
    rw [pursue_append, tick_eq hbehind]
    constructor
    · -- it is one step further, or it has met the target
      rw [mem_limits_append]
      rcases Nat.le_total (pursue targets + 1) target with hnext | hmet
      · exact .inr ⟨pursue targets, hmem, Nat.min_eq_left hnext⟩
      · exact .inl (Nat.min_eq_right hmet)
    · intro m hm
      rcases mem_limits_append.mp hm with rfl | ⟨m', hm', rfl⟩
      · exact Nat.min_le_right _ _
      · exact (Nat.min_le_left _ _).trans (Nat.succ_le_succ (hlower hm'))

/-- It is never ahead of the target it read last. -/
theorem pursue_le_getLast {targets : List Nat} (h : targets.Pairwise (· ≤ ·)) {target : Nat}
    (hlast : targets.getLast? = some target) : pursue targets ≤ target := by
  obtain ⟨init, rfl⟩ := List.getLast?_eq_some_iff.mp hlast
  obtain ⟨_, _, hle⟩ := List.pairwise_append.mp h
  refine pursue_le ?_
  intro t ht
  rcases List.mem_append.mp ht with ht | ht
  · exact hle t ht target List.mem_cons_self
  · exact Nat.le_of_eq (List.mem_singleton.mp ht)

/-- A target that starts at one at most and moves by single steps is met at
    every tick. -/
theorem pursue_eq_getLast {targets : List Nat} (h : targets.Pairwise (· ≤ ·))
    (hsteps : (0 :: targets).IsChain fun t t' => t' ≤ t + 1) :
    (0 :: targets).getLast? = some (pursue targets) := by
  induction targets using List.reverseRecOn with
  | nil => rfl
  | append_singleton targets target ih =>
    obtain ⟨hsorted, _, hle⟩ := List.pairwise_append.mp h
    rw [← List.cons_append] at hsteps ⊢
    obtain ⟨hinit, _, hnext⟩ := List.isChain_append.mp hsteps
    have hmet := ih hsorted hinit
    have hbehind : pursue targets ≤ target :=
      pursue_le fun t ht => hle t ht target List.mem_cons_self
    have hstep : target ≤ pursue targets + 1 := hnext _ hmet target rfl
    rw [pursue_append, tick_eq hbehind, Nat.min_eq_right hstep, List.getLast?_concat]

end Pursuit
