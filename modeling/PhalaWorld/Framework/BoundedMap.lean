import Mathlib.Logic.Function.Basic
import Mathlib.Data.Nat.Count

/-! # Maps with an allocation index

    A map from natural numbers whose keys are handed out by a counter:
    every key in use is below the index. `entries m n p` counts the
    entries below `n` that satisfy `p`; an insertion at the index adds
    one, a removal below it takes one away. Where a key that was removed is
    never handed out again, every key below the index is either in use or
    was removed once (`Accounted`), and what a key holds is what was
    inserted with it (`Recorded`).
-/

namespace BoundedMap

variable {V : Type}

/-- No key at or above `n` is in use. -/
def Below (m : Nat → Option V) (n : Nat) : Prop :=
  ∀ k, n ≤ k → m k = none

/-- How many keys below `n` hold a value that satisfies `p`. -/
def entries (m : Nat → Option V) (n : Nat) (p : V → Bool) : Nat :=
  Nat.count (fun k => (m k).any p = true) n

variable {m : Nat → Option V} {n k : Nat} {p : V → Bool} {v : V}

theorem Below.lt (h : Below m n) (hk : m k = some v) : k < n := by
  by_contra hge
  rw [h k (Nat.le_of_not_lt hge)] at hk
  cases hk

theorem Below.insert (h : Below m n) : Below (Function.update m n (some v)) (n + 1) := by
  intro k hk
  rw [Function.update_of_ne (by omega)]
  exact h k (by omega)

theorem Below.erase (h : Below m n) : Below (Function.update m k none) n := by
  intro j hj
  by_cases hjk : j = k
  · rw [hjk, Function.update_self]
  · rw [Function.update_of_ne hjk]
    exact h j hj

/-- Only the keys below `n` count. -/
theorem entries_congr {m' : Nat → Option V} (h : ∀ k, k < n → m' k = m k) :
    entries m' n p = entries m n p := by
  induction n with
  | zero => rfl
  | succ n ih =>
    unfold entries at ih ⊢
    rw [Nat.count_succ, Nat.count_succ, ih fun k hk => h k (by omega), h n (by omega)]

/-- An insertion at the index counts once. -/
theorem entries_insert :
    entries (Function.update m n (some v)) (n + 1) p =
      entries m n p + if p v = true then 1 else 0 := by
  have hbelow : entries (Function.update m n (some v)) n p = entries m n p :=
    entries_congr fun k hk => Function.update_of_ne (by omega) _ _
  unfold entries at hbelow ⊢
  rw [Nat.count_succ, hbelow, Function.update_self]
  rfl

/-- A removal below the index counts once. -/
theorem entries_erase (hk : m k = some v) (hlt : k < n) :
    entries m n p = entries (Function.update m k none) n p + if p v = true then 1 else 0 := by
  induction n with
  | zero => omega
  | succ n ih =>
    unfold entries at ih ⊢
    rw [Nat.count_succ, Nat.count_succ]
    by_cases hkn : k = n
    · have hbelow := entries_congr (p := p)
        (fun j (hj : j < n) => Function.update_of_ne (f := m) (show j ≠ k by omega) none)
      unfold entries at hbelow
      rw [hbelow]
      subst hkn
      simp [hk]
    · rw [ih (by omega), Function.update_of_ne (Ne.symm hkn)]
      omega

/-- Where nothing is in use, nothing counts. -/
theorem entries_empty : entries (fun _ => none : Nat → Option V) n p = 0 := by
  induction n with
  | zero => rfl
  | succ n ih =>
    unfold entries at ih ⊢
    rw [Nat.count_succ, ih]
    rfl

/-- An entry that counts is counted. -/
theorem entries_pos (hk : m k = some v) (hlt : k < n) (hp : p v = true) : 0 < entries m n p := by
  rw [entries_erase hk hlt, if_pos hp]
  omega

/-! ### Keys that are handed out once -/

/-- Every key below `n` is in use or was removed; the removed ones are listed
    once each. -/
structure Accounted (m : Nat → Option V) (n : Nat) (removed : List Nat) : Prop where
  below : Below m n
  removed_iff : ∀ k, k ∈ removed ↔ k < n ∧ m k = none
  nodup : removed.Nodup
  size : n = entries m n (fun _ => true) + removed.length

section accounted
variable {removed : List Nat}

theorem accounted_empty : Accounted (fun _ => none : Nat → Option V) 0 [] :=
  ⟨fun _ _ => rfl, by simp, List.nodup_nil, rfl⟩

/-- The key at the index is handed out. -/
theorem Accounted.insert (h : Accounted m n removed) :
    Accounted (Function.update m n (some v)) (n + 1) removed := by
  refine ⟨h.below.insert, ?_, h.nodup, ?_⟩
  · intro k
    rw [h.removed_iff]
    by_cases hk : k = n
    · subst hk; simp
    · rw [Function.update_of_ne hk]
      have := h.below k
      exact ⟨fun ⟨hlt, hnone⟩ => ⟨by omega, hnone⟩, fun ⟨hlt, hnone⟩ => ⟨by omega, hnone⟩⟩
  · rw [entries_insert, if_pos rfl]
    have := h.size
    omega

/-- A key in use is removed. -/
theorem Accounted.erase (h : Accounted m n removed) (hk : m k = some v) :
    Accounted (Function.update m k none) n (removed ++ [k]) := by
  have hlt := h.below.lt hk
  refine ⟨h.below.erase, ?_, ?_, ?_⟩
  · intro j
    rw [List.mem_append, List.mem_singleton, h.removed_iff]
    by_cases hj : j = k
    · subst hj; simp [hlt]
    · rw [Function.update_of_ne hj]
      simp [hj]
  · have hnew : k ∉ removed := fun hmem => by
      rw [((h.removed_iff k).mp hmem).2] at hk
      cases hk
    exact List.nodup_append.mpr ⟨h.nodup, List.nodup_singleton k, fun a ha b hb hab =>
      hnew (List.mem_singleton.mp hb ▸ hab ▸ ha)⟩
  · have hsize := h.size
    rw [entries_erase hk hlt, if_pos rfl] at hsize
    rw [List.length_append, List.length_singleton]
    omega

end accounted

/-! ### Insertions on record -/

/-- A list without duplicate keys, extended by a fresh one. -/
theorem nodup_map_append {A K : Type} {f : A → K} {L : List A} {x : A} (h : (L.map f).Nodup)
    (hx : ∀ y ∈ L, f y ≠ f x) : ((L ++ [x]).map f).Nodup := by
  rw [List.map_append, List.nodup_append]
  refine ⟨h, List.nodup_singleton _, ?_⟩
  intro a ha b hb
  obtain ⟨y, hy, rfl⟩ := List.mem_map.mp ha
  rw [List.mem_singleton.mp hb]
  exact hx y hy

/-- `L` lists keys below `n`, each once, and what the map holds is listed. -/
structure Recorded (m : Nat → Option V) (n : Nat) (L : List (Nat × V)) : Prop where
  below : ∀ x ∈ L, x.1 < n
  nodup : (L.map Prod.fst).Nodup
  mem : ∀ k v, m k = some v → (k, v) ∈ L

section recorded
variable {L : List (Nat × V)}

theorem recorded_empty (n : Nat) : Recorded (fun _ => none : Nat → Option V) n [] :=
  ⟨fun _ h => absurd h List.not_mem_nil, List.nodup_nil, fun _ _ h => (by cases h)⟩

/-- A key is on record with one value only. -/
theorem Recorded.unique (h : Recorded m n L) {v' : V} (hk : (k, v) ∈ L) (hk' : (k, v') ∈ L) :
    v = v' :=
  (Prod.mk.inj (List.inj_on_of_nodup_map h.nodup hk hk' rfl)).2

theorem Recorded.insert (h : Recorded m n L) :
    Recorded (Function.update m n (some v)) (n + 1) (L ++ [(n, v)]) := by
  refine ⟨?_, nodup_map_append h.nodup fun x hx => Nat.ne_of_lt (h.below x hx), ?_⟩
  · intro x hx
    rcases List.mem_append.mp hx with hx | hx
    · exact Nat.lt_succ_of_lt (h.below x hx)
    · rw [List.mem_singleton.mp hx]
      exact Nat.lt_succ_self n
  · intro j v' hj
    by_cases hjn : j = n
    · subst hjn
      rw [Function.update_self, Option.some.injEq] at hj
      rw [← hj]
      exact List.mem_append_right L List.mem_cons_self
    · rw [Function.update_of_ne hjn] at hj
      exact List.mem_append_left _ (h.mem j v' hj)

theorem Recorded.erase (h : Recorded m n L) (k : Nat) :
    Recorded (Function.update m k none) n L := by
  refine ⟨h.below, h.nodup, ?_⟩
  intro j v' hj
  by_cases hjk : j = k
  · rw [hjk, Function.update_self] at hj
    cases hj
  · rw [Function.update_of_ne hjk] at hj
    exact h.mem j v' hj

end recorded

end BoundedMap
