import PhalaWorld.Framework.BoundedMap

/-! # Entries exchanged one for one

    Two maps with allocation indices. Values are put into the first; an
    entry of the first can be exchanged for a new entry of the second with
    the same value. Whatever was put in is then either still there or was
    exchanged once, and the two maps together hold as many values of any
    kind as were put in.

    * `Exchanged`: the invariant of such a pair.
    * `Exchanged.put`, `Exchanged.exchange`: the two moves keep it.
-/

namespace BoundedMap

variable {V : Type}

/-- `ps` lists what was put into `m`, and `xs` the keys of `m` that were
    exchanged, with the keys of `m'` they were exchanged for. -/
structure Exchanged (m : Nat → Option V) (n : Nat) (m' : Nat → Option V) (n' : Nat)
    (ps : List (Nat × V)) (xs : List (Nat × Nat)) : Prop where
  recorded : Recorded m n ps
  kept : ∀ k v, (k, v) ∈ ps →
    m k = some v ∧ (∀ x ∈ xs, x.1 ≠ k) ∨ m k = none ∧ ∃ k', (k, k') ∈ xs ∧ m' k' = some v
  source : ∀ x ∈ xs, ∃ v, (x.1, v) ∈ ps
  target : ∀ k' v, m' k' = some v → ∃ k, (k, k') ∈ xs
  below : ∀ x ∈ xs, x.2 < n'
  source_nodup : (xs.map Prod.fst).Nodup
  target_nodup : (xs.map Prod.snd).Nodup
  count : ∀ p : V → Bool, ps.countP (fun x => p x.2) = entries m n p + entries m' n' p

variable {m m' : Nat → Option V} {n n' : Nat} {ps : List (Nat × V)} {xs : List (Nat × Nat)}

theorem exchanged_empty (n n' : Nat) :
    Exchanged (fun _ => none : Nat → Option V) n (fun _ => none) n' [] [] where
  recorded := recorded_empty n
  kept := fun _ _ h => absurd h List.not_mem_nil
  source := fun _ h => absurd h List.not_mem_nil
  target := fun _ _ h => by cases h
  below := fun _ h => absurd h List.not_mem_nil
  source_nodup := List.nodup_nil
  target_nodup := List.nodup_nil
  count := fun p => by rw [entries_empty, entries_empty]; rfl

/-- A value is put into the first map. -/
theorem Exchanged.put (h : Exchanged m n m' n' ps xs) (v : V) :
    Exchanged (Function.update m n (some v)) (n + 1) m' n' (ps ++ [(n, v)]) xs := by
  refine ⟨h.recorded.insert, ?_, ?_, h.target, h.below, h.source_nodup, h.target_nodup, ?_⟩
  · intro k w hk
    rcases List.mem_append.mp hk with hk | hk
    · rw [Function.update_of_ne (Nat.ne_of_lt (h.recorded.below _ hk))]
      exact h.kept k w hk
    · obtain ⟨rfl, rfl⟩ := Prod.mk.inj (List.mem_singleton.mp hk)
      refine .inl ⟨Function.update_self _ _ _, ?_⟩
      intro x hx heq
      -- a key that was exchanged was handed out before
      obtain ⟨_, hput⟩ := h.source x hx
      exact absurd (h.recorded.below _ hput) (by rw [heq]; exact Nat.lt_irrefl _)
  · intro x hx
    obtain ⟨w, hw⟩ := h.source x hx
    exact ⟨w, List.mem_append_left _ hw⟩
  · intro p
    rw [List.countP_append, h.count, entries_insert, List.countP_singleton]
    exact Nat.add_right_comm _ _ _

/-- An entry of the first map is exchanged for a new one of the second. -/
theorem Exchanged.exchange (h : Exchanged m n m' n' ps xs) {k : Nat} {v : V}
    (hk : m k = some v) :
    Exchanged (Function.update m k none) n (Function.update m' n' (some v)) (n' + 1) ps
      (xs ++ [(k, n')]) := by
  have hput := h.recorded.mem k v hk
  -- `k` is still there, so it was not exchanged before
  obtain ⟨_, hfresh⟩ : m k = some v ∧ ∀ x ∈ xs, x.1 ≠ k :=
    (h.kept k v hput).resolve_right fun ⟨hnone, _⟩ => by rw [hk] at hnone; cases hnone
  refine ⟨h.recorded.erase k, ?_, ?_, ?_, ?_,
    nodup_map_append h.source_nodup hfresh,
    nodup_map_append h.target_nodup fun x hx => Nat.ne_of_lt (h.below x hx), ?_⟩
  · intro j w hj
    by_cases hjk : j = k
    · -- the key that is exchanged now, for the new key `n'`
      subst hjk
      obtain rfl := h.recorded.unique hput hj
      exact .inr ⟨Function.update_self _ _ _, n', List.mem_append_right _ List.mem_cons_self,
        Function.update_self _ _ _⟩
    · rw [Function.update_of_ne hjk]
      refine (h.kept j w hj).imp (fun ⟨hm, hnot⟩ => ⟨hm, ?_⟩)
        fun ⟨hnone, j', hj', hm'⟩ => ⟨hnone, j', List.mem_append_left _ hj', ?_⟩
      · intro x hx
        rcases List.mem_append.mp hx with hx | hx
        · exact hnot x hx
        · rw [List.mem_singleton.mp hx]
          exact Ne.symm hjk
      · rw [Function.update_of_ne (Nat.ne_of_lt (h.below _ hj'))]
        exact hm'
  · intro x hx
    rcases List.mem_append.mp hx with hx | hx
    · exact h.source x hx
    · rw [List.mem_singleton.mp hx]
      exact ⟨v, hput⟩
  · intro j' w hj'
    by_cases hjn : j' = n'
    · exact ⟨k, List.mem_append_right _ (by rw [hjn]; exact List.mem_cons_self)⟩
    · rw [Function.update_of_ne hjn] at hj'
      obtain ⟨j, hj⟩ := h.target j' w hj'
      exact ⟨j, List.mem_append_left _ hj⟩
  · intro x hx
    rcases List.mem_append.mp hx with hx | hx
    · exact Nat.lt_succ_of_lt (h.below x hx)
    · rw [List.mem_singleton.mp hx]
      exact Nat.lt_succ_self n'
  · intro p
    rw [h.count, entries_erase hk (h.recorded.below _ hput), entries_insert]
    omega

end BoundedMap
