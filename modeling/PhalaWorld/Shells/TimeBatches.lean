import PhalaWorld.Shells.HatchTimes

/-! # Batches of time reductions

    The Overlord takes time off the shells in one transactional batch. The
    list may name a shell many times; a pair that does not name a shell with
    a hatch time, at whatever position, takes the whole batch back.

    * `Reducible`: the pairs a batch may hold.
    * `reduce_by`: what a batch leaves of the hatch times.
    * `reduces_iff`: a batch, all rounds at once.
    * `reduction_batch`: when it succeeds, what it leaves, and that neither
      order nor splitting matters.
-/

namespace PhalaWorld

open LTS Transaction Incubation

variable {AccountId : Type} {T : Config AccountId}

/-- `x` is an Origin of Shell with a hatch time. -/
def Reducible (s : State T) (x : CollectionId × NftId) : Prop :=
  s.sale.origin_of_shell_collection_id = some x.1 ∧ ∃ t, s.incubation.hatch_times x = some t

/-- The hatch times less what the batch lists for each. -/
def reduce_by (rs : List ((CollectionId × NftId) × Nat))
    (times : CollectionId × NftId → Option Nat) : CollectionId × NftId → Option Nat :=
  fun x => (times x).map fun t => t - reduced rs x

/-- The events of the rounds. -/
def reduction_events (times : CollectionId × NftId → Option Nat) :
    List ((CollectionId × NftId) × Nat) → List (Event T)
  | [] => []
  | (x, d) :: rs =>
    let old_hatch_time := (times x).getD 0
    .HatchTimeUpdated x.1 x.2 old_hatch_time (old_hatch_time - d) ::
      reduction_events (Function.update times x (some (old_hatch_time - d))) rs

/-- What a batch that succeeds leaves. -/
def after_batch (s : State T) (rs : List ((CollectionId × NftId) × Nat)) : State T :=
  { s with
    incubation := { s.incubation with hatch_times := reduce_by rs s.incubation.hatch_times }
    events := s.events ++ reduction_events s.incubation.hatch_times rs }

section batches
variable {s s' : State T} {x y : CollectionId × NftId}
  {rs rs' : List ((CollectionId × NftId) × Nat)} {times : CollectionId × NftId → Option Nat}

@[simp] theorem reduce_by_nil : reduce_by [] times = times := by
  funext x
  simp [reduce_by]

/-- A round for `y`, and then the rest of the batch. -/
theorem reduce_by_cons {t d : Nat} (ht : times y = some t) :
    reduce_by rs (Function.update times y (some (t - d))) = reduce_by ((y, d) :: rs) times := by
  funext x
  unfold reduce_by
  rw [reduced_cons]
  by_cases hx : x = y
  · subst hx
    -- what is below zero is cut off once or twice, with the same result
    rw [Function.update_self, ht, if_pos rfl, Option.map_some, Option.map_some, Nat.sub_sub]
  · rw [Function.update_of_ne hx, if_neg (Ne.symm hx), Nat.zero_add]

/-- The order of a batch does not matter to what it takes off. -/
theorem reduced_perm (h : rs.Perm rs') : reduced rs x = reduced rs' x :=
  ((h.filter _).map _).sum_eq

theorem reduce_by_perm (h : rs.Perm rs') : reduce_by rs times = reduce_by rs' times := by
  funext x
  unfold reduce_by
  rw [reduced_perm h]

/-- A round gives no shell a hatch time, and takes none. -/
theorem ReducesHatchTime.reducible {r : (CollectionId × NftId) × Nat}
    (h : ReducesHatchTime s r s') : Reducible s' x ↔ Reducible s x := by
  obtain ⟨t, _, ht, rfl⟩ := h
  refine and_congr_right fun _ => ?_
  by_cases hx : x = r.1
  · subst hx
    simp [ht]
  · simp [hx]

/-- **A batch, all rounds at once.** It goes through exactly where every pair
    names a shell with a hatch time, whatever the others do to that time. -/
theorem reduces_iff :
    Chain ReducesHatchTime s rs s' ↔ (∀ r ∈ rs, Reducible s r.1) ∧ s' = after_batch s rs := by
  induction rs generalizing s with
  | nil => simp [after_batch, reduction_events]
  | cons r rs ih =>
    obtain ⟨y, d⟩ := r
    rw [chain_cons, List.forall_mem_cons]
    constructor
    · rintro ⟨s₁, hr, hrest⟩
      obtain ⟨hall, rfl⟩ := ih.mp hrest
      have hkept : ∀ r ∈ rs, Reducible s r.1 := fun r hmem => hr.reducible.mp (hall r hmem)
      obtain ⟨t, hc, ht, rfl⟩ := hr
      refine ⟨⟨⟨hc, t, ht⟩, hkept⟩, ?_⟩
      simp [after_batch, reduction_events, reduce_by_cons ht, ht]
    · rintro ⟨⟨⟨hc, t, ht⟩, hall⟩, rfl⟩
      have hr : ReducesHatchTime s (y, d) _ := ⟨t, hc, ht, rfl⟩
      refine ⟨_, hr, ih.mpr ⟨fun r hmem => hr.reducible.mpr (hall r hmem), ?_⟩⟩
      simp [after_batch, reduction_events, reduce_by_cons ht, ht]

end batches

section calls
variable [DecidableEq AccountId] {s s' : State T} {o : AccountId}
  {l l' : List ((CollectionId × NftId) × Nat)}

/-- When the Overlord's call succeeds, round by round and all at once. -/
theorem update_incubation_time_chain (ho : s.sale.overlord = some o) :
    update_incubation_time (.signed o) l s = (.ok (), s') ↔ Chain ReducesHatchTime s l s' := by
  simp [update_incubation_time, reduce_hatch_time_ok, ho]

theorem update_incubation_time_iff (ho : s.sale.overlord = some o) :
    update_incubation_time (.signed o) l s = (.ok (), s') ↔
      (∀ r ∈ l, Reducible s r.1) ∧ s' = after_batch s l := by
  rw [update_incubation_time_chain ho, reduces_iff]

/-- The call in both outcomes. -/
theorem update_incubation_time_cases (ho : s.sale.overlord = some o) :
    ((∀ r ∈ l, Reducible s r.1) ∧
      update_incubation_time (.signed o) l s = (.ok (), after_batch s l)) ∨
    ((¬ ∀ r ∈ l, Reducible s r.1) ∧
      ∃ e, update_incubation_time (.signed o) l s = (.error e, s)) := by
  rcases run_cases (update_incubation_time (.signed o) l) s with ⟨⟨⟩, s', h⟩ | ⟨e, s', h⟩
  · obtain ⟨hall, rfl⟩ := (update_incubation_time_iff ho).mp h
    exact .inl ⟨hall, h⟩
  · obtain rfl : s' = s := transactional_rollback h
    refine .inr ⟨?_, e, h⟩
    intro hall
    have hok := (update_incubation_time_iff ho).mpr ⟨hall, rfl⟩
    rw [h] at hok
    cases hok

/-- **Batches of reductions.** The Overlord's call succeeds exactly where
    every pair names a shell with a hatch time. It then takes off each shell
    the sum of what is listed for it, and nothing else changes but the log;
    where it fails nothing does. A reordered list has the same outcome, and
    two lists in one call are the two calls in a row. -/
theorem reduction_batch (ho : s.sale.overlord = some o)
    (l : List ((CollectionId × NftId) × Nat)) :
    (succeeded (entry step s (.call (.signed o) (.update_incubation_time l))) = true ↔
      ∀ r ∈ l, Reducible s r.1) ∧
    (∀ s', step s (.call (.signed o) (.update_incubation_time l)) = (.ok (), s') →
      s' = { s with
        incubation := { s.incubation with hatch_times := fun x =>
          (s.incubation.hatch_times x).map fun t => t - reduced l x }
        events := s'.events }) ∧
    (∀ e s', step s (.call (.signed o) (.update_incubation_time l)) = (.error e, s') → s' = s) ∧
    (∀ l', l.Perm l' →
      succeeded (entry step s (.call (.signed o) (.update_incubation_time l))) =
        succeeded (entry step s (.call (.signed o) (.update_incubation_time l'))) ∧
      (step s (.call (.signed o) (.update_incubation_time l))).2 =
        { (step s (.call (.signed o) (.update_incubation_time l'))).2 with
          events := (step s (.call (.signed o) (.update_incubation_time l))).2.events }) ∧
    ∀ l' s', step s (.call (.signed o) (.update_incubation_time (l ++ l'))) = (.ok (), s') ↔
      ∃ s₁, step s (.call (.signed o) (.update_incubation_time l)) = (.ok (), s₁) ∧
        step s₁ (.call (.signed o) (.update_incubation_time l')) = (.ok (), s') := by
  have hstep (s : State T) (l : List ((CollectionId × NftId) × Nat)) :
      step s (.call (.signed o) (.update_incubation_time l)) =
        update_incubation_time (.signed o) l s := rfl
  refine ⟨?_, ?_, ?_, ?_, ?_⟩
  · unfold succeeded entry
    rw [hstep]
    rcases update_incubation_time_cases ho (l := l) with ⟨hall, h⟩ | ⟨hnot, e, h⟩
    · rw [h]
      exact iff_of_true rfl hall
    · rw [h]
      exact iff_of_false Bool.false_ne_true hnot
  · intro s' h
    obtain ⟨_, rfl⟩ := (update_incubation_time_iff ho).mp h
    rfl
  · intro e s' h
    exact transactional_rollback h
  · intro l' hperm
    have hiff : (∀ r ∈ l, Reducible s r.1) ↔ ∀ r ∈ l', Reducible s r.1 := by
      simp only [hperm.mem_iff]
    unfold succeeded entry
    rw [hstep, hstep]
    rcases update_incubation_time_cases ho (l := l) with ⟨hall, h⟩ | ⟨hnot, e, h⟩ <;>
      rcases update_incubation_time_cases ho (l := l') with ⟨hall', h'⟩ | ⟨hnot', e', h'⟩
    · rw [h, h']
      refine ⟨rfl, ?_⟩
      unfold after_batch
      rw [reduce_by_perm hperm]
    · exact absurd (hiff.mp hall) hnot'
    · exact absurd (hiff.mpr hall') hnot
    · rw [h, h']
      exact ⟨rfl, rfl⟩
  · intro l' s'
    rw [hstep, update_incubation_time_chain ho, chain_append]
    refine exists_congr ?_
    intro s₁
    rw [hstep, update_incubation_time_chain ho]
    refine and_congr_right ?_
    intro hfirst
    -- the Overlord is still the Overlord
    have ho₁ : s₁.sale.overlord = some o := by
      rw [(reduces_iff.mp hfirst).2]
      exact ho
    rw [hstep, update_incubation_time_chain ho₁]

open Mock in
/-- `CHARLIE`'s shell is due at 600 and `ALICE`'s at 700. -/
theorem reduction_batch_reopened :
    (∀ r ∈ [((1, 0), 500), ((1, 1), 50), ((1, 0), 2 ^ 64 - 1)],
      Reducible (after reopened).2 r.1) ∧
    succeeded (entry step (after reopened).2 (admin (.update_incubation_time
      [((1, 0), 500), ((1, 1), 50), ((1, 0), 2 ^ 64 - 1)]))) = true := by
  have hall : ∀ r ∈ [((1, 0), 500), ((1, 1), 50), ((1, 0), 2 ^ 64 - 1)],
      Reducible (after reopened).2 r.1 := by
    have hcollection : (after reopened).2.sale.origin_of_shell_collection_id = some 1 ∧
        (after reopened).2.incubation.hatch_times (1, 0) = some 600 ∧
        (after reopened).2.incubation.hatch_times (1, 1) = some 700 := by decide +kernel
    obtain ⟨hc, hfirst, hsecond⟩ := hcollection
    generalize (after reopened).2 = s at *
    intro r hr
    simp only [List.mem_cons, List.not_mem_nil, or_false] at hr
    rcases hr with rfl | rfl | rfl
    · exact ⟨hc, 600, hfirst⟩
    · exact ⟨hc, 700, hsecond⟩
    · exact ⟨hc, 600, hfirst⟩
  refine ⟨hall, ?_⟩
  exact (reduction_batch (T := runtime 200) (o := OVERLORD) (by decide +kernel) _).1.mpr hall

end calls

end PhalaWorld
