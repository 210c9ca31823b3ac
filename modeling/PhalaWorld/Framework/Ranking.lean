import Mathlib.Algebra.Ring.Nat
import Mathlib.Data.List.GetD
import Mathlib.Data.List.Sort
import Mathlib.Data.List.Nodup

/-! # Prizes by rank

    Entries with counts are put in order, the highest count first, and a
    table says what each rank gets; past the end of the table there is
    nothing. Entries with the same count share their ranks, and which of them
    gets which depends on where they stood before.

    * `rank_bounds`: the rank of an entry, up to ties.
    * `awards_map`: what the entries are called does not matter.
    * `award_of_mem`: what an entry gets is what the table says for its rank.
    * `award_fair`: a higher count gets no less, if the table descends.
    * `awards_few`: no more entries get something than the table has ranks.
-/

namespace Ranking

variable {K : Type}

/-- The entries, the highest count first; equal ones stay in order. -/
def ranked (l : List (K × Nat)) : List (K × Nat) :=
  l.insertionSort fun a b => b.2 ≤ a.2

/-- What each entry gets. -/
def awards (prizes : List Nat) (l : List (K × Nat)) : List (K × Nat) :=
  (ranked l).mapIdx fun rank x => (x.1, prizes.getD rank 0)

/-- What is listed for `k`, taken together. -/
def total [DecidableEq K] (l : List (K × Nat)) (k : K) : Nat :=
  ((l.filter fun x => x.1 = k).map Prod.snd).sum

/-- How many entries have a count above `n`. -/
def above (l : List (K × Nat)) (n : Nat) : Nat := l.countP fun x => n < x.2

/-- How many have a count of at least `n`. -/
def atLeast (l : List (K × Nat)) (n : Nat) : Nat := l.countP fun x => n ≤ x.2

variable {l : List (K × Nat)} {prizes : List Nat} {k k' : K} {n n' rank : Nat}

/-! ### Ranks -/

theorem ranked_perm (l : List (K × Nat)) : (ranked l).Perm l :=
  List.perm_insertionSort _ l

theorem ranked_pairwise (l : List (K × Nat)) : (ranked l).Pairwise fun a b => b.2 ≤ a.2 := by
  have htotal : Std.Total fun a b : K × Nat => b.2 ≤ a.2 := ⟨fun a b => Nat.le_total b.2 a.2⟩
  have htrans : IsTrans (K × Nat) fun a b => b.2 ≤ a.2 :=
    ⟨fun _ _ _ hab hbc => Nat.le_trans hbc hab⟩
  exact List.pairwise_insertionSort _ l

/-- An entry of a list that descends stands behind those with a higher count
    and before those with a lower one. -/
theorem rank_bounds_of_pairwise (hl : l.Pairwise fun a b => b.2 ≤ a.2)
    (hrank : l[rank]? = some (k, n)) : above l n ≤ rank ∧ rank < atLeast l n := by
  induction l generalizing rank with
  | nil => cases hrank
  | cons x l ih =>
    obtain ⟨hx, hl⟩ := List.pairwise_cons.mp hl
    unfold above atLeast at ih ⊢
    rw [List.countP_cons, List.countP_cons]
    cases rank with
    | zero =>
      obtain rfl : x = (k, n) := by simpa using hrank
      -- it is the first: nothing is above it
      have hnone : l.countP (fun y => n < y.2) = 0 := by
        rw [List.countP_eq_zero]
        intro y hy
        have hle := hx y hy
        simpa using hle
      rw [hnone]
      simp
    | succ rank =>
      have htail : l[rank]? = some (k, n) := by simpa using hrank
      obtain ⟨habove, hbelow⟩ := ih hl htail
      have hle : n ≤ x.2 := hx _ (List.mem_of_getElem? htail)
      rw [if_pos (decide_eq_true hle)]
      refine ⟨?_, Nat.succ_lt_succ hbelow⟩
      split <;> omega

/-- The rank of an entry, up to ties. -/
theorem rank_bounds (hrank : (ranked l)[rank]? = some (k, n)) :
    above l n ≤ rank ∧ rank < atLeast l n := by
  have hbounds := rank_bounds_of_pairwise (ranked_pairwise l) hrank
  unfold above atLeast at hbounds ⊢
  rw [(ranked_perm l).countP_eq, (ranked_perm l).countP_eq] at hbounds
  exact hbounds

/-! ### Awards -/

/-- Other names for the entries do not change their order. -/
theorem ranked_map {K' : Type} (f : K → K') (l : List (K × Nat)) :
    ranked (l.map fun x => (f x.1, x.2)) = (ranked l).map fun x => (f x.1, x.2) := by
  symm
  apply List.map_insertionSort
  intro a _ b _
  exact Iff.rfl

/-- And they get the same. -/
theorem awards_map {K' : Type} (f : K → K') (prizes : List Nat) (l : List (K × Nat)) :
    awards prizes (l.map fun x => (f x.1, x.2)) =
      (awards prizes l).map fun x => (f x.1, x.2) := by
  rw [awards, awards, ranked_map]
  apply List.ext_getElem?
  intro i
  simp [List.getElem?_mapIdx, Function.comp_def]

theorem map_fst_awards (prizes : List Nat) (l : List (K × Nat)) :
    (awards prizes l).map Prod.fst = (ranked l).map Prod.fst := by
  apply List.ext_getElem?
  intro i
  simp [awards, List.getElem?_mapIdx, Function.comp_def]

/-- Each entry is listed once, if it was before. -/
theorem awards_nodup (hl : (l.map Prod.fst).Nodup) :
    ((awards prizes l).map Prod.fst).Nodup := by
  rw [map_fst_awards]
  exact ((ranked_perm l).map Prod.fst).nodup_iff.mpr hl

theorem mem_awards {v : Nat} : (k, v) ∈ awards prizes l ↔
    ∃ rank n, (ranked l)[rank]? = some (k, n) ∧ v = prizes.getD rank 0 := by
  rw [List.mem_iff_getElem?]
  unfold awards
  simp only [List.getElem?_mapIdx, Option.map_eq_some_iff, Prod.mk.injEq, Prod.exists]
  constructor
  · intro ⟨rank, k', n, hrank, hk, hv⟩
    exact ⟨rank, n, hk ▸ hrank, hv.symm⟩
  · intro ⟨rank, n, hrank, hv⟩
    exact ⟨rank, k, n, hrank, rfl, hv.symm⟩

/-- The names of the awards are those of the entries. -/
theorem mem_awards_fst (prizes : List Nat) : (∃ v, (k, v) ∈ awards prizes l) ↔ ∃ n, (k, n) ∈ l := by
  have hkeys : k ∈ (awards prizes l).map Prod.fst ↔ k ∈ l.map Prod.fst := by
    rw [map_fst_awards]
    exact ((ranked_perm l).map Prod.fst).mem_iff
  simpa using hkeys

section totals
variable [DecidableEq K]

theorem total_of_not_mem (h : ∀ v, (k, v) ∉ l) : total l k = 0 := by
  have hnone : l.filter (fun x => x.1 = k) = [] := by
    rw [List.filter_eq_nil_iff]
    intro x hx hk
    obtain rfl := of_decide_eq_true hk
    exact h x.2 hx
  rw [total, hnone]
  rfl

/-- What is listed once is the total. -/
theorem total_of_mem (hl : (l.map Prod.fst).Nodup) {v : Nat} (h : (k, v) ∈ l) :
    total l k = v := by
  induction l with
  | nil => cases h
  | cons x l ih =>
    rw [List.map_cons, List.nodup_cons] at hl
    obtain ⟨hx, hl⟩ := hl
    by_cases hk : x.1 = k
    · -- `x` is the only entry for `k`
      have hrest : ∀ v, (k, v) ∉ l := by
        intro v hv
        rw [hk] at hx
        exact hx (List.mem_map.mpr ⟨_, hv, rfl⟩)
      obtain rfl : (k, v) = x := (List.mem_cons.mp h).resolve_right (hrest v)
      have hzero := total_of_not_mem hrest
      unfold total at hzero ⊢
      rw [List.filter_cons_of_pos (by simp), List.map_cons, List.sum_cons, hzero, Nat.add_zero]
    · have hmem : (k, v) ∈ l := by
        rcases List.mem_cons.mp h with rfl | h
        · exact absurd rfl hk
        · exact h
      have htail := ih hl hmem
      unfold total at htail ⊢
      rw [List.filter_cons_of_neg (by simpa using hk), htail]

/-- What is not an entry gets nothing. -/
theorem award_of_not_mem (prizes : List Nat) (h : ∀ n, (k, n) ∉ l) : total (awards prizes l) k = 0 := by
  apply total_of_not_mem
  intro v hv
  obtain ⟨n, hn⟩ := (mem_awards_fst prizes).mp ⟨v, hv⟩
  exact h n hn

/-- An entry gets what the table says for its rank. -/
theorem award_of_mem (prizes : List Nat) (hl : (l.map Prod.fst).Nodup) (h : (k, n) ∈ l) :
    ∃ rank, above l n ≤ rank ∧ rank < atLeast l n ∧
      total (awards prizes l) k = prizes.getD rank 0 := by
  obtain ⟨rank, hrank⟩ := List.mem_iff_getElem?.mp ((ranked_perm l).mem_iff.mpr h)
  obtain ⟨habove, hbelow⟩ := rank_bounds hrank
  exact ⟨rank, habove, hbelow, total_of_mem (awards_nodup hl) (mem_awards.mpr ⟨_, _, hrank, rfl⟩)⟩

/-- A table that descends gives a later rank no more. -/
theorem getD_le (hprizes : prizes.Pairwise (· ≥ ·)) {i j : Nat} (hij : i ≤ j) :
    prizes.getD j 0 ≤ prizes.getD i 0 := by
  by_cases hj : j < prizes.length
  · rcases Nat.eq_or_lt_of_le hij with rfl | hlt
    · exact Nat.le_refl _
    · have hi : i < prizes.length := Nat.lt_trans hlt hj
      rw [List.getD_eq_getElem _ _ hi, List.getD_eq_getElem _ _ hj]
      exact List.pairwise_iff_getElem.mp hprizes i j hi hj hlt
  · rw [List.getD_eq_default _ _ (Nat.le_of_not_lt hj)]
    exact Nat.zero_le _

/-- A higher count gets no less. -/
theorem award_fair (hprizes : prizes.Pairwise (· ≥ ·)) (hl : (l.map Prod.fst).Nodup)
    (h : (k, n) ∈ l) (h' : (k', n') ∈ l) (hlt : n' < n) :
    total (awards prizes l) k' ≤ total (awards prizes l) k := by
  obtain ⟨i, _, hi, hk⟩ := award_of_mem prizes hl h
  obtain ⟨j, hj, _, hk'⟩ := award_of_mem prizes hl h'
  -- who has at least `n` is above `n'`
  have hle : atLeast l n ≤ above l n' := by
    apply List.countP_mono_left
    intro x _ hx
    rw [decide_eq_true_eq] at hx ⊢
    omega
  rw [hk, hk']
  exact getD_le hprizes (by omega)

/-- No more entries get something than there are prizes. -/
theorem awards_few (prizes : List Nat) (ks : List K) (hks : ks.Nodup)
    (h : ∀ k ∈ ks, total (awards prizes l) k ≠ 0) (hl : (l.map Prod.fst).Nodup) :
    ks.length ≤ prizes.length := by
  -- they stand in the first ranks
  have hfirst : ks ⊆ ((ranked l).take prizes.length).map Prod.fst := by
    intro k hk
    have hsome : ∃ n, (k, n) ∈ l := by
      by_contra hnone
      exact h k hk (award_of_not_mem prizes fun n hn => hnone ⟨n, hn⟩)
    obtain ⟨n, hn⟩ := hsome
    obtain ⟨rank, hrank⟩ := List.mem_iff_getElem?.mp ((ranked_perm l).mem_iff.mpr hn)
    have haward : total (awards prizes l) k = prizes.getD rank 0 :=
      total_of_mem (awards_nodup hl) (mem_awards.mpr ⟨_, _, hrank, rfl⟩)
    have hlt : rank < prizes.length := by
      by_contra hge
      apply h k hk
      rw [haward, List.getD_eq_default _ _ (Nat.le_of_not_lt hge)]
    have hmem : (k, n) ∈ (ranked l).take prizes.length := by
      apply List.mem_of_getElem? (i := rank)
      rw [List.getElem?_take_of_lt hlt, hrank]
    exact List.mem_map.mpr ⟨_, hmem, rfl⟩
  have hle := (List.subperm_of_subset hks hfirst).length_le
  rw [List.length_map, List.length_take] at hle
  exact Nat.le_trans hle (Nat.min_le_left _ _)

end totals

end Ranking
