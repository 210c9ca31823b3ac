import PhalaWorld.Framework.Pursuit
import PhalaWorld.Reference.Mock
import PhalaWorld.Specs.Settings
import PhalaWorld.Specs.Tended

/-! # The era clock

    An era lasts `SecondsPerEra`. The block hook compares the eras that are
    over since `ZeroDay` with the stored era and begins one more where they
    are ahead, so that the stored era pursues the clock block by block.

    * `block_time`, `clock`: the times of the blocks, and the eras that were
      over at each of them.
    * `finalize_era`: a block is a tick of the pursuit.
    * `era_clock`: what the era is after any run.
-/

namespace PhalaWorld

open LTS Transaction Pursuit

variable {AccountId : Type} {T : Config AccountId}

/-- The time of a block that was finalised with the world clock running. -/
def block_time (e : Entry T) : List Nat :=
  match e.label, e.pre.sale.zero_day with
  | .on_finalize, some _ => [e.pre.now]
  | _, _ => []

/-- The eras that are over at time `t`. -/
def eras_since (T : Config AccountId) (zero_day t : Nat) : Nat :=
  (t - zero_day) / T.SecondsPerEra.toNat

/-- The eras that were over at each block. -/
def clock (zero_day : Nat) (tr : List (Entry T)) : List Nat :=
  (history block_time tr).map (eras_since T zero_day)

section steps
variable {s s' : State T} {l : Label T} {r : Outcome T}

/-- Without a running clock a step has no block time, and neither has
    anything but the block hook. -/
theorem block_time_eq_nil (h : l = .on_finalize → s.sale.zero_day = none) :
    block_time ⟨s, l, r, s'⟩ = [] := by
  unfold block_time
  split
  · next z hl hz =>
    have hnone := h hl
    rw [hnone] at hz
    cases hz
  · rfl

theorem block_time_finalize {z : Nat} (hz : s.sale.zero_day = some z) :
    block_time ⟨s, .on_finalize, r, s'⟩ = [s.now] := by
  simp only [block_time, hz]

theorem clock_append {z : Nat} {tr : List (Entry T)} {e : Entry T} {t : Nat}
    (h : block_time e = [t]) : clock z (e :: tr) = clock z tr ++ [eras_since T z t] := by
  unfold clock
  rw [history_cons, h, List.map_append]
  rfl

variable [DecidableEq AccountId]

/-- **A block is a tick.** The hook neither fails nor overflows, and takes
    the era one step towards the clock. -/
theorem finalize_era {z : Nat} (hS : T.SecondsPerEra ≠ 0) (hs : Clocked s)
    (hz : s.sale.zero_day = some z) :
    (step s .on_finalize).1 = .ok () ∧
      (step s .on_finalize).2.sale.era = tick s.sale.era (eras_since T z s.now) := by
  have hpos : T.SecondsPerEra.toNat ≠ 0 := fun h => hS (UInt64.toNat_inj.mp h)
  have hdiv (a : Nat) : plain_div T a T.SecondsPerEra.toNat = .ok (a / T.SecondsPerEra.toNat) :=
    if_neg hpos
  -- an era that is behind the clock is below the time, which fits in 64 bits
  have hnext (hlt : s.sale.era < eras_since T z s.now) :
      plain_add T 64 s.sale.era 1 = .ok (s.sale.era + 1) := by
    have hle : eras_since T z s.now ≤ s.now - z := Nat.div_le_self _ _
    have hbound : s.sale.era + 1 ≤ s.now - z := Nat.le_trans hlt hle
    unfold Clocked at hs
    exact plain_add_of_lt (Nat.lt_of_le_of_lt hbound (by omega))
  unfold eras_since at hnext ⊢
  show (NftSale.on_finalize s).1 = _ ∧ (NftSale.on_finalize s).2.sale.era = _
  rcases run_cases NftSale.on_finalize s with ⟨⟨⟩, s', h⟩ | ⟨e, s', h⟩
  · rw [h]
    refine ⟨rfl, ?_⟩
    simp [NftSale.on_finalize, hz, hdiv] at h
    rcases h with ⟨hlt, d, hd, ⟨hera, n, hn, rfl⟩ | ⟨hera, rfl⟩⟩ | ⟨hle, rfl⟩
    · rw [plain_sub_of_le hlt.le, Except.ok.injEq] at hd
      subst hd
      rw [hnext hera, Except.ok.injEq] at hn
      rw [tick, if_pos hera, hn]
    · rw [plain_sub_of_le hlt.le, Except.ok.injEq] at hd
      subst hd
      rw [tick, if_neg (Nat.not_lt.mpr hera)]
    · -- at or before the zero day no era is over
      rw [Nat.sub_eq_zero_of_le hle, Nat.zero_div, tick, if_neg (Nat.not_lt_zero _)]
  · apply absurd h
    simp [NftSale.on_finalize, hz, hdiv]
    intro hlt
    rw [plain_sub_of_le hlt.le]
    simp
    intro hera hpanic
    rw [hnext hera] at hpanic
    cases hpanic

/-- Nothing but a block with a running clock changes the era. -/
theorem Tended.era_eq (h : Tended s l r s') (hl : l = .on_finalize → s.sale.zero_day = none) :
    s'.sale.era = s.sale.era := by
  cases h with
  | aside h _ => exact h.era
  | incubate h => exact h.clock.1
  | new_era hz =>
    have hnone := hl rfl
    rw [hz] at hnone
    cases hnone
  | timestamp => rfl

end steps

/-! ### Runs -/

section runs
variable [DecidableEq AccountId] {ok : Entry T → Prop} {g : GenesisConfig AccountId} {w : T.World}
  {now : UInt64} {tr : List (Entry T)} {s : State T}

/-- A zero day that was set is never set again. -/
theorem zero_day_kept {z : Nat} (l : Label T) (hz : s.sale.zero_day = some z) :
    (step s l).2.sale.zero_day = some z := by
  rcases (configured s l).zero_day with heq | hnone
  · rw [heq, hz]
  · rw [hz] at hnone
    cases hnone

/-- The era is what the pursuit of the clock gives. -/
theorem Runs.era_eq (hS : T.SecondsPerEra ≠ 0) (hera : g.era = 0)
    (h : Runs ok (genesis g w now) tr s) :
    (s.sale.zero_day = none → history block_time tr = [] ∧ s.sale.era = 0) ∧
    ∀ z, s.sale.zero_day = some z → s.sale.era = pursue (clock z tr) := by
  have hzero : (genesis (T := T) g w now).sale.era = 0 := by
    show g.era.toNat = 0
    rw [hera]
    rfl
  induction h with
  | nil => exact ⟨fun _ => ⟨rfl, hzero⟩, fun z _ => hzero⟩
  | @cons tr s l hrun _ ih =>
    obtain ⟨hstopped, hrunning⟩ := ih
    by_cases hl : l = .on_finalize → s.sale.zero_day = none
    · -- no block of the clock: the era is as it was
      have hera := (stepped s l).tended.era_eq hl
      have htime : block_time (entry step s l) = [] := block_time_eq_nil hl
      have hhistory : history block_time (entry step s l :: tr) = history block_time tr := by
        rw [history_cons, htime, List.append_nil]
      unfold clock at hrunning ⊢
      rw [hhistory, hera]
      rcases (configured s l).zero_day with heq | hnone
      · rw [heq]
        exact ⟨hstopped, hrunning⟩
      · -- the clock starts in this step, if at all
        obtain ⟨hnil, hera⟩ := hstopped hnone
        rw [hnil, hera]
        exact ⟨fun _ => ⟨rfl, rfl⟩, fun _ _ => rfl⟩
    · obtain ⟨rfl, hsome⟩ := Classical.not_imp.mp hl
      obtain ⟨z, hz⟩ := Option.ne_none_iff_exists'.mp hsome
      have hkept := zero_day_kept .on_finalize hz
      refine ⟨fun hnone => (by rw [hkept] at hnone; cases hnone), ?_⟩
      intro z' hz'
      obtain rfl : z = z' := Option.some.inj (hkept.symm.trans hz')
      have htime : block_time (entry step s .on_finalize) = [s.now] := block_time_finalize hz
      rw [clock_append htime, pursue_append, ← hrunning z hz]
      exact (finalize_era hS (Runs.clocked hrun) hz).2

omit [DecidableEq AccountId] in
/-- The clock does not go back where the block times do not. -/
theorem clock_sorted {z : Nat} (h : (history block_time tr).Pairwise (· ≤ ·)) :
    (clock z tr).Pairwise (· ≤ ·) := by
  unfold clock
  rw [List.pairwise_map]
  refine h.imp ?_
  intro t t' hle
  exact Nat.div_le_div_right (Nat.sub_le_sub_right hle z)

/-- **The era clock.** In every run whose blocks come in the order of their
    times, with `q₁ … qₙ` the eras that were over at the blocks since the
    clock was set: the era is the least of `n` and of all `qᵢ + n - i`. It is
    never ahead of the clock; it is `qₙ` where the clock moved by single eras
    from zero on. No step takes it back or lets it jump, and a block takes it
    one era on until it has caught up. -/
theorem era_clock (hS : T.SecondsPerEra ≠ 0) (hera : g.era = 0)
    (h : Runs ok (genesis g w now) tr s) (htimes : (history block_time tr).Pairwise (· ≤ ·)) :
    (∀ z, s.sale.zero_day = some z →
      IsLeast (limits (clock z tr)) s.sale.era ∧
      (∀ q, (clock z tr).getLast? = some q → s.sale.era ≤ q) ∧
      ((0 :: clock z tr).IsChain (fun q q' => q' ≤ q + 1) →
        (0 :: clock z tr).getLast? = some s.sale.era)) ∧
    ∀ e ∈ tr, e.pre.sale.era ≤ e.post.sale.era ∧ e.post.sale.era ≤ e.pre.sale.era + 1 ∧
      ∀ z, e.label = .on_finalize → e.pre.sale.zero_day = some z →
        e.post.sale.era = min (e.pre.sale.era + 1) (eras_since T z e.pre.now) := by
  constructor
  · intro z hz
    have hsorted := clock_sorted (z := z) htimes
    rw [(Runs.era_eq hS hera h).2 z hz]
    exact ⟨pursue_isLeast hsorted, fun q hq => pursue_le_getLast hsorted hq,
      pursue_eq_getLast hsorted⟩
  · intro e he
    obtain ⟨later, earlier, rfl⟩ := List.append_of_mem he
    obtain ⟨hpre, _, heq, _⟩ := Run.split h
    have hs := (stepped e.pre e.label).tended
    have hpost : e.post = (step e.pre e.label).2 := congrArg LTS.Entry.post heq
    rw [hpost]
    refine ⟨hs.era_le (Runs.clocked hpre), ?_, ?_⟩
    · rcases hs.era (Runs.clocked hpre) with hsame | hnext
      · rw [hsame]
        exact Nat.le_succ _
      · exact Nat.le_of_eq hnext
    · intro z hl hz
      -- the blocks before this one came no later
      have hbehind : e.pre.sale.era ≤ eras_since T z e.pre.now := by
        have htime : block_time e = [e.pre.now] := by
          rw [heq, hl]
          exact block_time_finalize hz
        have hpast : (history block_time (e :: earlier)).Pairwise (· ≤ ·) := by
          rw [history_append] at htimes
          exact (List.pairwise_append.mp htimes).1
        rw [(Runs.era_eq hS hera hpre).2 z hz]
        refine pursue_le ?_
        intro q hq
        obtain ⟨t, ht, rfl⟩ := List.mem_map.mp hq
        rw [history_cons, htime, List.pairwise_append] at hpast
        exact Nat.div_le_div_right (Nat.sub_le_sub_right (hpast.2.2 t ht _ List.mem_cons_self) z)
      rw [hl, (finalize_era hS (Runs.clocked hpre) hz).2]
      exact tick_eq hbehind

open Mock in
/-- The chain stalls between 60 and 240, for three eras. -/
def stalled : List (Label (runtime 200)) :=
  setup 200 ++
  [.set_timestamp 60, .on_finalize, .set_timestamp 240, .on_finalize,
    .set_timestamp 246, .on_finalize, .set_timestamp 252, .on_finalize]

open Mock in
/-- Three blocks later the era has caught up. -/
theorem era_clock_stalled :
    clock 0 (after stalled).1 = [1, 4, 4, 4] ∧ (after stalled).2.sale.era = 4 ∧
    IsLeast (limits (clock 0 (after stalled).1)) (after stalled).2.sale.era := by
  have hrun : Runs (fun _ => True) (genesis₀ 200) (after stalled).1 (after stalled).2 :=
    Run.exec (p := fun _ => True) .nil (by simp)
  have hzero : (after stalled).2.sale.zero_day = some 0 := by decide +kernel
  have hclock := (era_clock (T := runtime 200) (g := GenesisConfig.default) (w := world₀)
    (by decide) rfl hrun (by decide +kernel)).1 0 hzero
  exact ⟨by decide +kernel, by decide +kernel, hclock.1⟩

open Mock in
/-- The genesis of a chain whose clock is set. -/
def clock_genesis : State (runtime 200) :=
  genesis { GenesisConfig.default with zero_day := some 0 } world₀ 0

open Mock in
/-- The first block comes five eras later. -/
def late_block : List (Label (runtime 200)) := [.set_timestamp 300, .on_finalize]

open Mock in
/-- It is not met by the era, though no two blocks differ. -/
theorem era_behind_at_start : ∃ tr s, Runs (fun _ => True) clock_genesis tr s ∧
    s.sale.zero_day = some 0 ∧ (history block_time tr).Pairwise (· ≤ ·) ∧
    (clock 0 tr).IsChain (fun q q' => q' ≤ q + 1) ∧ (clock 0 tr).getLast? = some 5 ∧
    s.sale.era = 1 := by
  refine ⟨(exec step clock_genesis [] late_block).1, (exec step clock_genesis [] late_block).2,
    Run.exec (p := fun _ => True) .nil (by simp), ?_⟩
  decide +kernel

end runs

end PhalaWorld
