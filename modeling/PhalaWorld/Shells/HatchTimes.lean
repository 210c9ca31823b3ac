import PhalaWorld.Shells.Hatching
import PhalaWorld.Specs.Tended

/-! # The hatch times

    An Origin of Shell gets the official hatch time when its incubation
    starts. From then on the Overlord takes time off, in batches that may
    list it any number of times; food is taken up to that time, and a hatch
    happens after it.

    * `starts`, `reductions`: what an entry did to the hatch times.
    * `Tended.hatch_time`: what one step does to one of them.
    * `hatch_time_ledger`: what it is after any run.
    * `one_official_iff`: when all shells go by one official hatch time.
-/

namespace PhalaWorld

open LTS Transaction

variable {AccountId : Type} {T : Config AccountId}

/-! ### What a trace records of hatch times -/

/-- The Origin of Shell that an entry began to incubate. -/
def starts (e : Entry T) : List (CollectionId × NftId) :=
  match e.label, e.result with
  | .call _ (.start_incubation collection_id nft_id), .ok () => [(collection_id, nft_id)]
  | _, _ => []

/-- The reductions that an entry applied, in order. -/
def reductions (e : Entry T) : List ((CollectionId × NftId) × Nat) :=
  match e.label, e.result with
  | .call _ (.update_incubation_time origin_of_shells), .ok () => origin_of_shells
  | _, _ => []

/-- How much time the reductions take off `x` in all. -/
def reduced (rs : List ((CollectionId × NftId) × Nat)) (x : CollectionId × NftId) : Nat :=
  ((rs.filter fun r => r.1 = x).map Prod.snd).sum

/-- The Origin of Shell that a call tries to feed. -/
def Label.feeding : Label T → Option (CollectionId × NftId)
  | .call _ (.feed_origin_of_shell collection_id nft_id) => some (collection_id, nft_id)
  | _ => none

section readings
variable {s s' : State T} {l : Label T} {r : Outcome T} {x : CollectionId × NftId}

@[simp] theorem reduced_nil : reduced [] x = 0 := rfl

theorem reduced_cons (y : CollectionId × NftId) (d : Nat)
    (rs : List ((CollectionId × NftId) × Nat)) :
    reduced ((y, d) :: rs) x = (if y = x then d else 0) + reduced rs x := by
  unfold reduced
  by_cases hy : y = x
  · simp [hy]
  · simp [hy]

theorem reduced_append (rs rs' : List ((CollectionId × NftId) × Nat)) :
    reduced (rs ++ rs') x = reduced rs x + reduced rs' x := by
  unfold reduced
  rw [List.filter_append, List.map_append, List.sum_append]

/-- A step that tends to no shell starts nothing and reduces nothing. -/
theorem starts_eq_nil (h : ∀ origin c, l = .call origin c → r = .ok () → c.tends = false) :
    starts ⟨s, l, r, s'⟩ = [] ∧ reductions ⟨s, l, r, s'⟩ = [] := by
  cases l with
  | call origin c =>
    cases r with
    | ok u =>
      have htends := h origin c rfl rfl
      cases c <;> first | exact ⟨rfl, rfl⟩ | cases htends
    | error e => cases c <;> exact ⟨rfl, rfl⟩
  | _ => exact ⟨rfl, rfl⟩

end readings

/-! ### One step -/

section steps
variable {s s' : State T} {l : Label T} {r : Outcome T} {x : CollectionId × NftId}

/-- A batch takes off what it lists, from shells that have a hatch time. -/
theorem reduces_hatch_times {rs : List ((CollectionId × NftId) × Nat)}
    (h : Chain ReducesHatchTime s rs s') :
    s'.incubation.hatch_times x =
      (s.incubation.hatch_times x).map (fun t => t - reduced rs x) ∧
    (s.incubation.hatch_times x = none → reduced rs x = 0) ∧
    s'.incubation.official_hatch_time = s.incubation.official_hatch_time := by
  induction h with
  | nil => simp
  | @cons s s₁ s₂ a rs hr _ ih =>
    obtain ⟨y, d⟩ := a
    obtain ⟨t, _, ht, rfl⟩ := hr
    obtain ⟨htime, hnone, hofficial⟩ := ih
    rw [reduced_cons]
    refine ⟨htime.trans ?_, ?_, hofficial⟩
    · by_cases hy : y = x
      · subst hy
        -- the remaining rounds start from what this one left
        rw [ht, if_pos rfl]
        simp only [Function.update_self, Option.map_some]
        rw [Nat.sub_sub]
      · rw [if_neg hy, Nat.zero_add]
        simp only [Function.update_of_ne (Ne.symm hy)]
    · -- a round for a shell without a hatch time would have failed the batch
      intro hx
      have hy : y ≠ x := by
        intro hy
        rw [hy, hx] at ht
        cases ht
      rw [if_neg hy, Nat.zero_add]
      apply hnone
      simp only [Function.update_of_ne (Ne.symm hy)]
      exact hx

variable [DecidableEq AccountId]

/-- What one step does to the hatch time of `x`: it sets it, where there was
    none, to the official one, or it takes off what it lists for `x`. -/
theorem Tended.hatch_time (h : Tended s l r s') (x : CollectionId × NftId) :
    (starts ⟨s, l, r, s'⟩ = [x] ∧ reductions ⟨s, l, r, s'⟩ = [] ∧
      s.incubation.hatch_times x = none ∧
      s'.incubation.hatch_times x = some s.incubation.official_hatch_time) ∨
    (x ∉ starts ⟨s, l, r, s'⟩ ∧
      (s.incubation.hatch_times x = none → reduced (reductions ⟨s, l, r, s'⟩) x = 0) ∧
      s'.incubation.hatch_times x =
        (s.incubation.hatch_times x).map fun t => t - reduced (reductions ⟨s, l, r, s'⟩) x) := by
  -- a step that leaves the hatch time of `x` alone
  have hidle (hstarts : x ∉ starts ⟨s, l, r, s'⟩) (hred : reductions ⟨s, l, r, s'⟩ = [])
      (hsame : s'.incubation.hatch_times x = s.incubation.hatch_times x) :
      x ∉ starts ⟨s, l, r, s'⟩ ∧
      (s.incubation.hatch_times x = none → reduced (reductions ⟨s, l, r, s'⟩) x = 0) ∧
      s'.incubation.hatch_times x =
        (s.incubation.hatch_times x).map fun t => t - reduced (reductions ⟨s, l, r, s'⟩) x := by
    rw [hred]
    exact ⟨hstarts, fun _ => rfl, by simp [hsame]⟩
  cases h with
  | aside h hnot =>
    obtain ⟨hstarts, hred⟩ : starts ⟨s, l, r, s'⟩ = [] ∧ reductions ⟨s, l, r, s'⟩ = [] :=
      starts_eq_nil hnot
    apply Or.inr
    apply hidle
    · rw [hstarts]
      exact List.not_mem_nil
    · exact hred
    · rw [h.incubation]
  | new_era => exact .inr (hidle List.not_mem_nil rfl rfl)
  | timestamp => exact .inr (hidle List.not_mem_nil rfl rfl)
  | incubate h =>
    cases h with
    | @start a c n _ h =>
      obtain rfl := h.post
      by_cases hx : x = (c, n)
      · subst hx
        exact .inl ⟨rfl, rfl, h.fresh, Function.update_self _ _ _⟩
      · apply Or.inr
        apply hidle
        · exact fun hmem => hx (List.mem_singleton.mp hmem)
        · rfl
        · exact Function.update_of_ne hx _ _
    | feed h =>
      obtain ⟨food, count, _, _, rfl⟩ := h.post
      exact .inr (hidle List.not_mem_nil rfl rfl)
    | reduce _ h =>
      obtain ⟨htime, hnone, _⟩ := reduces_hatch_times (x := x) h
      exact .inr ⟨List.not_mem_nil, hnone, htime⟩
    | enable => exact .inr (hidle List.not_mem_nil rfl rfl)
    | shell_collection => exact .inr (hidle List.not_mem_nil rfl rfl)

/-- A shell is fed up to its hatch time. -/
theorem Tended.feed_time (h : Tended s l (.ok ()) s') (hl : l.feeding = some x) :
    ∃ t, s.incubation.hatch_times x = some t ∧ s.now ≤ t := by
  cases h with
  | aside _ hnot =>
    unfold Label.feeding at hl
    split at hl
    · cases hnot _ _ rfl rfl
    · cases hl
  | new_era => cases hl
  | timestamp => cases hl
  | incubate h =>
    cases h with
    | feed h =>
      cases hl
      exact h.hatch_time
    | _ => cases hl

end steps

/-! ### The ledger -/

/-- The clock does not go back. -/
def Timely (e : Entry T) : Prop := e.pre.now ≤ e.post.now

instance (e : Entry T) : Decidable (Timely e) := inferInstanceAs (Decidable (_ ≤ _))

/-- The hatch time of the shell has passed. -/
def Hatchable (s : State T) (x : CollectionId × NftId) : Prop :=
  ∃ t, s.incubation.hatch_times x = some t ∧ t < s.now

/-- The hatch time of `x` after the trace `tr`: none, or the official one at
    the only start of `x`, less what was taken off since. -/
structure HatchLedger (tr : List (Entry T)) (s : State T) (x : CollectionId × NftId) : Prop where
  once : (history starts tr).count x ≤ 1
  unstarted : x ∉ history starts tr → s.incubation.hatch_times x = none
  started : ∀ later e earlier, tr = later ++ e :: earlier → x ∈ starts e →
    s.incubation.hatch_times x =
      some (e.pre.incubation.official_hatch_time - reduced (history reductions later) x)

section ledger
variable [DecidableEq AccountId] {s s' : State T} {l : Label T} {r : Outcome T}
  {tr : List (Entry T)} {x : CollectionId × NftId}

omit [DecidableEq AccountId] in
/-- A shell without a hatch time was never started. -/
theorem HatchLedger.not_started (h : HatchLedger tr s x)
    (hnone : s.incubation.hatch_times x = none) : x ∉ history starts tr := by
  intro hmem
  obtain ⟨e, he, hstarts⟩ := mem_history.mp hmem
  obtain ⟨later, earlier, rfl⟩ := List.append_of_mem he
  have hsome := h.started later e earlier rfl hstarts
  rw [hnone] at hsome
  cases hsome

theorem HatchLedger.step (h : HatchLedger tr s x) (hs : Tended s l r s') :
    HatchLedger (⟨s, l, r, s'⟩ :: tr) s' x := by
  rcases hs.hatch_time x with ⟨hstarts, hred, hnone, htime⟩ | ⟨hstarts, _, htime⟩
  · -- `x` starts now, and has not started before
    have hnot := h.not_started hnone
    refine ⟨?_, ?_, ?_⟩
    · rw [history_cons, hstarts, List.count_append, List.count_eq_zero.mpr hnot]
      simp
    · intro hmem
      apply absurd _ hmem
      rw [history_cons, hstarts]
      exact List.mem_append_right _ List.mem_cons_self
    · intro later e earlier htr hmem
      rcases List.cons_eq_append_iff.mp htr with ⟨rfl, htr⟩ | ⟨later', rfl, rfl⟩
      · cases htr
        exact htime
      · apply absurd _ hnot
        exact mem_history.mpr ⟨e, List.mem_append_right _ List.mem_cons_self, hmem⟩
  · -- the hatch time, if there is one, is less by what the step takes off
    refine ⟨?_, ?_, ?_⟩
    · rw [history_cons, List.count_append, List.count_eq_zero.mpr hstarts]
      exact h.once
    · intro hmem
      rw [history_cons, List.mem_append] at hmem
      rw [htime, h.unstarted fun hold => hmem (.inl hold)]
      rfl
    · intro later e earlier htr hmem
      rcases List.cons_eq_append_iff.mp htr with ⟨rfl, htr⟩ | ⟨later', rfl, rfl⟩
      · cases htr
        exact absurd hmem hstarts
      · rw [htime, h.started later' e earlier rfl hmem, history_cons, reduced_append,
          Option.map_some, Nat.sub_sub]

/-- Once a shell can be hatched, it stays so. -/
theorem Hatchable.step (h : Hatchable s x) (hs : Tended s l r s')
    (htimely : Timely (⟨s, l, r, s'⟩ : Entry T)) : Hatchable s' x := by
  obtain ⟨t, ht, hlt⟩ := h
  have hnow : s.now ≤ s'.now := htimely
  rcases hs.hatch_time x with ⟨_, _, hnone, _⟩ | ⟨_, _, htime⟩
  · rw [ht] at hnone
    cases hnone
  · -- the clock went forward, the hatch time did not
    rw [ht, Option.map_some] at htime
    exact ⟨_, htime, by omega⟩

/-- It is not fed then. -/
theorem Hatchable.not_fed (h : Hatchable s x) (hs : Tended s l r s') (hl : l.feeding = some x) :
    succeeded (⟨s, l, r, s'⟩ : Entry T) = false := by
  cases r with
  | error e => rfl
  | ok u =>
    obtain ⟨t, ht, hlt⟩ := h
    obtain ⟨t', ht', hle⟩ := hs.feed_time hl
    rw [ht, Option.some.injEq] at ht'
    omega

/-- **The hatch-time ledger.** In every state of a run in which the clock
    does not go back: an Origin of Shell was started at most once, its hatch
    time is the official one of that moment less all reductions since, it is
    hatched only after and fed only up to that time, and it was never fed
    after it could be hatched. -/
theorem hatch_time_ledger {g : GenesisConfig AccountId} {w : T.World} {now : UInt64}
    (h : Runs Timely (genesis g w now) tr s) (c : CollectionId) (n : NftId) :
    HatchLedger tr s (c, n) ∧
    (∀ origin md s', step s (.call origin (.hatch_origin_of_shell c n md)) = (.ok (), s') →
      ∃ t, s.incubation.hatch_times (c, n) = some t ∧ t < s.now) ∧
    (∀ origin s', step s (.call origin (.feed_origin_of_shell c n)) = (.ok (), s') →
      ∃ t, s.incubation.hatch_times (c, n) = some t ∧ s.now ≤ t) ∧
    ∀ later e earlier, tr = later ++ e :: earlier → Hatchable e.post (c, n) →
      ∀ d ∈ later, d.label.feeding = some (c, n) → succeeded d = false := by
  refine ⟨?_, ?_, ?_, ?_⟩
  · refine Runs.induction (J := fun tr s => HatchLedger tr s (c, n)) h ?_ ?_
    · refine ⟨Nat.zero_le _, fun _ => rfl, ?_⟩
      intro later e earlier htr _
      cases later <;> cases htr
    · intro tr s l r s' _ hledger _ hs
      exact hledger.step hs.tended
  · intro origin md s' hstep
    have hs := stepped s (.call origin (.hatch_origin_of_shell c n md))
    rw [hstep] at hs
    obtain ⟨o, owner, sc, t, hh⟩ := hs.hatched
    exact hh.hatch_time
  · intro origin s' hstep
    have hs := (stepped s (.call origin (.feed_origin_of_shell c n))).tended
    rw [hstep] at hs
    exact hs.feed_time rfl
  · -- the shell stays hatchable along the rest of the run
    have hrun : ∀ later e earlier, tr = later ++ e :: earlier → Hatchable e.post (c, n) →
        Hatchable s (c, n) ∧
        ∀ d ∈ later, d.label.feeding = some (c, n) → succeeded d = false := by
      refine Runs.induction (J := fun tr s => ∀ later e earlier, tr = later ++ e :: earlier →
        Hatchable e.post (c, n) → Hatchable s (c, n) ∧
        ∀ d ∈ later, d.label.feeding = some (c, n) → succeeded d = false) h ?_ ?_
      · intro later e earlier htr
        cases later <;> cases htr
      · intro tr s l r s' _ hJ htimely hs later e earlier htr hpost
        rcases List.cons_eq_append_iff.mp htr with ⟨rfl, htr⟩ | ⟨later', rfl, rfl⟩
        · cases htr
          exact ⟨hpost, fun d hd => absurd hd List.not_mem_nil⟩
        · obtain ⟨hpre, hfed⟩ := hJ later' e earlier rfl hpost
          refine ⟨hpre.step hs.tended htimely, ?_⟩
          intro d hd hfeeds
          rcases List.mem_cons.mp hd with rfl | hd
          · exact hpre.not_fed hs.tended hfeeds
          · exact hfed d hd hfeeds
    exact fun later e earlier htr hpost => (hrun later e earlier htr hpost).2

open Mock in
/-- `CHARLIE`'s Origin of Shell gets the official time 600, and 100 is taken
    off. -/
theorem hatch_time_ledger_charlie :
    HatchLedger (after (hatching 200)).1 (after (hatching 200)).2 (1, 0) ∧
    (after (hatching 200)).2.incubation.hatch_times (1, 0) = some 500 := by
  have hrun : Runs Timely (genesis₀ 200) (after (hatching 200)).1 (after (hatching 200)).2 :=
    Run.exec (p := Timely) .nil (by decide +kernel)
  exact ⟨(hatch_time_ledger (T := runtime 200) (g := GenesisConfig.default) (w := world₀) hrun
    1 0).1, by decide +kernel⟩

end ledger

/-! ### The official hatch time -/

/-- The official hatch time that a status call sets. -/
def official_time (s : State T) : Nat := (s.now + T.IncubationDurationSec.toNat) % 2 ^ 64

/-- Is it a call that opens or closes the incubation phase? -/
def Label.enabling : Label T → Bool
  | .call _ (.set_can_start_incubation_status _) => true
  | _ => false

/-- Shells from which the same time was taken off have the same hatch time,
    the official one less that. -/
def OneOfficial (rs : List ((CollectionId × NftId) × Nat)) (s : State T) : Prop :=
  ∀ x y t u, s.incubation.hatch_times x = some t → s.incubation.hatch_times y = some u →
    reduced rs x = reduced rs y →
    t = u ∧ t = s.incubation.official_hatch_time - reduced rs x

/-- A status call would set the official time that is set already, or every
    shell that has a hatch time has had more taken off than either. -/
def KeepsOfficial (rs : List ((CollectionId × NftId) × Nat)) (s : State T) : Prop :=
  ∀ x t, s.incubation.hatch_times x = some t →
    official_time s = s.incubation.official_hatch_time ∨
      (s.incubation.official_hatch_time ≤ reduced rs x ∧ official_time s ≤ reduced rs x)

section official
variable {s s' : State T} {l : Label T} {r : Outcome T} {tr : List (Entry T)}
  {rs : List ((CollectionId × NftId) × Nat)}

theorem oneOfficial_iff : OneOfficial rs s ↔ ∀ x t, s.incubation.hatch_times x = some t →
    t = s.incubation.official_hatch_time - reduced rs x := by
  constructor
  · intro h x t ht
    exact (h x x t t ht ht rfl).2
  · intro h x y t u ht hu heq
    refine ⟨?_, h x t ht⟩
    rw [h x t ht, h y u hu, heq]

variable [DecidableEq AccountId]

/-- The official hatch time is set by status calls only, which leave the
    hatch times of the shells as they are. -/
theorem Tended.official (h : Tended s l r s') :
    (s'.incubation.official_hatch_time = s.incubation.official_hatch_time ∧
      (l.enabling = true → r ≠ .ok ())) ∨
    (l.enabling = true ∧ r = .ok () ∧ reductions ⟨s, l, r, s'⟩ = [] ∧
      s'.incubation.official_hatch_time = official_time s ∧
      s'.incubation.hatch_times = s.incubation.hatch_times) := by
  cases h with
  | aside h hnot =>
    refine .inl ⟨by rw [h.incubation], ?_⟩
    intro hl hok
    unfold Label.enabling at hl
    split at hl
    · cases hnot _ _ rfl hok
    · cases hl
  | new_era => exact .inl ⟨rfl, fun hl => by cases hl⟩
  | timestamp => exact .inl ⟨rfl, fun hl => by cases hl⟩
  | incubate h =>
    cases h with
    | start h =>
      obtain rfl := h.post
      exact .inl ⟨rfl, fun hl => by cases hl⟩
    | feed h =>
      obtain ⟨food, count, _, _, rfl⟩ := h.post
      exact .inl ⟨rfl, fun hl => by cases hl⟩
    | reduce _ h =>
      exact .inl ⟨(reduces_hatch_times (x := (0, 0)) h).2.2, fun hl => by cases hl⟩
    | enable _ ht => exact .inr ⟨rfl, rfl, rfl, plain_add_ok ht, rfl⟩
    | shell_collection => exact .inl ⟨rfl, fun hl => by cases hl⟩

/-- What was never started was never reduced. -/
theorem reduced_of_none {ok : Entry T → Prop} {g : GenesisConfig AccountId} {w : T.World}
    {now : UInt64} (h : Runs ok (genesis g w now) tr s) :
    ∀ x, s.incubation.hatch_times x = none → reduced (history reductions tr) x = 0 := by
  refine Runs.induction (J := fun tr s => ∀ x, s.incubation.hatch_times x = none →
    reduced (history reductions tr) x = 0) h (fun _ _ => rfl) ?_
  intro tr s l r s' _ hJ _ hs x hnone
  rw [history_cons, reduced_append]
  rcases hs.tended.hatch_time x with ⟨_, _, _, htime⟩ | ⟨_, hred, htime⟩
  · rw [hnone] at htime
    cases htime
  · -- no hatch time is ever removed, so there was none before either
    rw [hnone] at htime
    have hpre : s.incubation.hatch_times x = none := Option.map_eq_none_iff.mp htime.symm
    rw [hJ x hpre, hred hpre]

/-- A step other than a status call keeps to the official time. -/
theorem OneOfficial.step (h : OneOfficial rs s)
    (hred : ∀ x, s.incubation.hatch_times x = none → reduced rs x = 0)
    (hs : Tended s l r s')
    (hsame : s'.incubation.official_hatch_time = s.incubation.official_hatch_time) :
    OneOfficial (rs ++ reductions ⟨s, l, r, s'⟩) s' := by
  rw [oneOfficial_iff] at h ⊢
  intro x t ht
  rw [hsame, reduced_append]
  rcases hs.hatch_time x with ⟨_, hnil, hnone, htime⟩ | ⟨_, _, htime⟩
  · -- `x` starts now: it gets the official time, and had nothing taken off
    rw [htime, Option.some.injEq] at ht
    rw [hnil, hred x hnone, ← ht]
    rfl
  · rw [htime, Option.map_eq_some_iff] at ht
    obtain ⟨t', ht', rfl⟩ := ht
    rw [h x t' ht', Nat.sub_sub]

omit [DecidableEq AccountId] in
/-- A status call keeps to it exactly under its condition. -/
theorem OneOfficial.status_iff (h : OneOfficial rs s)
    (hofficial : s'.incubation.official_hatch_time = official_time s)
    (hsame : s'.incubation.hatch_times = s.incubation.hatch_times) :
    OneOfficial rs s' ↔ KeepsOfficial rs s := by
  rw [oneOfficial_iff] at h ⊢
  unfold KeepsOfficial
  rw [hsame, hofficial]
  constructor
  · -- a truncated difference keeps its value only as `KeepsOfficial` says
    intro h' x t ht
    have hold := h x t ht
    have hnew := h' x t ht
    omega
  · intro h' x t ht
    have hold := h x t ht
    have hkeeps := h' x t ht
    omega

/-- **One official hatch time.** Along a run all shells go by the official
    hatch time if and only if every successful status call comes when it sets
    the time that is set already, or no shell is left to which the difference
    would matter. -/
theorem one_official_iff {ok : Entry T → Prop} {g : GenesisConfig AccountId} {w : T.World}
    {now : UInt64} (h : Runs ok (genesis g w now) tr s) :
    Throughout (fun e earlier => OneOfficial (history reductions (e :: earlier)) e.post) tr ↔
      Throughout (fun e earlier => e.label.enabling = true → succeeded e = true →
        KeepsOfficial (history reductions earlier) e.pre) tr := by
  refine (Runs.induction (J := fun tr s =>
    (Throughout (fun e earlier => OneOfficial (history reductions (e :: earlier)) e.post) tr ↔
      Throughout (fun e earlier => e.label.enabling = true → succeeded e = true →
        KeepsOfficial (history reductions earlier) e.pre) tr) ∧
    (Throughout (fun e earlier => OneOfficial (history reductions (e :: earlier)) e.post) tr →
      OneOfficial (history reductions tr) s)) h ?_ ?_).1
  · refine ⟨by simp, ?_⟩
    intro _ _ _ _ _ ht
    cases ht
  · intro tr s l r s' hrun ⟨hiff, hone⟩ _ hs
    refine ⟨?_, fun hall => (throughout_cons.mp hall).1⟩
    rw [throughout_cons, throughout_cons, ← hiff]
    refine and_congr_left ?_
    intro hpast
    have hpre := hone hpast
    have hstep := hpre.step (reduced_of_none hrun) hs.tended
    rcases hs.tended.official with ⟨hsame, hnot⟩ | ⟨hl, rfl, hnil, hofficial, hsame⟩
    · -- no status call: both sides hold
      refine iff_of_true (hstep hsame) ?_
      intro hl hsucc
      cases r with
      | ok u => exact absurd rfl (hnot hl)
      | error e => cases hsucc
    · rw [history_cons, hnil, List.append_nil, hpre.status_iff hofficial hsame]
      exact ⟨fun hkeeps _ _ => hkeeps, fun hkeeps => hkeeps hl rfl⟩

open Mock in
/-- The phase is opened again at 100, when `CHARLIE`'s shell has started and
    `ALICE`'s has not. -/
def reopened : List (Label (runtime 200)) :=
  sale 200 ++
  [admin (.set_can_start_incubation_status true),
    .call (.signed CHARLIE) (.start_incubation 1 0),
    .set_timestamp 100,
    admin (.set_can_start_incubation_status true),
    .call (.signed ALICE) (.start_incubation 1 1)]

open Mock in
/-- Nothing was taken off either, but one hatches at 600 and one at 700. -/
theorem reopened_times : ¬ OneOfficial (history reductions (after reopened).1)
    (after reopened).2 := by
  have htimes : (after reopened).2.incubation.hatch_times (1, 0) = some 600 ∧
      (after reopened).2.incubation.hatch_times (1, 1) = some 700 ∧
      reduced (history reductions (after reopened).1) (1, 0) = 0 ∧
      reduced (history reductions (after reopened).1) (1, 1) = 0 := by decide +kernel
  obtain ⟨hfirst, hsecond, hred, hred'⟩ := htimes
  intro hone
  cases (hone _ _ _ _ hfirst hsecond (hred.trans hred'.symm)).1

open Mock in
theorem two_official_times : ∃ tr s, Runs (fun _ => True) (genesis₀ 200) tr s ∧
    ¬ OneOfficial (history reductions tr) s :=
  ⟨(after reopened).1, (after reopened).2, Run.exec (p := fun _ => True) .nil (by simp),
    reopened_times⟩

open Mock in
/-- So the second status call does not meet the condition. -/
theorem one_official_reopened :
    ¬ Throughout (fun e earlier => e.label.enabling = true → succeeded e = true →
      KeepsOfficial (history reductions earlier) e.pre) (after reopened).1 := by
  have hrun : Runs (fun _ => True) (genesis₀ 200) (after reopened).1 (after reopened).2 :=
    Run.exec (p := fun _ => True) .nil (by simp)
  intro hkeeps
  have hone := (one_official_iff (T := runtime 200) (g := GenesisConfig.default) (w := world₀)
    hrun).mpr hkeeps
  exact reopened_times (hone [] _ _ rfl)

end official

end PhalaWorld
