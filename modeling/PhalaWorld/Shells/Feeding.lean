import Mathlib.Algebra.BigOperators.Finprod
import PhalaWorld.Reference.Mock
import PhalaWorld.Specs.Tended

/-! # Feeding

    An account feeds a limited number of Origin of Shells in an era, and
    each of them a limited number of times. What it fed is kept in a record
    that is begun anew with the first feed of a later era; how often a shell
    was fed is kept in another store, for each era.

    * `feeds`: the feeds of an entry.
    * `Fed`: the invariant, that both stores are as the feeds say.
    * `feeding_limits`: nobody feeds more than the limits allow, and nobody
      is refused below them.
    * `food_statistics`: the statistics are exact.
-/

namespace PhalaWorld

open LTS Transaction

variable {AccountId : Type} {T : Config AccountId}

/-! ### What a trace records of feeds -/

/-- A successful feed, with the era it was made in. -/
structure Feed (AccountId : Type) where
  sender : AccountId
  nft : CollectionId × NftId
  era : EraId

/-- What an entry fed. -/
def feeds (e : Entry T) : List (Feed AccountId) :=
  match e.label, e.result with
  | .call (.signed sender) (.feed_origin_of_shell collection_id nft_id), .ok () =>
      [⟨sender, (collection_id, nft_id), e.pre.sale.era⟩]
  | _, _ => []

/-- What `a` fed in an era, in order. -/
def meals [DecidableEq AccountId] (fs : List (Feed AccountId)) (a : AccountId) (era : EraId) :
    List (CollectionId × NftId) :=
  (fs.filter fun f => f.sender = a ∧ f.era = era).map Feed.nft

/-- How often `x` was fed in an era. -/
def portions (fs : List (Feed AccountId)) (era : EraId) (x : CollectionId × NftId) : Nat :=
  fs.countP fun f => f.era = era ∧ f.nft = x

section readings
variable {s s' : State T} {l : Label T} {r : Outcome T} {fs : List (Feed AccountId)}

/-- A step that tends to no shell feeds none. -/
theorem feeds_eq_nil (h : ∀ origin c, l = .call origin c → r = .ok () → c.tends = false) :
    feeds ⟨s, l, r, s'⟩ = [] := by
  cases l with
  | call origin c =>
    cases r with
    | ok u =>
      have htends := h origin c rfl rfl
      cases c <;> first | (cases origin <;> rfl) | cases htends
    | error e => cases origin <;> cases c <;> rfl
  | _ => rfl

variable [DecidableEq AccountId]

theorem meals_append_self (a : AccountId) (x : CollectionId × NftId) (era : EraId) :
    meals (fs ++ [⟨a, x, era⟩]) a era = meals fs a era ++ [x] := by
  unfold meals
  rw [List.filter_append, List.map_append]
  simp

theorem meals_append_of_ne {a b : AccountId} {x : CollectionId × NftId} {era era' : EraId}
    (h : ¬ (a = b ∧ era = era')) : meals (fs ++ [⟨a, x, era⟩]) b era' = meals fs b era' := by
  unfold meals
  rw [List.filter_append]
  simp [h]

/-- Nothing was fed in an era that has not come yet. -/
theorem meals_eq_nil {era : EraId} (h : ∀ f ∈ fs, f.era < era) (a : AccountId) :
    meals fs a era = [] := by
  unfold meals
  rw [List.map_eq_nil_iff, List.filter_eq_nil_iff]
  intro f hf hfed
  have hera := (of_decide_eq_true hfed).2
  have hlt := h f hf
  rw [hera] at hlt
  exact Nat.lt_irrefl _ hlt

omit [DecidableEq AccountId] in
theorem portions_eq_zero {era : EraId} (h : ∀ f ∈ fs, f.era < era) (x : CollectionId × NftId) :
    portions fs era x = 0 := by
  unfold portions
  rw [List.countP_eq_zero]
  intro f hf hfed
  have hera := (of_decide_eq_true hfed).1
  have hlt := h f hf
  rw [hera] at hlt
  exact Nat.lt_irrefl _ hlt

omit [DecidableEq AccountId] in
theorem portions_append (f : Feed AccountId) (era : EraId) (x : CollectionId × NftId) :
    portions (fs ++ [f]) era x =
      portions fs era x + if f.era = era ∧ f.nft = x then 1 else 0 := by
  unfold portions
  rw [List.countP_append, List.countP_singleton]
  simp

end readings

/-! ### The invariant -/

variable [DecidableEq AccountId]

/-- Both stores are as the feeds `fs` say, and the feeds keep to the limits. -/
structure Fed (fs : List (Feed AccountId)) (s : State T) : Prop where
  past : ∀ f ∈ fs, f.era ≤ s.sale.era
  record_era : ∀ a food, s.incubation.food_by_owners a = some food → food.era ≤ s.sale.era
  record : ∀ a, fed s.sale.era (s.incubation.food_by_owners a) = meals fs a s.sale.era
  stats : ∀ era x, s.incubation.origin_of_shell_food_stats (era, x) = portions fs era x % 2 ^ 32
  limit : ∀ a era, (meals fs a era).length ≤ T.FoodPerEra.toNat
  limit_self : 1 ≤ T.MaxFoodFeedSelf.toNat →
    ∀ a era x, (meals fs a era).count x ≤ T.MaxFoodFeedSelf.toNat

omit [DecidableEq AccountId] in
/-- The record is of the current era then, whether it was continued or begun. -/
theorem UpdatesFood.era_eq {era : EraId} {x : CollectionId × NftId} {food : Option (Food T)}
    {food' : Food T} (h : UpdatesFood era x food food')
    (hold : ∀ old, food = some old → old.era ≤ era) : food'.era = era := by
  have hera := h.new_era
  cases food with
  | none => exact hera
  | some old =>
    by_cases hle : era ≤ old.era
    · simp only [hle, if_true] at hera
      rw [hera]
      exact Nat.le_antisymm (hold old rfl) hle
    · simp only [hle, if_false] at hera
      exact hera

section steps
variable {s s' : State T} {l : Label T} {r : Outcome T} {fs : List (Feed AccountId)}

/-- The stores are left alone, in the same era or in a later one. -/
theorem Fed.keep (h : Fed fs s) (hera : s.sale.era ≤ s'.sale.era)
    (hfood : s'.incubation.food_by_owners = s.incubation.food_by_owners)
    (hstats : s'.incubation.origin_of_shell_food_stats =
      s.incubation.origin_of_shell_food_stats) : Fed fs s' := by
  refine ⟨fun f hf => (h.past f hf).trans hera, ?_, ?_, ?_, h.limit, h.limit_self⟩
  · intro a food ha
    rw [hfood] at ha
    exact (h.record_era a food ha).trans hera
  · intro a
    rw [hfood]
    rcases Nat.eq_or_lt_of_le hera with heq | hlt
    · rw [← heq]
      exact h.record a
    · -- in a new era no record counts any more
      rw [meals_eq_nil (fun f hf => Nat.lt_of_le_of_lt (h.past f hf) hlt)]
      cases ha : s.incubation.food_by_owners a with
      | none => rfl
      | some food =>
        have hold := Nat.lt_of_le_of_lt (h.record_era a food ha) hlt
        exact if_neg (Nat.not_le.mpr hold)
  · rw [hstats]
    exact h.stats

/-- A feed goes into the sender's record and into the statistics. -/
theorem Fed.feed {a : AccountId} {c : CollectionId} {n : NftId} (h : Fed fs s)
    (hf : Feeds a c n s s') : Fed (fs ++ [⟨a, (c, n), s.sale.era⟩]) s' := by
  obtain ⟨food, count, hfood, hcount, rfl⟩ := hf.post
  have hnew := hfood.new_fed
  rw [h.record a] at hnew
  have hera := hfood.era_eq (h.record_era a)
  refine ⟨?_, ?_, ?_, ?_, ?_, ?_⟩
  · intro f hmem
    rcases List.mem_append.mp hmem with hold | hlast
    · exact h.past f hold
    · rw [List.mem_singleton.mp hlast]
  · -- the record of `a` is of the current era, the others are as they were
    intro b food' hb
    by_cases hba : b = a
    · rw [hba] at hb
      simp only [Function.update_self, Option.some.injEq] at hb
      rw [← hb]
      exact Nat.le_of_eq hera
    · simp only [Function.update_of_ne hba] at hb
      exact h.record_era b food' hb
  · -- and it has grown by the feed
    intro b
    by_cases hba : b = a
    · rw [hba, meals_append_self]
      simp only [Function.update_self]
      rw [← hnew]
      exact if_pos (Nat.le_of_eq hera.symm)
    · rw [meals_append_of_ne fun heq => hba heq.1.symm]
      simp only [Function.update_of_ne hba]
      exact h.record b
  · -- the statistics may wrap, and so does the number of feeds modulo `2 ^ 32`
    intro era x
    have hstat := h.stats s.sale.era (c, n)
    have hsum := plain_add_ok hcount
    rw [portions_append]
    by_cases hx : (era, x) = (s.sale.era, (c, n))
    · cases hx
      simp only [Function.update_self, and_self, if_true]
      rw [hsum, hstat, Nat.mod_add_mod]
    · have hne : ¬ (s.sale.era = era ∧ (c, n) = x) := by
        rintro ⟨rfl, rfl⟩
        exact hx rfl
      rw [if_neg hne, Nat.add_zero]
      simp only [Function.update_of_ne hx]
      exact h.stats era x
  · intro b era
    by_cases hb : a = b ∧ s.sale.era = era
    · obtain ⟨rfl, rfl⟩ := hb
      -- the record is a bounded vector
      rw [meals_append_self, ← hnew]
      exact food.origin_of_shells_fed.bound
    · rw [meals_append_of_ne hb]
      exact h.limit b era
  · intro hself b era x
    by_cases hb : a = b ∧ s.sale.era = era
    · obtain ⟨rfl, rfl⟩ := hb
      rw [meals_append_self, List.count_append, List.count_singleton]
      have hold := h.limit_self hself a s.sale.era x
      by_cases hx : (c, n) = x
      · -- the feed was let through, so the record had room for one more
        subst hx
        have hroom := hfood.room hself
        rw [h.record a] at hroom
        simp only [beq_self_eq_true, if_true]
        omega
      · simp only [beq_iff_eq, hx, if_false]
        exact hold
    · rw [meals_append_of_ne hb]
      exact h.limit_self hself b era x

/-- What a step does to the two stores: nothing, or it is a feed. -/
theorem Tended.food (h : Tended s l r s') :
    (feeds ⟨s, l, r, s'⟩ = [] ∧
      s'.incubation.food_by_owners = s.incubation.food_by_owners ∧
      s'.incubation.origin_of_shell_food_stats = s.incubation.origin_of_shell_food_stats) ∨
    ∃ a c n, Feeds a c n s s' ∧ feeds ⟨s, l, r, s'⟩ = [⟨a, (c, n), s.sale.era⟩] := by
  cases h with
  | aside haside hnot =>
    rw [haside.incubation]
    exact .inl ⟨feeds_eq_nil hnot, rfl, rfl⟩
  | new_era => exact .inl ⟨rfl, rfl, rfl⟩
  | timestamp => exact .inl ⟨rfl, rfl, rfl⟩
  | incubate hi =>
    cases hi with
    | feed hf => exact .inr ⟨_, _, _, hf, rfl⟩
    | start hst =>
      obtain rfl := hst.post
      exact .inl ⟨rfl, rfl, rfl⟩
    | reduce _ hl =>
      apply Or.inl
      refine ⟨rfl, hl.covered (Q := fun s s' : State T =>
        s'.incubation.food_by_owners = s.incubation.food_by_owners ∧
        s'.incubation.origin_of_shell_food_stats = s.incubation.origin_of_shell_food_stats)
        ?_ ?_ ?_⟩
      · intro s
        exact ⟨rfl, rfl⟩
      · intro s₁ s₂ s₃ h h'
        exact ⟨h'.1.trans h.1, h'.2.trans h.2⟩
      · intro s x s' h
        obtain ⟨t, _, _, rfl⟩ := h
        exact ⟨rfl, rfl⟩
    | enable => exact .inl ⟨rfl, rfl, rfl⟩
    | shell_collection => exact .inl ⟨rfl, rfl, rfl⟩

theorem Fed.step (h : Fed fs s) (hclock : Clocked s) (hs : Tended s l r s') :
    Fed (fs ++ feeds ⟨s, l, r, s'⟩) s' := by
  rcases hs.food with ⟨hnil, hfood, hstats⟩ | ⟨a, c, n, hf, hfeeds⟩
  · rw [hnil, List.append_nil]
    exact h.keep (hs.era_le hclock) hfood hstats
  · rw [hfeeds]
    exact h.feed hf

/-- Statistics change in the current era only. -/
theorem Tended.stats_of_ne (h : Tended s l r s') {era : EraId} (hera : era ≠ s.sale.era)
    (x : CollectionId × NftId) :
    s'.incubation.origin_of_shell_food_stats (era, x) =
      s.incubation.origin_of_shell_food_stats (era, x) := by
  rcases h.food with ⟨_, _, hstats⟩ | ⟨a, c, n, hf, _⟩
  · rw [hstats]
  · obtain ⟨food, count, _, _, rfl⟩ := hf.post
    apply Function.update_of_ne
    intro heq
    exact hera (Prod.mk.inj heq).1

end steps

/-! ### Refusals -/

/-- Where the other conditions hold, a feed fails over the sender's record,
    or by a panic over statistics that are at their maximum. -/
theorem Incubation.feed_failure {s s' : State T} {a : AccountId} {c : CollectionId} {n : NftId}
    {e : Failure T.ModuleError} (henabled : s.incubation.can_start_incubation = true)
    (hc : s.sale.origin_of_shell_collection_id = some c)
    (htime : ∃ t, s.incubation.hatch_times (c, n) = some t ∧ s.now ≤ t)
    (hholds : T.holds s.world c a = true)
    (h : feed_origin_of_shell (.signed a) c n s = (.error e, s')) :
    (T.MaxFoodFeedSelf.toNat ≤
        (fed s.sale.era (s.incubation.food_by_owners a)).count (c, n) ∨
      (fed s.sale.era (s.incubation.food_by_owners a)).length = T.FoodPerEra.toNat) ∨
    plain_add T 32 (s.incubation.origin_of_shell_food_stats (s.sale.era, (c, n))) 1 =
      .error e := by
  obtain ⟨t, ht, hnow⟩ := htime
  have hpos : (T.owned_in_collection c a s.world).length > 0 := of_decide_eq_true hholds
  simp [feed_origin_of_shell, update_food_info_error, update_food_info_ok, henabled, hc, ht, hnow,
    hpos] at h
  obtain ⟨⟨s₁, hlate | hnone | ⟨⟨_, hmany, _⟩ | ⟨_, hfull, _⟩, _⟩ | ⟨_, _, hpanic, _⟩⟩, _⟩ := h
  · omega
  · rw [hnone.1] at hpos
    cases hpos
  · exact .inl (.inl hmany)
  · exact .inl (.inr hfull)
  · exact .inr hpanic

/-! ### Runs -/

section runs
variable {ok : Entry T → Prop} {g : GenesisConfig AccountId} {w : T.World} {now : UInt64}
  {tr : List (Entry T)} {s : State T}

theorem Runs.fed (h : Runs ok (genesis g w now) tr s) : Fed (history feeds tr) s := by
  refine Runs.induction (J := fun tr s => Fed (history feeds tr) s) h ?_ ?_
  · refine ⟨?_, ?_, ?_, ?_, ?_, ?_⟩
    · exact fun _ h => absurd h List.not_mem_nil
    · intro a food ha
      cases ha
    · exact fun _ => rfl
    · exact fun _ _ => rfl
    · exact fun _ _ => Nat.zero_le _
    · exact fun _ _ _ _ => Nat.zero_le _
  · intro tr s l r s' hrun hfed _ hs
    exact hfed.step hrun.clocked hs.tended

/-- **Feeding limits.** In every era every account feeds at most
    `FoodPerEra` times, and at most `MaxFoodFeedSelf` times the same Origin
    of Shell. Where the other conditions hold, a feed is refused only if one
    of these is reached; where additions are checked, it panics only if the
    statistics of the shell are full. -/
theorem feeding_limits (hself : 1 ≤ T.MaxFoodFeedSelf.toNat)
    (h : Runs ok (genesis g w now) tr s) :
    (∀ a era, (meals (history feeds tr) a era).length ≤ T.FoodPerEra.toNat) ∧
    (∀ a era x, (meals (history feeds tr) a era).count x ≤ T.MaxFoodFeedSelf.toNat) ∧
    ∀ a c n, s.incubation.can_start_incubation = true →
      s.sale.origin_of_shell_collection_id = some c →
      (∃ t, s.incubation.hatch_times (c, n) = some t ∧ s.now ≤ t) →
      T.holds s.world c a = true →
      (∀ err s', step s (.call (.signed a) (.feed_origin_of_shell c n)) = (.error (.err err), s') →
        T.FoodPerEra.toNat ≤ (meals (history feeds tr) a s.sale.era).length ∨
        T.MaxFoodFeedSelf.toNat ≤ (meals (history feeds tr) a s.sale.era).count (c, n)) ∧
      ∀ message s',
        step s (.call (.signed a) (.feed_origin_of_shell c n)) = (.error (.panic message), s') →
        (T.FoodPerEra.toNat ≤ (meals (history feeds tr) a s.sale.era).length ∨
          T.MaxFoodFeedSelf.toNat ≤ (meals (history feeds tr) a s.sale.era).count (c, n)) ∨
        T.overflow_checks = true ∧
          2 ^ 32 ≤ s.incubation.origin_of_shell_food_stats (s.sale.era, (c, n)) + 1 := by
  have hfed := h.fed
  refine ⟨hfed.limit, hfed.limit_self hself, ?_⟩
  intro a c n henabled hc htime hholds
  -- a failure over the sender's record is one over what the sender fed
  have hfail {e : Failure T.ModuleError} {s' : State T}
      (hstep : step s (.call (.signed a) (.feed_origin_of_shell c n)) = (.error e, s')) :
      (T.FoodPerEra.toNat ≤ (meals (history feeds tr) a s.sale.era).length ∨
        T.MaxFoodFeedSelf.toNat ≤ (meals (history feeds tr) a s.sale.era).count (c, n)) ∨
      plain_add T 32 (s.incubation.origin_of_shell_food_stats (s.sale.era, (c, n))) 1 =
        .error e := by
    have hcases := Incubation.feed_failure henabled hc htime hholds hstep
    rw [hfed.record a] at hcases
    rcases hcases with (hmany | hfull) | hpanic
    · exact .inl (.inr hmany)
    · exact .inl (.inl (Nat.le_of_eq hfull.symm))
    · exact .inr hpanic
  constructor
  · intro err s' hstep
    exact (hfail hstep).resolve_right plain_add_ne_err
  · intro message s' hstep
    exact (hfail hstep).imp_right plain_add_panic

open Mock in
/-- `ALICE` tries to feed `CHARLIE`'s Origin of Shell three times. -/
def feast : List (Label (runtime 200)) :=
  sale 200 ++
  [admin (.set_can_start_incubation_status true),
    .call (.signed CHARLIE) (.start_incubation 1 0),
    .call (.signed ALICE) (.feed_origin_of_shell 1 0),
    .call (.signed ALICE) (.feed_origin_of_shell 1 0),
    .call (.signed ALICE) (.feed_origin_of_shell 1 0)]

open Mock in
/-- She feeds it twice, as often as she may. -/
theorem feeding_limits_alice :
    (meals (history feeds (after feast).1) ALICE 0).count (1, 0) = 2 ∧
    (meals (history feeds (after feast).1) ALICE 0).count (1, 0) ≤
      (runtime 200).MaxFoodFeedSelf.toNat := by
  have hrun : Runs (fun _ => True) (genesis₀ 200) (after feast).1 (after feast).2 :=
    Run.exec (p := fun _ => True) .nil (by simp)
  have hself := (feeding_limits (T := runtime 200) (g := GenesisConfig.default) (w := world₀)
    (by decide) hrun).2.1
  exact ⟨by decide +kernel, hself ALICE 0 (1, 0)⟩

/-! ### Statistics -/

omit [DecidableEq AccountId] in
/-- How often `a` fed `x` in the current era, by the record of `a`. -/
def occurrences (s : State T) (x : CollectionId × NftId) (a : AccountId) : Nat :=
  match s.incubation.food_by_owners a with
  | some food => if food.era = s.sale.era then food.origin_of_shells_fed.1.count x else 0
  | none => 0

/-- The occurrences of the members of a list sum up to its length. -/
theorem finsum_count (l : List AccountId) :
    (Function.support fun a => l.count a).Finite ∧ ∑ᶠ a, l.count a = l.length := by
  have hsupport : (Function.support fun a => l.count a) ⊆ l.toFinset := by
    intro a ha
    rw [Finset.mem_coe, List.mem_toFinset, ← List.count_pos_iff]
    exact Nat.pos_of_ne_zero ha
  refine ⟨l.toFinset.finite_toSet.subset hsupport, ?_⟩
  rw [finsum_eq_sum_of_support_subset _ hsupport]
  exact List.sum_toFinset_count_eq_length l

/-- By its record, `a` fed `x` as often as it did. -/
theorem Fed.occurrences {fs : List (Feed AccountId)} (h : Fed fs s) (x : CollectionId × NftId)
    (a : AccountId) :
    occurrences s x a =
      ((fs.filter fun f => f.era = s.sale.era ∧ f.nft = x).map Feed.sender).count a := by
  -- a record of an earlier era counts for nothing on both sides
  have hrecord : PhalaWorld.occurrences s x a = (meals fs a s.sale.era).count x := by
    rw [← h.record a]
    unfold PhalaWorld.occurrences PhalaWorld.fed
    cases ha : s.incubation.food_by_owners a with
    | none => rfl
    | some food =>
      have hle := h.record_era a food ha
      by_cases hera : food.era = s.sale.era
      · simp only [hera, if_true, Nat.le_refl]
      · have hnot : ¬ s.sale.era ≤ food.era := fun hge => hera (Nat.le_antisymm hle hge)
        simp only [hera, hnot, if_false]
        rfl
  rw [hrecord, meals, List.count, List.count, List.countP_map, List.countP_map, List.countP_filter,
    List.countP_filter]
  apply List.countP_congr
  intro f _
  simp only [Function.comp_apply, Bool.and_eq_true, beq_iff_eq, decide_eq_true_eq]
  tauto

/-- **Food statistics.** Where no shell is fed 2^32 times in an era: the
    statistics count the feeds of every era, are 0 for eras to come and do
    not change any more for eras that have passed. In the current era they
    are the sum of what the records of all accounts say. -/
theorem food_statistics (h : Runs ok (genesis g w now) tr s)
    (hbound : ∀ era x, portions (history feeds tr) era x < 2 ^ 32) :
    (∀ era x, s.incubation.origin_of_shell_food_stats (era, x) =
      portions (history feeds tr) era x) ∧
    (∀ era x, s.sale.era < era → s.incubation.origin_of_shell_food_stats (era, x) = 0) ∧
    (∀ tr' s', Runs ok s tr' s' → ∀ era x, era < s.sale.era →
      s'.incubation.origin_of_shell_food_stats (era, x) =
        s.incubation.origin_of_shell_food_stats (era, x)) ∧
    ∀ x, (Function.support (occurrences s x)).Finite ∧
      s.incubation.origin_of_shell_food_stats (s.sale.era, x) = ∑ᶠ a, occurrences s x a := by
  have hfed := h.fed
  have hstats (era : EraId) (x : CollectionId × NftId) :
      s.incubation.origin_of_shell_food_stats (era, x) = portions (history feeds tr) era x := by
    rw [hfed.stats, Nat.mod_eq_of_lt (hbound era x)]
  refine ⟨hstats, ?_, ?_, ?_⟩
  · intro era x hera
    rw [hstats]
    exact portions_eq_zero (fun f hf => Nat.lt_of_le_of_lt (hfed.past f hf) hera) x
  · intro tr' s' hrun' era x hera
    -- along the rest of the run the era is never again `era`
    have hrest : s.sale.era ≤ s'.sale.era ∧ Clocked s' ∧
        s'.incubation.origin_of_shell_food_stats (era, x) =
          s.incubation.origin_of_shell_food_stats (era, x) := by
      refine Runs.invariant (I := fun s₁ => s.sale.era ≤ s₁.sale.era ∧ Clocked s₁ ∧
        s₁.incubation.origin_of_shell_food_stats (era, x) =
          s.incubation.origin_of_shell_food_stats (era, x)) hrun' ?_ ?_
      · exact ⟨Nat.le_refl _, h.clocked, rfl⟩
      · intro s₁ l r s₂ ⟨hle, hclock, hsame⟩ _ hs
        refine ⟨hle.trans (hs.tended.era_le hclock), hs.tended.clocked hclock, ?_⟩
        rw [hs.tended.stats_of_ne (Nat.ne_of_lt (Nat.lt_of_lt_of_le hera hle)), hsame]
    exact hrest.2.2
  · intro x
    -- both sides count the feeds of `x` in this era, one of them by sender
    have hsum := finsum_count (((history feeds tr).filter fun f =>
      f.era = s.sale.era ∧ f.nft = x).map Feed.sender)
    have hocc : occurrences s x = fun a => (((history feeds tr).filter fun f =>
        f.era = s.sale.era ∧ f.nft = x).map Feed.sender).count a :=
      funext fun a => hfed.occurrences x a
    rw [hocc]
    refine ⟨hsum.1, ?_⟩
    rw [hsum.2, hstats, portions, List.countP_eq_length_filter, List.length_map]

open Mock in
/-- `CHARLIE`'s Origin of Shell was fed twice, by `ALICE`. -/
theorem food_statistics_charlie :
    (after feast).2.incubation.origin_of_shell_food_stats (0, (1, 0)) = 2 ∧
    (after feast).2.incubation.origin_of_shell_food_stats ((after feast).2.sale.era, (1, 0)) =
      ∑ᶠ a, occurrences (after feast).2 (1, 0) a := by
  have hrun : Runs (fun _ => True) (genesis₀ 200) (after feast).1 (after feast).2 :=
    Run.exec (p := fun _ => True) .nil (by simp)
  -- there were two feeds in all
  have hfew : (history feeds (after feast).1).length = 2 := by decide +kernel
  have hbound (era : EraId) (x : CollectionId × NftId) :
      portions (history feeds (after feast).1) era x < 2 ^ 32 := by
    have hle : portions (history feeds (after feast).1) era x ≤ 2 := by
      rw [← hfew]
      exact List.countP_le_length
    omega
  exact ⟨by decide +kernel, ((food_statistics (T := runtime 200) (g := GenesisConfig.default)
    (w := world₀) hrun hbound).2.2.2 (1, 0)).2⟩

end runs

end PhalaWorld
