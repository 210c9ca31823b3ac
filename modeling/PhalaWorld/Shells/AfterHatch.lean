import PhalaWorld.Sale.OneShell
import PhalaWorld.Specs.Items
import PhalaWorld.Shells.HatchTimes

/-! # The hatch time that a hatch leaves

    A shell with a hatch time is meant to be an Origin of Shell that is
    there. Every call but one keeps to that. `hatch_origin_of_shell` burns
    the item and leaves its hatch time, which can still be updated then
    (`updated_after_hatch`).

    * `Incubating`: every shell with a hatch time is there.
    * `Tended.entry_iff`: a hatch time is added by a start, and never removed.
    * `incubating_iff`: the invariant holds after a run exactly if nothing
      was hatched in it.
-/

namespace PhalaWorld

open LTS Tokens

variable {AccountId : Type} [DecidableEq AccountId] {T : Config AccountId}

omit [DecidableEq AccountId] in
/-- Every shell with a hatch time is an item of the Origin of Shell collection. -/
def Incubating (s : State T) : Prop :=
  ∀ c n t, s.incubation.hatch_times (c, n) = some t →
    s.sale.origin_of_shell_collection_id = some c ∧ ((T.nfts s.world).item (c, n)).isSome

omit [DecidableEq AccountId] in
/-- A hatch that went through. -/
def hatched (e : Entry T) : Bool :=
  e.label.isHatch && succeeded e

/-- A shell that is gone for good, and its hatch time that is not. -/
structure LeftBehind (c : CollectionId) (n : NftId) (s : State T) : Prop where
  gone : (T.nfts s.world).item (c, n) = none
  handed_out : n < (T.nfts s.world).next c
  entry : (s.incubation.hatch_times (c, n)).isSome

section steps
variable {c : CollectionId} {n : NftId} {s s' : State T} {l : Label T} {r : Outcome T}

/-- What has a hatch time after a step had one, or starts with it. -/
theorem Tended.entry_iff (h : Tended s l r s') (c : CollectionId) (n : NftId) :
    (s'.incubation.hatch_times (c, n)).isSome = true ↔
      (s.incubation.hatch_times (c, n)).isSome = true ∨ ∃ a, StartsIncubation a c n s s' := by
  rcases h.hatch_time (c, n) with ⟨hstarts, _, hnone, htime⟩ | ⟨hstarts, _, htime⟩
  · rw [htime]
    refine iff_of_true rfl (.inr ?_)
    cases h with
    | aside _ hnot =>
      rw [(starts_eq_nil hnot).1] at hstarts
      cases hstarts
    | new_era => cases hstarts
    | timestamp => cases hstarts
    | incubate h =>
      cases h with
      | @start a d m _ h =>
        cases hstarts
        exact ⟨a, h⟩
      | _ => cases hstarts
  · rw [htime, Option.isSome_map]
    constructor
    · exact .inl
    · intro hentry
      rcases hentry with hold | ⟨a, h⟩
      · exact hold
      · -- a start sets a hatch time where there was none
        have hpost := h.post
        rw [h.fresh, hpost] at htime
        simp at htime

/-- A step that hatches nothing keeps every incubating shell. -/
theorem Incubating.step (hC : CurrencyLaws T) (hN : NftLaws T) (h : Incubating s)
    (hs : Stepped s l r s') (hout : ∀ w, l = .outside w → TransfersOnly c s.world w)
    (hcoll : ∀ d, s'.sale.origin_of_shell_collection_id = some d → d = c)
    (hnot : hatched (⟨s, l, r, s'⟩ : Entry T) = false) : Incubating s' := by
  have hids := hs.traded.ids_kept
  intro d m t ht
  have hentry : (s'.incubation.hatch_times (d, m)).isSome = true := by
    rw [ht]
    rfl
  rcases (hs.tended.entry_iff d m).mp hentry with hold | ⟨a, hstart⟩
  · -- an old entry: its item can only be taken away by a hatch
    obtain ⟨t', ht'⟩ := Option.isSome_iff_exists.mp hold
    obtain ⟨hd, hitem⟩ := h d m t' ht'
    have hd' := hids.origin_of_shell d hd
    obtain rfl := hcoll d hd'
    obtain ⟨i, hi⟩ := Option.isSome_iff_exists.mp hitem
    have hother : r = .ok () → ¬ l.hatches d m := by
      rintro rfl ⟨o, md, rfl⟩
      cases hnot
    obtain ⟨i', hi', _⟩ := hs.traded.remains hC hN hout (P := (· = d)) rfl hi hother
    exact ⟨hd', by rw [hi']; rfl⟩
  · -- a new one: `start_incubation` looked the item up and leaves it alone
    have hd' := hids.origin_of_shell d hstart.collection
    have hworld : s'.world = s.world := by rw [hstart.post]
    obtain ⟨i, hi, _⟩ := Option.map_eq_some_iff.mp hstart.owner
    exact ⟨hd', by rw [hworld, hi]; rfl⟩

/-- A shell that was left behind stays so. -/
theorem LeftBehind.step (hC : CurrencyLaws T) (hN : NftLaws T) (h : LeftBehind c n s)
    (hs : Stepped s l r s') (hout : ∀ w, l = .outside w → TransfersOnly c s.world w) :
    LeftBehind c n s' := by
  obtain ⟨hnext, hfree⟩ := hs.traded.stays_free hC hN hout (P := (· = c)) rfl
  have hlt := h.handed_out
  refine ⟨?_, hlt.trans_le hnext, (hs.tended.entry_iff c n).mpr (.inl h.entry)⟩
  -- a mint only fills ids that were not handed out yet
  rcases hfree n h.gone with hnone | ⟨hge, _⟩
  · exact hnone
  · exact absurd hlt (Nat.not_lt.mpr hge)

/-- A hatch leaves its shell behind. -/
theorem left_behind_of_hatched (hN : NftLaws T) (hbelow : HandedOut c s.world)
    (hs : Stepped s l r s') (hcoll : ∀ d, s.sale.origin_of_shell_collection_id = some d → d = c)
    (hhatched : hatched (⟨s, l, r, s'⟩ : Entry T) = true) : ∃ n, LeftBehind c n s' := by
  obtain ⟨hlabel, hsucceeded⟩ := Bool.and_eq_true_iff.mp hhatched
  cases r with
  | error e => cases hsucceeded
  | ok u =>
    obtain ⟨origin, d, m, md, rfl⟩ : ∃ origin d m md,
        l = .call origin (.hatch_origin_of_shell d m md) := by
      unfold Label.isHatch at hlabel
      split at hlabel
      · next hl => exact ⟨_, _, _, _, hl⟩
      · cases hlabel
    obtain ⟨o, owner, sc, t, hh⟩ := hs.hatched
    obtain rfl := hcoll d hh.collection
    obtain ⟨i, hi, _⟩ := hh.found hN
    -- the item was there, so its id had been handed out
    have hlt : m < (T.nfts s.world).next d := by
      by_contra hge
      rw [hbelow m (Nat.not_lt.mp hge)] at hi
      cases hi
    obtain ⟨w, hitem, hnext, hminted⟩ := hh.burned hN
    have hadds := hminted.adds
    obtain ⟨time, htime, _⟩ := hh.hatch_time
    refine ⟨m, ?_, ?_, ?_⟩
    · -- the Shell that is minted after the burn gets a later id
      have hgone : (T.nfts w).item (d, m) = none := by rw [hitem, Nfts.burn_item_self]
      rcases hadds.fresh d m hgone with hnone | ⟨hge, _⟩
      · exact hnone
      · rw [hnext] at hge
        exact absurd hlt (Nat.not_lt.mpr hge)
    · rw [← hnext] at hlt
      exact hlt.trans_le (hadds.next d)
    · -- `hatch_origin_of_shell` never removes the hatch time
      obtain ⟨w', _, hpost⟩ := hh.post
      rw [hpost]
      show (s.incubation.hatch_times (d, m)).isSome = true
      rw [htime]
      rfl

end steps

/-- **Hatch times and hatches.** After a run from genesis every shell with a
    hatch time is an item of the Origin of Shell collection if and only if
    no hatch went through in the run. -/
theorem incubating_iff (hC : CurrencyLaws T) (hN : NftLaws T) {g : GenesisConfig AccountId}
    {w : T.World} {now : UInt64} {c : CollectionId} (hbelow : HandedOut c w)
    {tr : List (Entry T)} {s : State T}
    (h : Runs (Within (fun _ => True) (TransfersOnly c)) (genesis g w now) tr s)
    (hcoll : ∀ d, s.sale.origin_of_shell_collection_id = some d → d = c) :
    Incubating s ↔ ∀ e ∈ tr, hatched e = false := by
  have hrun : HandedOut c s.world ∧ ((∀ e ∈ tr, hatched e = false) → Incubating s) ∧
      ((∃ e ∈ tr, hatched e = true) → ∃ n, LeftBehind c n s) := by
    refine Runs.induction (J := fun tr s =>
      (∀ d, s.sale.origin_of_shell_collection_id = some d → d = c) →
        HandedOut c s.world ∧ ((∀ e ∈ tr, hatched e = false) → Incubating s) ∧
        ((∃ e ∈ tr, hatched e = true) → ∃ n, LeftBehind c n s)) h ?_ ?_ hcoll
    · intro _
      refine ⟨hbelow, ?_, ?_⟩
      · intro _ d n t ht
        cases ht
      · intro ⟨e, he, _⟩
        cases he
    · intro tr s l r s' _ hJ hok hs hcoll
      have hold : ∀ d, s.sale.origin_of_shell_collection_id = some d → d = c :=
        fun d hd => hcoll d (hs.traded.ids_kept.origin_of_shell d hd)
      obtain ⟨hbelow, hinc, hleft⟩ := hJ hold
      refine ⟨hbelow.step hC hN hs.traded hok.2 (P := (· = c)) rfl, ?_, ?_⟩
      · intro hnone
        rw [List.forall_mem_cons] at hnone
        exact (hinc hnone.2).step hC hN hs hok.2 hcoll hnone.1
      · intro ⟨e, he, hhatched⟩
        rcases List.mem_cons.mp he with rfl | he
        · exact left_behind_of_hatched hN hbelow hs hold hhatched
        · obtain ⟨n, hn⟩ := hleft ⟨e, he, hhatched⟩
          exact ⟨n, hn.step hC hN hs hok.2⟩
  obtain ⟨_, hinc, hleft⟩ := hrun
  constructor
  · intro hall e he
    -- after a hatch some shell is left behind, which has a hatch time and no item
    by_contra hhatched
    obtain ⟨n, hn⟩ := hleft ⟨e, he, Bool.not_eq_false _ ▸ hhatched⟩
    obtain ⟨t, ht⟩ := Option.isSome_iff_exists.mp hn.entry
    have hitem := (hall c n t ht).2
    rw [hn.gone] at hitem
    cases hitem
  · exact hinc

open Mock in
/-- The sale and the start of an incubation hatch nothing. -/
def started : List (Label (runtime 200)) :=
  sale 200 ++
  [admin (.set_can_start_incubation_status true),
    .call (.signed CHARLIE) (.start_incubation 1 0),
    admin (.update_incubation_time [((1, 0), 100)])]

open Mock in
theorem incubating_started :
    (after started).2.incubation.hatch_times (1, 0) = some 500 ∧ Incubating (after started).2 := by
  have hrun : Runs (Within (fun _ => True) (TransfersOnly 1)) (genesis₀ 200) (after started).1
      (after started).2 := runs_of_labels started (by decide +kernel)
  have hcoll : (after started).2.sale.origin_of_shell_collection_id = some 1 := by decide +kernel
  have hsame : ∀ d, (after started).2.sale.origin_of_shell_collection_id = some d → d = 1 := by
    intro d hd
    rw [hcoll, Option.some.injEq] at hd
    exact hd.symm
  exact ⟨by decide +kernel, (incubating_iff (T := runtime 200) (g := GenesisConfig.default)
    (w := world₀) (currency_laws 200) (nft_laws 200) (fun _ _ => rfl) hrun hsame).mpr
    (by decide +kernel)⟩

open Mock in
/-- `CHARLIE`'s Origin of Shell is hatched and gone, and its hatch time is
    still there and can be updated. -/
theorem updated_after_hatch : ∃ tr s,
    Runs (Within (fun _ => True) (TransfersOnly 1)) (genesis₀ 200) tr s ∧
    s.sale.origin_of_shell_collection_id = some 1 ∧ ¬ Incubating s ∧
    succeeded (entry step s (admin (.update_incubation_time [((1, 0), 1)]))) = true := by
  refine ⟨(after (hatching 200)).1, (after (hatching 200)).2,
    runs_of_labels (hatching 200) (by decide +kernel), by decide +kernel, ?_,
    by decide +kernel⟩
  intro hinc
  have hafter : (after (hatching 200)).2.incubation.hatch_times (1, 0) = some 500 ∧
      (((runtime 200).nfts (after (hatching 200)).2.world).item (1, 0)).isSome = false := by
    decide +kernel
  generalize (after (hatching 200)).2 = s at hafter hinc
  obtain ⟨htime, hgone⟩ := hafter
  have hitem := (hinc 1 0 500 htime).2
  rw [hgone] at hitem
  cases hitem

end PhalaWorld
