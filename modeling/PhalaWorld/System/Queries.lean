import Mathlib.Algebra.Order.BigOperators.Group.Finset
import PhalaWorld.Model.Scripts
import PhalaWorld.Sale.Preorders
import PhalaWorld.Shells.Feeding
import PhalaWorld.Shells.Hatching
import PhalaWorld.Specs.Items

/-! # What the queries answer

    The scripts look at storage through queries of their own. What these
    answer after a run is told here by the run's history, and so is where
    they miss what they were written for.

    * `total_fed`: the feeds of a shell, each era's modulo 2^32, as long as
      era and sum are exact numbers.
    * `filter_by_attribute`: the mints with the asked trait, as long as
      nothing was hatched. From the first hatch on the script throws.
    * `preorders_by_owner`: complete until a preorder is resolved below a
      pending one.
-/

namespace PhalaWorld

open LTS Tokens BoundedMap Scripts

variable {AccountId : Type} {T : Config AccountId}

/-! ### The total fed -/

section totals
variable {s : State T} {fs : List (Feed AccountId)} {x : CollectionId × NftId}

/-- The loop adds up the statistics of the eras it goes through, exactly if
    the sum has 53 bits. -/
theorem addFed_eq (s : State T) (x : CollectionId × NftId) {totalFed : Nat} {era : EraId}
    (h : totalFed + ∑ i ∈ Finset.range (era + 1),
      s.incubation.origin_of_shell_food_stats (i, x) < 2 ^ 53) :
    addFed s x totalFed era =
      totalFed + ∑ i ∈ Finset.range (era + 1), s.incubation.origin_of_shell_food_stats (i, x) := by
  induction era generalizing totalFed with
  | zero =>
    rw [Finset.sum_range_one] at h ⊢
    exact nearest_of_lt h
  | succ era ih =>
    rw [Finset.sum_range_succ] at h ⊢
    -- the sum so far is exact, and the rest of the loop gives no more than `h` says
    have hsofar : totalFed + s.incubation.origin_of_shell_food_stats (era + 1, x) < 2 ^ 53 := by
      omega
    rw [addFed, nearest_of_lt hsofar, ih (by omega)]
    omega

/-- What was fed so far, era by era. -/
theorem sum_portions {n : Nat} (h : ∀ f ∈ fs, f.era < n) :
    ∑ i ∈ Finset.range n, portions fs i x = fs.countP fun f => f.nft = x := by
  induction fs with
  | nil => exact Finset.sum_eq_zero fun i _ => rfl
  | cons f fs ih =>
    rw [List.forall_mem_cons] at h
    have hcons (i : EraId) : portions (f :: fs) i x =
        portions fs i x + if f.era = i ∧ f.nft = x then 1 else 0 := by
      rw [portions, portions, List.countP_cons]
      simp
    rw [Finset.sum_congr rfl fun i _ => hcons i, Finset.sum_add_distrib, ih h.2, List.countP_cons]
    congr 1
    by_cases hx : f.nft = x
    · -- the feed counts in one of the eras, its own
      rw [if_pos (by simpa using hx), Finset.sum_eq_single f.era]
      · simp [hx]
      · intro i _ hi
        rw [if_neg fun h => hi h.1.symm]
      · exact fun hnot => absurd (Finset.mem_range.mpr h.1) hnot
    · rw [if_neg (by simpa using hx)]
      exact Finset.sum_eq_zero fun i _ => if_neg fun h => hx h.2

end totals

/-- **The total fed.** After every run from genesis whose era is a number of
    53 bits the script's total for a shell is the sum of its feeds in each era
    modulo 2^32, if that has 53 bits. It is the number of all its feeds if
    and only if no era has 2^32 of them. -/
theorem total_fed [DecidableEq AccountId] {ok : Entry T → Prop} {g : GenesisConfig AccountId}
    {w : T.World} {now : UInt64} {tr : List (Entry T)} {s : State T}
    (h : Runs ok (genesis g w now) tr s) (c : CollectionId) (n : NftId)
    (hera : s.sale.era < 2 ^ 53)
    (hsum : ∑ era ∈ Finset.range (s.sale.era + 1),
      portions (history feeds tr) era (c, n) % 2 ^ 32 < 2 ^ 53) :
    getOriginOfShellTotalFed s c n =
      some (∑ era ∈ Finset.range (s.sale.era + 1),
        portions (history feeds tr) era (c, n) % 2 ^ 32) ∧
    (getOriginOfShellTotalFed s c n =
        some ((history feeds tr).countP fun f => f.nft = (c, n)) ↔
      ∀ era, portions (history feeds tr) era (c, n) < 2 ^ 32) := by
  have hfed := h.fed
  have hpast : ∀ f ∈ history feeds tr, f.era < s.sale.era + 1 :=
    fun f hf => Nat.lt_succ_of_le (hfed.past f hf)
  have hstats : ∑ era ∈ Finset.range (s.sale.era + 1),
      s.incubation.origin_of_shell_food_stats (era, (c, n)) =
      ∑ era ∈ Finset.range (s.sale.era + 1), portions (history feeds tr) era (c, n) % 2 ^ 32 :=
    Finset.sum_congr rfl fun era _ => hfed.stats era (c, n)
  have htotal : getOriginOfShellTotalFed s c n =
      some (∑ era ∈ Finset.range (s.sale.era + 1),
        portions (history feeds tr) era (c, n) % 2 ^ 32) := by
    rw [← hstats] at hsum ⊢
    rw [getOriginOfShellTotalFed, toNumber, if_pos hera, Option.map_some,
      addFed_eq s (c, n) (by rwa [Nat.zero_add]), Nat.zero_add]
  refine ⟨htotal, ?_⟩
  rw [htotal, Option.some.injEq, ← sum_portions hpast,
    Finset.sum_eq_sum_iff_of_le fun era _ => Nat.mod_le _ _]
  constructor
  · intro hsame era
    by_cases hera : era < s.sale.era + 1
    · rw [← hsame era (Finset.mem_range.mpr hera)]
      exact Nat.mod_lt _ (Nat.two_pow_pos 32)
    · -- nobody has fed in an era to come
      rw [portions_eq_zero (fun f hf => (hpast f hf).trans_le (Nat.le_of_not_lt hera)) (c, n)]
      exact Nat.two_pow_pos 32
  · intro hbound era _
    exact Nat.mod_eq_of_lt (hbound era)

open Mock in
/-- `CHARLIE`'s Origin of Shell was fed twice in all. -/
theorem total_fed_charlie : getOriginOfShellTotalFed (after feast).2 1 0 = some 2 ∧
    ∀ era, portions (history feeds (after feast).1) era (1, 0) < 2 ^ 32 := by
  have hrun : Runs (fun _ => True) (genesis₀ 200) (after feast).1 (after feast).2 :=
    Run.exec (p := fun _ => True) .nil (by simp)
  have htotal : getOriginOfShellTotalFed (after feast).2 1 0 = some 2 ∧
      (history feeds (after feast).1).countP (fun f => f.nft = (1, 0)) = 2 := by decide +kernel
  have hera : (after feast).2.sale.era < 2 ^ 53 := by decide +kernel
  have hsum : ∑ era ∈ Finset.range ((after feast).2.sale.era + 1),
      portions (history feeds (after feast).1) era (1, 0) % 2 ^ 32 < 2 ^ 53 := by decide +kernel
  refine ⟨htotal.1, (total_fed (T := runtime 200) (g := GenesisConfig.default) (w := world₀) hrun
    1 0 hera hsum).2.mp ?_⟩
  rw [htotal.1, htotal.2]

/-! ### The filter on attributes -/

section attributes
variable {s : State T} {w w' : T.World} {x : CollectionId × NftId}

theorem Config.attribute_bytes_congr
    (h : ∀ k, (T.nfts w').attr (x, k) = (T.nfts w).attr (x, k)) (key : Bytes) :
    T.attribute_bytes w' x key = T.attribute_bytes w x key := by
  simp [Config.attribute_bytes, Config.uniques_attribute, h]

/-- A removed attribute is not there, and no other one appears. -/
theorem ClearsAttribute.bytes (hN : NftLaws T) {o : AccountId} {key : Bytes}
    (h : ClearsAttribute o x w key w') (key' : Bytes) :
    (key' = key → T.attribute_bytes w' x key' = none) ∧
      (T.attribute_bytes w x key' = none → T.attribute_bytes w' x key' = none) := by
  obtain ⟨k, hk, hclear⟩ := h
  have hview := (hN.clear_attribute_ok hclear).2.1
  cases hkey : (BoundedVec.try_from key' : Option T.Key) with
  | none => simp [Config.attribute_bytes, hkey]
  | some k' =>
    simp only [Config.attribute_bytes, hkey, Option.bind_some, Config.uniques_attribute, hview,
      Option.map_eq_none_iff, Nfts.clear_attr]
    have hk' := BoundedVec.try_from_eq_some.mp hkey
    refine ⟨?_, ?_⟩
    · rintro rfl
      have hsame : k' = k := by
        cases k; cases k'
        simp_all
      rw [hsame, Function.update_self]
    · intro hnone
      by_cases hsame : k' = k
      · rw [hsame, Function.update_self]
      · rw [Function.update_of_ne fun heq => hsame (Prod.mk.inj heq).2]
        exact hnone

/-- None of the four attributes is there. -/
def Blank (w : T.World) (x : CollectionId × NftId) : Prop :=
  ∀ key ∈ [NftSale.race_key, NftSale.career_key, NftSale.rarity_key, NftSale.generation_key],
    T.attribute_bytes w x key = none

theorem Blank.congr (h : Blank w x)
    (hattr : ∀ k, (T.nfts w').attr (x, k) = (T.nfts w).attr (x, k)) : Blank w' x := by
  intro key hkey
  rw [Config.attribute_bytes_congr hattr]
  exact h key hkey

/-- Removing attributes one by one. -/
theorem cleared (hN : NftLaws T) {o : AccountId} {keys : List Bytes}
    (h : Chain (ClearsAttribute o x) w keys w') (key : Bytes) :
    (key ∈ keys → T.attribute_bytes w' x key = none) ∧
      (T.attribute_bytes w x key = none → T.attribute_bytes w' x key = none) := by
  induction keys generalizing w with
  | nil =>
    rw [chain_nil] at h
    subst h
    exact ⟨fun hmem => absurd hmem List.not_mem_nil, id⟩
  | cons k keys ih =>
    rw [chain_cons] at h
    obtain ⟨w₁, hclear, hrest⟩ := h
    obtain ⟨hself, hstays⟩ := hclear.bytes hN key
    obtain ⟨hmem', hstays'⟩ := ih hrest
    refine ⟨?_, fun hnone => hstays' (hstays hnone)⟩
    intro hmem
    rcases List.mem_cons.mp hmem with hkey | hmem
    · exact hstays' (hself hkey)
    · exact hmem' hmem

/-- A hatch leaves the item it burns without the four attributes. -/
theorem Awakens.blank (hN : NftLaws T) {o a : AccountId} {c : CollectionId} {n : NftId}
    {sc : CollectionId} {md : T.Metadata} {t : Traits} (h : Awakens o a (c, n) sc md t w w')
    (hne : c ≠ sc) : Blank w' (c, n) := by
  obtain ⟨w₁, w₂, w₃, _, hclear, hmint, hset⟩ := h
  have hblank : Blank w₂ (c, n) := fun key hkey => (cleared hN hclear key).1 hkey
  -- the Shell is an item of another collection
  have hother (m : NftId) : (c, n) ≠ (sc, m) := fun heq => hne (Prod.mk.inj heq).1
  refine hblank.congr ?_
  intro k
  rw [(SetsTraits.relabels hN hset).1.others _ _ (hother _), (hN.mint_ok hmint).2.2.2.1,
    Nfts.mint_attr]

/-- The types the script can ask for: what decodes the attribute, its key,
    and the trait it shows. -/
inductive Asks : {Value : Type} → (Bytes → Option Value) → Bytes → (Traits → Value) → Prop where
  | rarity : Asks RarityType.decode NftSale.rarity_key Traits.rarity_type
  | race : Asks RaceType.decode NftSale.race_key Traits.race
  | career : Asks CareerType.decode NftSale.career_key Traits.career
  | generation : Asks GenerationId.decode NftSale.generation_key Traits.generation

section asks
variable {Value : Type} {createType : Bytes → Option Value} {attrKey : Bytes}
  {get : Traits → Value} {c : CollectionId} {n : NftId}

/-- Of an item with readable attributes the script reads the trait. -/
theorem Asks.reads (h : Asks createType attrKey get) {t : Traits}
    (ht : T.traits s.world (c, n) = some t) :
    (uniquesAttribute s c n attrKey).bind createType = some (get t) := by
  simp only [Config.traits, Option.bind_eq_bind, Option.bind_eq_some_iff, Option.pure_def,
    Option.some.injEq] at ht
  obtain ⟨r, hr, ra, hra, ca, hca, g, hg, rfl⟩ := ht
  cases h with
  | rarity => exact Option.bind_eq_some_iff.mpr hr
  | race => exact Option.bind_eq_some_iff.mpr hra
  | career => exact Option.bind_eq_some_iff.mpr hca
  | generation => exact Option.bind_eq_some_iff.mpr hg

/-- Of one without them it reads nothing. -/
theorem Asks.blank (h : Asks createType attrKey get) (hb : Blank s.world (c, n)) :
    (uniquesAttribute s c n attrKey).bind createType = none := by
  have hnone : T.attribute_bytes s.world (c, n) attrKey = none := by
    apply hb
    cases h <;> simp
  rw [show uniquesAttribute s c n attrKey = none from hnone, Option.bind_none]

end asks

end attributes

/-- After the mints `ms` and the hatches `hs`: the ids below the counter are
    those of the mints, in their order, and what was hatched is blank. -/
structure Numbered (f : State T) (ms : List (Mint AccountId)) (hs : List (Hatch AccountId))
    (s : State T) : Prop where
  ids : IdsKept s f
  numbers : ∀ c, f.sale.origin_of_shell_collection_id = some c →
    ms.map Mint.nft_id = List.range ((T.nfts s.world).next c)
  blank : ∀ c n, f.sale.origin_of_shell_collection_id = some c →
    (c, n) ∈ hs.map Hatch.origin_of_shell →
    n < (T.nfts s.world).next c ∧ Blank s.world (c, n)

section numbered
variable {f s s' : State T} {ms : List (Mint AccountId)} {hs : List (Hatch AccountId)}

/-- A step that leaves the collection's counter and attributes alone. -/
theorem Numbered.keep (h : Numbered f ms hs s) (hids : IdsKept s' f)
    (hsame : ∀ c, f.sale.origin_of_shell_collection_id = some c →
      (T.nfts s'.world).next c = (T.nfts s.world).next c ∧
        ∀ n k, (T.nfts s'.world).attr ((c, n), k) = (T.nfts s.world).attr ((c, n), k)) :
    Numbered f ms hs s' := by
  refine ⟨hids, ?_, ?_⟩
  · intro c hc
    rw [h.numbers c hc, (hsame c hc).1]
  · intro c n hc hn
    obtain ⟨hlt, hblank⟩ := h.blank c n hc hn
    exact ⟨by rw [(hsame c hc).1]; exact hlt, hblank.congr ((hsame c hc).2 n)⟩

theorem Numbered.keep_nfts (h : Numbered f ms hs s) (hids : IdsKept s' f)
    (hnfts : T.nfts s'.world = T.nfts s.world) : Numbered f ms hs s' :=
  h.keep hids fun c _ => by rw [hnfts]; exact ⟨rfl, fun _ _ => rfl⟩

/-- A mint into another collection. -/
theorem Numbered.receive_other (h : Numbered f ms hs s) (hids : IdsKept s' f) {a : AccountId}
    {d : CollectionId} {frozen : Bool}
    (hrec : Nfts.Received a d frozen (T.nfts s.world) (T.nfts s'.world))
    (hd : ∀ c, f.sale.origin_of_shell_collection_id = some c → c ≠ d) : Numbered f ms hs s' :=
  h.keep hids fun c hc => ⟨hrec.next_of_ne (hd c hc), fun _ k =>
    hrec.others _ k fun heq => hd c hc (Prod.mk.inj heq).1⟩

/-- A mint takes the id the counter shows. -/
theorem Numbered.mint [DecidableEq AccountId] (hC : CurrencyLaws T) (hN : NftLaws T)
    {o a : AccountId} {t : Traits} {price : Nat} {pool : NftSaleType} {check : Bool}
    {d : CollectionId} {i : NftSaleInfo} (h : Numbered f ms hs s)
    (hm : Mints o a t price pool check d i s s') :
    Numbered f (ms ++ [mintOf pool a t d (T.NextNftId s.world d)]) hs s' := by
  have hcoll := h.ids.origin_of_shell d hm.collection
  have hrec := (hm.minted hC hN).1.received
  obtain ⟨md, w, rc, cc, _, _, _, _, rfl⟩ := hm.post
  refine ⟨h.ids.of_same rfl rfl rfl, ?_, ?_⟩
  · intro c hc
    rw [hcoll, Option.some.injEq] at hc
    subst hc
    rw [List.map_append, h.numbers d hcoll, hrec.next_self, List.range_succ]
    rfl
  · intro c n hc hn
    obtain ⟨hlt, hblank⟩ := h.blank c n hc hn
    rw [hcoll, Option.some.injEq] at hc
    subst hc
    refine ⟨hlt.trans_le (hrec.next_le d), hblank.congr fun k => hrec.others _ k ?_⟩
    -- the new id is not below the counter
    intro heq
    rw [(Prod.mk.inj heq).2] at hlt
    exact Nat.lt_irrefl _ hlt

/-- A hatch blanks the item it burns, whose id was handed out. -/
theorem Numbered.hatch (hN : NftLaws T) (hf : DistinctIds f) {o a : AccountId} {d : CollectionId}
    {m : NftId} {sc : CollectionId} {md : T.Metadata} {t : Traits} (h : Numbered f ms hs s)
    (hx : Exchanging f ms hs s) (hh : Hatches o a d m sc md t s s') :
    Numbered f ms (hs ++ [⟨(d, m), (sc, T.NextNftId s.world sc), a⟩]) s' := by
  have hcoll := h.ids.origin_of_shell d hh.collection
  have hne : d ≠ sc := by
    rintro rfl
    exact hf.origin_of_shell_shell d hcoll (h.ids.shell d hh.shell_collection)
  obtain ⟨i, hi, _⟩ := hh.found hN
  have hlt : m < (T.nfts s.world).next d := by
    have hrecorded := hx.exchanged.recorded
    rw [hcoll] at hrecorded
    exact hrecorded.below _ (hrecorded.mem m _ (tokens_of_some hi))
  obtain ⟨w, hawakens, rfl⟩ := hh.post
  obtain ⟨hnext, _⟩ := hawakens.listed_burned hN hne
  have hblank := hawakens.blank hN hne
  obtain ⟨w₂, hattr, hminted, _⟩ := hawakens.minted hN
  refine ⟨h.ids.of_same rfl rfl rfl, ?_, ?_⟩
  · intro c hc
    rw [hcoll, Option.some.injEq] at hc
    subst hc
    rw [h.numbers d hcoll, hnext]
  · intro c n hc hn
    rw [List.map_append, List.mem_append] at hn
    have hcd := hc
    rw [hcoll, Option.some.injEq] at hcd
    subst hcd
    rw [hnext]
    by_cases hnm : n = m
    · subst hnm
      exact ⟨hlt, hblank⟩
    · -- another item, which neither the burn nor the mint touches
      have hold : (d, n) ∈ hs.map Hatch.origin_of_shell := by
        refine hn.resolve_right ?_
        intro hmem
        exact hnm (Prod.mk.inj (List.mem_singleton.mp hmem)).2
      obtain ⟨hlt', hblank'⟩ := h.blank d n hc hold
      refine ⟨hlt', hblank'.congr ?_⟩
      intro k
      rw [hminted.received.others _ k fun heq => hne (Prod.mk.inj heq).1,
        hattr.others _ k fun heq => hnm (Prod.mk.inj heq).2]
      rfl

variable [DecidableEq AccountId] {l : Label T} {r : Outcome T}

theorem Numbered.mint_round (hC : CurrencyLaws T) (hN : NftLaws T) {o : AccountId} {last : Bool}
    {p : PreorderId} (h : Numbered f ms hs s) (hm : MintsPreorder o last s p s') :
    ∃ evs, s'.events = s.events ++ evs ∧
      Numbered f (ms ++ evs.filterMap (Event.mint .ForSale)) hs s' := by
  obtain ⟨info, c, i, s₁, _, hmint, rfl⟩ := hm
  have hrelease : Numbered f ms hs (s.release p info.owner) :=
    h.keep_nfts (h.ids.of_same rfl rfl rfl) (hC.unreserve_eq _ _ _).2
  have hminted := hrelease.mint hC hN hmint
  exact ⟨_, hmint.events_append _, hminted.keep_nfts (hminted.ids.of_same rfl rfl rfl) rfl⟩

theorem Numbered.refund_round (hC : CurrencyLaws T) {last : Bool} {p : PreorderId}
    (h : Numbered f ms hs s) (hr : RefundsPreorder last s p s') : Numbered f ms hs s' := by
  obtain ⟨info, _, rfl⟩ := hr
  exact h.keep_nfts (h.ids.of_same rfl rfl rfl) (hC.unreserve_eq _ _ _).2

/-- Every step keeps the invariant, with what it minted and hatched. -/
theorem Numbered.step (hC : CurrencyLaws T) (hN : NftLaws T) (hf : DistinctIds f)
    (h : Numbered f ms hs s) (hx : Exchanging f ms hs s) (hids : IdsKept s' f)
    (hout : ∀ w, l = .outside w → Nfts.Moved (Shelled f) (T.nfts s.world) (T.nfts w))
    (hs' : Traded s l r s') :
    Numbered f (ms ++ mints ⟨s, l, r, s'⟩) (hs ++ hatches ⟨s, l, r, s'⟩) s' := by
  -- a step that neither mints nor hatches
  have hidle (hmints : mints ⟨s, l, r, s'⟩ = []) (hhatches : hatches ⟨s, l, r, s'⟩ = [])
      (h : Numbered f ms hs s') :
      Numbered f (ms ++ mints ⟨s, l, r, s'⟩) (hs ++ hatches ⟨s, l, r, s'⟩) s' := by
    rw [hmints, hhatches, List.append_nil, List.append_nil]
    exact h
  cases hs' with
  | quiet hq _ => exact hidle hq.mints hq.hatches (h.keep_nfts hids (by rw [hq.world]))
  | spirit _ hm hc =>
    refine hidle hm.mints (hatches_eq_nil ?_) (h.receive_other hids (hm.minted hN).1.received ?_)
    · rcases hc with rfl | ⟨sig, rfl⟩ <;> rfl
    · rintro c hc rfl
      exact hf.spirit_origin_of_shell c (h.ids.spirit c hm.collection) hc
  | @buy a _ _ _ _ _ _ c _ _ hm hc =>
    have hlabel : (Label.call (.signed a) c).saleType = .ForSale ∧
        (Label.call (.signed a) c).hatching = none := by
      rcases hc with ⟨rfl, _⟩ | ⟨_, sig, rfl⟩ <;> exact ⟨rfl, rfl⟩
    rw [hm.mints hlabel.1, hatches_eq_nil hlabel.2, List.append_nil]
    exact h.mint hC hN hm
  | preorder hp =>
    obtain ⟨md, w, _, hreserve, rfl⟩ := hp.post
    exact hidle hp.mints (hatches_eq_nil rfl) (h.keep_nfts hids (hC.reserve_ok hreserve).2.2)
  | mint _ hl =>
    obtain ⟨evs, hevs, h'⟩ := hl.recorded (L := State.events)
      (J := fun ms s => Numbered f ms hs s) (fun _ _ _ _ hJ hm => hJ.mint_round hC hN hm) h
    rw [mints_of_append hevs, hatches_eq_nil rfl, List.append_nil]
    exact h'
  | refund _ hl =>
    exact hidle (refund_batch_mints hl) (hatches_eq_nil rfl)
      (hl.invariant (fun _ _ _ hJ hr => hJ.refund_round hC hr) h)
  | gift _ _ hm =>
    rw [hm.mints_gift, hatches_eq_nil rfl, List.append_nil]
    exact (h.mint hC hN hm).keep_nfts hids rfl
  | init => exact hidle (mints_sale rfl) (hatches_eq_nil rfl) (h.keep_nfts hids rfl)
  | update => exact hidle (mints_sale rfl) (hatches_eq_nil rfl) (h.keep_nfts hids rfl)
  | create _ hw =>
    obtain ⟨c, hview, _⟩ := hN.create_collection_ok hw
    refine hidle mints_world (hatches_eq_nil rfl) (h.keep hids fun d _ => ⟨?_, ?_⟩)
    · rw [hview, Nfts.create_next]
    · intro n k
      rw [hview, Nfts.create_attr]
  | hatch hh =>
    rw [hh.mints, hh.hatches rfl, List.append_nil]
    exact h.hatch hN hf hx hh
  | outside =>
    have hmoved := hout _ rfl
    exact hidle mints_world (hatches_eq_nil rfl)
      (h.keep hids fun c hc => ⟨(hmoved c (.inl hc)).1, (hmoved c (.inl hc)).2.1⟩)

end numbered

/-! ### Its answer -/

section collect
variable {A Value : Type} [DecidableEq Value] {f : Nat → Option Value} {value : Value}

/-- The loop collects the ids with the asked value, if every read succeeds. -/
theorem collect_eq_some {number : A → Nat} {get : A → Value} {l : List A}
    (h : ∀ a ∈ l, f (number a) = some (get a)) (found : List Nat) :
    (l.map number).foldlM (fun found n => do
        let v ← f n
        pure (if v = value then found ++ [n] else found)) found =
      some (found ++ (l.filter fun a => get a = value).map number) := by
  induction l generalizing found with
  | nil => simp
  | cons a l ih =>
    rw [List.forall_mem_cons] at h
    rw [List.map_cons, List.foldlM_cons, h.1]
    refine (ih h.2 (if get a = value then found ++ [number a] else found)).trans ?_
    by_cases hvalue : get a = value <;> simp [hvalue]

/-- It ends at the first read that fails. -/
theorem collect_eq_none {l : List Nat} (h : ∃ n ∈ l, f n = none) (found : List Nat) :
    l.foldlM (fun found n => do
      let v ← f n
      pure (if v = value then found ++ [n] else found)) found = none := by
  induction l generalizing found with
  | nil => obtain ⟨n, hn, _⟩ := h; exact absurd hn List.not_mem_nil
  | cons a l ih =>
    rw [List.foldlM_cons]
    cases ha : f a with
    | none => rfl
    | some v =>
      obtain ⟨n, hn, hnone⟩ := h
      have hmem : n ∈ l := by
        refine (List.mem_cons.mp hn).resolve_left ?_
        rintro rfl
        rw [ha] at hnone
        cases hnone
      exact ih ⟨n, hmem, hnone⟩ _

end collect

section runs
variable [DecidableEq AccountId] {g : GenesisConfig AccountId} {w : T.World} {now : UInt64}
  {tr : List (Entry T)} {s : State T}

theorem Runs.numbered (hC : CurrencyLaws T) (hN : NftLaws T) {f : State T} (hf : DistinctIds f)
    (hempty : ∀ d n, Shelled f d → (T.nfts w).item (d, n) = none)
    (hnext : ∀ c, f.sale.origin_of_shell_collection_id = some c → (T.nfts w).next c = 0)
    (h : Runs (Within (fun _ => True) (MovesWithin (Shelled f))) (genesis g w now) tr s)
    (hids : IdsKept s f) : Numbered f (history mints tr) (history hatches tr) s := by
  refine Runs.induction (J := fun tr s => IdsKept s f →
    Numbered f (history mints tr) (history hatches tr) s) h ?_ ?_ hids
  · refine fun hids => ⟨hids, ?_, fun _ _ _ hn => absurd hn List.not_mem_nil⟩
    intro c hc
    show [] = List.range ((T.nfts w).next c)
    rw [hnext c hc, List.range_zero]
  · intro tr s l r s' hrun hJ hok hs hids
    have hpre := hs.traded.ids_kept.trans hids
    obtain ⟨hx, _⟩ := Runs.exchanging hC hN hf hempty hrun hpre
    exact (hJ hpre).step hC hN hf hx hids hok.2 hs.traded

/-- **The filter on attributes.** As long as nothing was hatched the script
    finds the Origin of Shells that were minted with the asked trait, in the
    order of their ids. Once something was hatched it throws, whatever it is
    asked for: it runs into the item that is gone. -/
theorem filter_by_attribute (hC : CurrencyLaws T) (hN : NftLaws T) (hdistinct : DistinctIds s)
    (hempty : ∀ d n, Shelled s d → (T.nfts w).item (d, n) = none)
    (hnext : ∀ c, s.sale.origin_of_shell_collection_id = some c → (T.nfts w).next c = 0)
    (h : Runs (Within (fun _ => True) (MovesWithin (Shelled s))) (genesis g w now) tr s)
    {Value : Type} [DecidableEq Value] {createType : Bytes → Option Value} {attrKey : Bytes}
    {get : Traits → Value} (hasks : Asks createType attrKey get) (attrValue : Value) :
    filterOriginShellsByAttribute s createType attrKey attrValue =
      if history hatches tr = [] then
        some (((history mints tr).filter fun m => get m.traits = attrValue).map Mint.nft_id)
      else none := by
  obtain ⟨hx, _⟩ := Runs.exchanging hC hN hdistinct hempty h (.refl s)
  have hnumbered := Runs.numbered hC hN hdistinct hempty hnext h (.refl s)
  unfold filterOriginShellsByAttribute
  cases hcoll : s.sale.origin_of_shell_collection_id with
  | none =>
    -- nothing was minted or hatched yet
    have hmints : history mints tr = [] := by
      refine List.eq_nil_iff_forall_not_mem.mpr fun m hm => ?_
      have hin := hx.minted_in m hm
      rw [hcoll] at hin
      cases hin
    have hhatches : history hatches tr = [] := by
      refine List.eq_nil_iff_forall_not_mem.mpr fun x hxm => ?_
      have hin := (hx.hatched_in x hxm).1
      rw [hcoll] at hin
      cases hin
    rw [hmints, if_pos hhatches]
    rfl
  | some c =>
    -- both reads of a round together
    have hround (found : List NftId) (n : NftId) : (do
        let actualAttr ← uniquesAttribute s c n attrKey
        let actualAttrValue ← createType actualAttr
        pure (if actualAttrValue = attrValue then found ++ [n] else found)) = (do
        let v ← (uniquesAttribute s c n attrKey).bind createType
        pure (if v = attrValue then found ++ [n] else found) : Option (List NftId)) := by
      simp only [Option.bind_eq_bind, Option.bind_assoc]
    simp only [hround]
    split
    · next hnone =>
      rw [Config.NextNftId, ← hnumbered.numbers c hcoll]
      refine (collect_eq_some ?_ []).trans (by rw [List.nil_append])
      intro m hm
      -- what was not exchanged is there with the traits of its mint
      have hkept := hx.exchanged.kept m.nft_id (some m.traits) (List.mem_map.mpr ⟨m, hm, rfl⟩)
      rw [hcoll, hnone] at hkept
      rcases hkept with ⟨hlive, _⟩ | ⟨_, k, hk, _⟩
      · exact hasks.reads (tokens_eq_some hlive).2
      · exact absurd hk List.not_mem_nil
    · next hsome =>
      obtain ⟨x, hxm⟩ := List.exists_mem_of_ne_nil _ hsome
      obtain ⟨hin, _⟩ := hx.hatched_in x hxm
      have hc : x.origin_of_shell = (c, x.origin_of_shell.2) := by
        rw [hcoll, Option.some.injEq] at hin
        exact Prod.ext hin.symm rfl
      obtain ⟨hlt, hblank⟩ := hnumbered.blank c x.origin_of_shell.2 hcoll
        (List.mem_map.mpr ⟨x, hxm, hc⟩)
      exact collect_eq_none ⟨_, List.mem_range.mpr hlt, hasks.blank hblank⟩ []

open Mock in
/-- Two Magic Origin of Shells are found, the one that was bought and the one
    that was given away; when `CHARLIE`'s is hatched the script throws. -/
theorem filter_by_attribute_magic :
    filterOriginShellsByAttribute (after (sale 200)).2 RarityType.decode NftSale.rarity_key .Magic =
      some [0, 2] ∧
    filterOriginShellsByAttribute (after (hatching 200)).2 RarityType.decode NftSale.rarity_key
      .Magic = none := by
  have hanswer (ls : List (Label (runtime 200)))
      (hinside : ∀ e ∈ (after ls).1, True ∧ e.label.isOutside = false)
      (hids : (after ls).2.sale.spirit_collection_id = some 0 ∧
        (after ls).2.sale.origin_of_shell_collection_id = some 1 ∧
        (after ls).2.incubation.shell_collection_id = some 2) :
      filterOriginShellsByAttribute (after ls).2 RarityType.decode NftSale.rarity_key .Magic =
        if history hatches (after ls).1 = [] then
          some (((history mints (after ls).1).filter
            fun m => m.traits.rarity_type = .Magic).map Mint.nft_id)
        else none := by
    obtain ⟨hsp, hc, hsc⟩ := hids
    have hdistinct : DistinctIds (after ls).2 := by
      constructor <;> intro d hd <;> simp_all
    exact filter_by_attribute (T := runtime 200) (g := GenesisConfig.default) (w := world₀)
      (currency_laws 200) (nft_laws 200) hdistinct (fun _ _ _ => rfl) (fun _ _ => rfl)
      (runs_of_labels ls hinside) .rarity .Magic
  rw [hanswer (sale 200) (by decide +kernel) (by decide +kernel),
    hanswer (hatching 200) (by decide +kernel) (by decide +kernel)]
  decide +kernel

end runs

/-! ### The preorders of an owner -/

/-- The pending preorders of an account, in the order of their ids. -/
def preordersOf [DecidableEq AccountId] (s : State T) (owner : AccountId) :
    List (PreorderInfo AccountId T.Metadata) :=
  (List.range s.sale.preorder_index).filterMap fun preorder =>
    (s.sale.preorders preorder).filter fun info => info.owner = owner

section keys
variable {s : State T} {preorderKeys : List PreorderId}

/-- Ids that all are below their number are all the ids below it. -/
theorem Scripts.Keys.mem_of_lt (h : Keys s preorderKeys)
    (hbelow : ∀ p : Nat, p ∈ preorderKeys → p < preorderKeys.length) {p : Nat}
    (hp : p < preorderKeys.length) : p ∈ preorderKeys := by
  have hsub : preorderKeys.toFinset ⊆ Finset.range preorderKeys.length := by
    intro q hq
    exact Finset.mem_range.mpr (hbelow q (List.mem_toFinset.mp hq))
  have hcard : (Finset.range preorderKeys.length).card ≤ preorderKeys.toFinset.card := by
    rw [Finset.card_range, List.toFinset_card_of_nodup h.nodup]
  have hall := Finset.eq_of_subset_of_card_le hsub hcard
  rw [← List.mem_toFinset, hall]
  exact Finset.mem_range.mpr hp

/-- The script reaches every pending preorder if nothing was resolved below
    one, and only then. -/
theorem Scripts.Keys.reaches_iff (h : Keys s preorderKeys) {removed : List Nat}
    (hacc : Accounted s.sale.preorders s.sale.preorder_index removed) :
    (∀ p : Nat, p ∈ preorderKeys → p < preorderKeys.length) ↔
      ∀ p : Nat, p ∈ preorderKeys → ∀ q ∈ removed, p < q := by
  constructor
  · intro hbelow p hp q hq
    -- below the length there are pending ids only
    refine (hbelow p hp).trans_le (Nat.le_of_not_lt fun hlt => ?_)
    have hpending := (h.mem q).mp (h.mem_of_lt hbelow hlt)
    rw [((hacc.removed_iff q).mp hq).2] at hpending
    cases hpending
  · intro hsorted p hp
    obtain ⟨info, hinfo⟩ := Option.isSome_iff_exists.mp ((h.mem p).mp hp)
    have hlt := hacc.below.lt hinfo
    -- no id up to `p` was resolved, so all of them are pending
    have hsub : Finset.range (p + 1) ⊆ preorderKeys.toFinset := by
      intro q hq
      have hqp : q < p + 1 := Finset.mem_range.mp hq
      rw [List.mem_toFinset, h.mem, ← Option.ne_none_iff_isSome]
      intro hnone
      have hafter := hsorted p hp q ((hacc.removed_iff q).mpr ⟨by omega, hnone⟩)
      omega
    have hcard := Finset.card_le_card hsub
    rw [Finset.card_range, List.toFinset_card_of_nodup h.nodup] at hcard
    omega

/-- Keys are ids that were handed out. -/
theorem Scripts.Keys.length_le (h : Keys s preorderKeys)
    (hbelow : Below s.sale.preorders s.sale.preorder_index) :
    preorderKeys.length ≤ s.sale.preorder_index := by
  have hsub : preorderKeys.toFinset ⊆ Finset.range s.sale.preorder_index := by
    intro p hp
    obtain ⟨info, hinfo⟩ := Option.isSome_iff_exists.mp ((h.mem p).mp (List.mem_toFinset.mp hp))
    exact Finset.mem_range.mpr (hbelow.lt hinfo)
  have hcard := Finset.card_le_card hsub
  rwa [Finset.card_range, List.toFinset_card_of_nodup h.nodup] at hcard

/-- What the script prints is complete if it reaches every pending preorder. -/
theorem Scripts.Keys.complete_iff [DecidableEq AccountId] (h : Keys s preorderKeys)
    (hbelow : Below s.sale.preorders s.sale.preorder_index) :
    (∀ owner, getPreordersByOwner s preorderKeys owner = preordersOf s owner) ↔
      ∀ p : Nat, p ∈ preorderKeys → p < preorderKeys.length := by
  obtain ⟨k, hk⟩ := Nat.exists_eq_add_of_le (h.length_le hbelow)
  -- the loop over all ids is the script's, and then one over the rest
  have hsplit (owner : AccountId) : preordersOf s owner =
      getPreordersByOwner s preorderKeys owner ++
        ((List.range k).map (preorderKeys.length + ·)).filterMap fun preorder =>
          (s.sale.preorders preorder).filter fun info => info.owner = owner := by
    rw [preordersOf, hk, List.range_add, List.filterMap_append]
    rfl
  constructor
  · intro hcomplete p hp
    obtain ⟨info, hinfo⟩ := Option.isSome_iff_exists.mp ((h.mem p).mp hp)
    have hlt : p < preorderKeys.length + k := hk ▸ hbelow.lt hinfo
    by_contra hge
    have hrest := hsplit info.owner
    rw [← hcomplete, List.self_eq_append_right, List.filterMap_eq_nil_iff] at hrest
    have hnone := hrest p (List.mem_map.mpr
      ⟨p - preorderKeys.length, List.mem_range.mpr (by omega),
        Nat.add_sub_of_le (Nat.le_of_not_lt hge)⟩)
    simp [hinfo] at hnone
  · intro hreach owner
    rw [hsplit, List.self_eq_append_right, List.filterMap_eq_nil_iff]
    intro p hp
    obtain ⟨i, _, rfl⟩ := List.mem_map.mp hp
    cases hi : s.sale.preorders (preorderKeys.length + i) with
    | none => rfl
    | some info =>
      have hlt := hreach (preorderKeys.length + i) ((h.mem _).mpr (by rw [hi]; rfl))
      omega

end keys

/-- **The preorders of an owner.** After every run from genesis the script
    prints each account's pending preorders if and only if no preorder was
    resolved with an id below that of a pending one. -/
theorem preorders_by_owner [DecidableEq AccountId] {ok : Entry T → Prop}
    {g : GenesisConfig AccountId} {w : T.World} {now : UInt64} {tr : List (Entry T)} {s : State T}
    (h : Runs ok (genesis g w now) tr s) {preorderKeys : List PreorderId}
    (hkeys : Keys s preorderKeys) :
    (∀ owner, getPreordersByOwner s preorderKeys owner = preordersOf s owner) ↔
      ∀ p info, s.sale.preorders p = some info → ∀ x ∈ history resolutions tr, p < x.1 := by
  have hacc := h.tracked.1.accounted
  rw [hkeys.complete_iff hacc.below, hkeys.reaches_iff hacc]
  simp only [hkeys.mem, Option.isSome_iff_exists, forall_exists_index, List.forall_mem_map]

open Mock in
/-- A presale in which `ALICE`'s preorder is minted before `BOB`'s. -/
def halfway : List (Label (runtime 200)) :=
  (presale 200).dropLast

open Mock in
/-- `BOB`'s preorder is left, and not everything that is left is printed. -/
theorem preorders_by_owner_halfway :
    (after halfway).2.sale.preorders 0 = none ∧ ((after halfway).2.sale.preorders 1).isSome ∧
    ¬ ∀ owner, getPreordersByOwner (after halfway).2 [1] owner =
      preordersOf (after halfway).2 owner := by
  have hrun : Runs (fun _ => True) (genesis₀ 200) (after halfway).1 (after halfway).2 :=
    Run.exec (p := fun _ => True) .nil (by simp)
  have hbelow := hrun.tracked.1.accounted.below
  have hindex : (after halfway).2.sale.preorder_index = 2 := by decide +kernel
  have hgone : ((after halfway).2.sale.preorders 0).isSome = false := by decide +kernel
  have hleft : ((after halfway).2.sale.preorders 1).isSome = true := by decide +kernel
  have hminted : (0, Resolution.minted) ∈ history resolutions (after halfway).1 := by
    decide +kernel
  have hkeys : Keys (after halfway).2 [1] := by
    refine ⟨List.nodup_singleton 1, ?_⟩
    intro p
    rw [List.mem_singleton]
    constructor
    · rintro rfl
      exact hleft
    · intro hp
      obtain ⟨info, hinfo⟩ := Option.isSome_iff_exists.mp hp
      have hlt : p < 2 := hindex ▸ hbelow.lt hinfo
      have hne : p ≠ 0 := by
        rintro rfl
        rw [hgone] at hp
        cases hp
      exact Nat.le_antisymm (Nat.le_of_lt_succ hlt) (Nat.one_le_iff_ne_zero.mpr hne)
  refine ⟨by simpa using hgone, hleft, ?_⟩
  intro hcomplete
  obtain ⟨info, hinfo⟩ := Option.isSome_iff_exists.mp hleft
  have hlt := (preorders_by_owner (T := runtime 200) (g := GenesisConfig.default) (w := world₀)
    hrun hkeys).mp hcomplete 1 info hinfo (0, .minted) hminted
  exact absurd hlt (by decide)

end PhalaWorld
