import PhalaWorld.Framework.BoundedMap
import PhalaWorld.Specs.Laws
import PhalaWorld.Specs.History
import PhalaWorld.Reference.Mock

/-! # Soulbound items

    Spirits and Origin of Shells are frozen when they are minted, under an
    id that was predicted before the mint, and never thawed: they stay with
    the account they were minted to. An Origin of Shell also gets its four
    attributes then, and a hatch reads them back.

    * `receipts`: the Spirits and Origin of Shells an entry minted.
    * `Receipted`: the invariant, that every item is as its receipt says.
    * `soulbound`: what holds of every item in every reachable state.
-/

namespace PhalaWorld

open LTS Tokens BoundedMap Transaction

variable {AccountId : Type} {T : Config AccountId}

/-! ### Receipts -/

/-- A Spirit or an Origin of Shell that was minted; a Spirit has no traits. -/
structure Receipt (AccountId : Type) where
  collection_id : CollectionId
  nft_id : NftId
  owner : AccountId
  traits : Option Traits

/-- The receipt an event gives. Origin of Shells are of generation 0. -/
def Event.receipt : Event T → Option (Receipt AccountId)
  | .SpiritClaimed owner collection_id nft_id => some ⟨collection_id, nft_id, owner, none⟩
  | .OriginOfShellMinted rarity_type collection_id nft_id owner race career =>
      some ⟨collection_id, nft_id, owner, some ⟨rarity_type, race, career, 0⟩⟩
  | _ => none

/-- The receipts of one step. -/
def receipts (e : Entry T) : List (Receipt AccountId) :=
  (emitted e).filterMap Event.receipt

theorem Event.receipt_of_isQuiet {event : Event T} (h : event.isQuiet = true) :
    event.receipt = none := by
  cases event <;> first | rfl | cases h

/-! ### The invariant -/

/-- What can be said of an item. -/
structure Holding (AccountId : Type) where
  owner : AccountId
  frozen : Bool
  traits : Option Traits

/-- What a receipt says of its item. -/
def Receipt.holding (r : Receipt AccountId) : Holding AccountId := ⟨r.owner, true, r.traits⟩

/-- Is `d` one of the two collections whose items stay with their owner? -/
def Soulbound (s : State T) (d : CollectionId) : Prop :=
  s.sale.spirit_collection_id = some d ∨ s.sale.origin_of_shell_collection_id = some d

/-- What can be said of an item of `d`, where only the items of the Origin
    of Shell collection of `f` have traits. -/
def holding (f : State T) (d : CollectionId) (x : Item AccountId T.Metadata × Option Traits) :
    Holding AccountId :=
  ⟨x.1.owner, x.1.frozen,
    if f.sale.origin_of_shell_collection_id = some d then x.2 else none⟩

/-- The items of `d`. -/
def holdings (f : State T) (w : T.World) (d : CollectionId) : NftId → Option (Holding AccountId) :=
  Option.map (holding f d) ∘ T.listed w d

/-- The receipts for items of `d`. -/
def register (rs : List (Receipt AccountId)) (d : CollectionId) :
    List (NftId × Holding AccountId) :=
  (rs.filter fun r => r.collection_id = d).map fun r => (r.nft_id, r.holding)

/-- The collection ids that are set are distinct. -/
structure DistinctIds (s : State T) : Prop where
  spirit_origin_of_shell : ∀ d, s.sale.spirit_collection_id = some d →
    s.sale.origin_of_shell_collection_id ≠ some d
  spirit_shell : ∀ d, s.sale.spirit_collection_id = some d →
    s.incubation.shell_collection_id ≠ some d
  origin_of_shell_shell : ∀ d, s.sale.origin_of_shell_collection_id = some d →
    s.incubation.shell_collection_id ≠ some d

/-- After the receipts `rs`, every item of a collection that is soulbound at
    the end `f` of the run is as its receipt says. -/
structure Receipted (f : State T) (rs : List (Receipt AccountId)) (s : State T) : Prop where
  ids : IdsKept s f
  marked : ∀ r ∈ rs, f.sale.origin_of_shell_collection_id = some r.collection_id →
    ∃ t, r.traits = some t ∧ t.generation = 0
  recorded : ∀ d, Soulbound f d →
    Recorded (holdings f s.world d) ((T.nfts s.world).next d) (register rs d)

section moves
variable {f s s' : State T} {rs : List (Receipt AccountId)} {d : CollectionId} {w w' : T.World}

theorem register_append (rs rs' : List (Receipt AccountId)) (d : CollectionId) :
    register (rs ++ rs') d = register rs d ++ register rs' d := by
  rw [register, List.filter_append, List.map_append]
  rfl

theorem register_self (r : Receipt AccountId) :
    register [r] r.collection_id = [(r.nft_id, r.holding)] := by
  simp [register]

theorem register_of_ne (r : Receipt AccountId) (h : d ≠ r.collection_id) : register [r] d = [] := by
  simp [register, Ne.symm h]

theorem holdings_of_some {n : NftId} {i : Item AccountId T.Metadata}
    (h : (T.nfts w).item (d, n) = some i) :
    holdings f w d n = some (holding f d (i, T.traits w (d, n))) := by
  rw [holdings, Function.comp_apply, Config.listed, h]
  rfl

/-- A step that mints, burns and moves nothing soulbound. -/
theorem Receipted.keep (h : Receipted f rs s) (hids : IdsKept s' f)
    (hsame : ∀ d, Soulbound f d → (T.nfts s'.world).next d = (T.nfts s.world).next d ∧
      T.listed s'.world d = T.listed s.world d) : Receipted f rs s' := by
  refine ⟨hids, h.marked, ?_⟩
  intro d hd
  obtain ⟨hnext, hlisted⟩ := hsame d hd
  rw [holdings, hlisted, hnext]
  exact h.recorded d hd

/-- The same for a step that leaves the items alone altogether. -/
theorem Receipted.keep_nfts (h : Receipted f rs s) (hids : IdsKept s' f)
    (hnfts : T.nfts s'.world = T.nfts s.world) : Receipted f rs s' :=
  h.keep hids fun d _ => ⟨by rw [hnfts], funext fun n =>
    listed_congr (by rw [hnfts]) fun k => by rw [hnfts]⟩

/-- A frozen item with the traits of its receipt is minted. -/
theorem Receipted.receive {r : Receipt AccountId} (h : Receipted f rs s) (hids : IdsKept s' f)
    (hmark : f.sale.origin_of_shell_collection_id = some r.collection_id →
      ∃ t, r.traits = some t ∧ t.generation = 0)
    (hrec : Nfts.Received r.owner r.collection_id true (T.nfts s.world) (T.nfts s'.world))
    (hid : r.nft_id = (T.nfts s.world).next r.collection_id)
    (htraits : (if f.sale.origin_of_shell_collection_id = some r.collection_id then
      T.traits s'.world (r.collection_id, r.nft_id) else none) = r.traits) :
    Receipted f (rs ++ [r]) s' := by
  refine ⟨hids, ?_, ?_⟩
  · intro r' hr'
    rcases List.mem_append.mp hr' with hr' | hr'
    · exact h.marked r' hr'
    · rw [List.mem_singleton.mp hr']
      exact hmark
  intro d hd
  rw [register_append]
  by_cases hdc : d = r.collection_id
  · subst hdc
    obtain ⟨md, hlisted⟩ := listed_received_self hrec
    rw [holdings, hlisted, Function.comp_update, hrec.next_self, register_self, hid]
    rw [hid] at htraits
    have hnew : holding f r.collection_id (⟨r.owner, true, md⟩,
        T.traits s'.world (r.collection_id, (T.nfts s.world).next r.collection_id)) = r.holding :=
      congrArg (Holding.mk r.owner true) htraits
    rw [Option.map_some, hnew]
    exact (h.recorded _ hd).insert
  · rw [register_of_ne r hdc, List.append_nil, hrec.next_of_ne hdc, holdings,
      listed_received_of_ne hrec hdc]
    exact h.recorded d hd

/-- A claimed Spirit. -/
theorem Receipted.claim (hN : NftLaws T) (hf : DistinctIds f) {o a : AccountId} {c : CollectionId}
    (h : Receipted f rs s) (hm : MintsSpirit o a c s s') :
    Receipted f (rs ++ [⟨c, T.NextNftId s.world c, a, none⟩]) s' := by
  have hspirit := h.ids.spirit c hm.collection
  have hrec := (hm.minted hN).1.received
  obtain ⟨md, w₁, w₂, _, _, _, rfl⟩ := hm.post
  -- a Spirit has no traits, and its collection is not the other one
  have hother := hf.spirit_origin_of_shell c hspirit
  refine h.receive (h.ids.of_same rfl rfl rfl) (fun hc => absurd hc hother) hrec rfl ?_
  rw [if_neg hother]

/-- A sold or given Origin of Shell. -/
theorem Receipted.mint [DecidableEq AccountId] (hC : CurrencyLaws T) (hN : NftLaws T)
    {o a : AccountId} {t : Traits} {price : Nat} {pool : NftSaleType} {check : Bool}
    {c : CollectionId} {i : NftSaleInfo} (h : Receipted f rs s)
    (hm : Mints o a t price pool check c i s s') (hg : t.generation = 0) :
    Receipted f (rs ++ [⟨c, T.NextNftId s.world c, a, some t⟩]) s' := by
  have hcoll := h.ids.origin_of_shell c hm.collection
  obtain ⟨hminted, htraits, _⟩ := hm.minted hC hN
  obtain ⟨md, w, rc, cc, _, _, _, _, rfl⟩ := hm.post
  refine h.receive (h.ids.of_same rfl rfl rfl) (fun _ => ⟨t, rfl, hg⟩) hminted.received rfl ?_
  rw [if_pos hcoll]
  exact htraits

/-- A hatch burns an Origin of Shell; the Shell is not soulbound. -/
theorem Receipted.hatch (hN : NftLaws T) (hf : DistinctIds f) {o a : AccountId} {c : CollectionId}
    {n : NftId} {sc : CollectionId} {md : T.Metadata} {t : Traits} (h : Receipted f rs s)
    (hh : Hatches o a c n sc md t s s') : Receipted f rs s' := by
  have hshell := h.ids.shell sc hh.shell_collection
  obtain ⟨w, hawakens, rfl⟩ := hh.post
  refine ⟨h.ids.of_same rfl rfl rfl, h.marked, ?_⟩
  intro d hd
  have hdsc : d ≠ sc := by
    rintro rfl
    rcases hd with hd | hd
    · exact hf.spirit_shell d hd hshell
    · exact hf.origin_of_shell_shell d hd hshell
  obtain ⟨hnext, hlisted⟩ := hawakens.listed_burned hN hdsc
  rw [hnext, holdings, hlisted]
  -- in the collection of the burned item one entry goes, in the other none
  split
  · rw [Function.comp_update]
    exact (h.recorded d hd).erase n
  · exact h.recorded d hd

/-- What is soulbound is frozen. -/
theorem Receipted.all_frozen (h : Receipted f rs s) (hd : Soulbound f d) :
    (T.nfts s.world).AllFrozen d := by
  intro n i hi
  obtain ⟨r, _, hr⟩ := List.mem_map.mp ((h.recorded d hd).mem n _ (holdings_of_some hi))
  exact (congrArg (fun x => x.2.frozen) hr).symm

/-- Holders cannot pass on what is soulbound. -/
theorem Receipted.move (h : Receipted f rs s)
    (hmoved : Nfts.Moved (Soulbound f) (T.nfts s.world) (T.nfts w)) :
    Receipted f rs { s with world := w } := by
  refine h.keep (h.ids.of_same rfl rfl rfl) ?_
  intro d hd
  obtain ⟨hnext, hattr, _⟩ := hmoved d hd
  exact ⟨hnext, funext fun n => listed_congr (hmoved.item_eq hd (h.all_frozen hd) n) (hattr n)⟩

end moves

/-! ### Steps -/

section steps
variable [DecidableEq AccountId] {f s s' : State T} {rs : List (Receipt AccountId)}

/-- A round of `mint_chosen_preorders` mints one Origin of Shell. -/
theorem Receipted.mint_round (hC : CurrencyLaws T) (hN : NftLaws T) {o : AccountId} {last : Bool}
    {p : PreorderId} (h : Receipted f rs s) (hm : MintsPreorder o last s p s') :
    ∃ evs, s'.events = s.events ++ evs ∧
      Receipted f (rs ++ evs.filterMap Event.receipt) s' := by
  obtain ⟨info, c, i, s₁, _, hmint, rfl⟩ := hm
  have hrelease : Receipted f rs (s.release p info.owner) :=
    h.keep_nfts (h.ids.of_same rfl rfl rfl) (hC.unreserve_eq _ _ _).2
  have hminted := hrelease.mint hC hN hmint rfl
  exact ⟨_, hmint.events_append _, hminted.keep_nfts (hminted.ids.of_same rfl rfl rfl) rfl⟩

/-- A round of `refund_not_chosen_preorders` mints nothing. -/
theorem Receipted.refund_round (hC : CurrencyLaws T) {last : Bool} {p : PreorderId}
    (h : Receipted f rs s) (hr : RefundsPreorder last s p s') :
    ∃ evs, s'.events = s.events ++ evs ∧
      Receipted f (rs ++ evs.filterMap Event.receipt) s' := by
  obtain ⟨info, _, rfl⟩ := hr
  refine ⟨[.NotChosenPreorderRefunded p info.owner], rfl, ?_⟩
  rw [show List.filterMap Event.receipt [_] = [] from rfl, List.append_nil]
  exact h.keep_nfts (h.ids.of_same rfl rfl rfl) (hC.unreserve_eq _ _ _).2

/-- Every step keeps the invariant, with the receipts it gives. -/
theorem Receipted.step (hC : CurrencyLaws T) (hN : NftLaws T) (hf : DistinctIds f)
    {l : Label T} {r : Outcome T} (h : Receipted f rs s) (hids : IdsKept s' f)
    (hout : ∀ w, l = .outside w → Nfts.Moved (Soulbound f) (T.nfts s.world) (T.nfts w))
    (hs : Traded s l r s') :
    ∃ evs, s'.events = s.events ++ evs ∧
      Receipted f (rs ++ evs.filterMap Event.receipt) s' := by
  -- a step whose events give no receipt
  have hidle {evs : List (Event T)} (hevs : s'.events = s.events ++ evs)
      (hnone : evs.filterMap Event.receipt = []) (h : Receipted f rs s') :
      ∃ evs, s'.events = s.events ++ evs ∧
        Receipted f (rs ++ evs.filterMap Event.receipt) s' :=
    ⟨evs, hevs, by rw [hnone, List.append_nil]; exact h⟩
  cases hs with
  | quiet hq _ =>
    obtain ⟨evs, hevs, hquiet⟩ := hq.events
    refine hidle hevs (List.filterMap_eq_nil_iff.mpr fun event hmem =>
      Event.receipt_of_isQuiet (hquiet event hmem)) (h.keep_nfts hids (by rw [hq.world]))
  | @spirit a o c _ _ _ hm _ =>
    have hclaim := h.claim hN hf hm
    obtain ⟨md, w₁, w₂, _, _, _, rfl⟩ := hm.post
    exact ⟨_, rfl, hclaim⟩
  | buy _ hm _ => exact ⟨_, hm.events, h.mint hC hN hm rfl⟩
  | preorder hp =>
    obtain ⟨md, w, _, hreserve, rfl⟩ := hp.post
    exact hidle rfl rfl (h.keep_nfts hids (hC.reserve_ok hreserve).2.2)
  | mint _ hl =>
    exact hl.recorded (L := State.events) (J := Receipted f)
      (fun _ _ _ _ hJ hm => hJ.mint_round hC hN hm) h
  | refund _ hl =>
    exact hl.recorded (L := State.events) (J := Receipted f)
      (fun _ _ _ _ hJ hr => hJ.refund_round hC hr) h
  | gift _ _ hm =>
    have hminted := h.mint hC hN hm rfl
    exact ⟨_, hm.events_append _, hminted.keep_nfts hids rfl⟩
  | init => exact hidle rfl rfl (h.keep_nfts hids rfl)
  | update => exact hidle rfl rfl (h.keep_nfts hids rfl)
  | create _ hw =>
    obtain ⟨c, hview, _⟩ := hN.create_collection_ok hw
    refine hidle (List.append_nil _).symm rfl (h.keep hids fun d _ => ⟨?_, funext ?_⟩)
    · rw [hview, Nfts.create_next]
    · intro n
      exact listed_congr (by rw [hview, Nfts.create_item]) fun k => by rw [hview, Nfts.create_attr]
  | hatch hh =>
    have hhatch := h.hatch hN hf hh
    obtain ⟨w, _, rfl⟩ := hh.post
    exact hidle rfl rfl hhatch
  | outside => exact hidle (List.append_nil _).symm rfl (h.move (hout _ rfl))

end steps

/-! ### Failures of a hatch -/

namespace Incubation

/-- The failures of a hatch that come from the attributes it reads, or from
    writing them again. -/
def attribute_failures : List (Failure T.ModuleError) :=
  [Error.RaceNotDetected.into, Error.CareerNotDetected.into, Error.RarityTypeNotDetected.into,
    Error.GenerationNotDetected.into, .panic "[race] should not fail",
    .panic "[career] should not fail", .panic "[rarity] should not fail",
    .panic "[generation] should not fail"]

section failures
variable {s s' : State T} {e : Failure T.ModuleError}

/-- Values of up to four bytes fit, so that writing the attributes fails
    elsewhere, if it does. -/
theorem set_nft_attributes_failure (hvalue : 4 ≤ T.ValueLimit.toNat) {c : CollectionId} {n : NftId}
    {r : RarityType} {ra : RaceType} {ca : CareerType} {g : GenerationId}
    (he : e ∈ attribute_failures) : NftSale.set_nft_attributes c n r ra ca g s ≠ (.error e, s') := by
  have hfits (l : Bytes) (hl : l.length ≤ 4) :
      (BoundedVec.try_from l : Option T.Value) ≠ none := by
    rw [Ne, BoundedVec.try_from_eq_none]
    omega
  have hg := hfits (GenerationId.encode g) le_rfl
  simp only [attribute_failures, List.mem_cons, List.not_mem_nil, or_false] at he
  rcases he with rfl | rfl | rfl | rfl | rfl | rfl | rfl | rfl <;>
    simp [NftSale.set_nft_attributes, NftSale.overlord, NftSale.to_boundedvec_key, expect, hfits,
      hg, RarityType.encode_length, RaceType.encode_length, CareerType.encode_length,
      Error.into, NftSale.Error.into]

/-- Reading the attributes fails when one is not there, or is not readable. -/
theorem read_attributes_error {c : CollectionId} {n : NftId} {kr kc kt kg : T.Key}
    (hr : kr.1 = NftSale.race_key) (hc : kc.1 = NftSale.career_key) (ht : kt.1 = NftSale.rarity_key)
    (hg : kg.1 = NftSale.generation_key)
    (h : read_attributes c n kr kc kt kg s = (.error e, s')) : T.traits s.world (c, n) = none := by
  cases htraits : T.traits s.world (c, n) with
  | none => rfl
  | some t =>
    rw [(read_attributes_ok hr hc ht hg).mpr ⟨htraits, rfl⟩] at h
    cases h

/-- Where a hatch fails over the attributes, the item has no readable ones. -/
theorem hatch_attribute_failure [DecidableEq AccountId] (hvalue : 4 ≤ T.ValueLimit.toNat)
    {origin : Origin AccountId} {c : CollectionId} {n : NftId} {md : T.Metadata}
    (he : e ∈ attribute_failures) (h : hatch_origin_of_shell origin c n md s = (.error e, s')) :
    s.sale.origin_of_shell_collection_id = some c ∧
      (∃ a root, T.lookup_root_owner c n s.world = .ok (a, root)) ∧
      T.traits s.world (c, n) = none := by
  have hmodule (m : T.ModuleError) : e ≠ .err (.Module m) := by
    rintro rfl
    simp [attribute_failures, Error.into] at he
  have hsale (err : NftSale.Error) : err.into ≠ e := by
    rintro rfl
    simp [attribute_failures, Error.into, NftSale.Error.into] at he
  have hchecks : .err .BadOrigin ≠ e ∧ Error.StartIncubationNotAvailable.into ≠ e ∧
      Error.WrongCollectionId.into ≠ e ∧ Error.NoHatchTimeDetected.into ≠ e ∧
      Error.CannotHatchOriginOfShell.into ≠ e ∧ Error.ShellCollectionIdNotSet.into ≠ e := by
    refine ⟨?_, ?_, ?_, ?_, ?_, ?_⟩ <;>
      · rintro rfl
        simp [attribute_failures, Error.into] at he
  obtain ⟨horigin, hstart, hwrong, htime, hhatch, hshell⟩ := hchecks
  -- so the failure is one of reading the attributes
  simp [hatch_origin_of_shell, NftSale.to_boundedvec_key, set_nft_attributes_failure hvalue he,
    hmodule, hsale, horigin, hstart, hwrong, htime, hhatch, hshell] at h
  obtain ⟨⟨s₁, a, _, _, _, hc, ⟨owner, rc, rn, hroot⟩, _, _, _, _, kr, hkr, kc, hkc, kt, hkt, kg,
    hkg, hread⟩, _⟩ := h
  exact ⟨hc, ⟨owner, (rc, rn), hroot⟩, read_attributes_error (BoundedVec.try_from_eq_some.mp hkr)
    (BoundedVec.try_from_eq_some.mp hkc) (BoundedVec.try_from_eq_some.mp hkt)
    (BoundedVec.try_from_eq_some.mp hkg) hread⟩

end failures

end Incubation

/-! ### Runs -/

/-- In the collections that `P` selects, only transfers of items that are
    not frozen happen outside. -/
def MovesWithin (P : CollectionId → Prop) (w w' : T.World) : Prop :=
  Nfts.Moved P (T.nfts w) (T.nfts w')

section runs
variable [DecidableEq AccountId] {g : GenesisConfig AccountId} {w : T.World} {now : UInt64}
  {tr : List (Entry T)} {s : State T}

theorem Runs.receipted (hC : CurrencyLaws T) (hN : NftLaws T) {f : State T} (hf : DistinctIds f)
    (hempty : ∀ d n, Soulbound f d → (T.nfts w).item (d, n) = none)
    (h : Runs (Within (fun _ => True) (MovesWithin (Soulbound f))) (genesis g w now) tr s)
    (hids : IdsKept s f) : Receipted f (history receipts tr) s := by
  refine Runs.induction (J := fun tr s => IdsKept s f → Receipted f (history receipts tr) s)
    h ?_ ?_ hids
  · refine fun hids => ⟨hids, fun _ h => absurd h List.not_mem_nil, ?_⟩
    intro d hd
    have hnone : holdings f (genesis g w now).world d = fun _ => none :=
      funext fun n => congrArg (Option.map _) (listed_of_none (hempty d n hd))
    rw [hnone]
    exact recorded_empty _
  · intro tr s l r s' _ hJ hok hs hids
    obtain ⟨evs, hevs, h'⟩ := (hJ (hs.traded.ids_kept.trans hids)).step hC hN hf hids hok.2 hs.traded
    rw [history_cons, receipts, emitted_of_append hevs]
    exact h'

omit [DecidableEq AccountId] in
/-- An item has one receipt, which says what it is. -/
theorem Receipted.receipt {f : State T} {rs : List (Receipt AccountId)} (h : Receipted f rs s)
    {d : CollectionId} (hd : Soulbound f d) {n : NftId} {i : Item AccountId T.Metadata}
    (hi : (T.nfts s.world).item (d, n) = some i) :
    ∃ r, (∀ r', (r' ∈ rs ∧ r'.collection_id = d ∧ r'.nft_id = n) ↔ r' = r) ∧
      holdings f s.world d n = some r.holding := by
  have hv := holdings_of_some (f := f) hi
  have hmem := (h.recorded d hd).mem n _ hv
  obtain ⟨r, hr, hrv⟩ := List.mem_map.mp hmem
  obtain ⟨hr, hrd⟩ := List.mem_filter.mp hr
  obtain ⟨rfl, hrv⟩ := Prod.mk.inj hrv
  rw [← hrv] at hv hmem
  have hrd := of_decide_eq_true hrd
  -- the record has one entry for an id, and an entry determines its receipt
  refine ⟨r, fun r' => ⟨?_, ?_⟩, hv⟩
  · intro ⟨hr', hrd', hrn'⟩
    have hmem' : (r.nft_id, r'.holding) ∈ register rs d :=
      List.mem_map.mpr ⟨r', List.mem_filter.mpr ⟨hr', decide_eq_true hrd'⟩, by rw [hrn']⟩
    have hsame := (h.recorded d hd).unique hmem hmem'
    obtain ⟨c, m, a, t⟩ := r
    obtain ⟨c', m', a', t'⟩ := r'
    simp only [Receipt.holding, Holding.mk.injEq] at hsame hrd hrd' hrn'
    rw [hrd, hrd', hrn', hsame.1, hsame.2.2]
  · rintro rfl
    exact ⟨hr, hrd, rfl⟩

/-- The item `i`, number `n` of `d`, is frozen and has one receipt, which
    names its owner, and for an Origin of Shell its traits. -/
def Attested (rs : List (Receipt AccountId)) (s : State T) (d : CollectionId) (n : NftId)
    (i : Item AccountId T.Metadata) : Prop :=
  i.frozen = true ∧ ∃ r,
    (∀ r', (r' ∈ rs ∧ r'.collection_id = d ∧ r'.nft_id = n) ↔ r' = r) ∧ r.owner = i.owner ∧
    (s.sale.origin_of_shell_collection_id = some d →
      ∃ t, r.traits = some t ∧ t.generation = 0 ∧ T.traits s.world (d, n) = some t)

omit [DecidableEq AccountId] in
theorem Receipted.attested {rs : List (Receipt AccountId)} (h : Receipted s rs s)
    {d : CollectionId} (hd : Soulbound s d) {n : NftId} {i : Item AccountId T.Metadata}
    (hi : (T.nfts s.world).item (d, n) = some i) : Attested rs s d n i := by
  obtain ⟨r, hr, hhold⟩ := h.receipt hd hi
  rw [holdings_of_some hi, Option.some.injEq, holding, Receipt.holding, Holding.mk.injEq] at hhold
  obtain ⟨howner, hfrozen, htraits⟩ := hhold
  refine ⟨hfrozen, r, hr, howner.symm, ?_⟩
  intro hc
  obtain ⟨hmem, rfl, _⟩ := (hr r).mpr rfl
  obtain ⟨t, ht, hg⟩ := h.marked r hmem hc
  rw [if_pos hc] at htraits
  exact ⟨t, ht, hg, htraits.trans ht⟩

/-- **Soulbound and fully attributed.** In every reachable state, every
    Spirit and every Origin of Shell is frozen and belongs to the account it
    was minted to, every Origin of Shell carries the attributes it was minted
    with, and no hatch fails over them. -/
theorem soulbound (hC : CurrencyLaws T) (hN : NftLaws T) (hvalue : 4 ≤ T.ValueLimit.toNat)
    (hdistinct : DistinctIds s) (hempty : ∀ d n, Soulbound s d → (T.nfts w).item (d, n) = none)
    (h : Runs (Within (fun _ => True) (MovesWithin (Soulbound s))) (genesis g w now) tr s) :
    (∀ d n i, Soulbound s d → (T.nfts s.world).item (d, n) = some i →
      Attested (history receipts tr) s d n i) ∧
    ∀ origin c n md e s', step s (.call origin (.hatch_origin_of_shell c n md)) = (.error e, s') →
      e ∉ Incubation.attribute_failures := by
  have hreceipted := Runs.receipted hC hN hdistinct hempty h (.refl s)
  refine ⟨fun d n i hd hi => hreceipted.attested hd hi, ?_⟩
  intro origin c n md e s' hs he
  -- a hatch gets to the attributes only if the item is there
  obtain ⟨hc, ⟨a, root, hroot⟩, hnone⟩ := Incubation.hatch_attribute_failure hvalue he hs
  obtain ⟨i, hi, _⟩ := hN.lookup_root_owner_ok hroot
  obtain ⟨_, _, _, _, htraits⟩ := hreceipted.attested (.inr hc) hi
  obtain ⟨t, _, _, ht⟩ := htraits hc
  rw [hnone] at ht
  cases ht

open Mock in
/-- `CHARLIE` keeps the Origin of Shell he bought. -/
theorem soulbound_sale : ∃ i, ((runtime 200).nfts (after (sale 200)).2.world).item (1, 0) = some i ∧
    i.owner = CHARLIE ∧
    Attested (history receipts (after (sale 200)).1) (after (sale 200)).2 1 0 i := by
  have hrun : Runs (Within (fun _ => True) (MovesWithin (Soulbound (after (sale 200)).2)))
      (genesis₀ 200) (after (sale 200)).1 (after (sale 200)).2 :=
    runs_of_labels (sale 200) (by decide +kernel)
  have hids : (after (sale 200)).2.sale.spirit_collection_id = some 0 ∧
      (after (sale 200)).2.sale.origin_of_shell_collection_id = some 1 ∧
      (after (sale 200)).2.incubation.shell_collection_id = some 2 := by decide +kernel
  obtain ⟨hsp, hc, hsc⟩ := hids
  have hdistinct : DistinctIds (after (sale 200)).2 := by
    constructor <;> intro d hd <;> simp_all
  have howner : (((runtime 200).nfts (after (sale 200)).2.world).item (1, 0)).map Item.owner =
      some CHARLIE := by decide +kernel
  obtain ⟨i, hi, hia⟩ := Option.map_eq_some_iff.mp howner
  exact ⟨i, hi, hia, (soulbound (T := runtime 200) (g := GenesisConfig.default) (w := world₀)
    (currency_laws 200) (nft_laws 200) (by decide) hdistinct (fun _ _ _ => rfl) hrun).1 1 0 i
    (.inr hc) hi⟩

end runs

end PhalaWorld
