import PhalaWorld.Specs.Incubation
import PhalaWorld.Model.System

/-! # When a call reports that a kind is sold out

    `RaceMintMaxReached` is raised in one place, deep inside a mint. The
    lemmas follow it outwards: which function can return it, and in which
    state the pool was empty. For a batch that is the state after the
    rounds before the one that failed, which the failure takes back.
-/

namespace PhalaWorld

open LTS Transaction

variable {AccountId : Type} {T : Config AccountId}

/-! ### Requests -/

/-- What the inventory tells apart. -/
abbrev Kind := RarityType × RaceType

/-- The kinds the pending preorders among `ids` ask for. -/
def requested (s : State T) (ids : List PreorderId) : List Kind :=
  ids.filterMap fun id => (s.sale.preorders id).map fun info => (.Prime, info.race)

/-- What a call asks to mint for sale, in order. -/
def Call.requests (s : State T) : Call T → List Kind
  | .buy_rare_origin_of_shell rarity_type race _ => [(rarity_type, race)]
  | .buy_prime_origin_of_shell _ race _ => [(.Prime, race)]
  | .mint_chosen_preorders preorders => requested s (preorders.take T.IterLimit.toNat)
  | _ => []

theorem requested_append (s : State T) (ids ids' : List PreorderId) :
    requested s (ids ++ ids') = requested s ids ++ requested s ids' :=
  List.filterMap_append

theorem requested_cons_of_some {s : State T} {p : PreorderId}
    {info : PreorderInfo AccountId T.Metadata} (h : s.sale.preorders p = some info)
    (ids : List PreorderId) :
    requested s (p :: ids) = (.Prime, info.race) :: requested s ids := by
  simp [requested, h]

/-- The rounds of a batch take pending preorders, and leave the others. -/
theorem mint_rounds_preorders [DecidableEq AccountId] {o : AccountId} {last : Bool}
    {ids : List PreorderId} {s s' : State T} (hl : Chain (MintsPreorder o last) s ids s') :
    (∀ p ∈ ids, s.sale.preorders p ≠ none ∧ s'.sale.preorders p = none) ∧
      ∀ p, p ∉ ids → s'.sale.preorders p = s.sale.preorders p := by
  induction hl with
  | nil => exact ⟨fun p hp => absurd hp List.not_mem_nil, fun _ _ => rfl⟩
  | @cons s s₁ s' q ids hm hl ih =>
    obtain ⟨htaken, hleft⟩ := ih
    have hpre := hm.preorders
    obtain ⟨info, _, _, _, hinfo, _, _⟩ := hm
    constructor
    · intro p hp
      by_cases hpq : p = q
      · subst hpq
        refine ⟨by rw [hinfo]; simp, ?_⟩
        by_cases hmem : p ∈ ids
        · exact (htaken p hmem).2
        · rw [hleft p hmem, hpre, Function.update_self]
      · have hmem := (List.mem_cons.mp hp).resolve_left hpq
        obtain ⟨hsome, hnone⟩ := htaken p hmem
        rw [hpre, Function.update_of_ne hpq] at hsome
        exact ⟨hsome, hnone⟩
    · intro p hp
      rw [List.mem_cons, not_or] at hp
      obtain ⟨hpq, hmem⟩ := hp
      rw [hleft p hmem, hpre, Function.update_of_ne hpq]

/-! ### Who can report it -/

namespace NftSale
variable {s s' : State T} {e : DispatchError T.ModuleError}

theorem has_race_type_left_race_mint_max {r : RarityType} {ra : RaceType} {pool : NftSaleType}
    (h : has_race_type_left r ra pool s = (.error (.err (.NftSale .RaceMintMaxReached)), s')) :
    pool = .ForSale ∧ ∃ i, s.sale.origin_of_shells_inventory (r, ra) = some i ∧
      i.race_for_sale_count = 0 := by
  cases hi : s.sale.origin_of_shells_inventory (r, ra) <;> cases pool <;>
    simp [has_race_type_left, hi, Error.into] at h ⊢
  exact h.1

theorem set_nft_attributes_ne_race_mint_max {c : CollectionId} {n : NftId} {r : RarityType}
    {ra : RaceType} {ca : CareerType} {g : GenerationId} :
    set_nft_attributes c n r ra ca g s ≠ (.error (.err (.NftSale .RaceMintMaxReached)), s') := by
  intro h
  simp [set_nft_attributes, overlord, to_boundedvec_key, expect, Error.into] at h

theorem decrement_race_type_left_ne_err {r : RarityType} {ra : RaceType} {pool : NftSaleType} :
    decrement_race_type_left r ra pool s ≠ (.error (.err e), s') := by
  cases hi : s.sale.origin_of_shells_inventory (r, ra) <;> cases pool <;>
    simp [decrement_race_type_left, insert_inventory, hi, plain_sub_ne_err]

theorem increment_race_type_ne_err {r : RarityType} {ra : RaceType} :
    increment_race_type r ra s ≠ (.error (.err e), s') := by
  cases hi : s.sale.origin_of_shells_inventory (r, ra) <;>
    simp [increment_race_type, insert_inventory, hi, plain_add_ne_err]

theorem increment_career_type_ne_err {ca : CareerType} :
    increment_career_type ca s ≠ (.error (.err e), s') := by
  simp [increment_career_type, plain_add_ne_err]

/-- The block hook may panic, but returns no error. -/
theorem on_finalize_ne_err : on_finalize s ≠ (.error (.err e), s') := by
  intro h
  cases hz : s.sale.zero_day <;>
    simp [on_finalize, hz, plain_sub_ne_err, plain_div_ne_err, plain_add_ne_err] at h

theorem do_mint_spirit_nft_ne_race_mint_max {o a : AccountId} :
    do_mint_spirit_nft o a s ≠ (.error (.err (.NftSale .RaceMintMaxReached)), s') := by
  intro h
  simp [do_mint_spirit_nft, get_spirit_collection_id, owns_nft_in_collection, Error.into] at h

/-- A mint reports `RaceMintMaxReached` only when nothing is left for sale. -/
theorem do_mint_race_mint_max {o a : AccountId} {r : RarityType} {ra : RaceType} {ca : CareerType}
    {g : GenerationId} {price : Nat} {pool : NftSaleType} {check : Bool}
    (h : do_mint_origin_of_shell_nft o a r ra ca g price pool check s =
      (.error (.err (.NftSale .RaceMintMaxReached)), s')) :
    pool = .ForSale ∧ ∃ i, s.sale.origin_of_shells_inventory (r, ra) = some i ∧
      i.race_for_sale_count = 0 := by
  simp [do_mint_origin_of_shell_nft, get_spirit_collection_id, owns_nft_in_collection,
    get_origin_of_shell_collection_id, get_origin_of_shell_metadata,
    set_nft_attributes_ne_race_mint_max, Error.into, decrement_race_type_left_ne_err,
    increment_race_type_ne_err, increment_career_type_ne_err] at h
  obtain ⟨_, _, _, _, _, s₁, hcheck, _, hleft⟩ := h
  obtain rfl : s₁ = s := by rcases hcheck with ⟨_, h, _⟩ | ⟨_, h⟩ <;> exact h
  exact has_race_type_left_race_mint_max hleft

/-- It does report it, where the checks before pass. -/
theorem do_mint_sold_out {o a : AccountId} {r : RarityType} {ra : RaceType} {ca : CareerType}
    {g : GenerationId} {price : Nat} {c sp : CollectionId} {md : T.Metadata} {i : NftSaleInfo}
    (hsp : s.sale.spirit_collection_id = some sp) (hholds : T.holds s.world sp a = true)
    (hc : s.sale.origin_of_shell_collection_id = some c)
    (hmd : s.sale.origin_of_shells_metadata ra = some md)
    (hi : s.sale.origin_of_shells_inventory (r, ra) = some i) (hleft : i.race_for_sale_count = 0) :
    do_mint_origin_of_shell_nft o a r ra ca g price .ForSale false s =
      (.error Error.RaceMintMaxReached.into, s) := by
  simp [do_mint_origin_of_shell_nft, has_race_type_left, hsp, hholds, hc, hmd, hi, hleft]

section purchases
variable {origin : Origin AccountId}

theorem buy_rare_race_mint_max {r : RarityType} {ra : RaceType} {ca : CareerType}
    (h : buy_rare_origin_of_shell origin r ra ca s =
      (.error (.err (.NftSale .RaceMintMaxReached)), s')) :
    ∃ a i, origin = .signed a ∧ s.sale.origin_of_shells_inventory (r, ra) = some i ∧
      i.race_for_sale_count = 0 := by
  cases r <;> simp [buy_rare_origin_of_shell, overlord, Error.into] at h
  all_goals
    obtain ⟨⟨_, a, rfl, _, _, _, hmint⟩, rfl⟩ := h
    obtain ⟨_, i, hi, hleft⟩ := do_mint_race_mint_max hmint
    exact ⟨a, i, rfl, hi, hleft⟩

theorem buy_prime_race_mint_max {sig : T.Signature} {ra : RaceType} {ca : CareerType}
    (h : buy_prime_origin_of_shell origin sig ra ca s =
      (.error (.err (.NftSale .RaceMintMaxReached)), s')) :
    ∃ a i, origin = .signed a ∧ s.sale.origin_of_shells_inventory (.Prime, ra) = some i ∧
      i.race_for_sale_count = 0 := by
  simp [buy_prime_origin_of_shell, overlord, verify_claim, Error.into] at h
  obtain ⟨⟨_, a, rfl, _, _, _, ⟨_, _, hmint⟩ | ⟨_, hmint⟩⟩, rfl⟩ := h
  · obtain ⟨_, i, hi, hleft⟩ := do_mint_race_mint_max hmint
    exact ⟨a, i, rfl, hi, hleft⟩
  · obtain ⟨_, i, hi, hleft⟩ := do_mint_race_mint_max hmint
    exact ⟨a, i, rfl, hi, hleft⟩

end purchases

section batches
variable [DecidableEq AccountId] {origin : Origin AccountId}

/-- A batch reports it in one of its rounds, after the rounds before it. -/
theorem mint_chosen_preorders_race_mint_max {ids : List PreorderId}
    (h : mint_chosen_preorders origin ids s =
      (.error (.err (.NftSale .RaceMintMaxReached)), s')) :
    ∃ o done p rest s₁ info i, ids.take T.IterLimit.toNat = done ++ p :: rest ∧
      Chain (MintsPreorder o s.sale.last_day_of_sale) s done s₁ ∧
      s₁.sale.preorders p = some info ∧
      s₁.sale.origin_of_shells_inventory (.Prime, info.race) = some i ∧
      i.race_for_sale_count = 0 := by
  simp [mint_chosen_preorders, Error.into, for_preorders_eq T.IterLimit.toNat_lt] at h
  obtain ⟨⟨_, o, rfl, ho, hl⟩, rfl⟩ := h
  obtain ⟨done, p, rest, s₁, hids, hdone, hp⟩ := forEach_error.mp hl
  simp [mint_chosen_preorder, take_preorder, remove_owner_has_preorder, Error.into] at hp
  obtain ⟨info, hinfo, hmint⟩ := hp
  obtain ⟨_, i, hi, hleft⟩ := do_mint_race_mint_max hmint
  exact ⟨o, done, p, rest, s₁, info, i, hids, (mint_rounds_ok ho).mp hdone, hinfo, hi, hleft⟩

theorem mint_chosen_preorder_sold_out (o : AccountId) (price : Nat) (last : Bool)
    {p : PreorderId} {info : PreorderInfo AccountId T.Metadata} {c sp : CollectionId}
    {md : T.Metadata} {i : NftSaleInfo} (hp : s.sale.preorders p = some info)
    (hsp : s.sale.spirit_collection_id = some sp)
    (hholds : T.holds (T.unreserve info.owner price s.world) sp info.owner = true)
    (hc : s.sale.origin_of_shell_collection_id = some c)
    (hmd : s.sale.origin_of_shells_metadata info.race = some md)
    (hi : s.sale.origin_of_shells_inventory (.Prime, info.race) = some i)
    (hleft : i.race_for_sale_count = 0) :
    ∃ s', mint_chosen_preorder o price last p s = (.error Error.RaceMintMaxReached.into, s') :=
  ⟨_, bind_error.mpr (.inr ⟨info, _, take_preorder_ok.mpr ⟨hp, rfl⟩,
    bind_unit_error.mpr (.inr ⟨_, outside_infallible_ok.mpr rfl,
      bind_unit_error.mpr (.inl (do_mint_sold_out hsp hholds hc hmd hi hleft))⟩)⟩)⟩

/-- A round that fails makes the batch fail, and takes back the rounds before. -/
theorem mint_chosen_preorders_fails {o : AccountId} {ids done rest : List PreorderId}
    {p : PreorderId} {s₁ s₂ : State T} {e : Failure T.ModuleError} (ho : s.sale.overlord = some o)
    (hids : ids.take T.IterLimit.toNat = done ++ p :: rest)
    (hl : Chain (MintsPreorder o s.sale.last_day_of_sale) s done s₁)
    (hp : mint_chosen_preorder o T.PrimeOriginOfShellPrice s.sale.last_day_of_sale p s₁ =
      (.error e, s₂)) :
    mint_chosen_preorders (.signed o) ids s = (.error e, s) := by
  have hrounds := forEach_error.mpr ⟨done, p, rest, s₁, hids, (mint_rounds_ok ho).mpr hl, hp⟩
  simp [mint_chosen_preorders, for_preorders_eq T.IterLimit.toNat_lt, ho, hrounds]

theorem refund_not_chosen_preorders_ne_race_mint_max {ids : List PreorderId} :
    refund_not_chosen_preorders origin ids s ≠
      (.error (.err (.NftSale .RaceMintMaxReached)), s') := by
  intro h
  simp [refund_not_chosen_preorders, Error.into, for_preorders_eq T.IterLimit.toNat_lt] at h
  obtain ⟨⟨_, o, rfl, ho, hl⟩, rfl⟩ := h
  obtain ⟨done, p, rest, s₁, _, _, hp⟩ := forEach_error.mp hl
  simp [refund_not_chosen_preorder, take_preorder, remove_owner_has_preorder, Error.into] at hp

theorem mint_gift_ne_race_mint_max {a : AccountId} {r : RarityType} {ra : RaceType}
    {ca : CareerType} {pool : NftSaleType} :
    mint_gift_origin_of_shell origin a r ra ca pool s ≠
      (.error (.err (.NftSale .RaceMintMaxReached)), s') := by
  intro h
  simp [mint_gift_origin_of_shell, Error.into] at h
  obtain ⟨⟨_, o, rfl, ho, hpool, hmint⟩, rfl⟩ := h
  exact hpool (do_mint_race_mint_max hmint).1

end batches

end NftSale

theorem Incubation.read_attributes_ne_race_mint_max {c : CollectionId} {n : NftId}
    {kr kc kt kg : T.Key} {s s' : State T} :
    read_attributes c n kr kc kt kg s ≠
      (.error (.err (.NftSale .RaceMintMaxReached)), s') := by
  intro h
  simp [read_attributes, expect, Error.into] at h

theorem Incubation.reduce_hatch_times_ne_race_mint_max {l : List ((CollectionId × NftId) × Nat)}
    {s s' : State T} :
    forEach reduce_hatch_time l s ≠ (.error (.err (.NftSale .RaceMintMaxReached)), s') :=
  forEach_ne_error (fun x s s' h => by simp [reduce_hatch_time, Error.into] at h) l

/-- Only purchases and batches report it, and only when the pool they ask is
    empty, after the rounds before where it is a batch. -/
theorem dispatch_race_mint_max [DecidableEq AccountId] {origin : Origin AccountId} {c : Call T}
    {s s' : State T}
    (h : dispatch origin c s = (.error (.err (.NftSale .RaceMintMaxReached)), s')) :
    ∃ o ids s₁ k rest i, Chain (MintsPreorder o s.sale.last_day_of_sale) s ids s₁ ∧
      c.requests s = requested s ids ++ k :: rest ∧
      s₁.sale.origin_of_shells_inventory k = some i ∧ i.race_for_sale_count = 0 := by
  cases c with
  | buy_rare_origin_of_shell r ra ca =>
    obtain ⟨a, i, rfl, hi, hleft⟩ := NftSale.buy_rare_race_mint_max h
    exact ⟨a, [], s, (r, ra), [], i, .nil s, rfl, hi, hleft⟩
  | buy_prime_origin_of_shell sig ra ca =>
    obtain ⟨a, i, rfl, hi, hleft⟩ := NftSale.buy_prime_race_mint_max h
    exact ⟨a, [], s, (.Prime, ra), [], i, .nil s, rfl, hi, hleft⟩
  | mint_chosen_preorders ids =>
    obtain ⟨o, done, p, rest, s₁, info, i, hids, hl, hp, hi, hleft⟩ :=
      NftSale.mint_chosen_preorders_race_mint_max h
    obtain ⟨htaken, hkept⟩ := mint_rounds_preorders hl
    have hnew : p ∉ done := fun hmem => by
      rw [(htaken p hmem).2] at hp
      cases hp
    refine ⟨o, done, s₁, (.Prime, info.race), requested s rest, i, hl, ?_, hi, hleft⟩
    rw [hkept p hnew] at hp
    rw [Call.requests, hids, requested_append, requested_cons_of_some hp]
  | refund_not_chosen_preorders ids =>
    exact absurd h NftSale.refund_not_chosen_preorders_ne_race_mint_max
  | mint_gift_origin_of_shell a r ra ca pool => exact absurd h NftSale.mint_gift_ne_race_mint_max
  | claim_spirit =>
    simp [dispatch, NftSale.claim_spirit, NftSale.Error.into, NftSale.overlord,
      NftSale.do_mint_spirit_nft_ne_race_mint_max] at h
  | redeem_spirit sig =>
    simp [dispatch, NftSale.redeem_spirit, NftSale.Error.into, NftSale.overlord,
      NftSale.verify_claim, NftSale.do_mint_spirit_nft_ne_race_mint_max] at h
  | preorder_origin_of_shell ra ca =>
    simp [dispatch, NftSale.preorder_origin_of_shell, NftSale.Error.into,
      NftSale.get_spirit_collection_id, NftSale.get_origin_of_shell_collection_id,
      NftSale.owns_nft_in_collection, NftSale.get_origin_of_shell_metadata] at h
  | set_overlord o => simp [dispatch, NftSale.set_overlord] at h
  | initialize_world_clock =>
    simp [dispatch, NftSale.initialize_world_clock, NftSale.Error.into, plain_sub_ne_err,
      plain_rem_ne_err] at h
  | set_status_type status status_type =>
    cases status_type <;>
      simp [dispatch, NftSale.set_status_type, NftSale.set_claim_spirits_status,
        NftSale.set_purchase_rare_origin_of_shells_status,
        NftSale.set_purchase_prime_origin_of_shells_status,
        NftSale.set_preorder_origin_of_shells_status, NftSale.set_last_day_of_sale_status,
        NftSale.Error.into] at h
  | init_rarity_type_counts =>
    simp [dispatch, NftSale.init_rarity_type_counts, NftSale.set_initial_origin_of_shell_inventory,
      NftSale.insert_inventory, NftSale.Error.into] at h
  | update_rarity_type_counts r fs g =>
    simp [dispatch, NftSale.update_rarity_type_counts, NftSale.update_nft_sale_info,
      NftSale.Error.into] at h
  | set_spirit_collection_id cid =>
    simp [dispatch, NftSale.set_spirit_collection_id, NftSale.Error.into] at h
  | set_origin_of_shell_collection_id cid =>
    simp [dispatch, NftSale.set_origin_of_shell_collection_id, NftSale.Error.into] at h
  | pw_create_collection md max symbol =>
    simp [dispatch, NftSale.pw_create_collection, NftSale.Error.into] at h
  | set_spirits_metadata md =>
    simp [dispatch, NftSale.set_spirits_metadata, NftSale.Error.into] at h
  | set_origin_of_shells_metadata l =>
    simp [dispatch, NftSale.set_origin_of_shells_metadata, NftSale.Error.into, forEach_ne_error] at h
  | start_incubation cid n =>
    simp [dispatch, Incubation.start_incubation, Incubation.Error.into] at h
  | feed_origin_of_shell cid n =>
    simp [dispatch, Incubation.feed_origin_of_shell, Incubation.Error.into, plain_add_ne_err,
      Incubation.update_food_info_error] at h
  | hatch_origin_of_shell cid n md =>
    simp [dispatch, Incubation.hatch_origin_of_shell, Incubation.Error.into, NftSale.Error.into,
      NftSale.to_boundedvec_key, NftSale.set_nft_attributes_ne_race_mint_max,
      Incubation.read_attributes_ne_race_mint_max] at h
  | update_incubation_time l =>
    simp [dispatch, Incubation.update_incubation_time, NftSale.Error.into,
      Incubation.reduce_hatch_times_ne_race_mint_max] at h
  | set_can_start_incubation_status status =>
    simp [dispatch, Incubation.set_can_start_incubation_status, NftSale.Error.into,
      plain_add_ne_err] at h
  | set_shell_collection_id cid =>
    simp [dispatch, Incubation.set_shell_collection_id, NftSale.Error.into,
      Incubation.Error.into] at h

end PhalaWorld
