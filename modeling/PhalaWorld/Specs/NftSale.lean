import PhalaWorld.Model.System

/-! # What the sale pallet's functions do

    One lemma per function: when it succeeds, and what state it leaves.
    The proofs that follow cite these and do not unfold the functions.

    * `Issues`: the worlds a mint, its attributes and its freeze pass through.
    * `Mints`: what a successful `do_mint_origin_of_shell_nft` did.
    * `Preordered`, `MintedPreorder`, `RefundedPreorder`: the same for a
      preorder and for one round of each batch.
-/

namespace PhalaWorld

open LTS Transaction

variable {AccountId : Type} {T : Config AccountId}

/-- Does `a` hold an item of the collection, as the pallets ask it? -/
def Config.holds (T : Config AccountId) (w : T.World) (c : CollectionId) (a : AccountId) : Bool :=
  decide ((T.owned_in_collection c a w).length > 0)

/-! ### Attributes -/

/-- The attributes of an item, as key and value bytes in the order written. -/
def Traits.bytes (t : Traits) : List (Bytes × Bytes) :=
  [(NftSale.rarity_key, t.rarity_type.encode), (NftSale.race_key, t.race.encode),
    (NftSale.career_key, t.career.encode),
    (NftSale.generation_key, GenerationId.encode t.generation)]

/-- Writes one attribute of the item `x`. -/
def SetsAttribute (overlord : AccountId) (x : CollectionId × NftId) (w : T.World)
    (kv : Bytes × Bytes) (w' : T.World) : Prop :=
  ∃ (k : T.Key) (v : T.Value), k.1 = kv.1 ∧ v.1 = kv.2 ∧
    T.set_attribute overlord x.1 (some x.2) k v w = .ok w'

/-- Writes the attributes of the item `x`. -/
def SetsTraits (overlord : AccountId) (x : CollectionId × NftId) (t : Traits)
    (w w' : T.World) : Prop :=
  Chain (SetsAttribute overlord x) w t.bytes w'

/-! ### Inventory -/

namespace NftSaleInfo

/-- What is left of a pool. -/
def left (i : NftSaleInfo) : NftSaleType → Nat
  | .ForSale => i.race_for_sale_count
  | .Giveaway => i.race_giveaway_count
  | .Reserved => i.race_reserved_count

/-- Overwrites what is left of a pool. -/
def setLeft (i : NftSaleInfo) (t : NftSaleType) (n : Nat) : NftSaleInfo :=
  match t with
  | .ForSale => { i with race_for_sale_count := n }
  | .Giveaway => { i with race_giveaway_count := n }
  | .Reserved => { i with race_reserved_count := n }

@[simp] theorem left_setLeft_self (i : NftSaleInfo) (t : NftSaleType) (n : Nat) :
    (i.setLeft t n).left t = n := by
  cases t <;> rfl

theorem left_setLeft_of_ne (i : NftSaleInfo) {t t' : NftSaleType} (n : Nat) (h : t' ≠ t) :
    (i.setLeft t n).left t' = i.left t' := by
  cases t <;> cases t' <;> first | rfl | exact absurd rfl h

@[simp] theorem left_with_race_count (i : NftSaleInfo) (t : NftSaleType) (n : Nat) :
    ({ i with race_count := n } : NftSaleInfo).left t = i.left t := by
  cases t <;> rfl

@[simp] theorem race_count_setLeft (i : NftSaleInfo) (t : NftSaleType) (n : Nat) :
    (i.setLeft t n).race_count = i.race_count := by
  cases t <;> rfl

end NftSaleInfo

/-! ### Helpers -/

namespace NftSale
variable {s s' : State T} {u : Unit}

@[simp] theorem get_origin_of_shell_collection_id_ok {c : CollectionId} :
    get_origin_of_shell_collection_id s = (.ok c, s') ↔
      s.sale.origin_of_shell_collection_id = some c ∧ s' = s := by
  simp [get_origin_of_shell_collection_id, and_comm]

@[simp] theorem get_spirit_collection_id_ok {c : CollectionId} :
    get_spirit_collection_id s = (.ok c, s') ↔
      s.sale.spirit_collection_id = some c ∧ s' = s := by
  simp [get_spirit_collection_id, and_comm]

@[simp] theorem owns_nft_in_collection_ok {a : AccountId} {c : CollectionId} {b : Bool} :
    owns_nft_in_collection a c s = (.ok b, s') ↔ b = T.holds s.world c a ∧ s' = s := by
  simp [owns_nft_in_collection, Config.holds, and_comm]

@[simp] theorem to_boundedvec_key_ok {name : Bytes} {k : T.Key} :
    to_boundedvec_key name s = (.ok k, s') ↔ k.1 = name ∧ s' = s := by
  simp [to_boundedvec_key, BoundedVec.try_from_eq_some]

@[simp] theorem get_origin_of_shell_metadata_ok {race : RaceType} {md : T.Metadata} :
    get_origin_of_shell_metadata race s = (.ok md, s') ↔
      s.sale.origin_of_shells_metadata race = some md ∧ s' = s := by
  simp [get_origin_of_shell_metadata, and_comm]

@[simp] theorem overlord_ok {o : AccountId} :
    overlord s = (.ok o, s') ↔ s.sale.overlord = some o ∧ s' = s := by
  simp [overlord, and_comm]

@[simp] theorem ensure_overlord_ok [DecidableEq AccountId] {sender : AccountId} :
    ensure_overlord sender s = (.ok u, s') ↔ s.sale.overlord = some sender ∧ s' = s := by
  simp [ensure_overlord, and_comm]

@[simp] theorem ensure_overlord_error [DecidableEq AccountId] {sender : AccountId}
    {e : Failure T.ModuleError} :
    ensure_overlord sender s = (.error e, s') ↔
      s.sale.overlord ≠ some sender ∧ Error.RequireOverlordAccount.into = e ∧ s' = s := by
  simp [ensure_overlord]

/-- A claim is verified without touching the state. -/
@[simp] theorem verify_claim_ok {o a : AccountId} {sig : T.Signature} {p : Purpose} {b : Bool} :
    verify_claim o a sig p s = (.ok b, s') ↔
      (T.encode o).length = 32 ∧
        b = T.sr25519_verify sig (T.encode a ++ p.encode) (T.encode o) ∧ s' = s := by
  simp [verify_claim, and_comm, and_assoc]

theorem expect_try_from_ok {S : UInt32} {l : Bytes} {message : String}
    {v : BoundedVec UInt8 S} :
    expect (BoundedVec.try_from l) message s = (.ok v, s') ↔ v.1 = l ∧ s' = s := by
  simp [expect, BoundedVec.try_from_eq_some]

/-- Setting the attributes changes the world only. -/
theorem set_nft_attributes_ok {c : CollectionId} {n : NftId} {r : RarityType} {ra : RaceType}
    {ca : CareerType} {g : GenerationId} :
    set_nft_attributes c n r ra ca g s = (.ok u, s') ↔
      ∃ o w, s.sale.overlord = some o ∧ SetsTraits o (c, n) ⟨r, ra, ca, g⟩ s.world w ∧
        s' = { s with world := w } := by
  simp only [set_nft_attributes, ↓bind_unit_ok, bind_ok, overlord_ok, to_boundedvec_key_ok,
    expect_try_from_ok, outside_ok, ↓existsAndEq, and_true, SetsTraits, Traits.bytes, chain_cons,
    SetsAttribute, exists_and_left, chain_nil, exists_eq_right']
  constructor
  · rintro ⟨o, ho, kr, hkr, vr, hvr, ka, hka, va, hva, kc, hkc, vc, hvc, kg, hkg, vg, hvg,
      w₁, h₁, w₂, h₂, w₃, h₃, w, h, rfl⟩
    exact ⟨o, ho, w, ⟨w₁, ⟨kr, hkr, vr, hvr, h₁⟩, w₂, ⟨ka, hka, va, hva, h₂⟩,
      w₃, ⟨kc, hkc, vc, hvc, h₃⟩, kg, hkg, vg, hvg, h⟩, rfl⟩
  · rintro ⟨o, ho, w, ⟨w₁, ⟨kr, hkr, vr, hvr, h₁⟩, w₂, ⟨ka, hka, va, hva, h₂⟩,
      w₃, ⟨kc, hkc, vc, hvc, h₃⟩, kg, hkg, vg, hvg, h⟩, rfl⟩
    exact ⟨o, ho, kr, hkr, vr, hvr, ka, hka, va, hva, kc, hkc, vc, hvc, kg, hkg, vg, hvg,
      w₁, h₁, w₂, h₂, w₃, h₃, w, h, rfl⟩

/-! ### Inventory -/

/-- The inventory with one entry overwritten. -/
@[simp] theorem insert_inventory_ok {r : RarityType} {ra : RaceType} {i : NftSaleInfo} :
    insert_inventory r ra i s = (.ok u, s') ↔
      s' = { s with sale := { s.sale with
        origin_of_shells_inventory :=
          Function.update s.sale.origin_of_shells_inventory (r, ra) (some i) } } := by
  simp [insert_inventory]

theorem has_race_type_left_ok {r : RarityType} {ra : RaceType} {t : NftSaleType} :
    has_race_type_left r ra t s = (.ok u, s') ↔
      ∃ i, s.sale.origin_of_shells_inventory (r, ra) = some i ∧ 0 < i.left t ∧ s' = s := by
  cases hi : s.sale.origin_of_shells_inventory (r, ra) with
  | none => simp [has_race_type_left, hi]
  | some i => cases t <;> simp [has_race_type_left, hi, NftSaleInfo.left]

/-- Where an entry exists, `decrement_race_type_left` takes one from its pool. -/
theorem decrement_race_type_left_ok {r : RarityType} {ra : RaceType} {t : NftSaleType}
    {i : NftSaleInfo} (hi : s.sale.origin_of_shells_inventory (r, ra) = some i)
    (hleft : 0 < i.left t) :
    decrement_race_type_left r ra t s = (.ok u, s') ↔
      s' = { s with sale := { s.sale with
        origin_of_shells_inventory :=
          Function.update s.sale.origin_of_shells_inventory (r, ra)
            (some (i.setLeft t (i.left t - 1))) } } := by
  have hsub : plain_sub T 32 (i.left t) 1 = .ok (i.left t - 1) := plain_sub_of_le hleft
  cases t <;>
    simp [decrement_race_type_left, hi, NftSaleInfo.setLeft, NftSaleInfo.left] at hsub ⊢ <;>
    simp [hsub]

/-! ### Minting -/

end NftSale

/-- The worlds a sale of an Origin of Shell passes through: the price is
    paid, the collection's next item is minted, gets its attributes and
    is frozen. -/
def Issues (o a : AccountId) (c : CollectionId) (md : T.Metadata) (t : Traits) (price : Nat)
    (w w' : T.World) : Prop :=
  ∃ w₁ w₂ w₃, T.transfer a o price .KeepAlive w = .ok w₁ ∧
    T.mint_nft o (some a) c md true w₁ = .ok w₂ ∧
    SetsTraits o (c, T.NextNftId w c) t w₂ w₃ ∧
    T.freeze o c (T.NextNftId w c) w₃ = .ok w'

/-- What a successful `do_mint_origin_of_shell_nft` did: `a` got the next
    item of `c` with traits `t` from the pool `pool` of the entry `i`. -/
structure Mints (o a : AccountId) (t : Traits) (price : Nat) (pool : NftSaleType) (check : Bool)
    (c : CollectionId) (i : NftSaleInfo) (s s' : State T) : Prop where
  spirit : ∃ sp, s.sale.spirit_collection_id = some sp ∧ T.holds s.world sp a = true
  collection : s.sale.origin_of_shell_collection_id = some c
  fresh : check = true → T.holds s.world c a = false
  info : s.sale.origin_of_shells_inventory (t.rarity_type, t.race) = some i
  left : 0 < i.left pool
  post : ∃ md w race_count career_count,
    s.sale.origin_of_shells_metadata t.race = some md ∧
    Issues o a c md t price s.world w ∧
    plain_add T 32 i.race_count 1 = .ok race_count ∧
    plain_add T 32 (s.sale.career_type_count t.career) 1 = .ok career_count ∧
    s' = { s with
      sale := { s.sale with
        origin_of_shells_inventory :=
          Function.update s.sale.origin_of_shells_inventory (t.rarity_type, t.race)
            (some { i.setLeft pool (i.left pool - 1) with race_count := race_count })
        career_type_count :=
          Function.update s.sale.career_type_count t.career career_count }
      world := w
      events := s.events ++ [.OriginOfShellMinted t.rarity_type c (T.NextNftId s.world c) a
        t.race t.career] }

/-- One unit less is left in the pool. -/
theorem Mints.stock {o a : AccountId} {t : Traits} {price : Nat} {pool : NftSaleType} {check : Bool}
    {c : CollectionId} {i : NftSaleInfo} {s s' : State T}
    (h : Mints o a t price pool check c i s s') :
    ∃ i', s'.sale.origin_of_shells_inventory (t.rarity_type, t.race) = some i' ∧
      i'.left pool = i.left pool - 1 := by
  obtain ⟨md, w, rc, cc, _, _, _, _, rfl⟩ := h.post
  exact ⟨_, Function.update_self _ _ _, by
    rw [NftSaleInfo.left_with_race_count, NftSaleInfo.left_setLeft_self]⟩

/-- What a successful `do_mint_spirit_nft` did: `a`, who held none, got
    the next item of `c`. -/
structure MintsSpirit (o a : AccountId) (c : CollectionId) (s s' : State T) : Prop where
  collection : s.sale.spirit_collection_id = some c
  fresh : T.holds s.world c a = false
  post : ∃ md w₁ w₂, s.sale.spirits_metadata = some md ∧
    T.mint_nft o (some a) c md true s.world = .ok w₁ ∧
    T.freeze o c (T.NextNftId s.world c) w₁ = .ok w₂ ∧
    s' = { s with
      world := w₂
      events := s.events ++ [.SpiritClaimed a c (T.NextNftId s.world c)] }

namespace NftSale
variable {s s' : State T} {u : Unit}

theorem do_mint_spirit_nft_ok {o a : AccountId} :
    do_mint_spirit_nft o a s = (.ok u, s') ↔ ∃ c, MintsSpirit o a c s s' := by
  simp [do_mint_spirit_nft]
  constructor
  · rintro ⟨c, hc, hfresh, md, hmd, w₁, h₁, w₂, h₂, rfl⟩
    exact ⟨c, hc, hfresh, md, w₁, w₂, hmd, h₁, h₂, rfl⟩
  · rintro ⟨c, hc, hfresh, md, w₁, w₂, hmd, h₁, h₂, rfl⟩
    exact ⟨c, hc, hfresh, md, hmd, w₁, h₁, w₂, h₂, rfl⟩

/-- The three counters a mint moves, one after the other. -/
theorem counters_ok {r : RarityType} {ra : RaceType} {ca : CareerType} {pool : NftSaleType}
    {i : NftSaleInfo} (hi : s.sale.origin_of_shells_inventory (r, ra) = some i)
    (hleft : 0 < i.left pool) :
    (∃ s₁, decrement_race_type_left r ra pool s = (.ok (), s₁) ∧
      ∃ s₂, increment_race_type r ra s₁ = (.ok (), s₂) ∧
        increment_career_type ca s₂ = (.ok (), s')) ↔
      ∃ race_count career_count, plain_add T 32 i.race_count 1 = .ok race_count ∧
        plain_add T 32 (s.sale.career_type_count ca) 1 = .ok career_count ∧
        s' = { s with sale := { s.sale with
          origin_of_shells_inventory :=
            Function.update s.sale.origin_of_shells_inventory (r, ra)
              (some { i.setLeft pool (i.left pool - 1) with race_count := race_count })
          career_type_count := Function.update s.sale.career_type_count ca career_count } } := by
  simp [decrement_race_type_left_ok hi hleft, increment_race_type, increment_career_type]

theorem do_mint_origin_of_shell_nft_ok {o a : AccountId} {r : RarityType} {ra : RaceType}
    {ca : CareerType} {g : GenerationId} {price : Nat} {pool : NftSaleType} {check : Bool}
    (ho : s.sale.overlord = some o) :
    do_mint_origin_of_shell_nft o a r ra ca g price pool check s = (.ok u, s') ↔
      ∃ c i, Mints o a ⟨r, ra, ca, g⟩ price pool check c i s s' := by
  have hfresh (c : CollectionId) (s₁ : State T) :
      (check = true ∧ T.holds s.world c a = false ∧ s₁ = s ∨ check = false ∧ s₁ = s) ↔
        (check = true → T.holds s.world c a = false) ∧ s₁ = s := by
    cases check <;> simp
  simp only [do_mint_origin_of_shell_nft, ↓bind_unit_ok, bind_ok, get_spirit_collection_id_ok,
    owns_nft_in_collection_ok, ensure_ok, get_origin_of_shell_collection_id_ok, when_ok,
    Bool.not_eq_eq_eq_not, Bool.not_true, exists_eq_right_right', exists_eq_right, Bool.false_eq,
    Bool.not_eq_true, read_ok, get_origin_of_shell_metadata_ok, has_race_type_left_ok, outside_ok,
    set_nft_attributes_ok, exists_and_left, deposit_event_ok, ↓existsAndEq, and_true,
    exists_and_right, exists_eq_left, hfresh]
  constructor
  · rintro ⟨sp, hsp, hholds, c, hc, hcheck, md, hmd, ⟨i, hi, hleft⟩, w₁, h₁, w₂, h₂,
      o', w₃, ⟨ho', h₃⟩, s₁, hs₁, s₂, hs₂, s₃, hs₃, w, h, rfl⟩
    obtain rfl : o = o' := by rw [ho] at ho'; exact Option.some.inj ho'
    obtain ⟨rc, cc, hrc, hcc, rfl⟩ :=
      (counters_ok (s := { s with world := w₃ }) hi hleft).mp ⟨s₁, hs₁, s₂, hs₂, hs₃⟩
    exact ⟨c, i, ⟨sp, hsp, hholds⟩, hc, hcheck, hi, hleft, md, w, rc, cc, hmd,
      ⟨w₁, w₂, w₃, h₁, h₂, h₃, h⟩, hrc, hcc, rfl⟩
  · rintro ⟨c, i, ⟨sp, hsp, hholds⟩, hc, hcheck, hi, hleft, md, w, rc, cc, hmd,
      ⟨w₁, w₂, w₃, h₁, h₂, h₃, h⟩, hrc, hcc, rfl⟩
    obtain ⟨s₁, hs₁, s₂, hs₂, hs₃⟩ :=
      (counters_ok (s := { s with world := w₃ }) hi hleft).mpr ⟨rc, cc, hrc, hcc, rfl⟩
    exact ⟨sp, hsp, hholds, c, hc, hcheck, md, hmd, ⟨i, hi, hleft⟩, w₁, h₁, w₂, h₂,
      o, w₃, ⟨ho, h₃⟩, s₁, hs₁, s₂, hs₂, _, hs₃, w, h, rfl⟩

/-! ### Spirits and purchases -/

variable {origin : Origin AccountId}

theorem claim_spirit_ok : claim_spirit origin s = (.ok u, s') ↔
    ∃ a, origin = .signed a ∧ s.sale.can_claim_spirits = true ∧ ∃ o, s.sale.overlord = some o ∧
      T.can_reserve a T.MinBalanceToClaimSpirit s.world = true ∧
      ∃ c, MintsSpirit o a c s s' := by
  simp [claim_spirit, do_mint_spirit_nft_ok]

theorem redeem_spirit_ok {sig : T.Signature} : redeem_spirit origin sig s = (.ok u, s') ↔
    ∃ a, origin = .signed a ∧ s.sale.can_claim_spirits = true ∧ ∃ o, s.sale.overlord = some o ∧
      (T.encode o).length = 32 ∧
      T.sr25519_verify sig (T.encode a ++ Purpose.RedeemSpirit.encode) (T.encode o) = true ∧
      ∃ c, MintsSpirit o a c s s' := by
  simp [redeem_spirit, do_mint_spirit_nft_ok, and_assoc]

theorem buy_rare_origin_of_shell_ok {r : RarityType} {ra : RaceType} {ca : CareerType}
    (h : buy_rare_origin_of_shell origin r ra ca s = (.ok u, s')) :
      ∃ a o c i, origin = .signed a ∧ s.sale.can_purchase_rare_origin_of_shells = true ∧
        s.sale.overlord = some o ∧ r ≠ .Prime ∧
        Mints o a ⟨r, ra, ca, 0⟩ (T.price r) .ForSale (!s.sale.last_day_of_sale) c i s s' := by
  cases r <;> simp [buy_rare_origin_of_shell] at h
  all_goals
    obtain ⟨a, rfl, hflag, o, ho, hmint⟩ := h
    obtain ⟨c, i, hmint⟩ := (do_mint_origin_of_shell_nft_ok ho).mp hmint
    exact ⟨a, o, c, i, rfl, hflag, ho, by simp, hmint⟩

theorem buy_prime_origin_of_shell_ok {sig : T.Signature} {ra : RaceType} {ca : CareerType}
    (h : buy_prime_origin_of_shell origin sig ra ca s = (.ok u, s')) :
      ∃ a o c i, origin = .signed a ∧ s.sale.can_purchase_prime_origin_of_shells = true ∧
        s.sale.overlord = some o ∧
        (T.sr25519_verify sig (T.encode a ++ Purpose.BuyPrimeOriginOfShells.encode)
            (T.encode o) = true ∨ s.sale.last_day_of_sale = true) ∧
        Mints o a ⟨.Prime, ra, ca, 0⟩ (T.price .Prime) .ForSale (!s.sale.last_day_of_sale) c i
          s s' := by
  simp [buy_prime_origin_of_shell] at h
  obtain ⟨a, rfl, hflag, o, ho, ⟨⟨_, _⟩, hlast, hmint⟩ | ⟨⟨_, hsig⟩, hmint⟩⟩ := h
  all_goals obtain ⟨c, i, hmint⟩ := (do_mint_origin_of_shell_nft_ok ho).mp hmint
  · exact ⟨a, o, c, i, rfl, hflag, ho, .inr hlast, hmint⟩
  · exact ⟨a, o, c, i, rfl, hflag, ho, .inl hsig, hmint⟩

end NftSale

/-! ### Preorders -/

/-- What a successful preorder by `a` did. -/
structure Preorders [DecidableEq AccountId] (a : AccountId) (race : RaceType) (career : CareerType) (s s' : State T) :
    Prop where
  allowed : s.sale.last_day_of_sale = true ∨
    s.sale.can_preorder_origin_of_shells = true ∧ s.sale.owner_has_preorder a = false
  spirit : ∃ c, s.sale.spirit_collection_id = some c ∧ T.holds s.world c a = true
  fresh : ∃ c, s.sale.origin_of_shell_collection_id = some c ∧
    (s.sale.last_day_of_sale = true ∨ T.holds s.world c a = false)
  index : s.sale.preorder_index ≠ 2 ^ 32 - 1
  post : ∃ md w, s.sale.origin_of_shells_metadata race = some md ∧
    T.reserve a T.PrimeOriginOfShellPrice s.world = .ok w ∧
    s' = { s with
      sale := { s.sale with
        preorder_index := s.sale.preorder_index + 1
        preorders :=
          Function.update s.sale.preorders s.sale.preorder_index (some ⟨a, race, career, md⟩)
        owner_has_preorder :=
          if s.sale.last_day_of_sale then s.sale.owner_has_preorder
          else Function.update s.sale.owner_has_preorder a true }
      world := w
      events := s.events ++ [.OriginOfShellPreordered a s.sale.preorder_index] }

/-- The state after a preorder was taken out of storage and its escrow released. -/
def State.release (s : State T) (id : PreorderId) (owner : AccountId) : State T :=
  { s with
    sale := { s.sale with preorders := Function.update s.sale.preorders id none }
    world := T.unreserve owner T.PrimeOriginOfShellPrice s.world }

variable [DecidableEq AccountId]

/-- The state after a preorder of `owner` was closed with `event`. -/
def State.close (s : State T) (is_last_day_of_sale : Bool) (owner : AccountId) (event : Event T) :
    State T :=
  { s with
    sale := { s.sale with
      owner_has_preorder :=
        if is_last_day_of_sale then s.sale.owner_has_preorder
        else Function.update s.sale.owner_has_preorder owner false }
    events := s.events ++ [event] }

/-- What one round of `mint_chosen_preorders` did. -/
def MintsPreorder (o : AccountId) (last : Bool) (s : State T) (id : PreorderId) (s' : State T) :
    Prop :=
  ∃ info c i s₁, s.sale.preorders id = some info ∧
    Mints o info.owner ⟨.Prime, info.race, info.career, 0⟩ T.PrimeOriginOfShellPrice .ForSale false
      c i (s.release id info.owner) s₁ ∧
    s' = s₁.close last info.owner (.ChosenPreorderMinted id info.owner)

/-- What one round of `refund_not_chosen_preorders` did. -/
def RefundsPreorder (last : Bool) (s : State T) (id : PreorderId) (s' : State T) : Prop :=
  ∃ info, s.sale.preorders id = some info ∧
    s' = (s.release id info.owner).close last info.owner
      (.NotChosenPreorderRefunded id info.owner)

theorem MintsPreorder.overlord {o : AccountId} {last : Bool} {s s' : State T}
    {id : PreorderId} (h : MintsPreorder o last s id s') : s'.sale.overlord = s.sale.overlord := by
  obtain ⟨info, c, i, s₁, _, hmint, rfl⟩ := h
  obtain ⟨md, w, rc, cc, _, _, _, _, rfl⟩ := hmint.post
  rfl

theorem MintsPreorder.preorders {o : AccountId} {last : Bool} {s s' : State T}
    {id : PreorderId} (h : MintsPreorder o last s id s') :
    s'.sale.preorders = Function.update s.sale.preorders id none := by
  obtain ⟨info, c, i, s₁, _, hmint, rfl⟩ := h
  obtain ⟨md, w, rc, cc, _, _, _, _, rfl⟩ := hmint.post
  rfl

/-- A relation that covers what the rounds of both batches are made of. -/
structure CoversRounds (Q : State T → State T → Prop) : Prop where
  refl : ∀ s, Q s s
  trans : ∀ s₁ s₂ s₃, Q s₁ s₂ → Q s₂ s₃ → Q s₁ s₃
  release : ∀ s p owner, Q s (State.release s p owner)
  close : ∀ s last owner event, Q s (State.close s last owner event)

section rounds
variable {Q : State T → State T → Prop} {s s' : State T} {last : Bool} {ids : List PreorderId}

/-- It covers the refunds. -/
theorem CoversRounds.refund (hQ : CoversRounds Q) (h : Chain (RefundsPreorder last) s ids s') :
    Q s s' := by
  apply h.covered hQ.refl hQ.trans
  intro s id s' hr
  obtain ⟨info, _, rfl⟩ := hr
  exact hQ.trans _ _ _ (hQ.release s id info.owner) (hQ.close _ _ _ _)

/-- It covers the mints, if it covers a sale. -/
theorem CoversRounds.mint (hQ : CoversRounds Q) {o : AccountId}
    (hmint : ∀ {a t price pool check c i s s'}, Mints o a t price pool check c i s s' → Q s s')
    (h : Chain (MintsPreorder o last) s ids s') : Q s s' := by
  apply h.covered hQ.refl hQ.trans
  intro s id s' hm
  obtain ⟨info, c, i, s₁, _, hsold, rfl⟩ := hm
  have hreleased := hQ.release s id info.owner
  have hclosed := hQ.close s₁ last info.owner (.ChosenPreorderMinted id info.owner)
  exact hQ.trans _ _ _ hreleased (hQ.trans _ _ _ (hmint hsold) hclosed)

end rounds

namespace NftSale
variable {s s' : State T} {u : Unit} {origin : Origin AccountId}

theorem preorder_origin_of_shell_ok {ra : RaceType} {ca : CareerType} :
    preorder_origin_of_shell origin ra ca s = (.ok u, s') ↔
      ∃ a, origin = .signed a ∧ Preorders a ra ca s s' := by
  cases hlast : s.sale.last_day_of_sale with
  | true =>
    simp [preorder_origin_of_shell, hlast]
    constructor
    · rintro ⟨a, rfl, sp, hsp, hholds, ⟨c, hc⟩, hindex, md, hmd, w, hw, rfl⟩
      exact ⟨a, rfl, .inl hlast, ⟨sp, hsp, hholds⟩, ⟨c, hc, .inl hlast⟩, hindex, md, w, hmd, hw,
        by simp [hlast]⟩
    · rintro ⟨a, rfl, _, ⟨sp, hsp, hholds⟩, ⟨c, hc, _⟩, hindex, md, w, hmd, hw, rfl⟩
      exact ⟨a, rfl, sp, hsp, hholds, ⟨c, hc⟩, hindex, md, hmd, w, hw, by simp [hlast]⟩
  | false =>
    simp [preorder_origin_of_shell, hlast]
    constructor
    · rintro ⟨a, rfl, hflags, sp, hsp, hholds, c, hc, hfresh, hindex, md, hmd, w, hw, rfl⟩
      exact ⟨a, rfl, .inr hflags, ⟨sp, hsp, hholds⟩, ⟨c, hc, .inr hfresh⟩, hindex, md, w, hmd, hw,
        by simp [hlast]⟩
    · rintro ⟨a, rfl, hflags, ⟨sp, hsp, hholds⟩, ⟨c, hc, hfresh⟩, hindex, md, w, hmd, hw, rfl⟩
      exact ⟨a, rfl, hflags.resolve_left (by simp [hlast]), sp, hsp, hholds, c, hc,
        hfresh.resolve_left (by simp [hlast]), hindex, md, hmd, w, hw, by simp [hlast]⟩

omit [DecidableEq AccountId] in
theorem take_preorder_ok {id : PreorderId} {info : PreorderInfo AccountId T.Metadata} :
    take_preorder id s = (.ok info, s') ↔ s.sale.preorders id = some info ∧
      s' = { s with sale := { s.sale with
        preorders := Function.update s.sale.preorders id none } } := by
  simp [take_preorder]

/-- How a round of either batch ends. -/
theorem close_ok {last : Bool} {owner : AccountId} {event : Event T} :
    (∃ s₁, when (!last) (remove_owner_has_preorder owner) s = (.ok (), s₁) ∧
      deposit_event event s₁ = (.ok u, s')) ↔ s' = s.close last owner event := by
  cases last <;> simp [remove_owner_has_preorder, State.close]

theorem mint_chosen_preorder_ok {o : AccountId} {last : Bool} {id : PreorderId}
    (ho : s.sale.overlord = some o) :
    mint_chosen_preorder o T.PrimeOriginOfShellPrice last id s = (.ok u, s') ↔
      MintsPreorder o last s id s' := by
  simp only [mint_chosen_preorder, ↓bind_unit_ok, bind_ok, take_preorder_ok, outside_infallible_ok,
    close_ok]
  constructor
  · rintro ⟨info, _, ⟨hinfo, rfl⟩, _, rfl, s₁, hmint, rfl⟩
    obtain ⟨c, i, hmint⟩ :=
      (do_mint_origin_of_shell_nft_ok (s := s.release id info.owner) ho).mp hmint
    exact ⟨info, c, i, s₁, hinfo, hmint, rfl⟩
  · rintro ⟨info, c, i, s₁, hinfo, hmint, rfl⟩
    exact ⟨info, _, ⟨hinfo, rfl⟩, _, rfl, s₁,
      (do_mint_origin_of_shell_nft_ok (s := s.release id info.owner) ho).mpr ⟨c, i, hmint⟩, rfl⟩

theorem refund_not_chosen_preorder_ok {last : Bool} {id : PreorderId} :
    refund_not_chosen_preorder T.PrimeOriginOfShellPrice last id s = (.ok u, s') ↔
      RefundsPreorder last s id s' := by
  simp only [refund_not_chosen_preorder, ↓bind_unit_ok, bind_ok, take_preorder_ok,
    outside_infallible_ok, close_ok]
  constructor
  · rintro ⟨info, _, ⟨hinfo, rfl⟩, _, rfl, rfl⟩
    exact ⟨info, hinfo, rfl⟩
  · rintro ⟨info, hinfo, rfl⟩
    exact ⟨info, _, ⟨hinfo, rfl⟩, _, rfl, rfl⟩

omit [DecidableEq AccountId] in
/-- The loop runs its body on the first `iter_limit` ids. -/
theorem for_preorders_eq {body : PreorderId → Dispatch T Unit} {iter_limit : Nat}
    (hlimit : iter_limit < 2 ^ 32) (index : Nat) (l : List PreorderId) :
    for_preorders body iter_limit index l = forEach body (l.take (iter_limit - index)) := by
  induction l generalizing index with
  | nil => simp [for_preorders, forEach]
  | cons id l ih =>
    by_cases hlt : index < iter_limit
    · obtain ⟨k, hk⟩ : ∃ k, iter_limit - index = k + 1 := ⟨iter_limit - index - 1, by omega⟩
      have hk' : iter_limit - (index + 1) = k := by omega
      have hadd : plain_add T 32 index 1 = .ok (index + 1) := plain_add_of_lt (by omega)
      rw [for_preorders, if_pos hlt, hk, List.take_succ_cons, forEach, hadd]
      simp only [arith_bind]
      rw [ih, hk']
    · have hk : iter_limit - index = 0 := by omega
      simp [for_preorders, hlt, hk, forEach]

/-- The rounds of a batch, while the Overlord who called it is the Overlord. -/
theorem mint_rounds_ok {o : AccountId} {last : Bool} {l : List PreorderId}
    (ho : s.sale.overlord = some o) :
    Chain (fun s id s' =>
        mint_chosen_preorder o T.PrimeOriginOfShellPrice last id s = (.ok (), s')) s l s' ↔
      Chain (MintsPreorder o last) s l s' :=
  Chain.congr (I := fun s => s.sale.overlord = some o)
    (fun _ _ _ ho h => (((mint_chosen_preorder_ok ho).mp h).overlord).trans ho)
    (fun _ _ _ ho => mint_chosen_preorder_ok ho) ho

theorem mint_chosen_preorders_ok {l : List PreorderId} :
    mint_chosen_preorders origin l s = (.ok u, s') ↔
      ∃ o, origin = .signed o ∧ s.sale.overlord = some o ∧
        Chain (MintsPreorder o s.sale.last_day_of_sale) s (l.take T.IterLimit.toNat) s' := by
  simp [mint_chosen_preorders, for_preorders_eq T.IterLimit.toNat_lt]
  constructor
  · rintro ⟨o, rfl, ho, hl⟩
    exact ⟨o, rfl, ho, (mint_rounds_ok ho).mp hl⟩
  · rintro ⟨o, rfl, ho, hl⟩
    exact ⟨o, rfl, ho, (mint_rounds_ok ho).mpr hl⟩

theorem refund_not_chosen_preorders_ok {l : List PreorderId} :
    refund_not_chosen_preorders origin l s = (.ok u, s') ↔
      ∃ o, origin = .signed o ∧ s.sale.overlord = some o ∧
        Chain (RefundsPreorder s.sale.last_day_of_sale) s (l.take T.IterLimit.toNat) s' := by
  simp [refund_not_chosen_preorders, for_preorders_eq T.IterLimit.toNat_lt,
    refund_not_chosen_preorder_ok]

theorem mint_gift_origin_of_shell_ok {a : AccountId} {r : RarityType} {ra : RaceType}
    {ca : CareerType} {pool : NftSaleType}
    (h : mint_gift_origin_of_shell origin a r ra ca pool s = (.ok u, s')) :
      ∃ o c i s₁, origin = .signed o ∧ s.sale.overlord = some o ∧ pool ≠ .ForSale ∧
        Mints o a ⟨r, ra, ca, 0⟩ 0 pool false c i s s₁ ∧
        s' = { s₁ with events := s₁.events ++ [.OriginOfShellGiftedToOwner a pool] } := by
  simp [mint_gift_origin_of_shell] at h
  obtain ⟨o, rfl, ho, hpool, s₁, hmint, rfl⟩ := h
  obtain ⟨c, i, hmint⟩ := (do_mint_origin_of_shell_nft_ok ho).mp hmint
  exact ⟨o, c, i, s₁, rfl, ho, hpool, hmint, rfl⟩

end NftSale

/-! ### Administration -/

omit [DecidableEq AccountId]

/-- Events that report neither a token nor a preorder nor the inventory. -/
def Event.isQuiet : Event T → Bool
  | .SpiritClaimed .. | .OriginOfShellPreordered .. | .OriginOfShellMinted ..
  | .ChosenPreorderMinted .. | .NotChosenPreorderRefunded .. | .OriginOfShellGiftedToOwner ..
  | .OriginOfShellsInventoryWasSet .. | .OriginOfShellInventoryUpdated ..
  | .ShellAwakened .. => false
  | _ => true

/-- The calls that only configure the sale. -/
def Call.configures : Call T → Bool
  | .set_overlord .. | .initialize_world_clock | .set_status_type ..
  | .set_spirit_collection_id .. | .set_origin_of_shell_collection_id ..
  | .set_spirits_metadata .. | .set_origin_of_shells_metadata .. => true
  | _ => false

/-- What a call to `c` may change when it only configures the sale. A
    collection id is set once, the Overlord and the last day of sale change
    by the calls for it. -/
structure Configures (c : Call T) (s s' : State T) : Prop where
  call : c.configures = true
  preorder_index : s'.sale.preorder_index = s.sale.preorder_index
  preorders : s'.sale.preorders = s.sale.preorders
  owner_has_preorder : s'.sale.owner_has_preorder = s.sale.owner_has_preorder
  inventory : s'.sale.origin_of_shells_inventory = s.sale.origin_of_shells_inventory
  inventory_set :
    s'.sale.is_origin_of_shells_inventory_set = s.sale.is_origin_of_shells_inventory_set
  career_type_count : s'.sale.career_type_count = s.sale.career_type_count
  era : s'.sale.era = s.sale.era
  spirit_collection_id : s.sale.spirit_collection_id = none ∨
    s'.sale.spirit_collection_id = s.sale.spirit_collection_id
  origin_of_shell_collection_id : s.sale.origin_of_shell_collection_id = none ∨
    s'.sale.origin_of_shell_collection_id = s.sale.origin_of_shell_collection_id
  overlord : s'.sale.overlord = s.sale.overlord ∨
    ∃ o, c = .set_overlord o ∧ s'.sale.overlord = some o
  last_day_of_sale : s'.sale.last_day_of_sale = s.sale.last_day_of_sale ∨
    ∃ b, c = .set_status_type b .LastDayOfSale ∧ s'.sale.last_day_of_sale = b
  incubation : s'.incubation = s.incubation
  world : s'.world = s.world
  now : s'.now = s.now
  events : ∃ event, event.isQuiet = true ∧ s'.events = s.events ++ [event]

/-- The inventory `init_rarity_type_counts` sets. -/
def initial_nft_sale_info : RarityType → NftSaleInfo
  | .Legendary => NftSale.legendary_nft_sale_info
  | .Magic => NftSale.magic_nft_sale_info
  | .Prime => NftSale.prime_nft_sale_info

/-- One entry after `update_nft_sale_info`. -/
def NftSaleInfo.add (i : NftSaleInfo) (for_sale_count giveaway_count : Nat) : NftSaleInfo :=
  { i with
    race_for_sale_count := saturating_add i.race_for_sale_count for_sale_count
    race_giveaway_count := saturating_add i.race_giveaway_count giveaway_count }

namespace NftSale
variable [DecidableEq AccountId] {s s' : State T} {u : Unit} {origin : Origin AccountId}

omit [DecidableEq AccountId] in
theorem set_overlord_ok {o : AccountId} (h : set_overlord origin o s = (.ok u, s')) :
    Configures (.set_overlord o) s s' := by
  simp [set_overlord] at h
  obtain ⟨_, rfl⟩ := h
  constructor <;> simp [Call.configures, Event.isQuiet]

theorem initialize_world_clock_ok (h : initialize_world_clock origin s = (.ok u, s')) :
    Configures .initialize_world_clock s s' := by
  simp [initialize_world_clock] at h
  obtain ⟨o, rfl, ho, hz, r, hr, z, hz', rfl⟩ := h
  constructor <;> simp [Call.configures, Event.isQuiet]

theorem set_status_type_ok {status : Bool} {status_type : StatusType}
    (h : set_status_type origin status status_type s = (.ok u, s')) :
    Configures (.set_status_type status status_type) s s' := by
  cases status_type <;>
    simp [set_status_type, set_claim_spirits_status, set_purchase_rare_origin_of_shells_status,
      set_purchase_prime_origin_of_shells_status, set_preorder_origin_of_shells_status,
      set_last_day_of_sale_status] at h <;>
    obtain ⟨o, rfl, ho, rfl⟩ := h <;>
    constructor <;> simp [Call.configures, Event.isQuiet]

theorem set_spirit_collection_id_ok {c : CollectionId}
    (h : set_spirit_collection_id origin c s = (.ok u, s')) :
    Configures (.set_spirit_collection_id c) s s' := by
  simp [set_spirit_collection_id] at h
  obtain ⟨o, rfl, ho, hnone, rfl⟩ := h
  constructor <;> simp [Call.configures, Event.isQuiet, hnone]

theorem set_origin_of_shell_collection_id_ok {c : CollectionId}
    (h : set_origin_of_shell_collection_id origin c s = (.ok u, s')) :
    Configures (.set_origin_of_shell_collection_id c) s s' := by
  simp [set_origin_of_shell_collection_id] at h
  obtain ⟨o, rfl, ho, hnone, rfl⟩ := h
  constructor <;> simp [Call.configures, Event.isQuiet, hnone]

theorem set_spirits_metadata_ok {md : T.Metadata}
    (h : set_spirits_metadata origin md s = (.ok u, s')) :
    Configures (.set_spirits_metadata md) s s' := by
  simp [set_spirits_metadata] at h
  obtain ⟨o, rfl, ho, rfl⟩ := h
  constructor <;> simp [Call.configures, Event.isQuiet]

theorem set_origin_of_shells_metadata_ok {l : List (RaceType × T.Metadata)}
    (h : set_origin_of_shells_metadata origin l s = (.ok u, s')) :
    Configures (.set_origin_of_shells_metadata l) s s' := by
  simp [set_origin_of_shells_metadata] at h
  obtain ⟨o, rfl, ho, s₁, hl, rfl⟩ := h
  -- the loop writes one storage map
  have hmeta : ∃ m, s₁ = { s with sale := { s.sale with origin_of_shells_metadata := m } } :=
    hl.invariant (I := fun s₁ => ∃ m, s₁ = { s with sale := { s.sale with
      origin_of_shells_metadata := m } })
      (by rintro _ ⟨race, md⟩ _ ⟨m, rfl⟩ rfl; exact ⟨_, rfl⟩) ⟨_, rfl⟩
  obtain ⟨m, rfl⟩ := hmeta
  constructor <;> simp [Call.configures, Event.isQuiet]

theorem init_rarity_type_counts_ok (h : init_rarity_type_counts origin s = (.ok u, s')) :
    ∃ o, origin = .signed o ∧ s.sale.overlord = some o ∧
      s.sale.is_origin_of_shells_inventory_set = false ∧
      s' = { s with
        sale := { s.sale with
          origin_of_shells_inventory := fun k => some (initial_nft_sale_info k.1)
          is_origin_of_shells_inventory_set := true }
        events := s.events ++ [.OriginOfShellsInventoryWasSet true] } := by
  simp [init_rarity_type_counts, set_initial_origin_of_shell_inventory] at h
  obtain ⟨o, rfl, ho, hset, rfl⟩ := h
  refine ⟨o, rfl, ho, hset, ?_⟩
  congr 2
  funext ⟨r, ra⟩
  cases r <;> cases ra <;> rfl

omit [DecidableEq AccountId] in
theorem update_nft_sale_info_ok {r : RarityType} {ra : RaceType} {fs g : Nat} :
    update_nft_sale_info r ra fs g s = (.ok u, s') ↔
      s' = { s with sale := { s.sale with
        origin_of_shells_inventory := fun k =>
          if k = (r, ra) then (s.sale.origin_of_shells_inventory k).map fun i => i.add fs g
          else s.sale.origin_of_shells_inventory k } } := by
  rw [update_nft_sale_info, put_sale_ok]
  cases hi : s.sale.origin_of_shells_inventory (r, ra) with
  | some i =>
    -- the entry is overwritten
    have hmap : Function.update s.sale.origin_of_shells_inventory (r, ra) (some (i.add fs g)) =
        fun k => if k = (r, ra) then (s.sale.origin_of_shells_inventory k).map fun i => i.add fs g
          else s.sale.origin_of_shells_inventory k := by
      funext k
      by_cases hk : k = (r, ra)
      · subst hk
        simp [hi]
      · simp [hk]
    rw [← hmap]
    rfl
  | none =>
    -- there is nothing to overwrite
    have hmap : s.sale.origin_of_shells_inventory =
        fun k => if k = (r, ra) then (s.sale.origin_of_shells_inventory k).map fun i => i.add fs g
          else s.sale.origin_of_shells_inventory k := by
      funext k
      by_cases hk : k = (r, ra)
      · subst hk
        simp [hi]
      · simp [hk]
    rw [← hmap]

theorem update_rarity_type_counts_ok {r : RarityType} {fs g : Nat}
    (h : update_rarity_type_counts origin r fs g s = (.ok u, s')) :
    ∃ o, origin = .signed o ∧ s.sale.overlord = some o ∧ r = .Prime ∧
      s' = { s with
        sale := { s.sale with
          origin_of_shells_inventory := fun k =>
            if k.1 = .Prime then (s.sale.origin_of_shells_inventory k).map fun i => i.add fs g
            else s.sale.origin_of_shells_inventory k }
        events := s.events ++ [.OriginOfShellInventoryUpdated r] } := by
  simp [update_rarity_type_counts, update_nft_sale_info_ok] at h
  obtain ⟨o, rfl, ho, rfl, rfl⟩ := h
  refine ⟨o, rfl, ho, rfl, ?_⟩
  congr 2
  funext ⟨r, ra⟩
  cases r <;> cases ra <;> simp

theorem pw_create_collection_ok {md : T.Metadata} {max : Option Nat} {symbol : Bytes} :
    pw_create_collection origin md max symbol s = (.ok u, s') ↔
      ∃ o, origin = .signed o ∧ s.sale.overlord = some o ∧
        ∃ w, T.create_collection o md max symbol s.world = .ok w ∧ s' = { s with world := w } := by
  simp [pw_create_collection]

end NftSale
end PhalaWorld
