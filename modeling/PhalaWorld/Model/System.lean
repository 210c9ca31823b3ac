import PhalaWorld.Model.Incubation

/-! # The system

    One step of the chain, as far as the two pallets are concerned: a call
    with an origin, the block hook, a new timestamp, or anything that
    happens to the world outside the two pallets (transfers between
    accounts, other users of the currency, RMRK and Uniques calls made
    directly). What the outside may do is never fixed here: a result that
    depends on it restricts the outside steps of its runs.
-/

namespace PhalaWorld

open LTS Transaction

variable {AccountId : Type} {T : Config AccountId}

/-- The calls of both pallets. -/
inductive Call (T : Config AccountId) where
  | claim_spirit
  | redeem_spirit (signature : T.Signature)
  | buy_rare_origin_of_shell (rarity_type : RarityType) (race : RaceType) (career : CareerType)
  | buy_prime_origin_of_shell (signature : T.Signature) (race : RaceType) (career : CareerType)
  | preorder_origin_of_shell (race : RaceType) (career : CareerType)
  | mint_chosen_preorders (preorders : List PreorderId)
  | refund_not_chosen_preorders (preorders : List PreorderId)
  | mint_gift_origin_of_shell (owner : AccountId) (rarity_type : RarityType) (race : RaceType)
      (career : CareerType) (nft_sale_type : NftSaleType)
  | set_overlord (new_overlord : AccountId)
  | initialize_world_clock
  | set_status_type (status : Bool) (status_type : StatusType)
  | init_rarity_type_counts
  | update_rarity_type_counts (rarity_type : RarityType) (for_sale_count giveaway_count : Nat)
  | set_spirit_collection_id (collection_id : CollectionId)
  | set_origin_of_shell_collection_id (collection_id : CollectionId)
  | pw_create_collection (metadata : T.Metadata) (max : Option Nat) (symbol : Bytes)
  | set_spirits_metadata (spirits_metadata : T.Metadata)
  | set_origin_of_shells_metadata (origin_of_shells_metadata : List (RaceType × T.Metadata))
  | start_incubation (collection_id : CollectionId) (nft_id : NftId)
  | feed_origin_of_shell (collection_id : CollectionId) (nft_id : NftId)
  | hatch_origin_of_shell (collection_id : CollectionId) (nft_id : NftId) (metadata : T.Metadata)
  | update_incubation_time (origin_of_shells : List ((CollectionId × NftId) × Nat))
  | set_can_start_incubation_status (status : Bool)
  | set_shell_collection_id (collection_id : CollectionId)

/-- What can happen next. -/
inductive Label (T : Config AccountId) where
  | call (origin : Origin AccountId) (c : Call T)
  | on_finalize
  | set_timestamp (now : UInt64)
  | outside (w : T.World)

/-- What came of a step. -/
abbrev Outcome (T : Config AccountId) : Type := Except (Failure T.ModuleError) Unit

/-- A step of a run, with the states around it. -/
abbrev Entry (T : Config AccountId) : Type := LTS.Entry (State T) (Label T) (Outcome T)

section dispatch
variable [DecidableEq AccountId]

/-- Calls the function a call names. -/
def dispatch (origin : Origin AccountId) : Call T → Dispatch T Unit
  | .claim_spirit => NftSale.claim_spirit origin
  | .redeem_spirit signature => NftSale.redeem_spirit origin signature
  | .buy_rare_origin_of_shell rarity_type race career =>
      NftSale.buy_rare_origin_of_shell origin rarity_type race career
  | .buy_prime_origin_of_shell signature race career =>
      NftSale.buy_prime_origin_of_shell origin signature race career
  | .preorder_origin_of_shell race career => NftSale.preorder_origin_of_shell origin race career
  | .mint_chosen_preorders preorders => NftSale.mint_chosen_preorders origin preorders
  | .refund_not_chosen_preorders preorders =>
      NftSale.refund_not_chosen_preorders origin preorders
  | .mint_gift_origin_of_shell owner rarity_type race career nft_sale_type =>
      NftSale.mint_gift_origin_of_shell origin owner rarity_type race career nft_sale_type
  | .set_overlord new_overlord => NftSale.set_overlord origin new_overlord
  | .initialize_world_clock => NftSale.initialize_world_clock origin
  | .set_status_type status status_type => NftSale.set_status_type origin status status_type
  | .init_rarity_type_counts => NftSale.init_rarity_type_counts origin
  | .update_rarity_type_counts rarity_type for_sale_count giveaway_count =>
      NftSale.update_rarity_type_counts origin rarity_type for_sale_count giveaway_count
  | .set_spirit_collection_id collection_id =>
      NftSale.set_spirit_collection_id origin collection_id
  | .set_origin_of_shell_collection_id collection_id =>
      NftSale.set_origin_of_shell_collection_id origin collection_id
  | .pw_create_collection metadata max symbol =>
      NftSale.pw_create_collection origin metadata max symbol
  | .set_spirits_metadata spirits_metadata =>
      NftSale.set_spirits_metadata origin spirits_metadata
  | .set_origin_of_shells_metadata origin_of_shells_metadata =>
      NftSale.set_origin_of_shells_metadata origin origin_of_shells_metadata
  | .start_incubation collection_id nft_id =>
      Incubation.start_incubation origin collection_id nft_id
  | .feed_origin_of_shell collection_id nft_id =>
      Incubation.feed_origin_of_shell origin collection_id nft_id
  | .hatch_origin_of_shell collection_id nft_id metadata =>
      Incubation.hatch_origin_of_shell origin collection_id nft_id metadata
  | .update_incubation_time origin_of_shells =>
      Incubation.update_incubation_time origin origin_of_shells
  | .set_can_start_incubation_status status =>
      Incubation.set_can_start_incubation_status origin status
  | .set_shell_collection_id collection_id =>
      Incubation.set_shell_collection_id origin collection_id

/-- One step. -/
def step (s : State T) : Label T → Outcome T × State T
  | .call origin c => dispatch origin c s
  | .on_finalize => NftSale.on_finalize s
  | .set_timestamp now => (.ok (), { s with now := now.toNat })
  | .outside w => (.ok (), { s with world := w })

end dispatch

/-! ### Genesis -/

/-- The genesis configuration of the sale pallet. -/
structure GenesisConfig (AccountId : Type) where
  zero_day : Option UInt64
  overlord : Option AccountId
  era : UInt64
  can_claim_spirits : Bool
  can_purchase_rare_origin_of_shells : Bool
  can_purchase_prime_origin_of_shells : Bool
  can_preorder_origin_of_shells : Bool
  last_day_of_sale : Bool
  spirit_collection_id : Option CollectionId
  origin_of_shell_collection_id : Option CollectionId
  is_origin_of_shells_inventory_set : Bool

/-- `Default for GenesisConfig`. -/
def GenesisConfig.default : GenesisConfig AccountId where
  zero_day := none
  overlord := none
  era := 0
  can_claim_spirits := false
  can_purchase_rare_origin_of_shells := false
  can_purchase_prime_origin_of_shells := false
  can_preorder_origin_of_shells := false
  last_day_of_sale := false
  spirit_collection_id := none
  origin_of_shell_collection_id := none
  is_origin_of_shells_inventory_set := false

/-- The state `GenesisBuild::build` leaves: what the configuration sets,
    and every other storage item at its default. -/
def genesis (g : GenesisConfig AccountId) (w : T.World) (now : UInt64) : State T where
  sale :=
    { preorder_index := 0
      preorders := fun _ => none
      owner_has_preorder := fun _ => false
      origin_of_shells_inventory := fun _ => none
      zero_day := g.zero_day.map UInt64.toNat
      era := g.era.toNat
      can_claim_spirits := g.can_claim_spirits
      can_purchase_rare_origin_of_shells := g.can_purchase_rare_origin_of_shells
      can_purchase_prime_origin_of_shells := g.can_purchase_prime_origin_of_shells
      can_preorder_origin_of_shells := g.can_preorder_origin_of_shells
      last_day_of_sale := g.last_day_of_sale
      spirit_collection_id := g.spirit_collection_id
      origin_of_shell_collection_id := g.origin_of_shell_collection_id
      career_type_count := fun _ => 0
      is_origin_of_shells_inventory_set := g.is_origin_of_shells_inventory_set
      spirits_metadata := none
      origin_of_shells_metadata := fun _ => none
      overlord := g.overlord }
  incubation :=
    { food_by_owners := fun _ => none
      origin_of_shell_food_stats := fun _ => 0
      official_hatch_time := 0
      hatch_times := fun _ => none
      can_start_incubation := false
      shell_collection_id := none }
  world := w
  now := now.toNat
  events := []

end PhalaWorld
