import PhalaWorld.Model.Storage

/-! # The sale pallet

    `nft_sale.rs`, function by function. A storage item that is read is
    read with `read`, in the place where the code reads it; an `ensure!`
    is an `ensure`, a `?` is a bind, an `expect` that fails is a panic.

    The calls marked `#[transactional]` take back their writes when they
    fail. The others keep what they wrote, though each of them checks
    everything before its first write.
-/

namespace PhalaWorld

open Transaction

variable {AccountId : Type} [DecidableEq AccountId] {T : Config AccountId}

/-- `expect`. -/
def expect {α : Type} (o : Option α) (message : String) : Dispatch T α :=
  ok_or o (.panic message)

namespace NftSale

/-! ### Helpers -/

def get_origin_of_shell_collection_id : Dispatch T CollectionId := do
  let s ← read
  ok_or s.sale.origin_of_shell_collection_id Error.OriginOfShellCollectionNotSet.into

def get_spirit_collection_id : Dispatch T CollectionId := do
  let s ← read
  ok_or s.sale.spirit_collection_id Error.SpiritCollectionNotSet.into

def owns_nft_in_collection (sender : AccountId) (collection_id : CollectionId) :
    Dispatch T Bool := do
  let s ← read
  pure (decide ((T.owned_in_collection collection_id sender s.world).length > 0))

def to_boundedvec_key (name : Bytes) : Dispatch T T.Key :=
  ok_or (BoundedVec.try_from name) Error.KeyTooLong.into

def get_origin_of_shell_metadata (race : RaceType) : Dispatch T T.Metadata := do
  let s ← read
  ok_or (s.sale.origin_of_shells_metadata race) Error.OriginOfShellsMetadataNotSet.into

def overlord : Dispatch T AccountId := do
  let s ← read
  ok_or s.sale.overlord Error.OverlordNotSet.into

def ensure_overlord (sender : AccountId) : Dispatch T Unit := do
  let s ← read
  ensure (s.sale.overlord = some sender) Error.RequireOverlordAccount.into

/-- The signed bytes are the encoded account followed by the purpose. The
    Overlord's key is its encoding, which must be 32 bytes long. -/
def verify_claim (overlord sender : AccountId) (signature : T.Signature) (purpose : Purpose) :
    Dispatch T Bool := do
  let message : OverlordMessage AccountId := ⟨sender, purpose⟩
  let encoded_message := T.encode message.account ++ message.purpose.encode
  let encode_overlord := T.encode overlord
  ensure (encode_overlord.length = 32) (.panic "H256::from_slice")
  pure (T.sr25519_verify signature encoded_message encode_overlord)

/-! ### Status flags -/

def set_claim_spirits_status (status : Bool) : Dispatch T Unit := do
  put_sale fun st => { st with can_claim_spirits := status }
  deposit_event (.ClaimSpiritStatusChanged status)

def set_purchase_rare_origin_of_shells_status (status : Bool) : Dispatch T Unit := do
  put_sale fun st => { st with can_purchase_rare_origin_of_shells := status }
  deposit_event (.PurchaseRareOriginOfShellsStatusChanged status)

def set_purchase_prime_origin_of_shells_status (status : Bool) : Dispatch T Unit := do
  put_sale fun st => { st with can_purchase_prime_origin_of_shells := status }
  deposit_event (.PurchasePrimeOriginOfShellsStatusChanged status)

def set_preorder_origin_of_shells_status (status : Bool) : Dispatch T Unit := do
  put_sale fun st => { st with can_preorder_origin_of_shells := status }
  deposit_event (.PreorderOriginOfShellsStatusChanged status)

-- the event is the one of the preorder status, as in the source
def set_last_day_of_sale_status (status : Bool) : Dispatch T Unit := do
  put_sale fun st => { st with last_day_of_sale := status }
  deposit_event (.PreorderOriginOfShellsStatusChanged status)

/-! ### Inventory -/

/-- `OriginOfShellsInventory::<T>::insert`. -/
def insert_inventory (rarity_type : RarityType) (race : RaceType) (nft_sale_info : NftSaleInfo) :
    Dispatch T Unit :=
  put_sale fun st =>
    { st with
      origin_of_shells_inventory :=
        Function.update st.origin_of_shells_inventory (rarity_type, race) (some nft_sale_info) }

def legendary_nft_sale_info : NftSaleInfo :=
  { race_count := 0, race_for_sale_count := 1, race_giveaway_count := 0, race_reserved_count := 1 }

def magic_nft_sale_info : NftSaleInfo :=
  { race_count := 0, race_for_sale_count := 10, race_giveaway_count := 0,
    race_reserved_count := 10 }

def prime_nft_sale_info : NftSaleInfo :=
  { race_count := 0, race_for_sale_count := 1250, race_giveaway_count := 0,
    race_reserved_count := 0 }

def set_initial_origin_of_shell_inventory : Dispatch T Unit := do
  let s ← read
  ensure (!s.sale.is_origin_of_shells_inventory_set) Error.OriginOfShellInventoryAlreadySet.into
  insert_inventory .Legendary .AISpectre legendary_nft_sale_info
  insert_inventory .Legendary .Cyborg legendary_nft_sale_info
  insert_inventory .Legendary .Pandroid legendary_nft_sale_info
  insert_inventory .Legendary .XGene legendary_nft_sale_info
  insert_inventory .Magic .AISpectre magic_nft_sale_info
  insert_inventory .Magic .Cyborg magic_nft_sale_info
  insert_inventory .Magic .Pandroid magic_nft_sale_info
  insert_inventory .Magic .XGene magic_nft_sale_info
  insert_inventory .Prime .AISpectre prime_nft_sale_info
  insert_inventory .Prime .Cyborg prime_nft_sale_info
  insert_inventory .Prime .Pandroid prime_nft_sale_info
  insert_inventory .Prime .XGene prime_nft_sale_info
  put_sale fun st => { st with is_origin_of_shells_inventory_set := true }

def update_nft_sale_info (rarity_type : RarityType) (race : RaceType)
    (for_sale_count giveaway_count : Nat) : Dispatch T Unit :=
  put_sale fun st =>
    match st.origin_of_shells_inventory (rarity_type, race) with
    | some nft_sale_info =>
        { st with origin_of_shells_inventory :=
            Function.update st.origin_of_shells_inventory (rarity_type, race) (some
              { nft_sale_info with
                race_for_sale_count :=
                  saturating_add nft_sale_info.race_for_sale_count for_sale_count
                race_giveaway_count :=
                  saturating_add nft_sale_info.race_giveaway_count giveaway_count }) }
    | none => st

def has_race_type_left (rarity_type : RarityType) (race : RaceType)
    (nft_sale_type : NftSaleType) : Dispatch T Unit := do
  let s ← read
  match s.sale.origin_of_shells_inventory (rarity_type, race) with
  | some nft_sale_info =>
    match nft_sale_type with
    | .ForSale => ensure (nft_sale_info.race_for_sale_count > 0) Error.RaceMintMaxReached.into
    | .Giveaway =>
        ensure (nft_sale_info.race_giveaway_count > 0) Error.NoAvailableRaceGivewayLeft.into
    | .Reserved =>
        ensure (nft_sale_info.race_reserved_count > 0) Error.NoAvailableRaceReservedLeft.into
  | none => fail Error.OriginOfShellInventoryCorrupted.into

def decrement_race_type_left (rarity_type : RarityType) (race : RaceType)
    (nft_sale_type : NftSaleType) : Dispatch T Unit := do
  let s ← read
  match s.sale.origin_of_shells_inventory (rarity_type, race) with
  | some nft_sale_info =>
    match nft_sale_type with
    | .ForSale => do
        let left ← arith (plain_sub T 32 nft_sale_info.race_for_sale_count 1)
        insert_inventory rarity_type race { nft_sale_info with race_for_sale_count := left }
    | .Giveaway => do
        let left ← arith (plain_sub T 32 nft_sale_info.race_giveaway_count 1)
        insert_inventory rarity_type race { nft_sale_info with race_giveaway_count := left }
    | .Reserved => do
        let left ← arith (plain_sub T 32 nft_sale_info.race_reserved_count 1)
        insert_inventory rarity_type race { nft_sale_info with race_reserved_count := left }
  | none => pure ()

def increment_race_type (rarity_type : RarityType) (race : RaceType) : Dispatch T Unit := do
  let s ← read
  match s.sale.origin_of_shells_inventory (rarity_type, race) with
  | some nft_sale_info => do
      let count ← arith (plain_add T 32 nft_sale_info.race_count 1)
      insert_inventory rarity_type race { nft_sale_info with race_count := count }
  | none => pure ()

def increment_career_type (career : CareerType) : Dispatch T Unit := do
  let s ← read
  let career_count ← arith (plain_add T 32 (s.sale.career_type_count career) 1)
  put_sale fun st =>
    { st with
      career_type_count := Function.update st.career_type_count career career_count }

/-! ### Minting -/

/-- The attribute names, as bytes. -/
def rarity_key : Bytes := [114, 97, 114, 105, 116, 121]
def race_key : Bytes := [114, 97, 99, 101]
def career_key : Bytes := [99, 97, 114, 101, 101, 114]
def generation_key : Bytes := [103, 101, 110, 101, 114, 97, 116, 105, 111, 110]

def set_nft_attributes (collection_id : CollectionId) (nft_id : NftId) (rarity_type : RarityType)
    (race : RaceType) (career : CareerType) (generation : GenerationId) : Dispatch T Unit := do
  let overlord ← overlord
  let rarity_type_key ← to_boundedvec_key rarity_key
  let rarity_type_value ← expect (BoundedVec.try_from rarity_type.encode) "[rarity] should not fail"
  let race_key ← to_boundedvec_key race_key
  let race_value ← expect (BoundedVec.try_from race.encode) "[race] should not fail"
  let career_key ← to_boundedvec_key career_key
  let career_value ← expect (BoundedVec.try_from career.encode) "[career] should not fail"
  let generation_key ← to_boundedvec_key generation_key
  let generation_value ←
    expect (BoundedVec.try_from (GenerationId.encode generation)) "[generation] should not fail"
  outside (T.set_attribute overlord collection_id (some nft_id) rarity_type_key rarity_type_value)
  outside (T.set_attribute overlord collection_id (some nft_id) race_key race_value)
  outside (T.set_attribute overlord collection_id (some nft_id) career_key career_value)
  outside (T.set_attribute overlord collection_id (some nft_id) generation_key generation_value)

def do_mint_spirit_nft (overlord sender : AccountId) : Dispatch T Unit := do
  let spirit_collection_id ← get_spirit_collection_id
  let owns ← owns_nft_in_collection sender spirit_collection_id
  ensure (!owns) Error.SpiritAlreadyClaimed.into
  let s ← read
  let metadata ← ok_or s.sale.spirits_metadata Error.SpiritsMetadataNotSet.into
  let spirit_nft_id := T.NextNftId s.world spirit_collection_id
  outside (T.mint_nft overlord (some sender) spirit_collection_id metadata true)
  outside (T.freeze overlord spirit_collection_id spirit_nft_id)
  deposit_event (.SpiritClaimed sender spirit_collection_id spirit_nft_id)

def do_mint_origin_of_shell_nft (overlord sender : AccountId) (rarity_type : RarityType)
    (race : RaceType) (career : CareerType) (generation : GenerationId) (price : Nat)
    (nft_sale_type : NftSaleType) (check_owned_origin_of_shell : Bool) : Dispatch T Unit := do
  let spirit_collection_id ← get_spirit_collection_id
  let owns_spirit ← owns_nft_in_collection sender spirit_collection_id
  ensure owns_spirit Error.MustOwnSpiritToPurchase.into
  let origin_of_shell_collection_id ← get_origin_of_shell_collection_id
  when check_owned_origin_of_shell do
    let owns ← owns_nft_in_collection sender origin_of_shell_collection_id
    ensure (!owns) Error.OriginOfShellAlreadyPurchased.into
  let s ← read
  -- read before the mint, which hands out this id
  let nft_id := T.NextNftId s.world origin_of_shell_collection_id
  let metadata ← get_origin_of_shell_metadata race
  has_race_type_left rarity_type race nft_sale_type
  outside (T.transfer sender overlord price .KeepAlive)
  outside (T.mint_nft overlord (some sender) origin_of_shell_collection_id metadata true)
  set_nft_attributes origin_of_shell_collection_id nft_id rarity_type race career generation
  decrement_race_type_left rarity_type race nft_sale_type
  increment_race_type rarity_type race
  increment_career_type career
  outside (T.freeze overlord origin_of_shell_collection_id nft_id)
  deposit_event
    (.OriginOfShellMinted rarity_type origin_of_shell_collection_id nft_id sender race career)

/-! ### Spirits and purchases -/

def claim_spirit (origin : Origin AccountId) : Dispatch T Unit := transactional do
  let sender ← ensure_signed origin
  let s ← read
  ensure s.sale.can_claim_spirits Error.SpiritClaimNotAvailable.into
  let overlord ← overlord
  ensure (T.can_reserve sender T.MinBalanceToClaimSpirit s.world)
    Error.BelowMinimumBalanceThreshold.into
  do_mint_spirit_nft overlord sender

def redeem_spirit (origin : Origin AccountId) (signature : T.Signature) : Dispatch T Unit :=
  transactional do
  let sender ← ensure_signed origin
  let s ← read
  ensure s.sale.can_claim_spirits Error.SpiritClaimNotAvailable.into
  let overlord ← overlord
  let valid ← verify_claim overlord sender signature .RedeemSpirit
  ensure valid Error.InvalidSpiritClaim.into
  do_mint_spirit_nft overlord sender

def buy_rare_origin_of_shell (origin : Origin AccountId) (rarity_type : RarityType)
    (race : RaceType) (career : CareerType) : Dispatch T Unit := transactional do
  let sender ← ensure_signed origin
  let s ← read
  ensure s.sale.can_purchase_rare_origin_of_shells Error.RareOriginOfShellPurchaseNotAvailable.into
  let overlord ← overlord
  let origin_of_shell_price ← match rarity_type with
    | .Legendary => pure T.LegendaryOriginOfShellPrice
    | .Magic => pure T.MagicOriginOfShellPrice
    | .Prime => fail Error.InvalidPurchase.into
  do_mint_origin_of_shell_nft overlord sender rarity_type race career 0 origin_of_shell_price
    .ForSale (!s.sale.last_day_of_sale)

def buy_prime_origin_of_shell (origin : Origin AccountId) (signature : T.Signature)
    (race : RaceType) (career : CareerType) : Dispatch T Unit := transactional do
  let sender ← ensure_signed origin
  let s ← read
  let is_last_day_of_sale := s.sale.last_day_of_sale
  ensure s.sale.can_purchase_prime_origin_of_shells
    Error.PrimeOriginOfShellPurchaseNotAvailable.into
  let overlord ← overlord
  let valid ← verify_claim overlord sender signature .BuyPrimeOriginOfShells
  -- on the last day everybody may buy
  ensure (valid || is_last_day_of_sale) Error.WhitelistVerificationFailed.into
  do_mint_origin_of_shell_nft overlord sender .Prime race career 0 T.PrimeOriginOfShellPrice
    .ForSale (!is_last_day_of_sale)

/-! ### Preorders -/

def preorder_origin_of_shell (origin : Origin AccountId) (race : RaceType) (career : CareerType) :
    Dispatch T Unit := transactional do
  let sender ← ensure_signed origin
  let s ← read
  let is_last_day_of_sale := s.sale.last_day_of_sale
  -- on the last day an account may have several preorders
  ensure (is_last_day_of_sale ||
      (s.sale.can_preorder_origin_of_shells && !s.sale.owner_has_preorder sender))
    Error.PreorderOriginOfShellNotAvailable.into
  let spirit_collection_id ← get_spirit_collection_id
  let owns_spirit ← owns_nft_in_collection sender spirit_collection_id
  ensure owns_spirit Error.MustOwnSpiritToPurchase.into
  let origin_of_shell_collection_id ← get_origin_of_shell_collection_id
  let owns ← owns_nft_in_collection sender origin_of_shell_collection_id
  ensure (is_last_day_of_sale || !owns) Error.OriginOfShellAlreadyPurchased.into
  let preorder_id := s.sale.preorder_index
  ensure (preorder_id ≠ 2 ^ 32 - 1) Error.NoAvailablePreorderId.into
  put_sale fun st => { st with preorder_index := preorder_id + 1 }
  let metadata ← get_origin_of_shell_metadata race
  outside (T.reserve sender T.PrimeOriginOfShellPrice)
  put_sale fun st =>
    { st with
      preorders :=
        Function.update st.preorders preorder_id (some ⟨sender, race, career, metadata⟩) }
  when (!is_last_day_of_sale) do
    put_sale fun st =>
      { st with
        owner_has_preorder := Function.update st.owner_has_preorder sender true }
  deposit_event (.OriginOfShellPreordered sender preorder_id)

/-- `Preorders::<T>::take(preorder_id).ok_or(NoAvailablePreorderId)?`. -/
def take_preorder (preorder_id : PreorderId) :
    Dispatch T (PreorderInfo AccountId T.Metadata) := do
  let s ← read
  put_sale fun st => { st with preorders := Function.update st.preorders preorder_id none }
  ok_or (s.sale.preorders preorder_id) Error.NoAvailablePreorderId.into

/-- `OwnerHasPreorder::<T>::remove(owner)`. -/
def remove_owner_has_preorder (owner : AccountId) : Dispatch T Unit :=
  put_sale fun st =>
    { st with
      owner_has_preorder := Function.update st.owner_has_preorder owner false }

/-- The loop over preorder ids that both batches run: at most `iter_limit`
    ids are handled, the rest is left for another call. -/
def for_preorders (body : PreorderId → Dispatch T Unit) (iter_limit : Nat) :
    Nat → List PreorderId → Dispatch T Unit
  | _, [] => pure ()
  | index, preorder_id :: preorders =>
    if index < iter_limit then do
      body preorder_id
      let index ← arith (plain_add T 32 index 1)
      for_preorders body iter_limit index preorders
    -- the loop breaks, and the call returns `Ok`
    else pure ()

/-- One round of `mint_chosen_preorders`. -/
def mint_chosen_preorder (sender : AccountId) (origin_of_shell_price : Nat)
    (is_last_day_of_sale : Bool) (preorder_id : PreorderId) : Dispatch T Unit := do
  let preorder_info ← take_preorder preorder_id
  let preorder_owner := preorder_info.owner
  -- what `unreserve` could not give back is not looked at
  outside_infallible (T.unreserve preorder_owner origin_of_shell_price)
  do_mint_origin_of_shell_nft sender preorder_owner .Prime preorder_info.race
    preorder_info.career 0 origin_of_shell_price .ForSale false
  when (!is_last_day_of_sale) (remove_owner_has_preorder preorder_owner)
  deposit_event (.ChosenPreorderMinted preorder_id preorder_owner)

def mint_chosen_preorders (origin : Origin AccountId) (preorders : List PreorderId) :
    Dispatch T Unit := transactional do
  let sender ← ensure_signed origin
  ensure_overlord sender
  let s ← read
  for_preorders
    (mint_chosen_preorder sender T.PrimeOriginOfShellPrice s.sale.last_day_of_sale)
    T.IterLimit.toNat 0 preorders

/-- One round of `refund_not_chosen_preorders`. -/
def refund_not_chosen_preorder (origin_of_shell_price : Nat) (is_last_day_of_sale : Bool)
    (preorder_id : PreorderId) : Dispatch T Unit := do
  let preorder_info ← take_preorder preorder_id
  outside_infallible (T.unreserve preorder_info.owner origin_of_shell_price)
  when (!is_last_day_of_sale) (remove_owner_has_preorder preorder_info.owner)
  deposit_event (.NotChosenPreorderRefunded preorder_id preorder_info.owner)

def refund_not_chosen_preorders (origin : Origin AccountId) (preorders : List PreorderId) :
    Dispatch T Unit := transactional do
  let sender ← ensure_signed origin
  ensure_overlord sender
  let s ← read
  for_preorders (refund_not_chosen_preorder T.PrimeOriginOfShellPrice s.sale.last_day_of_sale)
    T.IterLimit.toNat 0 preorders

def mint_gift_origin_of_shell (origin : Origin AccountId) (owner : AccountId)
    (rarity_type : RarityType) (race : RaceType) (career : CareerType)
    (nft_sale_type : NftSaleType) : Dispatch T Unit := transactional do
  let sender ← ensure_signed origin
  ensure_overlord sender
  ensure (nft_sale_type ≠ .ForSale) Error.WrongNftSaleType.into
  do_mint_origin_of_shell_nft sender owner rarity_type race career 0 0 nft_sale_type false
  deposit_event (.OriginOfShellGiftedToOwner owner nft_sale_type)

/-! ### Administration -/

def set_overlord (origin : Origin AccountId) (new_overlord : AccountId) : Dispatch T Unit := do
  ensure (T.GovernanceOrigin origin) (.err .BadOrigin)
  let s ← read
  put_sale fun st => { st with overlord := some new_overlord }
  deposit_event (.OverlordChanged s.sale.overlord new_overlord)

def initialize_world_clock (origin : Origin AccountId) : Dispatch T Unit := do
  let sender ← ensure_signed origin
  ensure_overlord sender
  let s ← read
  ensure (s.sale.zero_day = none) Error.WorldClockAlreadySet.into
  let rem ← arith (plain_rem T s.now T.SecondsPerEra.toNat)
  let zero_day ← arith (plain_sub T 64 s.now rem)
  put_sale fun st => { st with zero_day := some zero_day }
  deposit_event (.WorldClockStarted zero_day)

def set_status_type (origin : Origin AccountId) (status : Bool) (status_type : StatusType) :
    Dispatch T Unit := do
  let sender ← ensure_signed origin
  ensure_overlord sender
  match status_type with
  | .ClaimSpirits => set_claim_spirits_status status
  | .PurchaseRareOriginOfShells => set_purchase_rare_origin_of_shells_status status
  | .PurchasePrimeOriginOfShells => set_purchase_prime_origin_of_shells_status status
  | .PreorderOriginOfShells => set_preorder_origin_of_shells_status status
  | .LastDayOfSale => set_last_day_of_sale_status status

def init_rarity_type_counts (origin : Origin AccountId) : Dispatch T Unit := do
  let sender ← ensure_signed origin
  ensure_overlord sender
  set_initial_origin_of_shell_inventory
  deposit_event (.OriginOfShellsInventoryWasSet true)

def update_rarity_type_counts (origin : Origin AccountId) (rarity_type : RarityType)
    (for_sale_count giveaway_count : Nat) : Dispatch T Unit := do
  let sender ← ensure_signed origin
  ensure_overlord sender
  ensure (rarity_type = .Prime) Error.WrongRarityType.into
  update_nft_sale_info rarity_type .AISpectre for_sale_count giveaway_count
  update_nft_sale_info rarity_type .Cyborg for_sale_count giveaway_count
  update_nft_sale_info rarity_type .Pandroid for_sale_count giveaway_count
  update_nft_sale_info rarity_type .XGene for_sale_count giveaway_count
  deposit_event (.OriginOfShellInventoryUpdated rarity_type)

def set_spirit_collection_id (origin : Origin AccountId) (collection_id : CollectionId) :
    Dispatch T Unit := do
  let sender ← ensure_signed origin
  ensure_overlord sender
  let s ← read
  ensure (s.sale.spirit_collection_id = none) Error.SpiritCollectionIdAlreadySet.into
  put_sale fun st => { st with spirit_collection_id := some collection_id }
  deposit_event (.SpiritCollectionIdSet collection_id)

def set_origin_of_shell_collection_id (origin : Origin AccountId) (collection_id : CollectionId) :
    Dispatch T Unit := do
  let sender ← ensure_signed origin
  ensure_overlord sender
  let s ← read
  ensure (s.sale.origin_of_shell_collection_id = none)
    Error.OriginOfShellCollectionIdAlreadySet.into
  put_sale fun st => { st with origin_of_shell_collection_id := some collection_id }
  deposit_event (.OriginOfShellCollectionIdSet collection_id)

def pw_create_collection (origin : Origin AccountId) (metadata : T.Metadata) (max : Option Nat)
    (symbol : Bytes) : Dispatch T Unit := transactional do
  let sender ← ensure_signed origin
  ensure_overlord sender
  outside (T.create_collection sender metadata max symbol)

def set_spirits_metadata (origin : Origin AccountId) (spirits_metadata : T.Metadata) :
    Dispatch T Unit := do
  let sender ← ensure_signed origin
  ensure_overlord sender
  put_sale fun st => { st with spirits_metadata := some spirits_metadata }
  deposit_event (.SpiritsMetadataSet spirits_metadata)

def set_origin_of_shells_metadata (origin : Origin AccountId)
    (origin_of_shells_metadata : List (RaceType × T.Metadata)) : Dispatch T Unit := do
  let sender ← ensure_signed origin
  ensure_overlord sender
  forEach (fun (race, metadata) =>
    put_sale fun st =>
      { st with
        origin_of_shells_metadata :=
          Function.update st.origin_of_shells_metadata race (some metadata) })
    origin_of_shells_metadata
  deposit_event (.OriginOfShellsMetadataSet origin_of_shells_metadata)

/-! ### The block hook -/

def on_finalize : Dispatch T Unit := do
  let s ← read
  match s.sale.zero_day with
  | none => pure ()
  | some zero_day =>
    let current_time := s.now
    when (current_time > zero_day) do
      let secs_since_zero_day ← arith (plain_sub T 64 current_time zero_day)
      let eras ← arith (plain_div T secs_since_zero_day T.SecondsPerEra.toNat)
      -- one era a block, also when several are over
      when (eras > s.sale.era) do
        let new_era ← arith (plain_add T 64 s.sale.era 1)
        put_sale fun st => { st with era := new_era }
        deposit_event (.NewEra current_time new_era)

end NftSale

end PhalaWorld
