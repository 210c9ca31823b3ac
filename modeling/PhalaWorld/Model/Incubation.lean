import PhalaWorld.Model.NftSale

/-! # The incubation pallet

    `incubation.rs`, function by function, in the manner of the sale
    pallet.
-/

namespace PhalaWorld

open Transaction

variable {AccountId : Type} [DecidableEq AccountId] {T : Config AccountId}

namespace Incubation

/-! ### Helpers -/

def is_owner (sender : AccountId) (collection_id : CollectionId) (nft_id : NftId) :
    Dispatch T Bool := do
  let s ← read
  match T.uniques_owner s.world collection_id nft_id with
  | some owner => pure (decide (sender = owner))
  | none => pure false

def is_origin_of_shell_collection_id (collection_id : CollectionId) : Dispatch T Bool := do
  let s ← read
  match s.sale.origin_of_shell_collection_id with
  | some origin_of_shell_collection_id =>
      pure (decide (collection_id = origin_of_shell_collection_id))
  | none => pure false

def get_hatch_time (collection_id : CollectionId) (nft_id : NftId) : Dispatch T Nat := do
  let s ← read
  ok_or (s.incubation.hatch_times (collection_id, nft_id)) Error.NoHatchTimeDetected.into

def can_hatch (hatch_time : Nat) : Dispatch T Bool := do
  let s ← read
  pure (decide (s.now > hatch_time))

def get_shell_collection_id : Dispatch T CollectionId := do
  let s ← read
  ok_or s.incubation.shell_collection_id Error.ShellCollectionIdNotSet.into

def get_new_food_info (era : EraId) : FoodInfo (BoundedVec (CollectionId × NftId) T.FoodPerEra) :=
  { era := era, origin_of_shells_fed := BoundedVec.empty }

/-- `HatchTimes::<T>::insert`. -/
def insert_hatch_time (collection_id : CollectionId) (nft_id : NftId) (hatch_time : Nat) :
    Dispatch T Unit :=
  put_incubation fun st =>
    { st with
      hatch_times := Function.update st.hatch_times (collection_id, nft_id) (some hatch_time) }

/-! ### Incubating and feeding -/

def start_incubation (origin : Origin AccountId) (collection_id : CollectionId) (nft_id : NftId) :
    Dispatch T Unit := transactional do
  let sender ← ensure_signed origin
  let s ← read
  ensure s.incubation.can_start_incubation Error.StartIncubationNotAvailable.into
  let right_collection ← is_origin_of_shell_collection_id collection_id
  ensure right_collection Error.WrongCollectionId.into
  let owner ← is_owner sender collection_id nft_id
  ensure owner Error.NotOwner.into
  ensure (s.incubation.hatch_times (collection_id, nft_id) = none) Error.HatchingInProgress.into
  let start_time := s.now
  let hatch_time := s.incubation.official_hatch_time
  insert_hatch_time collection_id nft_id hatch_time
  deposit_event (.StartedIncubation collection_id nft_id sender start_time hatch_time)

/-- The closure of `FoodByOwners::try_mutate` in `feed_origin_of_shell`: the
    sender's record after a feed of `nft` in `current_era`. -/
def update_food_info (current_era : EraId) (nft : CollectionId × NftId)
    (food_info : Option (FoodInfo (BoundedVec (CollectionId × NftId) T.FoodPerEra))) :
    Dispatch T (FoodInfo (BoundedVec (CollectionId × NftId) T.FoodPerEra)) := do
  let new_food_info ← match food_info with
    | none => pure (get_new_food_info current_era)
    | some food_info =>
      -- the first feed of an era begins a new record
      if current_era > food_info.era then pure (get_new_food_info current_era)
      else do
        ensure ((food_info.origin_of_shells_fed.1.filter (· = nft)).length <
          T.MaxFoodFeedSelf.toNat) Error.AlreadySentFoodTwice.into
        pure food_info
  let origin_of_shells_fed ←
    ok_or (new_food_info.origin_of_shells_fed.try_push nft) Error.FoodInfoUpdateError.into
  pure { new_food_info with origin_of_shells_fed := origin_of_shells_fed }

def feed_origin_of_shell (origin : Origin AccountId) (collection_id : CollectionId)
    (nft_id : NftId) : Dispatch T Unit := transactional do
  let sender ← ensure_signed origin
  let s ← read
  ensure s.incubation.can_start_incubation Error.StartIncubationNotAvailable.into
  let right_collection ← is_origin_of_shell_collection_id collection_id
  ensure right_collection Error.WrongCollectionId.into
  let hatch_time ← get_hatch_time collection_id nft_id
  let hatched ← can_hatch hatch_time
  ensure (!hatched) Error.CannotSendFoodToOriginOfShell.into
  -- the sender has an item of the collection, not necessarily this one
  ensure ((T.owned_in_collection collection_id sender s.world).length > 0)
    Error.CannotSendFoodToOriginOfShell.into
  let current_era := s.sale.era
  let num_of_times_fed :=
    s.incubation.origin_of_shell_food_stats (current_era, (collection_id, nft_id))
  let food_info ←
    update_food_info current_era (collection_id, nft_id) (s.incubation.food_by_owners sender)
  put_incubation fun st =>
    { st with food_by_owners := Function.update st.food_by_owners sender (some food_info) }
  let num_of_times_fed ← arith (plain_add T 32 num_of_times_fed 1)
  put_incubation fun st =>
    { st with
      origin_of_shell_food_stats :=
        Function.update st.origin_of_shell_food_stats (current_era, (collection_id, nft_id))
          num_of_times_fed }
  deposit_event (.OriginOfShellReceivedFood collection_id nft_id sender)

/-! ### Hatching -/

/-- The reading half of `hatch_origin_of_shell`: the four attributes and
    their decoding. -/
def read_attributes (collection_id : CollectionId) (nft_id : NftId)
    (race_key career_key rarity_type_key generation_key : T.Key) : Dispatch T Traits := do
  let s ← read
  let race ← ok_or (T.uniques_attribute s.world collection_id nft_id race_key)
    Error.RaceNotDetected.into
  let career ← ok_or (T.uniques_attribute s.world collection_id nft_id career_key)
    Error.CareerNotDetected.into
  let rarity_type_value ← ok_or (T.uniques_attribute s.world collection_id nft_id rarity_type_key)
    Error.RarityTypeNotDetected.into
  let generation ← ok_or (T.uniques_attribute s.world collection_id nft_id generation_key)
    Error.GenerationNotDetected.into
  let race_type ← expect (RaceType.decode race.1) "[race] should not fail"
  let career_type ← expect (CareerType.decode career.1) "[career] should not fail"
  let rarity_type ← expect (RarityType.decode rarity_type_value.1) "[rarity] should not fail"
  let generation_id ← expect (GenerationId.decode generation.1) "[generation] should not fail"
  pure ⟨rarity_type, race_type, career_type, generation_id⟩

def hatch_origin_of_shell (origin : Origin AccountId) (collection_id : CollectionId)
    (nft_id : NftId) (metadata : T.Metadata) : Dispatch T Unit := transactional do
  let sender ← ensure_signed origin
  NftSale.ensure_overlord sender
  let s ← read
  ensure s.incubation.can_start_incubation Error.StartIncubationNotAvailable.into
  let right_collection ← is_origin_of_shell_collection_id collection_id
  ensure right_collection Error.WrongCollectionId.into
  let (owner, _) ← outside_query (T.lookup_root_owner collection_id nft_id)
  let hatch_time ← get_hatch_time collection_id nft_id
  let hatched ← can_hatch hatch_time
  ensure hatched Error.CannotHatchOriginOfShell.into
  let shell_collection_id ← get_shell_collection_id
  let race_key ← NftSale.to_boundedvec_key NftSale.race_key
  let career_key ← NftSale.to_boundedvec_key NftSale.career_key
  let rarity_type_key ← NftSale.to_boundedvec_key NftSale.rarity_key
  let generation_key ← NftSale.to_boundedvec_key NftSale.generation_key
  let attributes ←
    read_attributes collection_id nft_id race_key career_key rarity_type_key generation_key
  let shell_nft_id := T.NextNftId s.world shell_collection_id
  outside (T.burn_nft owner collection_id nft_id)
  outside (T.clear_attribute sender collection_id (some nft_id) race_key)
  outside (T.clear_attribute sender collection_id (some nft_id) career_key)
  outside (T.clear_attribute sender collection_id (some nft_id) rarity_type_key)
  outside (T.clear_attribute sender collection_id (some nft_id) generation_key)
  outside (T.mint_nft sender (some owner) shell_collection_id metadata true)
  NftSale.set_nft_attributes shell_collection_id shell_nft_id attributes.rarity_type
    attributes.race attributes.career attributes.generation
  deposit_event (.ShellAwakened shell_collection_id shell_nft_id owner)

/-! ### Administration -/

/-- One round of `update_incubation_time`. -/
def reduce_hatch_time (x : (CollectionId × NftId) × Nat) : Dispatch T Unit := do
  let ((collection_id, nft_id), reduced_time) := x
  let right_collection ← is_origin_of_shell_collection_id collection_id
  ensure right_collection Error.WrongCollectionId.into
  let old_hatch_time ← get_hatch_time collection_id nft_id
  -- `saturating_sub`
  let new_hatch_time := old_hatch_time - reduced_time
  insert_hatch_time collection_id nft_id new_hatch_time
  deposit_event (.HatchTimeUpdated collection_id nft_id old_hatch_time new_hatch_time)

def update_incubation_time (origin : Origin AccountId)
    (origin_of_shells : List ((CollectionId × NftId) × Nat)) : Dispatch T Unit :=
  transactional do
  let sender ← ensure_signed origin
  NftSale.ensure_overlord sender
  forEach reduce_hatch_time origin_of_shells

def set_can_start_incubation_status (origin : Origin AccountId) (status : Bool) :
    Dispatch T Unit := do
  let sender ← ensure_signed origin
  NftSale.ensure_overlord sender
  let s ← read
  let start_time := s.now
  -- set again by every call, whatever the status
  let official_hatch_time ← arith (plain_add T 64 start_time T.IncubationDurationSec.toNat)
  put_incubation fun st => { st with official_hatch_time := official_hatch_time }
  put_incubation fun st => { st with can_start_incubation := status }
  deposit_event (.CanStartIncubationStatusChanged status start_time official_hatch_time)

def set_shell_collection_id (origin : Origin AccountId) (collection_id : CollectionId) :
    Dispatch T Unit := do
  let sender ← ensure_signed origin
  NftSale.ensure_overlord sender
  let s ← read
  ensure (s.incubation.shell_collection_id = none) Error.ShellCollectionIdAlreadySet.into
  put_incubation fun st => { st with shell_collection_id := some collection_id }
  deposit_event (.ShellCollectionIdSet collection_id)

end Incubation

end PhalaWorld
