import PhalaWorld.Framework.Transaction
import PhalaWorld.Model.Config

/-! # Storage, events and the dispatch monad

    The storage of both pallets, field by field under the names of the
    getters, and the events they deposit. Storage maps are functions, with
    `Option` where a key can be missing; double maps take a pair.

    `Dispatch T` is the monad the pallets' functions run in: a transaction
    over both storages, the world and the clock.
-/

namespace PhalaWorld

open Transaction

variable {AccountId : Type}

/-- The events of both pallets. -/
inductive Event (T : Config AccountId) where
  | WorldClockStarted (start_time : Nat)
  | NewEra (time era : Nat)
  | SpiritClaimed (owner : AccountId) (collection_id : CollectionId) (nft_id : NftId)
  | OriginOfShellPreordered (owner : AccountId) (preorder_id : PreorderId)
  | OriginOfShellMinted (rarity_type : RarityType) (collection_id : CollectionId)
      (nft_id : NftId) (owner : AccountId) (race : RaceType) (career : CareerType)
  | SpiritCollectionIdSet (collection_id : CollectionId)
  | OriginOfShellCollectionIdSet (collection_id : CollectionId)
  | OriginOfShellInventoryUpdated (rarity_type : RarityType)
  | ClaimSpiritStatusChanged (status : Bool)
  | PurchaseRareOriginOfShellsStatusChanged (status : Bool)
  | PurchasePrimeOriginOfShellsStatusChanged (status : Bool)
  | PreorderOriginOfShellsStatusChanged (status : Bool)
  | ChosenPreorderMinted (preorder_id : PreorderId) (owner : AccountId)
  | NotChosenPreorderRefunded (preorder_id : PreorderId) (owner : AccountId)
  | LastDayOfSaleStatusChanged (status : Bool)
  | OverlordChanged (old_overlord : Option AccountId) (new_overlord : AccountId)
  | OriginOfShellsInventoryWasSet (status : Bool)
  | OriginOfShellGiftedToOwner (owner : AccountId) (nft_sale_type : NftSaleType)
  | SpiritsMetadataSet (spirits_metadata : T.Metadata)
  | OriginOfShellsMetadataSet (origin_of_shells_metadata : List (RaceType × T.Metadata))
  | CanStartIncubationStatusChanged (status : Bool) (start_time official_hatch_time : Nat)
  | StartedIncubation (collection_id : CollectionId) (nft_id : NftId) (owner : AccountId)
      (start_time hatch_time : Nat)
  | OriginOfShellReceivedFood (collection_id : CollectionId) (nft_id : NftId)
      (sender : AccountId)
  | HatchTimeUpdated (collection_id : CollectionId) (nft_id : NftId)
      (old_hatch_time new_hatch_time : Nat)
  | ShellCollectionIdSet (collection_id : CollectionId)
  | ShellAwakened (collection_id : CollectionId) (nft_id : NftId) (owner : AccountId)

/-- The storage of the sale pallet. -/
structure NftSaleStorage (T : Config AccountId) where
  preorder_index : PreorderId
  preorders : PreorderId → Option (PreorderInfo AccountId T.Metadata)
  owner_has_preorder : AccountId → Bool
  origin_of_shells_inventory : RarityType × RaceType → Option NftSaleInfo
  zero_day : Option Nat
  era : EraId
  can_claim_spirits : Bool
  can_purchase_rare_origin_of_shells : Bool
  can_purchase_prime_origin_of_shells : Bool
  can_preorder_origin_of_shells : Bool
  last_day_of_sale : Bool
  spirit_collection_id : Option CollectionId
  origin_of_shell_collection_id : Option CollectionId
  career_type_count : CareerType → Nat
  is_origin_of_shells_inventory_set : Bool
  spirits_metadata : Option T.Metadata
  origin_of_shells_metadata : RaceType → Option T.Metadata
  overlord : Option AccountId

/-- The storage of the incubation pallet. -/
structure IncubationStorage (T : Config AccountId) where
  food_by_owners : AccountId → Option (FoodInfo (BoundedVec (CollectionId × NftId) T.FoodPerEra))
  origin_of_shell_food_stats : EraId × (CollectionId × NftId) → Nat
  official_hatch_time : Nat
  hatch_times : CollectionId × NftId → Option Nat
  can_start_incubation : Bool
  shell_collection_id : Option CollectionId

/-- The state the pallets' functions run in. -/
structure State (T : Config AccountId) where
  sale : NftSaleStorage T
  incubation : IncubationStorage T
  world : T.World
  /-- `T::Time::now().as_secs()`. -/
  now : Nat
  /-- The deposited events, oldest first. -/
  events : List (Event T)

/-- The pallets' functions. -/
abbrev Dispatch (T : Config AccountId) (α : Type) : Type :=
  Tx (State T) (Failure T.ModuleError) α

section primitives
variable {T : Config AccountId}

/-- An error of the sale pallet, as a failure. -/
def NftSale.Error.into (e : NftSale.Error) : Failure T.ModuleError := .err (.NftSale e)

/-- An error of the incubation pallet, as a failure. -/
def Incubation.Error.into (e : Incubation.Error) : Failure T.ModuleError := .err (.Incubation e)

/-- Writes to the storage of the sale pallet. -/
def put_sale (f : NftSaleStorage T → NftSaleStorage T) : Dispatch T Unit :=
  write fun s => { s with sale := f s.sale }

/-- Writes to the storage of the incubation pallet. -/
def put_incubation (f : IncubationStorage T → IncubationStorage T) : Dispatch T Unit :=
  write fun s => { s with incubation := f s.incubation }

def deposit_event (event : Event T) : Dispatch T Unit :=
  write fun s => { s with events := s.events ++ [event] }

/-- Calls a function of another pallet. -/
def outside (f : T.World → Except T.ModuleError T.World) : Dispatch T Unit :=
  attempt fun s =>
    match f s.world with
    | .ok w => .ok { s with world := w }
    | .error e => .error (.err (.Module e))

/-- A function of another pallet that cannot fail. -/
def outside_infallible (f : T.World → T.World) : Dispatch T Unit :=
  write fun s => { s with world := f s.world }

/-- A query of another pallet. -/
def outside_query {α : Type} (f : T.World → Except T.ModuleError α) : Dispatch T α := fun s =>
  match f s.world with
  | .ok a => (.ok a, s)
  | .error e => (.error (.err (.Module e)), s)

/-- Arithmetic that can panic. -/
def arith {α : Type} (r : Except (Failure T.ModuleError) α) : Dispatch T α := fun s => (r, s)

def ensure_signed : Origin AccountId → Dispatch T AccountId
  | .signed who => pure who
  | _ => fail (.err .BadOrigin)

variable {s s' : State T}

@[simp] theorem put_sale_ok {f : NftSaleStorage T → NftSaleStorage T} {u : Unit} :
    put_sale f s = (.ok u, s') ↔ s' = { s with sale := f s.sale } := by
  simp [put_sale]

@[simp] theorem put_incubation_ok {f : IncubationStorage T → IncubationStorage T} {u : Unit} :
    put_incubation f s = (.ok u, s') ↔ s' = { s with incubation := f s.incubation } := by
  simp [put_incubation]

@[simp] theorem deposit_event_ok {event : Event T} {u : Unit} :
    deposit_event event s = (.ok u, s') ↔ s' = { s with events := s.events ++ [event] } := by
  simp [deposit_event]

@[simp] theorem outside_ok {f : T.World → Except T.ModuleError T.World} {u : Unit} :
    outside f s = (.ok u, s') ↔ ∃ w, f s.world = .ok w ∧ s' = { s with world := w } := by
  simp only [outside, attempt_ok]
  cases f s.world <;> simp [eq_comm]

@[simp] theorem outside_infallible_ok {f : T.World → T.World} {u : Unit} :
    outside_infallible f s = (.ok u, s') ↔ s' = { s with world := f s.world } := by
  simp [outside_infallible]

@[simp] theorem outside_query_ok {α : Type} {f : T.World → Except T.ModuleError α} {a : α} :
    outside_query f s = (.ok a, s') ↔ f s.world = .ok a ∧ s' = s := by
  unfold outside_query
  cases f s.world <;> simp [eq_comm]

@[simp] theorem arith_ok {α : Type} {r : Except (Failure T.ModuleError) α} {a : α} :
    arith r s = (.ok a, s') ↔ r = .ok a ∧ s' = s := by
  simp [arith, eq_comm]

@[simp] theorem arith_bind {α β : Type} {a : α} {f : α → Dispatch T β} :
    arith (.ok a) >>= f = f a := rfl

@[simp] theorem ensure_signed_ok {origin : Origin AccountId} {who : AccountId} :
    ensure_signed origin s = (.ok who, s') ↔ origin = .signed who ∧ s' = s := by
  cases origin <;> simp [ensure_signed, eq_comm (a := who)]

variable {e : Failure T.ModuleError}

@[simp] theorem put_sale_error {f : NftSaleStorage T → NftSaleStorage T} :
    put_sale f s ≠ (.error e, s') := by
  simp [put_sale]

@[simp] theorem put_incubation_error {f : IncubationStorage T → IncubationStorage T} :
    put_incubation f s ≠ (.error e, s') := by
  simp [put_incubation]

@[simp] theorem deposit_event_error {event : Event T} :
    deposit_event event s ≠ (.error e, s') := by
  simp [deposit_event]

@[simp] theorem outside_error {f : T.World → Except T.ModuleError T.World} :
    outside f s = (.error e, s') ↔ ∃ m, f s.world = .error m ∧ e = .err (.Module m) ∧ s' = s := by
  simp only [outside, attempt_error]
  cases f s.world <;> simp [eq_comm]

@[simp] theorem outside_infallible_error {f : T.World → T.World} :
    outside_infallible f s ≠ (.error e, s') := by
  simp [outside_infallible]

@[simp] theorem outside_query_error {α : Type} {f : T.World → Except T.ModuleError α} :
    outside_query f s = (.error e, s') ↔
      ∃ m, f s.world = .error m ∧ e = .err (.Module m) ∧ s' = s := by
  unfold outside_query
  cases f s.world <;> simp [eq_comm]

@[simp] theorem arith_error {α : Type} {r : Except (Failure T.ModuleError) α} :
    arith r s = (.error e, s') ↔ r = .error e ∧ s' = s := by
  simp [arith, eq_comm]

@[simp] theorem ensure_signed_error {origin : Origin AccountId} :
    ensure_signed origin s = (.error e, s') ↔
      (∀ who, origin ≠ .signed who) ∧ .err .BadOrigin = e ∧ s' = s := by
  cases origin <;> simp [ensure_signed]

end primitives

end PhalaWorld
