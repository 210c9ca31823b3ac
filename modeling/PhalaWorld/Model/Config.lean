import PhalaWorld.Framework.Balances
import PhalaWorld.Framework.Nfts
import PhalaWorld.Model.Types

/-! # What the pallets are configured with

    The runtime hands the pallets their constants, a currency, a clock and
    the RMRK and Uniques pallets. All of that is one record here: the
    constants with the widths the code gives them, and the other pallets
    as functions on a `World` the two pallets never look into.

    `balances` and `nfts` are the views of a world in which results are
    stated; what the pallets read of it directly (`NextNftId`, an owner,
    an attribute) is read off the views. Nothing is assumed of the other
    functions here: the assumptions a result needs are stated with it.
-/

namespace PhalaWorld

open Ledger Tokens

/-- Where a call comes from. -/
inductive Origin (AccountId : Type) where
  | signed (who : AccountId)
  | root
  | none
  /-- An origin another pallet defines, such as a council. -/
  | custom (tag : Nat)

inductive ExistenceRequirement where
  | KeepAlive
  | AllowDeath
  deriving DecidableEq

/-- The pallets' configuration. -/
structure Config (AccountId : Type) where
  /-- Does the build panic when `+` and `-` overflow, or wrap? -/
  overflow_checks : Bool
  GovernanceOrigin : Origin AccountId → Bool
  SecondsPerEra : UInt64
  MinBalanceToClaimSpirit : Nat
  LegendaryOriginOfShellPrice : Nat
  MagicOriginOfShellPrice : Nat
  PrimeOriginOfShellPrice : Nat
  IterLimit : UInt32
  FoodPerEra : UInt32
  MaxFoodFeedSelf : UInt8
  IncubationDurationSec : UInt64
  StringLimit : UInt32
  KeyLimit : UInt32
  ValueLimit : UInt32
  /-- The SCALE encoding of an account. -/
  encode : AccountId → Bytes
  Signature : Type
  /-- `sr25519_verify signature message public_key`. -/
  sr25519_verify : Signature → Bytes → Bytes → Bool
  /-- The state of all other pallets. -/
  World : Type
  /-- The errors of all other pallets. -/
  ModuleError : Type
  balances : World → Balances AccountId
  nfts : World → Nfts CollectionId AccountId (BoundedVec UInt8 StringLimit)
    (BoundedVec UInt8 KeyLimit) (BoundedVec UInt8 ValueLimit)
  can_reserve : AccountId → Nat → World → Bool
  reserve : AccountId → Nat → World → Except ModuleError World
  unreserve : AccountId → Nat → World → World
  transfer : AccountId → AccountId → Nat → ExistenceRequirement → World → Except ModuleError World
  /-- The calls into RMRK and Uniques take the account that signs them first. -/
  create_collection : AccountId → BoundedVec UInt8 StringLimit → Option Nat → Bytes → World →
    Except ModuleError World
  mint_nft : AccountId → Option AccountId → CollectionId → BoundedVec UInt8 StringLimit → Bool →
    World → Except ModuleError World
  burn_nft : AccountId → CollectionId → NftId → World → Except ModuleError World
  freeze : AccountId → CollectionId → NftId → World → Except ModuleError World
  set_attribute : AccountId → CollectionId → Option NftId → BoundedVec UInt8 KeyLimit →
    BoundedVec UInt8 ValueLimit → World → Except ModuleError World
  clear_attribute : AccountId → CollectionId → Option NftId → BoundedVec UInt8 KeyLimit →
    World → Except ModuleError World
  owned_in_collection : CollectionId → AccountId → World → List NftId
  lookup_root_owner : CollectionId → NftId → World →
    Except ModuleError (AccountId × (CollectionId × NftId))

namespace Config
variable {AccountId : Type} (T : Config AccountId)

abbrev Metadata : Type := BoundedVec UInt8 T.StringLimit
abbrev Key : Type := BoundedVec UInt8 T.KeyLimit
abbrev Value : Type := BoundedVec UInt8 T.ValueLimit

/-- `NextNftId::<T>::get(collection_id)`. -/
def NextNftId (w : T.World) (collection_id : CollectionId) : NftId :=
  (T.nfts w).next collection_id

/-- `pallet_uniques::Pallet::<T>::owner(collection_id, nft_id)`. -/
def uniques_owner (w : T.World) (collection_id : CollectionId) (nft_id : NftId) : Option AccountId :=
  ((T.nfts w).item (collection_id, nft_id)).map Item.owner

/-- `pallet_uniques::Pallet::<T>::attribute(&collection_id, &nft_id, &key)`. -/
def uniques_attribute (w : T.World) (collection_id : CollectionId) (nft_id : NftId) (key : T.Key) :
    Option T.Value :=
  (T.nfts w).attr ((collection_id, nft_id), key)

/-- The price of an Origin of Shell of the given rarity. -/
def price : RarityType → Nat
  | .Prime => T.PrimeOriginOfShellPrice
  | .Magic => T.MagicOriginOfShellPrice
  | .Legendary => T.LegendaryOriginOfShellPrice

end Config

/-! ### Errors -/

/-- The errors of the sale pallet. -/
inductive NftSale.Error where
  | WorldClockAlreadySet
  | SpiritClaimNotAvailable
  | RareOriginOfShellPurchaseNotAvailable
  | PrimeOriginOfShellPurchaseNotAvailable
  | PreorderOriginOfShellNotAvailable
  | SpiritAlreadyClaimed
  | InvalidSpiritClaim
  | MustOwnSpiritToPurchase
  | OriginOfShellAlreadyPurchased
  | BelowMinimumBalanceThreshold
  | WhitelistVerificationFailed
  | InvalidPurchase
  | NoAvailablePreorderId
  | RaceMintMaxReached
  | OverlordNotSet
  | RequireOverlordAccount
  | WrongRarityType
  | SpiritCollectionNotSet
  | SpiritCollectionIdAlreadySet
  | SpiritsMetadataNotSet
  | OriginOfShellCollectionNotSet
  | OriginOfShellCollectionIdAlreadySet
  | OriginOfShellInventoryCorrupted
  | OriginOfShellInventoryAlreadySet
  | OriginOfShellsMetadataNotSet
  | KeyTooLong
  | NoAvailableRaceGivewayLeft
  | NoAvailableRaceReservedLeft
  | WrongNftSaleType
  deriving DecidableEq, Repr

/-- The errors of the incubation pallet. -/
inductive Incubation.Error where
  | StartIncubationNotAvailable
  | HatchingInProgress
  | CannotHatchOriginOfShell
  | CannotSendFoodToOriginOfShell
  | AlreadySentFoodTwice
  | NotOwner
  | WrongCollectionId
  | NoHatchTimeDetected
  | ShellCollectionIdAlreadySet
  | ShellCollectionIdNotSet
  | RaceNotDetected
  | CareerNotDetected
  | RarityTypeNotDetected
  | GenerationNotDetected
  | FoodInfoUpdateError
  deriving DecidableEq, Repr

/-- What a call can return as its error. -/
inductive DispatchError (ModuleError : Type) where
  | BadOrigin
  | NftSale (e : NftSale.Error)
  | Incubation (e : Incubation.Error)
  | Module (e : ModuleError)

/-- How a call can end other than well: with an error, or not at all. -/
inductive Failure (ModuleError : Type) where
  | err (e : DispatchError ModuleError)
  | panic (message : String)

/-! ### Arithmetic -/

section arithmetic
variable {AccountId : Type} (T : Config AccountId)

/-- `a + b` on `bits`-bit integers. -/
def plain_add (bits a b : Nat) : Except (Failure T.ModuleError) Nat :=
  if a + b < 2 ^ bits then .ok (a + b)
  else if T.overflow_checks then .error (.panic "attempt to add with overflow")
  else .ok ((a + b) % 2 ^ bits)

/-- `a - b` on `bits`-bit integers. -/
def plain_sub (bits a b : Nat) : Except (Failure T.ModuleError) Nat :=
  if b ≤ a then .ok (a - b)
  else if T.overflow_checks then .error (.panic "attempt to subtract with overflow")
  else .ok (a + 2 ^ bits - b)

/-- `a / b`, which panics on zero in every build. -/
def plain_div (a b : Nat) : Except (Failure T.ModuleError) Nat :=
  if b = 0 then .error (.panic "attempt to divide by zero") else .ok (a / b)

/-- `a % b`, which panics on zero in every build. -/
def plain_rem (a b : Nat) : Except (Failure T.ModuleError) Nat :=
  if b = 0 then
    .error (.panic "attempt to calculate the remainder with a divisor of zero")
  else .ok (a % b)

/-- `a.saturating_add(b)` on `u32`. -/
def saturating_add (a b : Nat) : Nat := min (a + b) (2 ^ 32 - 1)

variable {T}

theorem plain_add_of_lt {bits a b : Nat} (h : a + b < 2 ^ bits) :
    plain_add T bits a b = .ok (a + b) := by
  rw [plain_add, if_pos h]

/-- A sum that does not panic is the sum modulo the width. -/
theorem plain_add_ok {bits a b c : Nat} (h : plain_add T bits a b = .ok c) :
    c = (a + b) % 2 ^ bits := by
  unfold plain_add at h
  split at h
  · next hlt =>
    cases h
    exact (Nat.mod_eq_of_lt hlt).symm
  · split at h
    · cases h
    · cases h
      rfl

/-- It panics only where overflows are checked and the sum does not fit. -/
theorem plain_add_panic {bits a b : Nat} {e : Failure T.ModuleError}
    (h : plain_add T bits a b = .error e) : T.overflow_checks = true ∧ 2 ^ bits ≤ a + b := by
  unfold plain_add at h
  split at h
  · cases h
  · next hge =>
    split at h
    · next hchecks => exact ⟨hchecks, Nat.le_of_not_lt hge⟩
    · cases h

theorem plain_sub_of_le {bits a b : Nat} (h : b ≤ a) : plain_sub T bits a b = .ok (a - b) := by
  rw [plain_sub, if_pos h]

theorem plain_div_ok {a b q : Nat} (h : plain_div T a b = .ok q) : a / b = q := by
  unfold plain_div at h
  split at h
  · cases h
  · exact Except.ok.inj h

/-- Arithmetic panics; it never returns an error. -/
theorem plain_add_ne_err {bits a b : Nat} {e : DispatchError T.ModuleError} :
    plain_add T bits a b ≠ .error (.err e) := by
  unfold plain_add
  split
  · simp
  · split <;> simp

theorem plain_sub_ne_err {bits a b : Nat} {e : DispatchError T.ModuleError} :
    plain_sub T bits a b ≠ .error (.err e) := by
  unfold plain_sub
  split
  · simp
  · split <;> simp

theorem plain_div_ne_err {a b : Nat} {e : DispatchError T.ModuleError} :
    plain_div T a b ≠ .error (.err e) := by
  unfold plain_div
  split <;> simp

theorem plain_rem_ne_err {a b : Nat} {e : DispatchError T.ModuleError} :
    plain_rem T a b ≠ .error (.err e) := by
  unfold plain_rem
  split <;> simp

end arithmetic

end PhalaWorld
