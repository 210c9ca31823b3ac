import Mathlib.Algebra.Ring.Nat
import Mathlib.Logic.Function.Basic

/-! # The types of Phala World

    The enumerations and records the two pallets share, with the SCALE
    encoding of those that are stored as attribute bytes or signed. Ids
    are `u32` in the runtime and natural numbers here; the places where a
    width matters say so. A `BoundedVec` carries its bound.
-/

namespace PhalaWorld

abbrev PreorderId := Nat
abbrev EraId := Nat
abbrev GenerationId := UInt32
abbrev CollectionId := Nat
abbrev NftId := Nat
abbrev Bytes := List UInt8

/-- Status types for different NFT sale phases. -/
inductive StatusType where
  | ClaimSpirits
  | PurchaseRareOriginOfShells
  | PurchasePrimeOriginOfShells
  | PreorderOriginOfShells
  | LastDayOfSale
  deriving DecidableEq, Repr

/-- Purpose of an `OverlordMessage`. -/
inductive Purpose where
  | RedeemSpirit
  | BuyPrimeOriginOfShells
  deriving DecidableEq, Repr

inductive RarityType where
  | Prime
  | Magic
  | Legendary
  deriving DecidableEq, Repr

inductive RaceType where
  | Cyborg
  | AISpectre
  | XGene
  | Pandroid
  deriving DecidableEq, Repr

inductive CareerType where
  | HackerWizard
  | HardwareDruid
  | RoboWarrior
  | TradeNegotiator
  | Web3Monk
  deriving DecidableEq, Repr

inductive NftSaleType where
  | ForSale
  | Giveaway
  | Reserved
  deriving DecidableEq, Repr

/-- What the Overlord signs for an account. -/
structure OverlordMessage (AccountId : Type) where
  account : AccountId
  purpose : Purpose

/-- The four attributes of an Origin of Shell or a Shell. -/
structure Traits where
  rarity_type : RarityType
  race : RaceType
  career : CareerType
  generation : GenerationId
  deriving DecidableEq, Repr

/-- A pending preorder. -/
structure PreorderInfo (AccountId BoundedString : Type) where
  owner : AccountId
  race : RaceType
  career : CareerType
  metadata : BoundedString

/-- The inventory of one rarity and race. -/
structure NftSaleInfo where
  /-- Number minted. -/
  race_count : Nat
  /-- Number left to sell. -/
  race_for_sale_count : Nat
  /-- Number left to give away. -/
  race_giveaway_count : Nat
  /-- Number left in reserve. -/
  race_reserved_count : Nat
  deriving DecidableEq, Repr

/-- What an account has fed in the era it last fed in. -/
structure FoodInfo (BoundedOriginOfShellsFed : Type) where
  era : EraId
  origin_of_shells_fed : BoundedOriginOfShellsFed

/-! ### Bounded vectors -/

/-- A list of at most `S` elements. -/
structure BoundedVec (α : Type) (S : UInt32) where
  val : List α
  bound : val.length ≤ S.toNat
  deriving DecidableEq

namespace BoundedVec
variable {α : Type} {S : UInt32}

/-- `Default::default()`: no elements. -/
def empty : BoundedVec α S := ⟨[], Nat.zero_le _⟩

/-- `try_into()`: fails on a list that is too long. -/
def try_from (l : List α) : Option (BoundedVec α S) :=
  if h : l.length ≤ S.toNat then some ⟨l, h⟩ else none

/-- Appends an element, unless the vector is full. -/
def try_push (v : BoundedVec α S) (x : α) : Option (BoundedVec α S) :=
  try_from (v.1 ++ [x])

@[simp] theorem empty_val : (empty : BoundedVec α S).val = [] := rfl

theorem try_from_eq_some {l : List α} {v : BoundedVec α S} :
    try_from l = some v ↔ v.1 = l := by
  unfold try_from
  constructor
  · intro h
    split at h
    · cases h; rfl
    · cases h
  · rintro rfl
    rw [dif_pos v.2]

theorem try_from_eq_none {l : List α} :
    (try_from l : Option (BoundedVec α S)) = none ↔ S.toNat < l.length := by
  unfold try_from
  split <;> simp_all

theorem try_push_eq_some {v v' : BoundedVec α S} {x : α} :
    v.try_push x = some v' ↔ v'.1 = v.1 ++ [x] :=
  try_from_eq_some

/-- A vector refuses an element only when it is full. -/
theorem try_push_eq_none {v : BoundedVec α S} {x : α} :
    v.try_push x = none ↔ v.1.length = S.toNat := by
  have := v.2
  rw [try_push, try_from_eq_none, List.length_append, List.length_singleton]
  omega

end BoundedVec

/-! ### SCALE encoding -/

/-- A field-less enumeration is encoded as the index of its variant. -/
def Purpose.encode : Purpose → Bytes
  | .RedeemSpirit => [0]
  | .BuyPrimeOriginOfShells => [1]

def RarityType.encode : RarityType → Bytes
  | .Prime => [0]
  | .Magic => [1]
  | .Legendary => [2]

def RaceType.encode : RaceType → Bytes
  | .Cyborg => [0]
  | .AISpectre => [1]
  | .XGene => [2]
  | .Pandroid => [3]

def CareerType.encode : CareerType → Bytes
  | .HackerWizard => [0]
  | .HardwareDruid => [1]
  | .RoboWarrior => [2]
  | .TradeNegotiator => [3]
  | .Web3Monk => [4]

/-- A `u32` is encoded as four bytes, the least significant first. -/
def GenerationId.encode (g : GenerationId) : Bytes :=
  [.ofNat g.toNat, .ofNat (g.toNat / 2 ^ 8), .ofNat (g.toNat / 2 ^ 16), .ofNat (g.toNat / 2 ^ 24)]

/-- Decoding reads from the front of its input and ignores what follows. -/
def RarityType.decode : Bytes → Option RarityType
  | 0 :: _ => some .Prime
  | 1 :: _ => some .Magic
  | 2 :: _ => some .Legendary
  | _ => none

def RaceType.decode : Bytes → Option RaceType
  | 0 :: _ => some .Cyborg
  | 1 :: _ => some .AISpectre
  | 2 :: _ => some .XGene
  | 3 :: _ => some .Pandroid
  | _ => none

def CareerType.decode : Bytes → Option CareerType
  | 0 :: _ => some .HackerWizard
  | 1 :: _ => some .HardwareDruid
  | 2 :: _ => some .RoboWarrior
  | 3 :: _ => some .TradeNegotiator
  | 4 :: _ => some .Web3Monk
  | _ => none

def GenerationId.decode : Bytes → Option GenerationId
  | b₀ :: b₁ :: b₂ :: b₃ :: _ =>
      some (.ofNat (b₀.toNat + b₁.toNat * 2 ^ 8 + b₂.toNat * 2 ^ 16 + b₃.toNat * 2 ^ 24))
  | _ => none

@[simp] theorem RarityType.decode_encode (r : RarityType) : decode r.encode = some r := by
  cases r <;> rfl

@[simp] theorem RaceType.decode_encode (r : RaceType) : decode r.encode = some r := by
  cases r <;> rfl

@[simp] theorem CareerType.decode_encode (c : CareerType) : decode c.encode = some c := by
  cases c <;> rfl

@[simp] theorem GenerationId.decode_encode (g : GenerationId) : decode (encode g) = some g := by
  have hlt := g.toNat_lt
  simp only [decode, encode, Option.some.injEq]
  apply UInt32.toNat_inj.mp
  simp only [UInt8.toNat_ofNat', UInt32.toNat_ofNat']
  omega

theorem RarityType.encode_length (r : RarityType) : r.encode.length = 1 := by
  cases r <;> rfl

theorem RaceType.encode_length (r : RaceType) : r.encode.length = 1 := by
  cases r <;> rfl

theorem CareerType.encode_length (c : CareerType) : c.encode.length = 1 := by
  cases c <;> rfl

theorem GenerationId.encode_length (g : GenerationId) : (encode g).length = 4 := rfl

end PhalaWorld
