import PhalaWorld.Framework.Ranking
import PhalaWorld.Model.System

/-! # The scripts

    What the scripts beside the pallets compute from the storage they read:
    the Overlord's list of time reductions, and three of the queries. Ids and
    counts are `u32`, which a JavaScript number holds exactly. An era is `u64`
    and need not fit, and neither need a sum.
-/

namespace PhalaWorld.Scripts

variable {AccountId : Type} {T : Config AccountId}

/-! ### Numbers -/

/-- `toNumber()`, which throws where a number would not be exact. -/
def toNumber (value : Nat) : Option Nat :=
  if value < 2 ^ 53 then some value else none

/-- The number nearest to `n`: it has 53 significant bits, and is the even one
    of two that are as near. -/
def nearest (n : Nat) : Nat :=
  let unit := 2 ^ (n.log2 - 52)
  if unit < 2 * (n % unit) ∨ (unit = 2 * (n % unit) ∧ n / unit % 2 = 1) then (n / unit + 1) * unit
  else n / unit * unit

/-- Numbers of 53 bits are exact. -/
theorem nearest_of_lt {n : Nat} (h : n < 2 ^ 53) : nearest n = n := by
  have hlog : n.log2 - 52 = 0 := by
    by_cases hn : n = 0
    · rw [hn]
      rfl
    · have hlt := (Nat.log2_lt hn).mpr h
      omega
  unfold nearest
  rw [hlog]
  simp [Nat.mod_one]

/-- What the API writes for the id of an item, and how it reads it: `toHuman()`
    and `createType`, which is `none` where it throws. -/
structure HumanCodec where
  Human : Type
  toHuman : CollectionId × NftId → Human
  createType : Human → Option (CollectionId × NftId)

/-- The API writes numbers from 1000 on with separators, and reads numbers
    without. -/
structure HumanCodec.Separates (codec : HumanCodec) : Prop where
  small : ∀ {c n}, c < 1000 → n < 1000 → codec.createType (codec.toHuman (c, n)) = some (c, n)
  large : ∀ {c n}, ¬ (c < 1000 ∧ n < 1000) → codec.createType (codec.toHuman (c, n)) = none

/-! ### The Overlord's reductions -/

/-- `originOfShellFoodStats.entries(era)`: what is stored for the era, each
    shell once. The order is that of the hashed keys. -/
structure Entries (s : State T) (era : EraId)
    (originOfShellFoodStats : List ((CollectionId × NftId) × Nat)) : Prop where
  nodup : (originOfShellFoodStats.map Prod.fst).Nodup
  mem : ∀ x count, (x, count) ∈ originOfShellFoodStats ↔
    count ≠ 0 ∧ s.incubation.origin_of_shell_food_stats (era, x) = count

/-- The array of the script. -/
def reduceHatchTimeSeconds : List Nat :=
  [10800, 7200, 3600, 2400, 1400, 1400, 1400, 1400, 1400, 1400]

/-- `sort((a, b) => b.numTimesFed - a.numTimesFed)`, which is stable, of the ids
    as they are written. -/
def sortedOriginOfShellStats (codec : HumanCodec)
    (originOfShellFoodStats : List ((CollectionId × NftId) × Nat)) : List (codec.Human × Nat) :=
  (originOfShellFoodStats.map fun entry => (codec.toHuman entry.1, entry.2)).insertionSort
    fun a b => b.2 ≤ a.2

/-- The list the script sends; nothing is sent if it throws. The loop goes
    through all entries, and past the tenth it reads `undefined`, which is
    encoded as 0. -/
def topTenFed (codec : HumanCodec) (currentEra : EraId)
    (originOfShellFoodStats : List ((CollectionId × NftId) × Nat)) :
    Option (List ((CollectionId × NftId) × Nat)) := do
  let _ ← toNumber currentEra
  let awards := (sortedOriginOfShellStats codec originOfShellFoodStats).mapIdx fun i nftStats =>
    (nftStats.1, reduceHatchTimeSeconds.getD i 0)
  awards.mapM fun nftStats => (codec.createType nftStats.1).map fun id => (id, nftStats.2)

/-! ### The queries -/

/-- `preorders.entries()`: the pending preorders, each once. -/
structure Keys (s : State T) (preorderKeys : List PreorderId) : Prop where
  nodup : preorderKeys.Nodup
  mem : ∀ preorder, preorder ∈ preorderKeys ↔ (s.sale.preorders preorder).isSome

/-- What the script prints. Its loop is a `for ... in`, which goes through the
    positions in the array. -/
def getPreordersByOwner [DecidableEq AccountId] (s : State T) (preorderKeys : List PreorderId)
    (owner : AccountId) : List (PreorderInfo AccountId T.Metadata) :=
  (List.range preorderKeys.length).filterMap fun preorder =>
    (s.sale.preorders preorder).filter fun preorderInfoVal => preorderInfoVal.owner = owner

/-- The rounds of the loop from `currentEra` down to 0. -/
def addFed (s : State T) (nft : CollectionId × NftId) (totalFed : Nat) : EraId → Nat
  | 0 => nearest (totalFed + s.incubation.origin_of_shell_food_stats (0, nft))
  | currentEra + 1 =>
      addFed s nft
        (nearest (totalFed + s.incubation.origin_of_shell_food_stats (currentEra + 1, nft)))
        currentEra

/-- `none` where the script throws. -/
def getOriginOfShellTotalFed (s : State T) (collectionId : CollectionId) (nftId : NftId) :
    Option Nat :=
  (toNumber s.sale.era).map fun currentEra => addFed s (collectionId, nftId) 0 currentEra

/-- `uniques.attribute(collectionId, nftId, attrKey)`. -/
def uniquesAttribute (s : State T) (collectionId : CollectionId) (nftId : NftId) (attrKey : Bytes) :
    Option Bytes :=
  (BoundedVec.try_from attrKey).bind fun key =>
    (T.uniques_attribute s.world collectionId nftId key).map BoundedVec.val

/-- `none` where the script throws: on an attribute that is not there, which
    `unwrap` refuses, and on bytes that `createType` cannot decode. -/
def filterOriginShellsByAttribute {Value : Type} [DecidableEq Value] (s : State T)
    (createType : Bytes → Option Value) (attrKey : Bytes) (attrValue : Value) :
    Option (List NftId) :=
  match s.sale.origin_of_shell_collection_id with
  | none => some []
  | some originOfShellCollectionId =>
    (List.range (T.NextNftId s.world originOfShellCollectionId)).foldlM
      (fun nftIdsArr nftId => do
        let actualAttr ← uniquesAttribute s originOfShellCollectionId nftId attrKey
        let actualAttrValue ← createType actualAttr
        pure (if actualAttrValue = attrValue then nftIdsArr ++ [nftId] else nftIdsArr)) []

end PhalaWorld.Scripts
