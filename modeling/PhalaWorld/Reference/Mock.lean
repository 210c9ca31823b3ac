import PhalaWorld.Specs.History
import PhalaWorld.Specs.Progress

/-! # A reference runtime

    A concrete configuration in the image of the mock runtime the pallets
    are tested with: its constants, its four funded accounts, a currency
    with an existential deposit of 1, and collections whose issuer pays
    deposits for items and attributes. It satisfies all the laws, so that
    results that assume them speak of something, and it computes, so that
    sample runs can be evaluated.
-/

namespace PhalaWorld.Mock

open Ledger Tokens

abbrev AccountId := Nat
abbrev Metadata := BoundedVec UInt8 50
abbrev Key := BoundedVec UInt8 32
abbrev Value := BoundedVec UInt8 256

inductive Error where
  | InsufficientBalance
  | KeepAlive
  | NoPermission
  | UnknownItem
  | NoAvailableNftId
  deriving DecidableEq

/-- The state of the currency and of the collections. No item has an id
    that was not handed out yet. -/
structure World where
  balances : Balances AccountId
  /-- What is reserved for deposits. -/
  held : AccountId → Nat
  nfts : Nfts CollectionId AccountId Metadata Key Value
  collection_index : CollectionId
  below : ∀ c n, nfts.next c ≤ n → nfts.item (c, n) = none

/-! ### Deposits -/

/-- Takes a deposit. -/
def World.charge (w : World) (a : AccountId) (v : Nat) : Except Error World :=
  if v ≤ w.balances.free a then
    .ok { w with
      balances := w.balances.reserve a v
      held := Function.update w.held a (w.held a + v) }
  else .error .InsufficientBalance

/-- Returns a deposit, as far as it is still there. -/
def World.refund (w : World) (a : AccountId) (v : Nat) : World :=
  let r := min v (min (w.balances.reserved a) (w.held a))
  { w with
    balances := w.balances.unreserve a r
    held := Function.update w.held a (w.held a - r) }

/-- The deposit for an attribute. -/
def attribute_deposit (k : Key) : Option Value → Nat
  | some v => 100 + 10 * (k.1.length + v.1.length)
  | none => 0

/-- Only `a`'s deposits moved, and with them what is held for deposits. -/
def Deposits (a : AccountId) (w w' : World) : Prop :=
  w.balances.Deposit w'.balances a ∧
    ∀ x, w'.balances.reserved x + w.held x = w.balances.reserved x + w'.held x

theorem Deposits.trans {a : AccountId} {w w' w'' : World} (h : Deposits a w w')
    (h' : Deposits a w' w'') : Deposits a w w'' := by
  refine ⟨h.1.trans h'.1, ?_⟩
  intro x
  have hx := h.2 x
  have hx' := h'.2 x
  omega

theorem charge_ok {w w' : World} {a : AccountId} {v : Nat} (h : w.charge a v = .ok w') :
    w'.nfts = w.nfts ∧ Deposits a w w' := by
  unfold World.charge at h
  split at h
  · next hv =>
    cases h
    refine ⟨rfl, ⟨fun x hx => w.balances.reserve_of_ne v hx, w.balances.total_reserve a a v hv⟩, ?_⟩
    intro x
    by_cases hx : x = a
    · subst hx; simp; omega
    · simp [(w.balances.reserve_of_ne v hx).2, hx]
  · cases h

theorem refund_deposits (w : World) (a : AccountId) (v : Nat) : Deposits a w (w.refund a v) := by
  refine ⟨⟨fun x hx => w.balances.unreserve_of_ne _ hx, w.balances.total_unreserve a a _⟩, ?_⟩
  intro x
  by_cases hx : x = a
  · subst hx; simp [World.refund]; omega
  · simp [World.refund, (w.balances.unreserve_of_ne _ hx).2, hx]

/-! ### The currency -/

def reserve (a : AccountId) (v : Nat) (w : World) : Except Error World :=
  if v ≤ w.balances.free a then .ok { w with balances := w.balances.reserve a v }
  else .error .InsufficientBalance

def unreserve (a : AccountId) (v : Nat) (w : World) : World :=
  { w with balances := w.balances.unreserve a v }

/-- Nothing is checked where nothing moves. The existential deposit is 1. -/
def transfer (a b : AccountId) (v : Nat) (req : ExistenceRequirement) (w : World) :
    Except Error World :=
  if v = 0 ∨ a = b then .ok w
  else if w.balances.free a < v then .error .InsufficientBalance
  else if req = .KeepAlive ∧ w.balances.total a < v + 1 then .error .KeepAlive
  else .ok { w with balances := w.balances.transfer a b v }

/-! ### The collections -/

theorem mint_below (w : World) (c : CollectionId) (a : AccountId) (md : Metadata) (c' n : Nat)
    (h : (w.nfts.mint c a md).next c' ≤ n) : (w.nfts.mint c a md).item (c', n) = none := by
  by_cases hc : c' = c
  · subst hc
    rw [Nfts.mint_next_self] at h
    rw [Nfts.mint_item_of_ne _ _ _ _ _ (by simp; omega)]
    exact w.below c' n (by omega)
  · rw [Nfts.mint_next_of_ne _ _ _ _ hc] at h
    rw [Nfts.mint_item_of_ne _ _ _ _ _ (by simp [hc])]
    exact w.below c' n h

theorem freeze_below (w : World) (x : CollectionId × NftId) (c n : Nat)
    (h : (w.nfts.freeze x).next c ≤ n) : (w.nfts.freeze x).item (c, n) = none := by
  have hnone := w.below c n h
  by_cases hx : (c, n) = x
  · subst hx; simp [hnone]
  · rw [Nfts.freeze_item_of_ne _ _ _ hx, hnone]

theorem burn_below (w : World) (x : CollectionId × NftId) (c n : Nat)
    (h : (w.nfts.burn x).next c ≤ n) : (w.nfts.burn x).item (c, n) = none := by
  have hnone := w.below c n h
  by_cases hx : (c, n) = x
  · subst hx; simp
  · rw [Nfts.burn_item_of_ne _ _ _ hx, hnone]

def create_collection (o : AccountId) (_ : Metadata) (_ : Option Nat) (_ : Bytes) (w : World) :
    Except Error World :=
  match w.charge o 10000 with
  | .ok w' => .ok { w' with
      nfts := w.nfts.create w.collection_index o
      collection_index := w.collection_index + 1
      below := w.below }
  | .error e => .error e

def mint_nft (o : AccountId) (a : Option AccountId) (c : CollectionId) (md : Metadata) (_ : Bool)
    (w : World) : Except Error World :=
  if w.nfts.issuer c ≠ some o then .error .NoPermission
  else if 2 ^ 32 ≤ w.nfts.next c + 1 then .error .NoAvailableNftId
  else
    match w.charge o 100 with
    | .ok w' => .ok { w' with
        nfts := w.nfts.mint c (a.getD o) md
        below := mint_below w c _ md }
    | .error e => .error e

def burn_nft (a : AccountId) (c : CollectionId) (n : NftId) (w : World) : Except Error World :=
  if (w.nfts.item (c, n)).map Item.owner ≠ some a then .error .NoPermission
  else
    match w.nfts.issuer c with
    | some p => .ok { w.refund p 100 with
        nfts := w.nfts.burn (c, n)
        below := burn_below w (c, n) }
    | none => .error .UnknownItem

def freeze (o : AccountId) (c : CollectionId) (n : NftId) (w : World) : Except Error World :=
  if w.nfts.issuer c ≠ some o then .error .NoPermission
  else if (w.nfts.item (c, n)).isNone then .error .UnknownItem
  else .ok { w with
    nfts := w.nfts.freeze (c, n)
    below := freeze_below w (c, n) }

def set_attribute (o : AccountId) (c : CollectionId) (n : Option NftId) (k : Key) (v : Value)
    (w : World) : Except Error World :=
  match n with
  | none => .error .UnknownItem
  | some n =>
    if w.nfts.issuer c ≠ some o then .error .NoPermission
    else
      match (w.refund o (attribute_deposit k (w.nfts.attr ((c, n), k)))).charge o
          (attribute_deposit k (some v)) with
      | .ok w' => .ok { w' with
          nfts := w.nfts.set_attr (c, n) k v
          below := w.below }
      | .error e => .error e

def clear_attribute (o : AccountId) (c : CollectionId) (n : Option NftId) (k : Key) (w : World) :
    Except Error World :=
  match n with
  | none => .error .UnknownItem
  | some n =>
    if w.nfts.issuer c ≠ some o then .error .NoPermission
    else .ok { w.refund o (attribute_deposit k (w.nfts.attr ((c, n), k))) with
      nfts := w.nfts.clear_attr (c, n) k
      below := w.below }

def owned_in_collection (c : CollectionId) (a : AccountId) (w : World) : List NftId :=
  (List.range (w.nfts.next c)).filter fun n => (w.nfts.item (c, n)).map Item.owner = some a

def lookup_root_owner (c : CollectionId) (n : NftId) (w : World) :
    Except Error (AccountId × (CollectionId × NftId)) :=
  match w.nfts.item (c, n) with
  | some i => .ok (i.owner, (c, n))
  | none => .error .UnknownItem

/-! ### What the operations do -/

section operations
variable {o a : AccountId} {c : CollectionId} {n : NftId} {k : Key} {v : Value} {w w' : World}

theorem create_collection_ok {md : Metadata} {max : Option Nat} {symbol : Bytes}
    (h : create_collection o md max symbol w = .ok w') :
    w'.nfts = w.nfts.create w.collection_index o ∧ Deposits o w w' := by
  unfold create_collection at h
  split at h
  · next w₁ hw => cases h; exact ⟨rfl, (charge_ok hw).2⟩
  · cases h

theorem mint_nft_ok {md : Metadata} {b : Option AccountId} {tr : Bool}
    (h : mint_nft o b c md tr w = .ok w') :
    w.nfts.issuer c = some o ∧ w.nfts.next c + 1 < 2 ^ 32 ∧
      w'.nfts = w.nfts.mint c (b.getD o) md ∧ Deposits o w w' := by
  unfold mint_nft at h
  split at h
  · cases h
  · next hissuer =>
    split at h
    · cases h
    · next hnext =>
      split at h
      · next w₁ hw => cases h; exact ⟨not_not.mp hissuer, by omega, rfl, (charge_ok hw).2⟩
      · cases h

theorem burn_nft_ok (h : burn_nft a c n w = .ok w') :
    ∃ p, w.nfts.issuer c = some p ∧ w'.nfts = w.nfts.burn (c, n) ∧ Deposits p w w' := by
  unfold burn_nft at h
  split at h
  · cases h
  · split at h
    · next p hp => cases h; exact ⟨p, hp, rfl, refund_deposits w p 100⟩
    · cases h

theorem freeze_ok (h : freeze o c n w = .ok w') :
    w'.nfts = w.nfts.freeze (c, n) ∧ w'.balances = w.balances ∧ w'.held = w.held := by
  unfold freeze at h
  split at h
  · cases h
  · split at h
    · cases h
    · cases h; exact ⟨rfl, rfl, rfl⟩

theorem set_attribute_ok {m : Option NftId} (h : set_attribute o c m k v w = .ok w') :
    ∃ n, m = some n ∧ w.nfts.issuer c = some o ∧ w'.nfts = w.nfts.set_attr (c, n) k v ∧
      Deposits o w w' := by
  unfold set_attribute at h
  split at h
  · cases h
  · next n =>
    split at h
    · cases h
    · next hissuer =>
      split at h
      · next w₁ hw =>
        cases h
        exact ⟨n, rfl, not_not.mp hissuer, rfl, (refund_deposits w o _).trans (charge_ok hw).2⟩
      · cases h

theorem clear_attribute_ok {m : Option NftId} (h : clear_attribute o c m k w = .ok w') :
    ∃ n, m = some n ∧ w.nfts.issuer c = some o ∧ w'.nfts = w.nfts.clear_attr (c, n) k ∧
      Deposits o w w' := by
  unfold clear_attribute at h
  split at h
  · cases h
  · next n =>
    split at h
    · cases h
    · next hissuer => cases h; exact ⟨n, rfl, not_not.mp hissuer, rfl, refund_deposits w o _⟩

theorem mem_owned_in_collection :
    n ∈ owned_in_collection c a w ↔ ∃ i, w.nfts.item (c, n) = some i ∧ i.owner = a := by
  simp only [owned_in_collection, List.mem_filter, List.mem_range, decide_eq_true_eq,
    Option.map_eq_some_iff]
  refine and_iff_right_of_imp ?_
  rintro ⟨i, hi, _⟩
  by_contra hge
  rw [w.below c n (Nat.le_of_not_lt hge)] at hi
  cases hi

end operations

/-! ### The runtime -/

/-- The mock runtime, with the limit on batches left open. A signature is
    what it signs and the key it was made with. -/
def runtime (iter_limit : UInt32) : Config AccountId where
  overflow_checks := false
  GovernanceOrigin := fun
    | .root => true
    | _ => false
  SecondsPerEra := 60
  MinBalanceToClaimSpirit := 10
  LegendaryOriginOfShellPrice := 1000000
  MagicOriginOfShellPrice := 1000
  PrimeOriginOfShellPrice := 10
  IterLimit := iter_limit
  FoodPerEra := 5
  MaxFoodFeedSelf := 2
  IncubationDurationSec := 600
  StringLimit := 50
  KeyLimit := 32
  ValueLimit := 256
  encode := fun a => List.replicate 31 0 ++ [UInt8.ofNat a]
  Signature := Bytes × Bytes
  sr25519_verify := fun signature message key => signature = (message, key)
  World := World
  ModuleError := Error
  balances := World.balances
  nfts := World.nfts
  can_reserve := fun a v w => v ≤ w.balances.free a
  reserve := reserve
  unreserve := unreserve
  transfer := transfer
  create_collection := create_collection
  mint_nft := mint_nft
  burn_nft := burn_nft
  freeze := freeze
  set_attribute := set_attribute
  clear_attribute := clear_attribute
  owned_in_collection := owned_in_collection
  lookup_root_owner := lookup_root_owner

section laws
variable (n : UInt32)

theorem currency_laws : CurrencyLaws (runtime n) where
  reserve_ok {a v w w'} h := by
    simp only [runtime, reserve] at h
    split at h
    · next hv => cases h; exact ⟨hv, rfl, rfl⟩
    · cases h
  unreserve_eq a v w := ⟨rfl, rfl⟩
  transfer_ok {a b v req w w'} h := by
    simp only [runtime, transfer] at h
    split at h
    · next h0 =>
      cases h
      rcases h0 with rfl | rfl
      · exact ⟨fun _ => Nat.zero_le _, (Balances.transfer_zero _ a b).symm, rfl⟩
      · exact ⟨fun hne => absurd rfl hne, (Balances.transfer_self _ a v).symm, rfl⟩
    · split at h
      · cases h
      · next hfree =>
        split at h
        · cases h
        · cases h; exact ⟨fun _ => Nat.le_of_not_lt hfree, rfl, rfl⟩

theorem nft_laws : NftLaws (runtime n) where
  mint_ok {o a c md tr w w'} h := by
    have h : mint_nft o (some a) c md tr w = .ok w' := h
    obtain ⟨hissuer, hbound, hview, hdep⟩ := mint_nft_ok h
    exact ⟨hissuer, w.below _ _ le_rfl, hbound, hview, hdep.1⟩
  freeze_ok {o c n w w'} h := ⟨(freeze_ok h).1, (freeze_ok h).2.1⟩
  burn_ok {a c n w w'} h := by
    obtain ⟨p, hp, hview, hdep⟩ := burn_nft_ok h
    exact ⟨hview, p, hp, hdep.1⟩
  set_attribute_ok {o c n k v w w'} h := by
    have h : set_attribute o c (some n) k v w = .ok w' := h
    obtain ⟨_, hm, hissuer, hview, hdep⟩ := set_attribute_ok h
    cases hm
    exact ⟨hissuer, hview, hdep.1⟩
  clear_attribute_ok {o c n k w w'} h := by
    have h : clear_attribute o c (some n) k w = .ok w' := h
    obtain ⟨_, hm, hissuer, hview, hdep⟩ := clear_attribute_ok h
    cases hm
    exact ⟨hissuer, hview, hdep.1⟩
  create_collection_ok {o md max symbol w w'} h := by
    have h : create_collection o md max symbol w = .ok w' := h
    exact ⟨w.collection_index, (create_collection_ok h).1, (create_collection_ok h).2.1⟩
  mem_owned_in_collection := mem_owned_in_collection
  lookup_root_owner_ok {c n w a root} h := by
    simp only [runtime, lookup_root_owner] at h
    split at h
    · next i hi => cases h; exact ⟨i, hi, rfl⟩
    · cases h

/-- There is no log, so that worlds with the same storage are equal. -/
theorem storage_laws : StorageLaws (runtime n) Eq where
  balances_eq h := congrArg World.balances h
  nfts_eq h := congrArg World.nfts h
  unreserve_reserve {a x w w'} h := by
    simp only [runtime, reserve] at h
    split at h
    · next hx =>
      cases h
      simp only [runtime, unreserve, Balances.unreserve_reserve w.balances hx]
      rfl
    · cases h
  transfer h hw hv := by subst h; exact Except.ok.inj (hw.symm.trans hv)
  mint_nft h hw hv := by subst h; exact Except.ok.inj (hw.symm.trans hv)
  set_attribute h hw hv := by subst h; exact Except.ok.inj (hw.symm.trans hv)
  freeze h hw hv := by subst h; exact Except.ok.inj (hw.symm.trans hv)

/-- What is held for deposits is what others than the sale reserve. -/
theorem other_reserves : OtherReserves (runtime n) World.held where
  reserve_ok {a v w w'} h := by
    simp only [runtime, reserve] at h
    split at h
    · cases h; rfl
    · cases h
  unreserve_eq a v w := rfl
  transfer_ok {a b v req w w'} h := by
    simp only [runtime, transfer] at h
    split at h
    · cases h; rfl
    · split at h
      · cases h
      · split at h
        · cases h
        · cases h; rfl
  mint_ok {o a c md tr w w'} h := by
    have h : mint_nft o a c md tr w = .ok w' := h
    exact (mint_nft_ok h).2.2.2.2
  freeze_ok {o c n w w'} h x := by
    obtain ⟨_, hbal, hheld⟩ := freeze_ok h
    exact congrArg₂ (· + ·) (congrArg (fun b => b.reserved x) hbal) (congrFun hheld x).symm
  burn_ok {a c n w w'} h := by
    obtain ⟨p, _, _, hdep⟩ := burn_nft_ok h
    exact hdep.2
  set_attribute_ok {o c n k v w w'} h := by
    obtain ⟨_, _, _, _, hdep⟩ := set_attribute_ok h
    exact hdep.2
  clear_attribute_ok {o c n k w w'} h := by
    obtain ⟨_, _, _, _, hdep⟩ := clear_attribute_ok h
    exact hdep.2
  create_collection_ok {o md max symbol w w'} h := by
    have h : create_collection o md max symbol w = .ok w' := h
    exact (create_collection_ok h).2.2

/-- The existential deposit is 1. -/
theorem keep_alive_law : KeepAliveLaw (runtime n) 1 := by
  intro a b v w _
  simp only [runtime, transfer, true_and]
  by_cases h0 : v = 0 ∨ a = b
  · simp only [h0, if_true, ← or_assoc, true_or, iff_true]
    exact ⟨w, rfl⟩
  · rw [if_neg h0, ← or_assoc]
    by_cases hfree : w.balances.free a < v
    · rw [if_pos hfree]
      simp [h0, Nat.not_le.mpr hfree]
    · rw [if_neg hfree]
      by_cases hdead : w.balances.total a < v + 1
      · rw [if_pos hdead]
        simp [h0, Nat.not_le.mpr hdead]
      · rw [if_neg hdead]
        simp [h0, Nat.le_of_not_lt hfree, Nat.le_of_not_lt hdead]

/-- There is room as long as a further id is left. -/
def room (w : World) (c : CollectionId) : Prop := w.nfts.next c + 1 < 2 ^ 32

def fees : Fees where
  mint := 100
  label := fun kv => 100 + 10 * (kv.1.length + kv.2.length)

theorem charge_succeeds {w : World} {a : AccountId} {v : Nat} (h : v ≤ w.balances.free a) :
    ∃ w', w.charge a v = .ok w' ∧ w.balances.free a ≤ w'.balances.free a + v := by
  refine ⟨_, if_pos h, ?_⟩
  rw [Balances.reserve_free_self]
  omega

theorem refund_free (w : World) (a : AccountId) (v : Nat) :
    w.balances.free a ≤ (w.refund a v).balances.free a := by
  simp [World.refund]

theorem issue_laws : IssueLaws (runtime n) room fees where
  mint_nft {o c w} a md hissuer hroom hfree := by
    obtain ⟨w', hcharge, hpaid⟩ := charge_succeeds hfree
    have hissuer : w.nfts.issuer c = some o := hissuer
    have hroom : ¬ 2 ^ 32 ≤ w.nfts.next c + 1 := Nat.not_le.mpr hroom
    have hcharge : w.charge o 100 = .ok w' := hcharge
    refine ⟨{ w' with nfts := w.nfts.mint c a md, below := mint_below w c a md }, ?_, hpaid⟩
    simp only [runtime, mint_nft, hissuer, ne_eq, not_true_eq_false, if_false, hroom, hcharge]
    rfl
  set_attribute {o c m k v w} hissuer _ hfree := by
    have hrefund := refund_free w o (attribute_deposit k (w.nfts.attr ((c, m), k)))
    obtain ⟨w', hcharge, hpaid⟩ := charge_succeeds (hfree.trans hrefund)
    have hissuer : w.nfts.issuer c = some o := hissuer
    have hcharge : (w.refund o (attribute_deposit k (w.nfts.attr ((c, m), k)))).charge o
      (attribute_deposit k (some v)) = .ok w' := hcharge
    refine ⟨{ w' with nfts := w.nfts.set_attr (c, m) k v, below := w.below }, ?_,
      hrefund.trans hpaid⟩
    simp only [runtime, set_attribute, hissuer, ne_eq, not_true_eq_false, if_false]
    rw [hcharge]
  freeze {o c m w} hissuer hitem := by
    have hissuer : w.nfts.issuer c = some o := hissuer
    have hitem : ¬ (w.nfts.item (c, m)).isNone = true := by
      rw [Bool.not_eq_true, Option.isNone_eq_false_iff]
      exact hitem
    refine ⟨{ w with nfts := w.nfts.freeze (c, m), below := freeze_below w (c, m) }, ?_⟩
    simp only [runtime, freeze, hissuer, ne_eq, not_true_eq_false, if_false, hitem]
    rfl
  room_transfer {a b v req w w' c} h hroom := by
    have hview : w'.nfts = w.nfts := ((currency_laws n).transfer_ok h).2.2
    unfold room
    rw [hview]
    exact hroom
  key_limit := show 10 ≤ 32 by decide
  value_limit := show 4 ≤ 256 by decide

/-- The ids a collection has left. -/
def capacity (w : World) (c : CollectionId) : Nat := 2 ^ 32 - 1 - w.nfts.next c

theorem capacity_of_next {w w' : World} {c : CollectionId} (h : w'.nfts.next c = w.nfts.next c) :
    capacity w c ≤ capacity w' c := by
  rw [capacity, capacity, h]

theorem hatch_laws : HatchLaws (runtime n) capacity fees where
  issue := by
    have hroom : room = fun w c => 0 < capacity w c := by
      funext w c
      exact propext (by unfold room capacity; omega)
    have hissue := issue_laws n
    rw [hroom] at hissue
    exact hissue
  lookup_root_owner {c m i w} hitem := by
    have hitem : w.nfts.item (c, m) = some i := hitem
    exact ⟨(c, m), by simp only [runtime, lookup_root_owner, hitem]⟩
  burn_nft {o c m i w} hitem hissuer := by
    have hitem : w.nfts.item (c, m) = some i := hitem
    have howner : (w.nfts.item (c, m)).map Item.owner = some i.owner := by rw [hitem]; rfl
    have hissuer : w.nfts.issuer c = some o := hissuer
    refine ⟨{ w.refund o 100 with nfts := w.nfts.burn (c, m), below := burn_below w (c, m) }, ?_,
      refund_free w o 100⟩
    simp only [runtime, burn_nft, howner, hissuer, ne_eq, not_true_eq_false, if_false]
  clear_attribute {o c m w} k hissuer := by
    have hissuer : w.nfts.issuer c = some o := hissuer
    refine ⟨{ w.refund o (attribute_deposit k (w.nfts.attr ((c, m), k))) with
      nfts := w.nfts.clear_attr (c, m) k, below := w.below }, ?_, refund_free w o _⟩
    simp only [runtime, clear_attribute, hissuer, ne_eq, not_true_eq_false, if_false]
  capacity_burn {a c m w w'} d h := by
    have hview : w'.nfts = w.nfts.burn (c, m) := ((nft_laws n).burn_ok h).1
    have hnext : w'.nfts.next d = w.nfts.next d := by rw [hview]; rfl
    exact capacity_of_next hnext
  capacity_clear {o c m k w w'} d h := by
    have h : clear_attribute o c m k w = .ok w' := h
    obtain ⟨m, rfl, _, hview, _⟩ := clear_attribute_ok h
    have hnext : w'.nfts.next d = w.nfts.next d := by rw [hview]; rfl
    exact capacity_of_next hnext
  capacity_mint {o a c md tr w w'} h := by
    have h : mint_nft o a c md tr w = .ok w' := h
    obtain ⟨_, _, hview, _⟩ := mint_nft_ok h
    have hnext : w'.nfts.next c = w.nfts.next c + 1 := by
      rw [hview]
      exact Nfts.mint_next_self _ _ _ _
    show 2 ^ 32 - 1 - w.nfts.next c ≤ 2 ^ 32 - 1 - w'.nfts.next c + 1
    omega
  capacity_set {o c m k v w w'} d h := by
    have h : set_attribute o c m k v w = .ok w' := h
    obtain ⟨m, rfl, _, hview, _⟩ := set_attribute_ok h
    have hnext : w'.nfts.next d = w.nfts.next d := by rw [hview]; rfl
    exact capacity_of_next hnext

theorem sale_laws : SaleLaws (runtime n) capacity fees where
  issue := (hatch_laws n).issue
  capacity_transfer {a b v req w w'} d h := by
    have hview : w'.nfts = w.nfts := ((currency_laws n).transfer_ok h).2.2
    exact capacity_of_next (by rw [hview])
  capacity_mint := (hatch_laws n).capacity_mint
  capacity_set := (hatch_laws n).capacity_set
  capacity_freeze {o c m w w'} d h := by
    have hview : w'.nfts = w.nfts.freeze (c, m) := ((nft_laws n).freeze_ok h).1
    have hnext : w'.nfts.next d = w.nfts.next d := by rw [hview]; rfl
    exact capacity_of_next hnext

theorem draw_laws : DrawLaws (runtime n) capacity fees where
  toSaleLaws := sale_laws n
  capacity_unreserve _ _ _ _ := le_rfl

end laws

/-! ### Sample states -/

/-- The funded accounts of the tests. -/
def OVERLORD : AccountId := 0
def ALICE : AccountId := 1
def BOB : AccountId := 2
def CHARLIE : AccountId := 3

/-- The world of the tests' genesis. -/
def world₀ : World where
  balances :=
    { free := fun
        | 0 => 2813308004
        | 1 => 20000000
        | 2 => 15000
        | 3 => 150000
        | _ => 0
      reserved := fun _ => 0 }
  held := fun _ => 0
  nfts :=
    { issuer := fun _ => none
      next := fun _ => 0
      item := fun _ => none
      attr := fun _ => none }
  collection_index := 0
  below := fun _ _ _ => rfl

/-- The state of the tests' genesis. -/
def genesis₀ (n : UInt32) : State (runtime n) := genesis GenesisConfig.default world₀ 0

/-- A metadata string. -/
def md : Metadata := ⟨[0, 0], by decide⟩

/-- A call by the Overlord. -/
def admin {n : UInt32} (c : Call (runtime n)) : Label (runtime n) :=
  .call (.signed OVERLORD) c

/-- The set-up of the tests: three collections, their ids and metadata,
    the clock, the inventory, and every phase of the sale open. -/
def setup (n : UInt32) : List (Label (runtime n)) :=
  [.call .root (.set_overlord OVERLORD),
    admin (.pw_create_collection md none [0]),
    admin (.set_spirit_collection_id 0),
    admin (.set_spirits_metadata md),
    admin (.pw_create_collection md none [1]),
    admin (.set_origin_of_shell_collection_id 1),
    admin (.set_origin_of_shells_metadata
      [(.Pandroid, md), (.Cyborg, md), (.AISpectre, md), (.XGene, md)]),
    admin (.pw_create_collection md none [2]),
    admin (.set_shell_collection_id 2),
    admin .initialize_world_clock,
    admin .init_rarity_type_counts,
    admin (.set_status_type true .ClaimSpirits),
    admin (.set_status_type true .PurchaseRareOriginOfShells),
    admin (.set_status_type true .PurchasePrimeOriginOfShells),
    admin (.set_status_type true .PreorderOriginOfShells)]

/-- A presale: three Spirits are claimed, a Shell is bought, and of two
    preorders one is minted and one refunded. -/
def presale (n : UInt32) : List (Label (runtime n)) :=
  setup n ++
  [.call (.signed ALICE) .claim_spirit,
    .call (.signed BOB) .claim_spirit,
    .call (.signed CHARLIE) .claim_spirit,
    .call (.signed CHARLIE) (.buy_rare_origin_of_shell .Magic .Cyborg .HackerWizard),
    .call (.signed ALICE) (.preorder_origin_of_shell .AISpectre .RoboWarrior),
    .call (.signed BOB) (.preorder_origin_of_shell .XGene .Web3Monk),
    admin (.mint_chosen_preorders [0]),
    admin (.refund_not_chosen_preorders [1])]

/-- A sale: the presale, and a Shell given away. -/
def sale (n : UInt32) : List (Label (runtime n)) :=
  presale n ++ [admin (.mint_gift_origin_of_shell BOB .Magic .Pandroid .HardwareDruid .Reserved)]

/-- A hatch: after the sale `CHARLIE` incubates his Origin of Shell, `ALICE`
    feeds it, the Overlord takes 100 off its time, and it is hatched. -/
def hatching (n : UInt32) : List (Label (runtime n)) :=
  sale n ++
  [admin (.set_can_start_incubation_status true),
    .call (.signed CHARLIE) (.start_incubation 1 0),
    .call (.signed ALICE) (.feed_origin_of_shell 1 0),
    admin (.update_incubation_time [((1, 0), 100)]),
    .set_timestamp 501,
    admin (.hatch_origin_of_shell 1 0 md)]

/-- The run that tries the labels in a row. -/
abbrev after {n : UInt32} (ls : List (Label (runtime n))) :
    List (Entry (runtime n)) × State (runtime n) :=
  LTS.exec step (genesis₀ n) [] ls

end PhalaWorld.Mock
