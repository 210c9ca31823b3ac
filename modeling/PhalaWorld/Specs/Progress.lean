import PhalaWorld.Specs.Laws

/-! # When a sale or a hatch goes through

    The laws say what a successful step did. To show that a sale cannot be
    blocked one also needs to know when the other pallets succeed: the
    currency transfers what is free and leaves the sender alive, RMRK and
    Uniques mint where there is room and the deposit can be paid.

    * `KeepAliveLaw`: when a transfer that must keep the sender alive
      succeeds.
    * `IssueLaws`: when a mint, an attribute and a freeze succeed.
    * `issues_of_transfer`, `ForSale.mints`: when a sale does.
    * `HatchLaws`: when a burn and the removal of an attribute succeed.
    * `awakens`: when a hatch does.
-/

namespace PhalaWorld

open LTS Ledger Tokens

variable {AccountId : Type} {T : Config AccountId}

/-- A transfer to an account that is alive succeeds where nothing moves, or
    the sender has the amount free and keeps the existential deposit. -/
def KeepAliveLaw (T : Config AccountId) (existential_deposit : Nat) : Prop :=
  ∀ {a b v w}, existential_deposit ≤ (T.balances w).total b →
    ((∃ w', T.transfer a b v .KeepAlive w = .ok w') ↔
      v = 0 ∨ a = b ∨
        v ≤ (T.balances w).free a ∧ v + existential_deposit ≤ (T.balances w).total a)

/-- What an issuer is charged. -/
structure Fees where
  /-- For an item. -/
  mint : Nat
  /-- For an attribute, by its key and value. -/
  label : Bytes × Bytes → Nat

/-- The deposits for an item and its attributes. -/
def Fees.issue (fees : Fees) (t : Traits) : Nat :=
  fees.mint + (t.bytes.map fees.label).sum

/-- The issuer of a collection can mint into it while there is room, set
    attributes and freeze items, as far as its free balance pays the
    deposits. Keys and values may be as long as those of the pallets. -/
structure IssueLaws (T : Config AccountId) (room : T.World → CollectionId → Prop) (fees : Fees) :
    Prop where
  mint_nft : ∀ {o c w} a md, (T.nfts w).issuer c = some o → room w c →
    fees.mint ≤ (T.balances w).free o →
    ∃ w', T.mint_nft o (some a) c md true w = .ok w' ∧
      (T.balances w).free o ≤ (T.balances w').free o + fees.mint
  set_attribute : ∀ {o c n} {k : T.Key} {v : T.Value} {w}, (T.nfts w).issuer c = some o →
    ((T.nfts w).item (c, n)).isSome → fees.label (k.1, v.1) ≤ (T.balances w).free o →
    ∃ w', T.set_attribute o c (some n) k v w = .ok w' ∧
      (T.balances w).free o ≤ (T.balances w').free o + fees.label (k.1, v.1)
  freeze : ∀ {o c n w}, (T.nfts w).issuer c = some o → ((T.nfts w).item (c, n)).isSome →
    ∃ w', T.freeze o c n w = .ok w'
  room_transfer : ∀ {a b v req w w' c}, T.transfer a b v req w = .ok w' → room w c → room w' c
  key_limit : 10 ≤ T.KeyLimit.toNat
  value_limit : 4 ≤ T.ValueLimit.toNat

theorem Traits.bytes_length (t : Traits) {kv : Bytes × Bytes} (h : kv ∈ t.bytes) :
    kv.1.length ≤ 10 ∧ kv.2.length ≤ 4 := by
  simp only [Traits.bytes, List.mem_cons, List.not_mem_nil, or_false] at h
  rcases h with rfl | rfl | rfl | rfl
  · simp [NftSale.rarity_key, RarityType.encode_length]
  · simp [NftSale.race_key, RaceType.encode_length]
  · simp [NftSale.career_key, CareerType.encode_length]
  · simp [NftSale.generation_key, GenerationId.encode_length]

section progress
variable {room : T.World → CollectionId → Prop} {fees : Fees} {o a : AccountId} {c : CollectionId}
  {w : T.World}

/-- The attributes of a list go through one after the other. -/
theorem sets_attributes (hN : NftLaws T) (hI : IssueLaws T room fees) {n : NftId}
    {l : List (Bytes × Bytes)}
    (hlength : ∀ kv ∈ l, kv.1.length ≤ 10 ∧ kv.2.length ≤ 4)
    (hissuer : (T.nfts w).issuer c = some o) (hitem : ((T.nfts w).item (c, n)).isSome)
    (hfree : (l.map fees.label).sum ≤ (T.balances w).free o) :
    ∃ w', Chain (SetsAttribute o (c, n)) w l w' ∧
      (T.balances w).free o ≤ (T.balances w').free o + (l.map fees.label).sum := by
  induction l generalizing w with
  | nil => exact ⟨w, .nil w, Nat.le_add_right _ _⟩
  | cons kv l ih =>
    obtain ⟨hkey, hvalue⟩ := hlength kv List.mem_cons_self
    rw [List.map_cons, List.sum_cons] at hfree ⊢
    let k : T.Key := ⟨kv.1, hkey.trans hI.key_limit⟩
    let v : T.Value := ⟨kv.2, hvalue.trans hI.value_limit⟩
    obtain ⟨w₁, hset, hpaid⟩ : ∃ w₁, T.set_attribute o c (some n) k v w = .ok w₁ ∧
        (T.balances w).free o ≤ (T.balances w₁).free o + fees.label kv :=
      hI.set_attribute hissuer hitem (show fees.label kv ≤ _ by omega)
    have hview := (hN.set_attribute_ok hset).2.1
    obtain ⟨w', hl, hpaid'⟩ := ih (w := w₁) (fun kv hkv => hlength kv (List.mem_cons_of_mem _ hkv))
      (by rw [hview]; exact hissuer) (by rw [hview]; exact hitem) (by omega)
    exact ⟨w', .cons ⟨k, v, rfl, rfl, hset⟩ hl, by omega⟩

/-- Once the price is paid, an issuer with room and money issues the item. -/
theorem issues_of_transfer [DecidableEq AccountId] (hC : CurrencyLaws T) (hN : NftLaws T)
    (hI : IssueLaws T room fees) (md : T.Metadata) (t : Traits) {price : Nat} {w₁ : T.World}
    (hissuer : (T.nfts w).issuer c = some o) (hroom : room w c)
    (hfree : fees.issue t ≤ (T.balances w).free o)
    (htransfer : T.transfer a o price .KeepAlive w = .ok w₁) :
    ∃ w', Issues o a c md t price w w' ∧
      (T.balances w).free o ≤ (T.balances w').free o + fees.issue t := by
  obtain ⟨_, hbal₁, hview₁⟩ := hC.transfer_ok htransfer
  -- the Overlord has no less than before
  have hkept : (T.balances w).free o ≤ (T.balances w₁).free o := by
    rw [hbal₁]
    by_cases hao : a = o
    · rw [hao, Balances.transfer_self]
    · rw [Balances.transfer_free_dst _ _ hao]
      exact Nat.le_add_right _ _
  rw [Fees.issue] at hfree ⊢
  obtain ⟨w₂, hmint, hpaid₂⟩ := hI.mint_nft a md (by rw [hview₁]; exact hissuer)
    (hI.room_transfer htransfer hroom) (by omega)
  obtain ⟨hissuer₂, _, _, hview₂, _⟩ := hN.mint_ok hmint
  have hissuer₂ : (T.nfts w₂).issuer c = some o := by rw [hview₂]; exact hissuer₂
  have hitem : ((T.nfts w₂).item (c, (T.nfts w).next c)).isSome := by
    rw [hview₂, ← hview₁, Nfts.mint_item_self, Option.isSome_some]
  obtain ⟨w₃, hset, hpaid₃⟩ := sets_attributes hN hI (fun kv hkv => t.bytes_length hkv)
    hissuer₂ hitem (by omega)
  obtain ⟨hattr, _⟩ := SetsTraits.relabels hN hset
  have hissuer₃ : (T.nfts w₃).issuer c = some o := by rw [hattr.issuer]; exact hissuer₂
  obtain ⟨w₄, hfreeze⟩ := hI.freeze hissuer₃ (by rw [hattr.item]; exact hitem)
  refine ⟨w₄, ⟨w₁, w₂, w₃, htransfer, hmint, hset, hfreeze⟩, ?_⟩
  rw [(hN.freeze_ok hfreeze).2]
  omega

end progress

/-- What `do_mint_origin_of_shell_nft` checks before the price is paid, and
    that no counter is full. -/
structure ForSale (a : AccountId) (t : Traits) (pool : NftSaleType) (check : Bool)
    (c : CollectionId) (i : NftSaleInfo) (md : T.Metadata) (s : State T) : Prop where
  spirit : ∃ sp, s.sale.spirit_collection_id = some sp ∧ T.holds s.world sp a = true
  collection : s.sale.origin_of_shell_collection_id = some c
  fresh : check = true → T.holds s.world c a = false
  info : s.sale.origin_of_shells_inventory (t.rarity_type, t.race) = some i
  left : 0 < i.left pool
  metadata : s.sale.origin_of_shells_metadata t.race = some md
  race_count : ∃ n, plain_add T 32 i.race_count 1 = .ok n
  career_count : ∃ n, plain_add T 32 (s.sale.career_type_count t.career) 1 = .ok n

section sales
variable {o a : AccountId} {t : Traits} {price : Nat} {pool : NftSaleType} {check : Bool}
  {c : CollectionId} {i : NftSaleInfo} {md : T.Metadata} {s : State T}

/-- Where the checks pass, a sale goes through if the world lets it. -/
theorem ForSale.mints (h : ForSale a t pool check c i md s) {w : T.World}
    (hissues : Issues o a c md t price s.world w) :
    ∃ s', Mints o a t price pool check c i s s' ∧ s'.world = w := by
  obtain ⟨rc, hrc⟩ := h.race_count
  obtain ⟨cc, hcc⟩ := h.career_count
  exact ⟨_, ⟨h.spirit, h.collection, h.fresh, h.info, h.left, md, w, rc, cc, h.metadata, hissues,
    hrc, hcc, rfl⟩, rfl⟩

end sales

/-! ### Room -/

/-- The issuer can sell, and a sale takes the room of one item: `capacity` is
    how many items a collection has room for. -/
structure SaleLaws (T : Config AccountId) (capacity : T.World → CollectionId → Nat) (fees : Fees) :
    Prop where
  issue : IssueLaws T (fun w c => 0 < capacity w c) fees
  capacity_transfer : ∀ {a b v req w w'} d, T.transfer a b v req w = .ok w' →
    capacity w d ≤ capacity w' d
  capacity_mint : ∀ {o a c md tr w w'}, T.mint_nft o a c md tr w = .ok w' →
    capacity w c ≤ capacity w' c + 1
  capacity_set : ∀ {o c n k v w w'} d, T.set_attribute o c n k v w = .ok w' →
    capacity w d ≤ capacity w' d
  capacity_freeze : ∀ {o c n w w'} d, T.freeze o c n w = .ok w' → capacity w d ≤ capacity w' d

/-- Writing attributes takes no room. -/
theorem SetsTraits.capacity_le {capacity : T.World → CollectionId → Nat}
    (hset : ∀ {o c n k v w w'} d, T.set_attribute o c n k v w = .ok w' →
      capacity w d ≤ capacity w' d)
    {o : AccountId} {x : CollectionId × NftId} {t : Traits} {w w' : T.World}
    (h : SetsTraits o x t w w') (d : CollectionId) : capacity w d ≤ capacity w' d :=
  h.covered (Q := fun w w' => capacity w d ≤ capacity w' d) (fun _ => le_rfl)
    (fun _ _ _ => le_trans) fun _ _ _ ⟨_, _, _, _, h⟩ => hset d h

theorem Issues.capacity_le {capacity : T.World → CollectionId → Nat} {fees : Fees}
    (hS : SaleLaws T capacity fees) {o a : AccountId} {c : CollectionId} {md : T.Metadata}
    {t : Traits} {price : Nat} {w w' : T.World} (h : Issues o a c md t price w w') :
    capacity w c ≤ capacity w' c + 1 := by
  obtain ⟨w₁, w₂, w₃, htransfer, hmint, hset, hfreeze⟩ := h
  have h₁ := hS.capacity_transfer c htransfer
  have h₂ := hS.capacity_mint hmint
  have h₃ := hset.capacity_le hS.capacity_set c
  have h₄ := hS.capacity_freeze c hfreeze
  omega

/-- So can the Overlord of a drawing: to release an escrow takes no room either. -/
structure DrawLaws (T : Config AccountId) (capacity : T.World → CollectionId → Nat) (fees : Fees) :
    Prop extends SaleLaws T capacity fees where
  capacity_unreserve : ∀ a v w d, capacity w d ≤ capacity (T.unreserve a v w) d

/-! ### Hatches -/

/-- The root owner of an item is who holds it. It can burn the item, and the
    issuer can remove its attributes; both give deposits back to the issuer.
    `capacity` is how many items a collection has room for. -/
structure HatchLaws (T : Config AccountId) (capacity : T.World → CollectionId → Nat) (fees : Fees) :
    Prop where
  issue : IssueLaws T (fun w c => 0 < capacity w c) fees
  lookup_root_owner : ∀ {c n i w}, (T.nfts w).item (c, n) = some i →
    ∃ root, T.lookup_root_owner c n w = .ok (i.owner, root)
  burn_nft : ∀ {o c n i w}, (T.nfts w).item (c, n) = some i → (T.nfts w).issuer c = some o →
    ∃ w', T.burn_nft i.owner c n w = .ok w' ∧ (T.balances w).free o ≤ (T.balances w').free o
  clear_attribute : ∀ {o c n w} (k : T.Key), (T.nfts w).issuer c = some o →
    ∃ w', T.clear_attribute o c (some n) k w = .ok w' ∧
      (T.balances w).free o ≤ (T.balances w').free o
  capacity_burn : ∀ {a c n w w'} d, T.burn_nft a c n w = .ok w' → capacity w d ≤ capacity w' d
  capacity_clear : ∀ {o c n k w w'} d, T.clear_attribute o c n k w = .ok w' →
    capacity w d ≤ capacity w' d
  capacity_mint : ∀ {o a c md tr w w'}, T.mint_nft o a c md tr w = .ok w' →
    capacity w c ≤ capacity w' c + 1
  capacity_set : ∀ {o c n k v w w'} d, T.set_attribute o c n k v w = .ok w' →
    capacity w d ≤ capacity w' d

section hatches
variable {capacity : T.World → CollectionId → Nat} {fees : Fees} {o : AccountId}
  {c d : CollectionId} {n : NftId} {w w' : T.World}

/-- The attributes of a list are removed one after the other. -/
theorem clears_attributes (hN : NftLaws T) (hH : HatchLaws T capacity fees) (keys : List Bytes)
    (hlength : ∀ key ∈ keys, key.length ≤ 10) (hissuer : (T.nfts w).issuer c = some o) :
    ∃ w', Chain (ClearsAttribute o (c, n)) w keys w' ∧
      (T.balances w).free o ≤ (T.balances w').free o ∧ capacity w d ≤ capacity w' d := by
  induction keys generalizing w with
  | nil => exact ⟨w, .nil w, le_rfl, le_rfl⟩
  | cons key keys ih =>
    rw [List.forall_mem_cons] at hlength
    let k : T.Key := ⟨key, hlength.1.trans hH.issue.key_limit⟩
    obtain ⟨w₁, hclear, hfree⟩ := hH.clear_attribute (n := n) k hissuer
    have hview := (hN.clear_attribute_ok hclear).2.1
    have hcapacity := hH.capacity_clear d hclear
    obtain ⟨w', hl, hfree', hcapacity'⟩ := ih hlength.2 (by rw [hview]; exact hissuer)
    exact ⟨w', .cons ⟨k, rfl, hclear⟩ hl, hfree.trans hfree', hcapacity.trans hcapacity'⟩

/-- The issuer of both collections can hatch what is there, if it has money and
    room for one Shell. -/
theorem awakens (hN : NftLaws T) (hH : HatchLaws T capacity fees) {sc : CollectionId}
    {i : Item AccountId T.Metadata} (md : T.Metadata) (t : Traits)
    (hitem : (T.nfts w).item (c, n) = some i) (hissuer : (T.nfts w).issuer c = some o)
    (hissuer' : (T.nfts w).issuer sc = some o) (hroom : 0 < capacity w sc)
    (hfree : fees.issue t ≤ (T.balances w).free o) :
    ∃ w', Awakens o i.owner (c, n) sc md t w w' ∧
      (T.balances w).free o ≤ (T.balances w').free o + fees.issue t ∧
      capacity w sc ≤ capacity w' sc + 1 := by
  obtain ⟨w₁, hburn, hfree₁⟩ := hH.burn_nft hitem hissuer
  have hview₁ := (hN.burn_ok hburn).1
  have hroom₁ := hH.capacity_burn sc hburn
  obtain ⟨w₂, hclear, hfree₂, hroom₂⟩ := clears_attributes (n := n) (d := sc) hN hH
    [NftSale.race_key, NftSale.career_key, NftSale.rarity_key, NftSale.generation_key]
    (by decide) (show (T.nfts w₁).issuer c = some o by rw [hview₁]; exact hissuer)
  obtain ⟨hattr, _⟩ : Relabels o (c, n) w₁ w₂ :=
    hclear.covered (fun _ => ⟨.refl _ _, .refl _ _⟩) (fun _ _ _ => Relabels.trans)
      (fun _ _ _ h => ClearsAttribute.relabels hN h)
  rw [Fees.issue] at hfree ⊢
  obtain ⟨w₃, hmint, hfree₃⟩ := hH.issue.mint_nft i.owner md
    (show (T.nfts w₂).issuer sc = some o by rw [hattr.issuer, hview₁]; exact hissuer')
    (show 0 < capacity w₂ sc by omega) (by omega)
  have hroom₃ := hH.capacity_mint hmint
  obtain ⟨hissuer₃, _, _, hview₃, _⟩ := hN.mint_ok hmint
  -- the id was looked up before the burn
  have hnext : (T.nfts w₂).next sc = (T.nfts w).next sc := by rw [hattr.next, hview₁]; rfl
  have hminted : ((T.nfts w₃).item (sc, T.NextNftId w sc)).isSome := by
    rw [hview₃, Config.NextNftId, ← hnext, Nfts.mint_item_self, Option.isSome_some]
  obtain ⟨w₄, hset, hfree₄⟩ := sets_attributes hN hH.issue (fun kv hkv => t.bytes_length hkv)
    (show (T.nfts w₃).issuer sc = some o by rw [hview₃]; exact hissuer₃) hminted (by omega)
  have hroom₄ := SetsTraits.capacity_le hH.capacity_set hset sc
  exact ⟨w₄, ⟨w₁, w₂, w₃, hburn, hclear, hmint, hset⟩, by omega, by omega⟩

end hatches

end PhalaWorld
