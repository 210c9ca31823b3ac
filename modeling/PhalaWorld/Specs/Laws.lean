import PhalaWorld.Specs.System

/-! # What is assumed of the other pallets

    The documented behaviour of the currency and of RMRK and Uniques, in
    terms of the views of a world. A result that depends on them takes
    them as hypotheses.

    * `CurrencyLaws`: reserve, unreserve and transfer move exactly the
      given amount, or fail.
    * `NftLaws`: what minting, freezing, burning and the attribute calls do
      to the items, and that their deposits are the issuer's own money.
    * `OtherReserves`: whoever else reserves money only unreserves what it
      reserved itself.
    * `StorageLaws`: a call depends on the storage, not on the log.

    From the laws follows what the pallets' own compound steps do to the
    views: `Mints.minted`, `MintsSpirit.minted`, `Awakens.minted`.
-/

namespace PhalaWorld

open LTS Ledger Tokens

variable {AccountId : Type} {T : Config AccountId}

/-- The currency refines the operations on balances, and keeps off the items. -/
structure CurrencyLaws [DecidableEq AccountId] (T : Config AccountId) : Prop where
  reserve_ok : ∀ {a v w w'}, T.reserve a v w = .ok w' →
    v ≤ (T.balances w).free a ∧ T.balances w' = (T.balances w).reserve a v ∧
      T.nfts w' = T.nfts w
  unreserve_eq : ∀ a v w, T.balances (T.unreserve a v w) = (T.balances w).unreserve a v ∧
    T.nfts (T.unreserve a v w) = T.nfts w
  transfer_ok : ∀ {a b v req w w'}, T.transfer a b v req w = .ok w' →
    (a ≠ b → v ≤ (T.balances w).free a) ∧ T.balances w' = (T.balances w).transfer a b v ∧
      T.nfts w' = T.nfts w

/-- RMRK and Uniques refine the operations on items. A mint takes the next
    id, which must be free and must have a successor. Deposits are paid by
    and returned to the collection's issuer. -/
structure NftLaws (T : Config AccountId) : Prop where
  mint_ok : ∀ {o a c md tr w w'}, T.mint_nft o (some a) c md tr w = .ok w' →
    (T.nfts w).issuer c = some o ∧ (T.nfts w).item (c, (T.nfts w).next c) = none ∧
      (T.nfts w).next c + 1 < 2 ^ 32 ∧ T.nfts w' = (T.nfts w).mint c a md ∧
      (T.balances w).Deposit (T.balances w') o
  freeze_ok : ∀ {o c n w w'}, T.freeze o c n w = .ok w' →
    T.nfts w' = (T.nfts w).freeze (c, n) ∧ T.balances w' = T.balances w
  burn_ok : ∀ {a c n w w'}, T.burn_nft a c n w = .ok w' →
    T.nfts w' = (T.nfts w).burn (c, n) ∧
      ∃ p, (T.nfts w).issuer c = some p ∧ (T.balances w).Deposit (T.balances w') p
  set_attribute_ok : ∀ {o c n k v w w'}, T.set_attribute o c (some n) k v w = .ok w' →
    (T.nfts w).issuer c = some o ∧ T.nfts w' = (T.nfts w).set_attr (c, n) k v ∧
      (T.balances w).Deposit (T.balances w') o
  clear_attribute_ok : ∀ {o c n k w w'}, T.clear_attribute o c (some n) k w = .ok w' →
    (T.nfts w).issuer c = some o ∧ T.nfts w' = (T.nfts w).clear_attr (c, n) k ∧
      (T.balances w).Deposit (T.balances w') o
  create_collection_ok : ∀ {o md max symbol w w'},
    T.create_collection o md max symbol w = .ok w' →
    ∃ c, T.nfts w' = (T.nfts w).create c o ∧ (T.balances w).Deposit (T.balances w') o
  mem_owned_in_collection : ∀ {c a w n}, n ∈ T.owned_in_collection c a w ↔
    ∃ i, (T.nfts w).item (c, n) = some i ∧ i.owner = a
  lookup_root_owner_ok : ∀ {c n w a root}, T.lookup_root_owner c n w = .ok (a, root) →
    ∃ i, (T.nfts w).item (c, n) = some i ∧ i.owner = a

/-- What is reserved moved as far as what others hold of it did: `held w a`
    is what is reserved on `a` by others than the sale. -/
def OthersOwn (held : T.World → AccountId → Nat) (w w' : T.World) : Prop :=
  ∀ a, (T.balances w').reserved a + held w a = (T.balances w).reserved a + held w' a

/-- The sale's own reserves are not held by others, and the other pallets
    move what they hold only. -/
structure OtherReserves (T : Config AccountId) (held : T.World → AccountId → Nat) : Prop where
  reserve_ok : ∀ {a v w w'}, T.reserve a v w = .ok w' → held w' = held w
  unreserve_eq : ∀ a v w, held (T.unreserve a v w) = held w
  transfer_ok : ∀ {a b v req w w'}, T.transfer a b v req w = .ok w' → held w' = held w
  mint_ok : ∀ {o a c md tr w w'}, T.mint_nft o a c md tr w = .ok w' → OthersOwn held w w'
  freeze_ok : ∀ {o c n w w'}, T.freeze o c n w = .ok w' → OthersOwn held w w'
  burn_ok : ∀ {a c n w w'}, T.burn_nft a c n w = .ok w' → OthersOwn held w w'
  set_attribute_ok : ∀ {o c n k v w w'}, T.set_attribute o c n k v w = .ok w' →
    OthersOwn held w w'
  clear_attribute_ok : ∀ {o c n k w w'}, T.clear_attribute o c n k w = .ok w' →
    OthersOwn held w w'
  create_collection_ok : ∀ {o md max symbol w w'},
    T.create_collection o md max symbol w = .ok w' → OthersOwn held w w'

/-- Worlds are the `same` if their storage is: their logs may differ. What the
    calls of a sale leave depends on the storage only, and reserving an amount
    and unreserving it leaves the storage as it was. -/
structure StorageLaws (T : Config AccountId) (same : T.World → T.World → Prop) : Prop where
  balances_eq : ∀ {w v}, same w v → T.balances w = T.balances v
  nfts_eq : ∀ {w v}, same w v → T.nfts w = T.nfts v
  unreserve_reserve : ∀ {a x w w'}, T.reserve a x w = .ok w' → same w (T.unreserve a x w')
  transfer : ∀ {a b x req w v w' v'}, same w v → T.transfer a b x req w = .ok w' →
    T.transfer a b x req v = .ok v' → same w' v'
  mint_nft : ∀ {o a c md tr w v w' v'}, same w v → T.mint_nft o a c md tr w = .ok w' →
    T.mint_nft o a c md tr v = .ok v' → same w' v'
  set_attribute : ∀ {o c n k b w v w' v'}, same w v → T.set_attribute o c n k b w = .ok w' →
    T.set_attribute o c n k b v = .ok v' → same w' v'
  freeze : ∀ {o c n w v w' v'}, same w v → T.freeze o c n w = .ok w' →
    T.freeze o c n v = .ok v' → same w' v'

/-- The states agree in everything the pallets store, and in the balances and
    the items. Their logs may differ. -/
structure SameStorage (s s' : State T) : Prop where
  sale : s'.sale = s.sale
  incubation : s'.incubation = s.incubation
  now : s'.now = s.now
  balances : T.balances s'.world = T.balances s.world
  nfts : T.nfts s'.world = T.nfts s.world

/-- The pallets' own question whether an account holds an item. -/
theorem NftLaws.holds_iff (hN : NftLaws T) {w : T.World} {c : CollectionId} {a : AccountId} :
    T.holds w c a = true ↔ (T.nfts w).Owns c a := by
  rw [Config.holds, decide_eq_true_iff, gt_iff_lt, List.length_pos_iff_exists_mem]
  exact exists_congr fun n => hN.mem_owned_in_collection

/-! ### Attributes -/

section attributes
variable {o : AccountId} {x : CollectionId × NftId} {w w' : T.World}

/-- Only attributes of `x` changed, and only `o`'s deposits moved. -/
def Relabels (o : AccountId) (x : CollectionId × NftId) (w w' : T.World) : Prop :=
  Nfts.Attributed x (T.nfts w) (T.nfts w') ∧ (T.balances w).Deposit (T.balances w') o

theorem Relabels.trans {w'' : T.World} (h : Relabels o x w w') (h' : Relabels o x w' w'') :
    Relabels o x w w'' :=
  ⟨h.1.trans h'.1, h.2.trans h'.2⟩

theorem SetsAttribute.relabels (hN : NftLaws T) {kv : Bytes × Bytes}
    (h : SetsAttribute o x w kv w') : Relabels o x w w' := by
  obtain ⟨k, v, _, _, hset⟩ := h
  obtain ⟨_, hv, hdep⟩ := hN.set_attribute_ok hset
  refine ⟨?_, hdep⟩
  rw [hv]
  exact Nfts.attributed_set_attr k v

theorem ClearsAttribute.relabels (hN : NftLaws T) {key : Bytes}
    (h : ClearsAttribute o x w key w') : Relabels o x w w' := by
  obtain ⟨k, _, hclear⟩ := h
  obtain ⟨_, hv, hdep⟩ := hN.clear_attribute_ok hclear
  refine ⟨?_, hdep⟩
  rw [hv]
  exact Nfts.attributed_clear_attr k

/-- The written key holds the written bytes. -/
theorem SetsAttribute.bytes_self (hN : NftLaws T) {kv : Bytes × Bytes}
    (h : SetsAttribute o x w kv w') : T.attribute_bytes w' x kv.1 = some kv.2 := by
  obtain ⟨k, v, hk, hv, hset⟩ := h
  obtain ⟨_, hview, _⟩ := hN.set_attribute_ok hset
  rw [Config.attribute_bytes, BoundedVec.try_from_eq_some.mpr hk, Option.bind_some,
    Config.uniques_attribute, hview, Nfts.set_attr_self, Option.map_some, hv]

/-- The other keys hold what they held. -/
theorem SetsAttribute.bytes_of_ne (hN : NftLaws T) {kv : Bytes × Bytes} {key : Bytes}
    (h : SetsAttribute o x w kv w') (hne : key ≠ kv.1) :
    T.attribute_bytes w' x key = T.attribute_bytes w x key := by
  obtain ⟨k, v, hk, _, hset⟩ := h
  obtain ⟨_, hview, _⟩ := hN.set_attribute_ok hset
  cases hkey : (BoundedVec.try_from key : Option T.Key) with
  | none => simp [Config.attribute_bytes, hkey]
  | some k' =>
    have hk' : k' ≠ k := by
      rintro rfl
      exact hne ((BoundedVec.try_from_eq_some.mp hkey).symm.trans hk)
    simp only [Config.attribute_bytes, hkey, Option.bind_some, Config.uniques_attribute, hview]
    rw [Nfts.set_attr_of_ne _ _ _ _ (by simp [hk'])]

theorem SetsTraits.relabels (hN : NftLaws T) {t : Traits} (h : SetsTraits o x t w w') :
    Relabels o x w w' :=
  h.covered (fun _ => ⟨.refl _ _, .refl _ _⟩) (fun _ _ _ => Relabels.trans)
    (fun _ _ _ h => SetsAttribute.relabels hN h)

/-- The written attributes decode to what was written. -/
theorem SetsTraits.traits (hN : NftLaws T) {t : Traits} (h : SetsTraits o x t w w') :
    T.traits w' x = some t := by
  simp only [SetsTraits, Traits.bytes, chain_cons, chain_nil] at h
  obtain ⟨w₁, h₁, w₂, h₂, w₃, h₃, w₄, h₄, rfl⟩ := h
  have hr : T.attribute_bytes w' x NftSale.rarity_key = some t.rarity_type.encode := by
    rw [h₄.bytes_of_ne hN (show NftSale.rarity_key ≠ NftSale.generation_key by decide),
      h₃.bytes_of_ne hN (show NftSale.rarity_key ≠ NftSale.career_key by decide),
      h₂.bytes_of_ne hN (show NftSale.rarity_key ≠ NftSale.race_key by decide)]
    exact h₁.bytes_self hN
  have hra : T.attribute_bytes w' x NftSale.race_key = some t.race.encode := by
    rw [h₄.bytes_of_ne hN (show NftSale.race_key ≠ NftSale.generation_key by decide),
      h₃.bytes_of_ne hN (show NftSale.race_key ≠ NftSale.career_key by decide)]
    exact h₂.bytes_self hN
  have hc : T.attribute_bytes w' x NftSale.career_key = some t.career.encode := by
    rw [h₄.bytes_of_ne hN (show NftSale.career_key ≠ NftSale.generation_key by decide)]
    exact h₃.bytes_self hN
  have hg : T.attribute_bytes w' x NftSale.generation_key =
      some (GenerationId.encode t.generation) := h₄.bytes_self hN
  simp [Config.traits, hr, hra, hc, hg]

/-- The traits of an item depend on its attributes only. -/
theorem Config.traits_congr
    (h : ∀ k, (T.nfts w').attr (x, k) = (T.nfts w).attr (x, k)) :
    T.traits w' x = T.traits w x := by
  have hbytes (key : Bytes) : T.attribute_bytes w' x key = T.attribute_bytes w x key := by
    simp [Config.attribute_bytes, Config.uniques_attribute, h]
  simp [Config.traits, hbytes]

end attributes

/-! ### The compound steps -/

section compound
variable {o a : AccountId} {c : CollectionId} {w w' : T.World}

/-- `o`, who may mint into `c`, minted its next item to `a`; there is a
    further id left. -/
structure Minted (o a : AccountId) (c : CollectionId) (frozen : Bool) (w w' : T.World) :
    Prop where
  issuer : (T.nfts w).issuer c = some o
  bound : (T.nfts w).next c + 1 < 2 ^ 32
  received : Nfts.Received a c frozen (T.nfts w) (T.nfts w')

theorem mint_nft_ok (hN : NftLaws T) {md : T.Metadata} {tr : Bool}
    (h : T.mint_nft o (some a) c md tr w = .ok w') :
    Minted o a c false w w' ∧ (T.balances w).Deposit (T.balances w') o := by
  obtain ⟨hissuer, hfree, hbound, hview, hdep⟩ := hN.mint_ok h
  refine ⟨⟨hissuer, hbound, ?_⟩, hdep⟩
  rw [hview]
  exact Nfts.received_mint md hfree

/-- A claimed Spirit is the collection's next item, frozen. -/
theorem MintsSpirit.minted (hN : NftLaws T) {s s' : State T} (h : MintsSpirit o a c s s') :
    Minted o a c true s.world s'.world ∧
      (T.balances s.world).Deposit (T.balances s'.world) o := by
  obtain ⟨md, w₁, w₂, _, hmint, hfreeze, rfl⟩ := h.post
  obtain ⟨hm, hdep⟩ := mint_nft_ok hN hmint
  obtain ⟨hview, hbal⟩ := hN.freeze_ok hfreeze
  refine ⟨⟨hm.issuer, hm.bound, ?_⟩, hbal ▸ hdep⟩
  rw [hview]
  exact hm.received.freeze

/-- A sold Origin of Shell is the collection's next item, frozen, with the
    traits it was sold with; the price was paid and the deposits are the
    Overlord's own. -/
theorem Issues.minted [DecidableEq AccountId] (hC : CurrencyLaws T) (hN : NftLaws T)
    {md : T.Metadata} {t : Traits} {price : Nat} (h : Issues o a c md t price w w') :
    Minted o a c true w w' ∧ T.traits w' (c, (T.nfts w).next c) = some t ∧
      (a ≠ o → price ≤ (T.balances w).free a) ∧
      ((T.balances w).transfer a o price).Deposit (T.balances w') o := by
  obtain ⟨w₁, w₂, w₃, htransfer, hmint, hset, hfreeze⟩ := h
  obtain ⟨hpaid, hbal₁, hnfts₁⟩ := hC.transfer_ok htransfer
  obtain ⟨hm, hdep₂⟩ := mint_nft_ok hN hmint
  obtain ⟨hattr, hdep₃⟩ := SetsTraits.relabels hN hset
  obtain ⟨hview, hbal⟩ := hN.freeze_ok hfreeze
  have htraits := SetsTraits.traits hN hset
  obtain ⟨hissuer, hbound, hrec⟩ := hm
  rw [hnfts₁] at hissuer hbound hrec
  refine ⟨⟨hissuer, hbound, ?_⟩, ?_, hpaid, ?_⟩
  · rw [hview]
    exact (hrec.attributed hattr).freeze
  · rw [← htraits]
    exact Config.traits_congr fun k => by rw [hview]; rfl
  · rw [← hbal₁, hbal]
    exact hdep₂.trans hdep₃

/-- Its metadata is the one it was minted with. -/
theorem Issues.item [DecidableEq AccountId] (hC : CurrencyLaws T) (hN : NftLaws T)
    {md : T.Metadata} {t : Traits} {price : Nat} (h : Issues o a c md t price w w') :
    (T.nfts w').item (c, (T.nfts w).next c) = some ⟨a, true, md⟩ := by
  obtain ⟨w₁, w₂, w₃, htransfer, hmint, hset, hfreeze⟩ := h
  have hview₁ := (hC.transfer_ok htransfer).2.2
  have hview₂ := (hN.mint_ok hmint).2.2.2.1
  have hitem := (SetsTraits.relabels hN hset).1.item
  have hview := (hN.freeze_ok hfreeze).1
  have hminted : (T.nfts w₃).item (c, (T.nfts w).next c) = some ⟨a, false, md⟩ := by
    rw [hitem, hview₂, hview₁, Nfts.mint_item_self]
  rw [hview, Config.NextNftId, Nfts.freeze_item_self, hminted]
  rfl

/-- The same of the sale's state. -/
theorem Mints.minted [DecidableEq AccountId] (hC : CurrencyLaws T) (hN : NftLaws T) {t : Traits}
    {price : Nat} {pool : NftSaleType} {check : Bool} {i : NftSaleInfo} {s s' : State T}
    (h : Mints o a t price pool check c i s s') :
    Minted o a c true s.world s'.world ∧
      T.traits s'.world (c, (T.nfts s.world).next c) = some t ∧
      (a ≠ o → price ≤ (T.balances s.world).free a) ∧
      ((T.balances s.world).transfer a o price).Deposit (T.balances s'.world) o := by
  obtain ⟨md, w, rc, cc, _, hissues, _, _, rfl⟩ := h.post
  exact hissues.minted hC hN

/-- A hatched Origin of Shell is gone, its owner got the Shell collection's
    next item with the same traits, and the deposits are the Overlord's. -/
theorem Awakens.minted (hN : NftLaws T) {n : NftId} {sc : CollectionId} {md : T.Metadata}
    {t : Traits} (h : Awakens o a (c, n) sc md t w w') :
    ∃ w₂, Nfts.Attributed (c, n) ((T.nfts w).burn (c, n)) (T.nfts w₂) ∧
      Minted o a sc false w₂ w' ∧ T.traits w' (sc, (T.nfts w).next sc) = some t ∧
      (T.balances w).Deposit (T.balances w') o := by
  obtain ⟨w₁, w₂, w₃, hburn, hclear, hmint, hset⟩ := h
  obtain ⟨hview₁, p, hp, hdep₁⟩ := hN.burn_ok hburn
  -- the collection's issuer is the Overlord, or the attributes could not be cleared
  have hpo : p = o := by
    rw [chain_cons] at hclear
    obtain ⟨_, ⟨k, _, hk⟩, _⟩ := hclear
    obtain ⟨hissuer, _, _⟩ := hN.clear_attribute_ok hk
    rw [hview₁, Nfts.burn_issuer, hp] at hissuer
    exact Option.some.inj hissuer
  obtain ⟨hattr, hdep₂⟩ : Relabels o (c, n) w₁ w₂ :=
    hclear.covered (fun _ => ⟨.refl _ _, .refl _ _⟩) (fun _ _ _ => Relabels.trans)
      (fun _ _ _ h => ClearsAttribute.relabels hN h)
  obtain ⟨hm, hdep₃⟩ := mint_nft_ok hN hmint
  obtain ⟨hset', hdep₄⟩ := SetsTraits.relabels hN hset
  have hnext : (T.nfts w₂).next = (T.nfts w).next := by rw [hattr.next, hview₁]; rfl
  rw [Config.NextNftId, ← hnext] at hset'
  subst hpo
  refine ⟨w₂, hview₁ ▸ hattr, ⟨hm.issuer, hm.bound, hm.received.attributed hset'⟩,
    SetsTraits.traits hN hset, hdep₁.trans (hdep₂.trans (hdep₃.trans hdep₄))⟩

/-! ### Items with their traits -/

/-- The items of a collection, each with its traits. -/
def Config.listed (T : Config AccountId) (w : T.World) (c : CollectionId) (n : NftId) :
    Option (Item AccountId T.Metadata × Option Traits) :=
  ((T.nfts w).item (c, n)).map fun i => (i, T.traits w (c, n))

theorem listed_congr {n : NftId} (hitem : (T.nfts w').item (c, n) = (T.nfts w).item (c, n))
    (hattr : ∀ k, (T.nfts w').attr ((c, n), k) = (T.nfts w).attr ((c, n), k)) :
    T.listed w' c n = T.listed w c n := by
  rw [Config.listed, Config.listed, hitem, Config.traits_congr hattr]

theorem listed_of_none {n : NftId} (h : (T.nfts w).item (c, n) = none) :
    T.listed w c n = none := by
  rw [Config.listed, h]
  rfl

section received
variable {frozen : Bool} (h : Nfts.Received a c frozen (T.nfts w) (T.nfts w'))
include h

theorem listed_received_self : ∃ md, T.listed w' c =
    Function.update (T.listed w c) ((T.nfts w).next c)
      (some (⟨a, frozen, md⟩, T.traits w' (c, (T.nfts w).next c))) := by
  obtain ⟨md, hitem⟩ := h.item_self
  refine ⟨md, funext ?_⟩
  intro n
  by_cases hn : n = (T.nfts w).next c
  · rw [hn, Function.update_self, Config.listed, hitem]
    rfl
  · have hne : (c, n) ≠ (c, (T.nfts w).next c) := fun heq => hn (Prod.mk.inj heq).2
    rw [Function.update_of_ne hn]
    exact listed_congr (h.item_of_ne hne) fun k => h.others _ k hne

theorem listed_received_of_ne {d : CollectionId} (hd : d ≠ c) : T.listed w' d = T.listed w d :=
  funext fun n =>
    have hne : (d, n) ≠ (c, (T.nfts w).next c) := fun heq => hd (Prod.mk.inj heq).1
    listed_congr (h.item_of_ne hne) fun k => h.others _ k hne

end received

/-- A hatch takes one item off the list of its collection. -/
theorem Awakens.listed_burned (hN : NftLaws T) {n : NftId} {sc : CollectionId} {md : T.Metadata}
    {t : Traits} (h : Awakens o a (c, n) sc md t w w') {d : CollectionId} (hd : d ≠ sc) :
    (T.nfts w').next d = (T.nfts w).next d ∧
      T.listed w' d = if d = c then Function.update (T.listed w d) n none else T.listed w d := by
  obtain ⟨w₂, hattr, hminted, _⟩ := h.minted hN
  constructor
  · rw [hminted.received.next_of_ne hd, hattr.next]
    rfl
  rw [listed_received_of_ne hminted.received hd]
  have hitem (m : NftId) : (T.nfts w₂).item (d, m) =
      if (d, m) = (c, n) then none else (T.nfts w).item (d, m) := by
    rw [hattr.item, Nfts.burn_item]
  have hother (m : NftId) (hm : (d, m) ≠ (c, n)) : T.listed w₂ d m = T.listed w d m :=
    listed_congr (by rw [hitem, if_neg hm]) fun k => hattr.others _ k hm
  by_cases hdc : d = c
  · rw [if_pos hdc]
    funext m
    by_cases hm : m = n
    · rw [hm, Function.update_self]
      exact listed_of_none (by rw [hitem, if_pos (by rw [hdc])])
    · rw [Function.update_of_ne hm]
      exact hother m fun heq => hm (Prod.mk.inj heq).2
  · rw [if_neg hdc]
    exact funext fun m => hother m fun heq => hdc (Prod.mk.inj heq).1

/-- It adds one to the list of the Shells, with the same traits. -/
theorem Awakens.listed_minted (hN : NftLaws T) {n : NftId} {sc : CollectionId} {md : T.Metadata}
    {t : Traits} (h : Awakens o a (c, n) sc md t w w') (hne : c ≠ sc) :
    (T.nfts w').next sc = (T.nfts w).next sc + 1 ∧ ∃ md, T.listed w' sc =
      Function.update (T.listed w sc) ((T.nfts w).next sc) (some (⟨a, false, md⟩, some t)) := by
  obtain ⟨w₂, hattr, hminted, htraits, _⟩ := h.minted hN
  have hnext : (T.nfts w₂).next sc = (T.nfts w).next sc := by
    rw [hattr.next]
    rfl
  have hlisted : T.listed w₂ sc = T.listed w sc := by
    funext m
    have hm : (sc, m) ≠ (c, n) := fun heq => hne (Prod.mk.inj heq).1.symm
    exact listed_congr (by rw [hattr.item, Nfts.burn_item_of_ne _ _ _ hm]) fun k =>
      hattr.others _ k hm
  obtain ⟨md', hself⟩ := listed_received_self hminted.received
  rw [hnext, hlisted, htraits] at hself
  exact ⟨by rw [hminted.received.next_self, hnext], md', hself⟩

/-! ### Item ids -/

/-- Item ids are handed out, and never taken back. -/
def Grows (w w' : T.World) : Prop :=
  ∀ c, (T.nfts w).next c ≤ (T.nfts w').next c

theorem Minted.grows {frozen : Bool} (h : Minted o a c frozen w w') : Grows w w' :=
  h.received.next_le

theorem Hatches.grows (hN : NftLaws T) {n : NftId} {sc : CollectionId} {md : T.Metadata}
    {t : Traits} {s s' : State T} (h : Hatches o a c n sc md t s s') :
    Grows s.world s'.world := by
  obtain ⟨w, hawakens, rfl⟩ := h.post
  obtain ⟨w₂, hattr, hminted, _⟩ := hawakens.minted hN
  have hnext : (T.nfts w₂).next = (T.nfts s.world).next := by rw [hattr.next]; rfl
  intro c
  have hle := hminted.grows c
  rw [hnext] at hle
  exact hle

end compound

end PhalaWorld
