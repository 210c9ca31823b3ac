import PhalaWorld.Reference.Mock
import PhalaWorld.Specs.Laws

/-! # Whom a ticket serves

    A ticket is a signature that verifies under the Overlord's key for the
    encoded account of the caller, followed by the purpose of the call. The
    Overlord may change, and anybody may send any signature.

    * `uses`: the tickets a step accepted, each with the account and the
      purpose it was accepted for.
    * `Unforged`: what is assumed of the signatures and their signers.
    * `tickets_bound`: a ticket serves the account and the purpose that the
      Overlord of the moment signed it for, and nothing else.
-/

namespace PhalaWorld

open LTS Tokens

section tickets
variable {AccountId : Type} {T : Config AccountId}

/-- The bytes that are signed for a message. -/
def OverlordMessage.bytes (T : Config AccountId) (message : OverlordMessage AccountId) : Bytes :=
  T.encode message.account ++ message.purpose.encode

/-- The ticket with which a step went through, and what it was taken for. On
    the last day a purchase needs none. -/
def uses (e : Entry T) : List (OverlordMessage AccountId × T.Signature) :=
  match e.label, e.result with
  | .call (.signed sender) (.redeem_spirit signature), .ok () =>
      [(⟨sender, .RedeemSpirit⟩, signature)]
  | .call (.signed sender) (.buy_prime_origin_of_shell signature _ _), .ok () =>
      if e.pre.sale.last_day_of_sale then [] else [(⟨sender, .BuyPrimeOriginOfShells⟩, signature)]
  | _, _ => []

/-- The collection a ticket is good for an item of. -/
def State.redeemed (s : State T) : Purpose → Option CollectionId
  | .RedeemSpirit => s.sale.spirit_collection_id
  | .BuyPrimeOriginOfShells => s.sale.origin_of_shell_collection_id

/-- Signatures verify for what was signed with their key, `signed`, and an
    Overlord signs encodings of messages only, `signs`. -/
structure Unforged (T : Config AccountId) (isOverlord : AccountId → Prop)
    (signed : Bytes → Bytes → Prop) (signs : AccountId → OverlordMessage AccountId → Prop) :
    Prop where
  verify : ∀ {signature message key}, T.sr25519_verify signature message key = true →
    signed key message
  encode : Function.Injective T.encode
  messages : ∀ {o m}, isOverlord o → signed (T.encode o) m →
    ∃ message, signs o message ∧ m = message.bytes T

/-- The encoding of a message tells its account and its purpose. -/
theorem OverlordMessage.bytes_injective (h : Function.Injective T.encode) :
    Function.Injective (OverlordMessage.bytes T) := by
  intro ⟨a, p⟩ ⟨b, q⟩ heq
  have hlength : p.encode.length = q.encode.length := by
    cases p <;> cases q <;> rfl
  obtain ⟨haccount, hpurpose⟩ := List.append_inj' heq hlength
  obtain rfl : a = b := h haccount
  cases p <;> cases q <;> first | rfl | cases hpurpose

variable [DecidableEq AccountId] {ok : Entry T → Prop} {s₀ s : State T} {tr : List (Entry T)}

/-- A ticket that was accepted verifies, and its sender gets the item. -/
theorem uses_step (hC : CurrencyLaws T) (hN : NftLaws T) {l : Label T}
    {message : OverlordMessage AccountId} {signature : T.Signature}
    (h : (message, signature) ∈ uses (entry step s l)) :
    ∃ o c, s.sale.overlord = some o ∧
      T.sr25519_verify signature (message.bytes T) (T.encode o) = true ∧
      s.redeemed message.purpose = some c ∧
      Minted o message.account c true s.world (step s l).2.world := by
  unfold uses entry at h
  split at h
  · next a sig hl hr =>
    dsimp only at hl hr
    subst hl
    obtain ⟨rfl, rfl⟩ := Prod.mk.inj (List.mem_singleton.mp h)
    obtain ⟨a', ha, _, o, ho, _, hverify, c, hm⟩ := NftSale.redeem_spirit_ok.mp (Prod.ext hr rfl)
    cases ha
    exact ⟨o, c, ho, hverify, hm.collection, (hm.minted hN).1⟩
  · next a sig race career hl hr =>
    dsimp only at hl hr
    subst hl
    split at h
    · cases h
    · next hlast =>
      obtain ⟨rfl, rfl⟩ := Prod.mk.inj (List.mem_singleton.mp h)
      obtain ⟨a', o, c, i, ha, _, ho, hverify, hm⟩ :=
        NftSale.buy_prime_origin_of_shell_ok (Prod.ext hr rfl)
      cases ha
      -- only on the last day a purchase is let through without a ticket
      exact ⟨o, c, ho, hverify.resolve_right hlast, hm.collection, (hm.minted hC hN).1⟩
  · cases h

/-- **Tickets are bound** to the account, the purpose and the Overlord. In
    every run, whoever sends whatever signature: an accepted ticket verifies
    for its sender and the purpose of the call, which the Overlord of the
    moment has signed, and the sender gets the next item of that purpose. A
    signature that verifies for one key and message only is never accepted
    for two accounts, for two purposes or under two Overlords. -/
theorem tickets_bound (hC : CurrencyLaws T) (hN : NftLaws T) {signed : Bytes → Bytes → Prop}
    {signs : AccountId → OverlordMessage AccountId → Prop} (h : Runs ok s₀ tr s)
    (hunforged : Unforged T (fun o => ∃ e ∈ tr, e.pre.sale.overlord = some o) signed signs) :
    (∀ e ∈ tr, ∀ message signature, (message, signature) ∈ uses e →
      ∃ o c, e.pre.sale.overlord = some o ∧ signs o message ∧
        T.sr25519_verify signature (message.bytes T) (T.encode o) = true ∧
        e.pre.redeemed message.purpose = some c ∧
        Minted o message.account c true e.pre.world e.post.world) ∧
    ∀ signature, (∀ m m' key key', T.sr25519_verify signature m key = true →
        T.sr25519_verify signature m' key' = true → m = m' ∧ key = key') →
      ∀ d ∈ tr, ∀ e ∈ tr, ∀ message message', (message, signature) ∈ uses d →
        (message', signature) ∈ uses e →
        message = message' ∧ d.pre.sale.overlord = e.pre.sale.overlord := by
  have hused : ∀ e ∈ tr, ∀ message signature, (message, signature) ∈ uses e →
      ∃ o c, e.pre.sale.overlord = some o ∧
        T.sr25519_verify signature (message.bytes T) (T.encode o) = true ∧
        e.pre.redeemed message.purpose = some c ∧
        Minted o message.account c true e.pre.world e.post.world := by
    intro e he message signature huse
    obtain ⟨_, _, _, heq⟩ := Run.mem h he
    rw [heq] at huse
    obtain ⟨o, c, ho, hverify, hc, hminted⟩ := uses_step hC hN huse
    refine ⟨o, c, ho, hverify, hc, ?_⟩
    rw [heq]
    exact hminted
  constructor
  · intro e he message signature huse
    obtain ⟨o, c, ho, hverify, hc, hminted⟩ := hused e he message signature huse
    -- the Overlord signed a message with the same bytes, which is this one
    obtain ⟨message', hsigns, hbytes⟩ :=
      hunforged.messages ⟨e, he, ho⟩ (hunforged.verify hverify)
    obtain rfl := OverlordMessage.bytes_injective hunforged.encode hbytes
    exact ⟨o, c, ho, hsigns, hverify, hc, hminted⟩
  · intro signature honce d hd e he message message' huse huse'
    obtain ⟨o, _, ho, hverify, _⟩ := hused d hd message signature huse
    obtain ⟨o', _, ho', hverify', _⟩ := hused e he message' signature huse'
    obtain ⟨hbytes, hkey⟩ := honce _ _ _ _ hverify hverify'
    rw [ho, ho', hunforged.encode hkey]
    exact ⟨OverlordMessage.bytes_injective hunforged.encode hbytes, rfl⟩

end tickets

/-! ### A sample Overlord -/

namespace Mock

/-- The accounts below 256 are 32 bytes, which end in their number. -/
def account_bytes (a : AccountId) : Bytes :=
  List.replicate 31 0 ++ [UInt8.ofNat a] ++ List.replicate (a / 256) 0

theorem account_bytes_injective : Function.Injective account_bytes := by
  intro a b h
  unfold account_bytes at h
  have hdiv : a / 256 = b / 256 := by
    have hlength := congrArg List.length h
    simpa using hlength
  rw [hdiv, List.append_cancel_right_eq, List.append_cancel_left_eq] at h
  have hmod : a % 2 ^ 8 = b % 2 ^ 8 := by
    rw [← UInt8.toNat_ofNat', ← UInt8.toNat_ofNat', List.singleton_inj.mp h]
  rw [← Nat.div_add_mod a 256, ← Nat.div_add_mod b 256, hdiv]
  exact congrArg _ hmod

/-- The only ticket the Overlord has signed: `ALICE` may redeem a Spirit. -/
def alice_ticket : Bytes × Bytes :=
  (account_bytes ALICE ++ Purpose.RedeemSpirit.encode, account_bytes OVERLORD)

/-- The runtime in which nothing else verifies. -/
def signing : Config AccountId :=
  { runtime 200 with
    encode := account_bytes
    Signature := Bytes × Bytes
    sr25519_verify := fun signature message key =>
      decide (signature = (message, key) ∧ signature = alice_ticket) }

theorem signing_verify {signature : Bytes × Bytes} {message key : Bytes} :
    signing.sr25519_verify signature message key = true ↔
      signature = (message, key) ∧ signature = alice_ticket :=
  decide_eq_true_iff

theorem signing_currency_laws : CurrencyLaws signing where
  reserve_ok := (currency_laws 200).reserve_ok
  unreserve_eq := (currency_laws 200).unreserve_eq
  transfer_ok := (currency_laws 200).transfer_ok

theorem signing_nft_laws : NftLaws signing where
  mint_ok := @(nft_laws 200).mint_ok
  freeze_ok := (nft_laws 200).freeze_ok
  burn_ok := (nft_laws 200).burn_ok
  set_attribute_ok := (nft_laws 200).set_attribute_ok
  clear_attribute_ok := (nft_laws 200).clear_attribute_ok
  create_collection_ok := @(nft_laws 200).create_collection_ok
  mem_owned_in_collection := (nft_laws 200).mem_owned_in_collection
  lookup_root_owner_ok := (nft_laws 200).lookup_root_owner_ok

/-- What is signed is the ticket. -/
def signed (key message : Bytes) : Prop := (message, key) = alice_ticket

def signs (o : AccountId) (message : OverlordMessage AccountId) : Prop :=
  o = OVERLORD ∧ message = ⟨ALICE, .RedeemSpirit⟩

theorem unforged (isOverlord : AccountId → Prop) : Unforged signing isOverlord signed signs where
  verify {signature message key} h := by
    obtain ⟨hsignature, hticket⟩ := signing_verify.mp h
    exact hsignature.symm.trans hticket
  encode := account_bytes_injective
  messages {o m} _ h := by
    obtain ⟨rfl, hkey⟩ := Prod.mk.inj h
    exact ⟨_, ⟨account_bytes_injective hkey, rfl⟩, rfl⟩

/-- `BOB` tries `ALICE`'s ticket before she does. -/
def redeeming : List (Label signing) :=
  [.call .root (.set_overlord OVERLORD),
    .call (.signed OVERLORD) (.pw_create_collection md none [0]),
    .call (.signed OVERLORD) (.set_spirit_collection_id 0),
    .call (.signed OVERLORD) (.set_spirits_metadata md),
    .call (.signed OVERLORD) (.set_status_type true .ClaimSpirits),
    .call (.signed BOB) (.redeem_spirit alice_ticket),
    .call (.signed ALICE) (.redeem_spirit alice_ticket)]

end Mock

open Mock in
/-- It serves `ALICE` only. -/
theorem tickets_bound_alice :
    let run := exec step (genesis GenesisConfig.default world₀ 0 : State signing) [] redeeming
    (history uses run.1).map (fun use => use.1.account) = [ALICE] ∧
    ∀ e ∈ run.1, ∀ message signature, (message, signature) ∈ uses e →
      ∃ o, e.pre.sale.overlord = some o ∧ signs o message := by
  intro run
  have hrun : Runs (fun _ => True) (genesis GenesisConfig.default world₀ 0 : State signing) run.1
      run.2 := Run.exec (p := fun _ => True) .nil (by simp)
  refine ⟨by decide +kernel, ?_⟩
  intro e he message signature huse
  obtain ⟨o, _, ho, hsigns, _⟩ := (tickets_bound signing_currency_laws signing_nft_laws hrun
    (unforged _)).1 e he message signature huse
  exact ⟨o, ho, hsigns⟩

end PhalaWorld
