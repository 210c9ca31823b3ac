import PhalaWorld.Sale.Batches

/-! # The escrow of the preorders

    A preorder reserves its price. The batches give it back with
    `unreserve`, whose result they ignore: it frees less where less is
    reserved. `Escrowed` says that never happens: what an account has
    reserved covers what others hold of it and the price of each of its
    pending preorders.

    So a refund always goes through and moves exactly the price
    (`escrow_refundable`).
-/

namespace PhalaWorld

open LTS Ledger BoundedMap

variable {AccountId : Type} {T : Config AccountId} {held : T.World → AccountId → Nat}

/-! ### What others hold -/

section others
variable {w w' w'' : T.World}

theorem OthersOwn.refl (w : T.World) : OthersOwn held w w := fun _ => rfl

theorem OthersOwn.trans (h : OthersOwn held w w') (h' : OthersOwn held w' w'') :
    OthersOwn held w w'' := by
  intro a
  have ha := h a
  have ha' := h' a
  omega

theorem SetsTraits.others (hR : OtherReserves T held) {o : AccountId} {x : CollectionId × NftId}
    {t : Traits} (h : SetsTraits o x t w w') : OthersOwn held w w' := by
  refine h.covered .refl (fun _ _ _ => OthersOwn.trans) ?_
  intro w kv w' hset
  obtain ⟨k, v, _, _, hset⟩ := hset
  exact hR.set_attribute_ok hset

theorem Issues.others [DecidableEq AccountId] (hC : CurrencyLaws T) (hR : OtherReserves T held)
    {o a : AccountId} {c : CollectionId} {md : T.Metadata} {t : Traits} {price : Nat}
    (h : Issues o a c md t price w w') : OthersOwn held w w' := by
  obtain ⟨w₁, w₂, w₃, htransfer, hmint, hset, hfreeze⟩ := h
  have hpaid : OthersOwn held w w₁ := fun b => by
    rw [(hC.transfer_ok htransfer).2.1, Balances.transfer_reserved, hR.transfer_ok htransfer]
  exact hpaid.trans ((hR.mint_ok hmint).trans
    ((SetsTraits.others hR hset).trans (hR.freeze_ok hfreeze)))

theorem MintsSpirit.others (hR : OtherReserves T held) {o a : AccountId} {c : CollectionId}
    {s s' : State T} (h : MintsSpirit o a c s s') : OthersOwn held s.world s'.world := by
  obtain ⟨md, w₁, w₂, _, hmint, hfreeze, rfl⟩ := h.post
  exact (hR.mint_ok hmint).trans (hR.freeze_ok hfreeze)

theorem Awakens.others (hR : OtherReserves T held) {o a : AccountId} {x : CollectionId × NftId}
    {sc : CollectionId} {md : T.Metadata} {t : Traits} (h : Awakens o a x sc md t w w') :
    OthersOwn held w w' := by
  obtain ⟨w₁, w₂, w₃, hburn, hclear, hmint, hset⟩ := h
  have hcleared : OthersOwn held w₁ w₂ := by
    refine hclear.covered .refl (fun _ _ _ => OthersOwn.trans) ?_
    intro w key w' hkey
    obtain ⟨k, _, hkey⟩ := hkey
    exact hR.clear_attribute_ok hkey
  have hminted := (hR.mint_ok hmint).trans (SetsTraits.others hR hset)
  exact (hR.burn_ok hburn).trans (hcleared.trans hminted)

end others

/-! ### The invariant -/

variable [DecidableEq AccountId]

/-- What is reserved covers what others hold and the pending preorders. -/
structure Escrowed (held : T.World → AccountId → Nat) (s : State T) : Prop where
  below : Below s.sale.preorders s.sale.preorder_index
  covered : ∀ a, held s.world a + T.PrimeOriginOfShellPrice * pending s a ≤
    (T.balances s.world).reserved a

section moves
variable {s s' : State T}

theorem Escrowed.keep (h : Escrowed held s)
    (hindex : s'.sale.preorder_index = s.sale.preorder_index)
    (hpre : s'.sale.preorders = s.sale.preorders) (hothers : OthersOwn held s.world s'.world) :
    Escrowed held s' := by
  refine ⟨by rw [hpre, hindex]; exact h.below, ?_⟩
  intro a
  have hcovered := h.covered a
  have hmoved := hothers a
  unfold pending at hcovered ⊢
  rw [hpre, hindex]
  omega

/-- A preorder is placed, and its price reserved. -/
theorem Escrowed.place (hC : CurrencyLaws T) (hR : OtherReserves T held) {a : AccountId}
    {ra : RaceType} {ca : CareerType} (h : Escrowed held s) (hp : Preorders a ra ca s s') :
    Escrowed held s' := by
  obtain ⟨md, w, _, hreserve, rfl⟩ := hp.post
  obtain ⟨_, hbal, _⟩ := hC.reserve_ok hreserve
  refine ⟨h.below.insert, ?_⟩
  intro b
  have hcovered := h.covered b
  unfold pending at hcovered ⊢
  simp only [hR.reserve_ok hreserve, hbal, entries_insert]
  by_cases hb : a = b
  · subst hb
    simp only [Balances.reserve_reserved_self, decide_true, if_true, Nat.mul_add]
    omega
  · rw [(Balances.reserve_of_ne _ _ (Ne.symm hb)).2, if_neg (by simpa using hb)]
    exact hcovered

/-- The price of a pending preorder is there. -/
theorem Escrowed.price_le (h : Escrowed held s) {p : PreorderId}
    {info : PreorderInfo AccountId T.Metadata} (hp : s.sale.preorders p = some info) :
    T.PrimeOriginOfShellPrice ≤ (T.balances s.world).reserved info.owner := by
  have hcovered := h.covered info.owner
  have hpos : 0 < pending s info.owner := entries_pos hp (h.below.lt hp) (by simp)
  have := Nat.mul_le_mul_left T.PrimeOriginOfShellPrice hpos
  omega

/-- A preorder is taken out of storage, and its price released. -/
theorem Escrowed.release (hC : CurrencyLaws T) (hR : OtherReserves T held) {p : PreorderId}
    {info : PreorderInfo AccountId T.Metadata} (h : Escrowed held s)
    (hp : s.sale.preorders p = some info) : Escrowed held (s.release p info.owner) := by
  refine ⟨h.below.erase, ?_⟩
  intro a
  -- one price less is needed of the owner, and one price is given back
  have hcovered := h.covered a
  unfold pending at hcovered
  rw [entries_erase hp (h.below.lt hp)] at hcovered
  simp only [State.release, pending, hR.unreserve_eq, (hC.unreserve_eq _ _ _).1] at hcovered ⊢
  by_cases ha : info.owner = a
  · subst ha
    simp only [Balances.unreserve_reserved_self, decide_true, if_true, Nat.mul_add] at hcovered ⊢
    omega
  · rw [(Balances.unreserve_of_ne _ _ (Ne.symm ha)).2]
    rw [if_neg (by simpa using ha)] at hcovered
    exact hcovered

theorem Escrowed.close {last : Bool} {owner : AccountId} {event : Event T} (h : Escrowed held s) :
    Escrowed held (s.close last owner event) :=
  h.keep rfl rfl (.refl _)

theorem Escrowed.mint (hC : CurrencyLaws T) (hR : OtherReserves T held) {o a : AccountId}
    {t : Traits} {price : Nat} {pool : NftSaleType} {check : Bool} {c : CollectionId}
    {i : NftSaleInfo} (h : Escrowed held s) (hm : Mints o a t price pool check c i s s') :
    Escrowed held s' := by
  obtain ⟨md, w, rc, cc, _, hissues, _, _, rfl⟩ := hm.post
  exact h.keep rfl rfl (hissues.others hC hR)

theorem Escrowed.step (hC : CurrencyLaws T) (hR : OtherReserves T held) {l : Label T}
    {r : Outcome T} (h : Escrowed held s) (hout : ∀ w, l = .outside w → OthersOwn held s.world w)
    (hs : Traded s l r s') : Escrowed held s' := by
  cases hs with
  | quiet hq _ => exact h.keep hq.preorder_index hq.preorders (by rw [hq.world]; exact .refl _)
  | spirit _ hm _ =>
    have hothers := hm.others hR
    obtain ⟨md, w₁, w₂, _, _, _, rfl⟩ := hm.post
    exact h.keep rfl rfl hothers
  | buy _ hm _ => exact h.mint hC hR hm
  | preorder hp => exact h.place hC hR hp
  | mint _ hl =>
    refine hl.invariant ?_ h
    intro s p s' h hm
    obtain ⟨info, c, i, s₁, hinfo, hmint, rfl⟩ := hm
    exact ((h.release hC hR hinfo).mint hC hR hmint).close
  | refund _ hl =>
    refine hl.invariant ?_ h
    intro s p s' h hr
    obtain ⟨info, hinfo, rfl⟩ := hr
    exact (h.release hC hR hinfo).close
  | gift _ _ hm => exact (h.mint hC hR hm).keep rfl rfl (.refl _)
  | init => exact h.keep rfl rfl (.refl _)
  | update => exact h.keep rfl rfl (.refl _)
  | create _ hw => exact h.keep rfl rfl (hR.create_collection_ok hw)
  | hatch hh =>
    obtain ⟨w, hawakens, rfl⟩ := hh.post
    exact h.keep rfl rfl (hawakens.others hR)
  | outside => exact h.keep rfl rfl (hout _ rfl)

end moves

/-! ### Refunds -/

open Mock in
/-- `BOB` claims a Spirit and places preorder 0. -/
def bob_preorders (n : UInt32) : List (Label (runtime n)) :=
  setup n ++
  [.call (.signed BOB) .claim_spirit,
    .call (.signed BOB) (.preorder_origin_of_shell .XGene .Web3Monk)]

section runs
variable {g : GenesisConfig AccountId} {w : T.World} {now : UInt64} {tr : List (Entry T)}
  {s : State T}

theorem Runs.escrowed (hC : CurrencyLaws T) (hR : OtherReserves T held)
    (hw : ∀ a, held w a ≤ (T.balances w).reserved a)
    (h : Runs (Within (fun _ => True) (OthersOwn held)) (genesis g w now) tr s) :
    Escrowed held s := by
  refine Runs.invariant h ⟨fun _ _ => rfl, ?_⟩ fun hI hok hs =>
    hI.step hC hR hok.2 hs.traded
  intro a
  have hnone : pending (genesis (T := T) g w now) a = 0 := entries_empty
  rw [hnone, Nat.mul_zero, Nat.add_zero]
  exact hw a

/-- **The escrow is refundable.** Whenever a preorder is pending, in a
    run in which others only unreserve what they reserved themselves, the
    Overlord can refund it: the call goes through and moves exactly the
    price from the owner's reserved to its free balance. -/
theorem escrow_refundable (hC : CurrencyLaws T) (hR : OtherReserves T held)
    (hlimit : T.IterLimit ≠ 0) (hw : ∀ a, held w a ≤ (T.balances w).reserved a)
    (h : Runs (Within (fun _ => True) (OthersOwn held)) (genesis g w now) tr s)
    {o : AccountId} (ho : s.sale.overlord = some o) {p : PreorderId}
    {info : PreorderInfo AccountId T.Metadata} (hp : s.sale.preorders p = some info) :
    ∃ s', step s (.call (.signed o) (.refund_not_chosen_preorders [p])) = (.ok (), s') ∧
      (T.balances s'.world).free info.owner =
        (T.balances s.world).free info.owner + T.PrimeOriginOfShellPrice ∧
      (T.balances s'.world).reserved info.owner + T.PrimeOriginOfShellPrice =
        (T.balances s.world).reserved info.owner ∧
      (∀ a, a ≠ info.owner → (T.balances s'.world).free a = (T.balances s.world).free a ∧
        (T.balances s'.world).reserved a = (T.balances s.world).reserved a) ∧
      s'.sale.preorders = Function.update s.sale.preorders p none := by
  -- the whole price is reserved, so that `unreserve` gives all of it back
  have hprice := (Runs.escrowed hC hR hw h).price_le hp
  have hbal := (hC.unreserve_eq info.owner T.PrimeOriginOfShellPrice s.world).1
  refine ⟨(s.release p info.owner).close s.sale.last_day_of_sale info.owner
    (.NotChosenPreorderRefunded p info.owner), ?_, ?_, ?_, ?_, rfl⟩
  · rw [refund_call_iff ho, take_singleton hlimit]
    exact .cons ⟨info, hp, rfl⟩ (.nil _)
  · simp only [State.close, State.release, hbal, Balances.unreserve_free_self]
    omega
  · simp only [State.close, State.release, hbal, Balances.unreserve_reserved_self]
    omega
  · intro a ha
    simp only [State.close, State.release, hbal]
    exact Balances.unreserve_of_ne _ _ ha

open Mock in
/-- `BOB`'s preorder of the sample presale is refunded. -/
theorem escrow_refundable_bob : ∃ s',
    step (after (bob_preorders 200)).2 (admin (.refund_not_chosen_preorders [0])) = (.ok (), s') ∧
    s'.world.balances.free BOB = (after (bob_preorders 200)).2.world.balances.free BOB + 10 := by
  have hrun : Runs (Within (fun _ => True) (OthersOwn World.held)) (genesis₀ 200)
      (after (bob_preorders 200)).1 (after (bob_preorders 200)).2 :=
    runs_of_labels (bob_preorders 200) (by decide +kernel)
  have hinfo : (after (bob_preorders 200)).2.sale.preorders 0 =
    some ⟨BOB, .XGene, .Web3Monk, md⟩ := rfl
  obtain ⟨s', hstep, hfree, _⟩ := escrow_refundable (T := runtime 200) (g := GenesisConfig.default)
    (w := world₀) (currency_laws 200) (other_reserves 200) (by decide) (fun _ => le_rfl) hrun
    (o := OVERLORD) (by decide +kernel) (p := 0) hinfo
  exact ⟨s', hstep, hfree⟩

open Mock in
/-- With a limit of zero the call goes through and refunds nothing. -/
theorem refund_limit_zero :
    (after (bob_preorders 0)).2.sale.overlord = some OVERLORD ∧
    (after (bob_preorders 0)).2.sale.preorders 0 = some ⟨BOB, .XGene, .Web3Monk, md⟩ ∧
    step (after (bob_preorders 0)).2 (admin (.refund_not_chosen_preorders [0])) =
      (.ok (), (after (bob_preorders 0)).2) := by
  have ho : (after (bob_preorders 0)).2.sale.overlord = some OVERLORD := by decide +kernel
  refine ⟨ho, rfl, (refund_call_iff ho).mpr ?_⟩
  show Chain _ _ ([0].take 0) _
  exact .nil _

end runs

end PhalaWorld
