import PhalaWorld.Sale.Preorders

/-! # The money of the sale

    Money moves on three paths: a purchase transfers the price, a preorder
    reserves it, and a batch either transfers what was reserved or gives it
    back. `MoneyLedger` ties every balance to the pending preorders and to
    what was minted so far; each of the four moves keeps it
    (`MoneyLedger.keep`, `.sell`, `.place`, `.release`), and so does a run
    (`money_ledger`).
-/

namespace PhalaWorld

open LTS Ledger BoundedMap

variable {AccountId : Type} {T : Config AccountId}

/-! ### Spending -/

/-- What a mint cost its owner: the price of its rarity, or nothing for a gift. -/
def cost (T : Config AccountId) (m : Mint AccountId) : Nat :=
  match m.sale_type with
  | .ForSale => T.price m.rarity_type
  | _ => 0

/-- What the listed mints cost together. -/
def revenue (T : Config AccountId) (ms : List (Mint AccountId)) : Nat :=
  (ms.map (cost T)).sum

variable [DecidableEq AccountId]

/-- What the listed mints cost `a`. -/
def spent (T : Config AccountId) (ms : List (Mint AccountId)) (a : AccountId) : Nat :=
  revenue T (ms.filter fun m => m.owner = a)

omit [DecidableEq AccountId] in
@[simp] theorem revenue_append (ms ms' : List (Mint AccountId)) :
    revenue T (ms ++ ms') = revenue T ms + revenue T ms' := by
  simp [revenue]

omit [DecidableEq AccountId] in
@[simp] theorem revenue_singleton (m : Mint AccountId) : revenue T [m] = cost T m := by
  simp [revenue]

theorem spent_append (ms ms' : List (Mint AccountId)) (a : AccountId) :
    spent T (ms ++ ms') a = spent T ms a + spent T ms' a := by
  simp [spent]

theorem spent_singleton (m : Mint AccountId) (a : AccountId) :
    spent T [m] a = if m.owner = a then cost T m else 0 := by
  by_cases h : m.owner = a <;> simp [spent, h, revenue]

/-! ### The ledger -/

/-- How the balances stand in `s`, after the mints `ms`, to the balances
    `b₀` of the start; `o` is the Overlord. -/
structure MoneyLedger (o : AccountId) (b₀ : Balances AccountId) (ms : List (Mint AccountId))
    (s : State T) : Prop where
  below : Below s.sale.preorders s.sale.preorder_index
  owners : ∀ p info, s.sale.preorders p = some info → info.owner ≠ o
  reserved : ∀ a, a ≠ o → (T.balances s.world).reserved a =
    b₀.reserved a + T.PrimeOriginOfShellPrice * pending s a
  total : ∀ a, a ≠ o → (T.balances s.world).total a + spent T ms a = b₀.total a
  revenue : (T.balances s.world).total o = b₀.total o + revenue T ms

section moves
variable {o : AccountId} {b₀ : Balances AccountId} {ms : List (Mint AccountId)} {s s' : State T}

/-- A step that keeps the preorders and moves the Overlord's deposits only. -/
theorem MoneyLedger.keep (h : MoneyLedger o b₀ ms s)
    (hindex : s'.sale.preorder_index = s.sale.preorder_index)
    (hpre : s'.sale.preorders = s.sale.preorders)
    (hdep : (T.balances s.world).Deposit (T.balances s'.world) o) : MoneyLedger o b₀ ms s' := by
  refine ⟨by rw [hpre, hindex]; exact h.below, by rw [hpre]; exact h.owners, ?_, ?_, ?_⟩
  · intro a ha
    rw [(hdep.1 a ha).2, h.reserved a ha, pending, pending, hpre, hindex]
  · intro a ha
    rw [hdep.total a]; exact h.total a ha
  · rw [hdep.total o]; exact h.revenue

/-- A mint to `a`, who is not the Overlord or gets it for free. -/
theorem MoneyLedger.sell {m : Mint AccountId} (h : MoneyLedger o b₀ ms s)
    (hindex : s'.sale.preorder_index = s.sale.preorder_index)
    (hpre : s'.sale.preorders = s.sale.preorders)
    (hne : m.owner ≠ o ∨ cost T m = 0)
    (hpaid : m.owner ≠ o → cost T m ≤ (T.balances s.world).free m.owner)
    (hdep : ((T.balances s.world).transfer m.owner o (cost T m)).Deposit (T.balances s'.world) o) :
    MoneyLedger o b₀ (ms ++ [m]) s' := by
  refine ⟨by rw [hpre, hindex]; exact h.below, by rw [hpre]; exact h.owners, ?_, ?_, ?_⟩
  · intro a ha
    rw [(hdep.1 a ha).2, Balances.transfer_reserved, h.reserved a ha, pending, pending, hpre,
      hindex]
  · -- the buyer pays the price, everybody else pays nothing
    intro a ha
    rw [hdep.total a, spent_append, spent_singleton]
    have htotal := h.total a ha
    by_cases hm : m.owner = a
    · subst hm
      have hsrc := (T.balances s.world).total_transfer_src (cost T m) ha (hpaid ha)
      rw [if_pos rfl]
      omega
    · rw [if_neg hm, (T.balances s.world).total_transfer_of_ne _ (Ne.symm hm) ha]
      omega
  · -- what the Overlord mints for itself is free
    rw [hdep.total o, revenue_append, revenue_singleton]
    have hrev := h.revenue
    by_cases hm : m.owner = o
    · have hzero : cost T m = 0 := hne.resolve_left fun hne => hne hm
      rw [hm, Balances.transfer_self]
      omega
    · rw [(T.balances s.world).total_transfer_dst _ hm]
      omega

/-- A preorder placed by `info.owner`, at the price held back. -/
theorem MoneyLedger.place {info : PreorderInfo AccountId T.Metadata} (h : MoneyLedger o b₀ ms s)
    (hindex : s'.sale.preorder_index = s.sale.preorder_index + 1)
    (hpre : s'.sale.preorders =
      Function.update s.sale.preorders s.sale.preorder_index (some info))
    (hne : info.owner ≠ o)
    (hfree : T.PrimeOriginOfShellPrice ≤ (T.balances s.world).free info.owner)
    (hbal : T.balances s'.world =
      (T.balances s.world).reserve info.owner T.PrimeOriginOfShellPrice) :
    MoneyLedger o b₀ ms s' := by
  refine ⟨by rw [hpre, hindex]; exact h.below.insert, ?_, ?_, ?_, ?_⟩
  · intro p i hp
    rw [hpre] at hp
    by_cases hpi : p = s.sale.preorder_index
    · rw [hpi, Function.update_self, Option.some.injEq] at hp
      exact hp ▸ hne
    · rw [Function.update_of_ne hpi] at hp
      exact h.owners p i hp
  · -- one more pending preorder of its owner, one more price reserved
    intro a ha
    rw [hbal, pending, hpre, hindex, entries_insert]
    have hres := h.reserved a ha
    unfold pending at hres
    by_cases hown : info.owner = a
    · subst hown
      simp only [Balances.reserve_reserved_self, decide_true, if_true, Nat.mul_add]
      omega
    · rw [((T.balances s.world).reserve_of_ne _ (Ne.symm hown)).2, if_neg (by simpa using hown)]
      exact hres
  · intro a ha
    rw [hbal, Balances.total_reserve _ _ _ _ hfree]; exact h.total a ha
  · rw [hbal, Balances.total_reserve _ _ _ _ hfree]; exact h.revenue

/-- A preorder taken out of storage, its escrow given back. -/
theorem MoneyLedger.release (hC : CurrencyLaws T) {p : PreorderId}
    {info : PreorderInfo AccountId T.Metadata} (h : MoneyLedger o b₀ ms s)
    (hp : s.sale.preorders p = some info) : MoneyLedger o b₀ ms (s.release p info.owner) := by
  have hbal := (hC.unreserve_eq info.owner T.PrimeOriginOfShellPrice s.world).1
  refine ⟨h.below.erase, ?_, ?_, ?_, ?_⟩
  · intro q i hq
    simp only [State.release] at hq
    by_cases hqp : q = p
    · rw [hqp, Function.update_self] at hq; cases hq
    · rw [Function.update_of_ne hqp] at hq
      exact h.owners q i hq
  · -- the price is there to be given back, so nothing is cut off at zero
    intro a ha
    have hres := h.reserved a ha
    simp only [State.release, hbal, pending] at hres ⊢
    rw [entries_erase hp (h.below.lt hp)] at hres
    by_cases hown : info.owner = a
    · subst hown
      simp only [Balances.unreserve_reserved_self, decide_true, if_true, Nat.mul_add] at hres ⊢
      omega
    · rw [((T.balances s.world).unreserve_of_ne _ (Ne.symm hown)).2]
      rw [if_neg (by simpa using hown)] at hres
      exact hres
  · intro a ha
    simp only [State.release, hbal]
    rw [Balances.total_unreserve]; exact h.total a ha
  · simp only [State.release, hbal]
    rw [Balances.total_unreserve]; exact h.revenue

end moves

/-! ### Mints and batches -/

omit [DecidableEq AccountId] in
/-- Gifts are free. -/
theorem cost_gift {pool : NftSaleType} {a : AccountId} {t : Traits} {c : CollectionId} {n : NftId}
    (h : pool ≠ .ForSale) : cost T (mintOf pool a t c n) = 0 := by
  cases pool with
  | ForSale => exact absurd rfl h
  | Giveaway => rfl
  | Reserved => rfl

section steps
variable {o a : AccountId} {b₀ : Balances AccountId} {ms : List (Mint AccountId)} {s s' : State T}

theorem MoneyLedger.mint (hC : CurrencyLaws T) (hN : NftLaws T) {t : Traits} {price : Nat}
    {pool : NftSaleType} {check : Bool} {c : CollectionId} {i : NftSaleInfo}
    (h : MoneyLedger o b₀ ms s) (hm : Mints o a t price pool check c i s s')
    (hcost : cost T (mintOf pool a t c (T.NextNftId s.world c)) = price)
    (hne : a ≠ o ∨ price = 0) :
    MoneyLedger o b₀ (ms ++ [mintOf pool a t c (T.NextNftId s.world c)]) s' := by
  obtain ⟨_, _, hpaid, hdep⟩ := hm.minted hC hN
  obtain ⟨md, w, rc, cc, _, _, _, _, rfl⟩ := hm.post
  subst hcost
  exact h.sell rfl rfl hne hpaid hdep

/-- Closing a preorder moves no money. -/
theorem MoneyLedger.close {last : Bool} {owner : AccountId} {event : Event T}
    (h : MoneyLedger o b₀ ms s) : MoneyLedger o b₀ ms (s.close last owner event) :=
  h.keep rfl rfl (.refl _ _)

/-- One round of `mint_chosen_preorders`: the escrow is released and paid. -/
theorem MoneyLedger.mint_round (hC : CurrencyLaws T) (hN : NftLaws T) {last : Bool}
    {p : PreorderId} (h : MoneyLedger o b₀ ms s) (hm : MintsPreorder o last s p s') :
    ∃ evs, s'.events = s.events ++ evs ∧
      MoneyLedger o b₀ (ms ++ evs.filterMap (Event.mint .ForSale)) s' := by
  obtain ⟨info, c, i, s₁, hinfo, hmint, rfl⟩ := hm
  -- the mint starts from the state after the escrow was released
  have hsold := (h.release hC hinfo).mint hC hN hmint rfl (.inl (h.owners p info hinfo))
  exact ⟨_, hmint.events_append _, hsold.close⟩

/-- One round of `refund_not_chosen_preorders`: the escrow is released. -/
theorem MoneyLedger.refund_round (hC : CurrencyLaws T) {last : Bool} {p : PreorderId}
    (h : MoneyLedger o b₀ ms s) (hr : RefundsPreorder last s p s') :
    ∃ evs, s'.events = s.events ++ evs ∧
      MoneyLedger o b₀ (ms ++ evs.filterMap (Event.mint .ForSale)) s' := by
  obtain ⟨info, hinfo, rfl⟩ := hr
  refine ⟨[.NotChosenPreorderRefunded p info.owner], rfl, ?_⟩
  simp only [List.filterMap_cons, Event.mint, List.filterMap_nil, List.append_nil]
  exact (h.release hC hinfo).close

end steps

/-! ### Runs -/

/-- The account that tries to buy or preorder. -/
def Label.purchaser : Label T → Option AccountId
  | .call (.signed a) (.buy_rare_origin_of_shell ..) => some a
  | .call (.signed a) (.buy_prime_origin_of_shell ..) => some a
  | .call (.signed a) (.preorder_origin_of_shell ..) => some a
  | _ => none

/-- `o` is the only Overlord, and never buys or preorders itself. -/
def OneOverlord (o : AccountId) (e : Entry T) : Prop :=
  (∀ x ∈ e.post.sale.overlord, x = o) ∧ (e.label.purchaser = some o → succeeded e = false)

instance (o : AccountId) (e : Entry T) : Decidable (OneOverlord o e) :=
  inferInstanceAs (Decidable (_ ∧ _))

/-- Nobody outside touches the balances. -/
def SameBalances (w w' : T.World) : Prop :=
  T.balances w' = T.balances w

theorem MoneyLedger.step (hC : CurrencyLaws T) (hN : NftLaws T) {o : AccountId}
    {b₀ : Balances AccountId} {ms : List (Mint AccountId)} {s s' : State T} {l : Label T}
    {r : Outcome T} (h : MoneyLedger o b₀ ms s) (ho : ∀ x ∈ s.sale.overlord, x = o)
    (hok : Within (OneOverlord o) SameBalances ⟨s, l, r, s'⟩) (hs : Traded s l r s') :
    MoneyLedger o b₀ (ms ++ mints ⟨s, l, r, s'⟩) s' := by
  cases hs with
  | quiet hq _ =>
    rw [hq.mints, List.append_nil]
    exact h.keep hq.preorder_index hq.preorders (by rw [hq.world]; exact .refl _ _)
  | spirit ho' hm hc =>
    obtain rfl := ho _ ho'
    have hdep := (hm.minted hN).2
    rw [hm.mints, List.append_nil]
    obtain ⟨md, w₁, w₂, _, _, _, rfl⟩ := hm.post
    exact h.keep rfl rfl hdep
  | @buy a o' r ra ca cid i c _ ho' hm hc =>
    obtain rfl := ho _ ho'
    -- the Overlord itself does not buy
    have hne : a ≠ o' := by
      rintro rfl
      rcases hc with ⟨rfl, _⟩ | ⟨rfl, sig, rfl⟩ <;> exact absurd (hok.1.2 rfl) (by simp [succeeded])
    have hpool : (Label.call (.signed a) c).saleType = .ForSale := by
      rcases hc with ⟨rfl, _⟩ | ⟨rfl, sig, rfl⟩ <;> rfl
    rw [hm.mints hpool]
    exact h.mint hC hN hm rfl (.inl hne)
  | @preorder a ra ca _ hp =>
    have hne : a ≠ o := by
      rintro rfl
      exact absurd (hok.1.2 rfl) (by simp [succeeded])
    rw [hp.mints, List.append_nil]
    obtain ⟨md, w, _, hreserve, rfl⟩ := hp.post
    obtain ⟨hfree, hbal, _⟩ := hC.reserve_ok hreserve
    exact h.place rfl rfl hne hfree hbal
  | mint ho' hl =>
    obtain rfl := ho _ ho'
    obtain ⟨evs, hevs, h'⟩ := hl.recorded (L := State.events) (f := Event.mint .ForSale)
      (J := MoneyLedger _ b₀) (fun _ _ _ _ hJ hm => hJ.mint_round hC hN hm) h
    rw [mints_of_append hevs]
    exact h'
  | refund ho' hl =>
    obtain ⟨evs, hevs, h'⟩ := hl.recorded (L := State.events) (f := Event.mint .ForSale)
      (J := MoneyLedger o b₀) (fun _ _ _ _ hJ hr => hJ.refund_round hC hr) h
    rw [mints_of_append hevs]
    exact h'
  | gift ho' hpool hm =>
    -- a gift costs nothing, also when the Overlord gives it to itself
    obtain rfl := ho _ ho'
    rw [hm.mints_gift]
    exact (h.mint hC hN hm (cost_gift hpool) (.inr rfl)).keep rfl rfl (.refl _ _)
  | init hset =>
    rw [mints_sale rfl, List.append_nil]
    exact h.keep rfl rfl (.refl _ _)
  | update =>
    rw [mints_sale rfl, List.append_nil]
    exact h.keep rfl rfl (.refl _ _)
  | create ho' hw =>
    obtain rfl := ho _ ho'
    obtain ⟨c, _, hdep⟩ := hN.create_collection_ok hw
    rw [mints_world, List.append_nil]
    exact h.keep rfl rfl hdep
  | hatch hh =>
    obtain rfl := ho _ hh.overlord
    rw [hh.mints, List.append_nil]
    obtain ⟨w, hawakens, rfl⟩ := hh.post
    obtain ⟨_, _, _, _, hdep⟩ := hawakens.minted hN
    exact h.keep rfl rfl hdep
  | outside =>
    rw [mints_world, List.append_nil]
    exact h.keep rfl rfl (by rw [hok.2 _ rfl]; exact .refl _ _)

/-! ### Steps that move no money -/

/-- A gift or a refund. -/
def Label.isFree : Label T → Bool
  | .call _ (.mint_gift_origin_of_shell ..) => true
  | .call _ (.refund_not_chosen_preorders ..) => true
  | _ => false

theorem RefundsPreorder.total (hC : CurrencyLaws T) {last : Bool} {p : PreorderId}
    {s s' : State T} (h : RefundsPreorder last s p s') (a : AccountId) :
    (T.balances s'.world).total a = (T.balances s.world).total a := by
  obtain ⟨info, _, rfl⟩ := h
  simp only [State.close, State.release, (hC.unreserve_eq _ _ _).1, Balances.total_unreserve]

theorem Traded.total (hC : CurrencyLaws T) (hN : NftLaws T) {s s' : State T} {l : Label T}
    {r : Outcome T} (hs : Traded s l r s') (hfree : l.isFree = true) (a : AccountId) :
    (T.balances s'.world).total a = (T.balances s.world).total a := by
  cases hs with
  | quiet hq _ => rw [hq.world]
  | refund _ hl =>
    refine hl.invariant (I := fun s₁ =>
      (T.balances s₁.world).total a = (T.balances s.world).total a) ?_ rfl
    exact fun _ _ _ h hr => (hr.total hC a).trans h
  | gift _ _ hm =>
    obtain ⟨_, _, _, hdep⟩ := hm.minted hC hN
    rw [Balances.transfer_zero] at hdep
    exact hdep.total a
  | spirit _ _ hc => rcases hc with rfl | ⟨sig, rfl⟩ <;> cases hfree
  | buy _ _ hc => rcases hc with ⟨rfl, _⟩ | ⟨_, sig, rfl⟩ <;> cases hfree
  | _ => cases hfree

/-- **Money ledger.** In every run in which `o` is the only Overlord and
    neither buys nor preorders, and the balances are left alone outside:
    what is reserved is the price of each pending preorder, what an account
    lost is the price of what it was sold, and the Overlord got all of it.
    Failed calls, gifts and refunds move no total. -/
theorem money_ledger (hC : CurrencyLaws T) (hN : NftLaws T) {g : GenesisConfig AccountId}
    {w : T.World} {now : UInt64} {o : AccountId} (hg : ∀ x ∈ g.overlord, x = o)
    {tr : List (Entry T)} {s : State T}
    (h : Runs (Within (OneOverlord o) SameBalances) (genesis g w now) tr s) :
    Below s.sale.preorders s.sale.preorder_index ∧
    (∀ a, a ≠ o → (T.balances s.world).reserved a =
      (T.balances w).reserved a + T.PrimeOriginOfShellPrice * pending s a) ∧
    (∀ a, a ≠ o → (T.balances s.world).total a + spent T (history mints tr) a =
      (T.balances w).total a) ∧
    (T.balances s.world).total o = (T.balances w).total o + revenue T (history mints tr) ∧
    ∀ e ∈ tr, succeeded e = false ∨ e.label.isFree = true →
      ∀ a, (T.balances e.post.world).total a = (T.balances e.pre.world).total a := by
  have hledger : (∀ x ∈ s.sale.overlord, x = o) ∧
      MoneyLedger o (T.balances w) (history mints tr) s := by
    refine Runs.induction (J := fun tr s => (∀ x ∈ s.sale.overlord, x = o) ∧
      MoneyLedger o (T.balances w) (history mints tr) s) h ⟨hg, ?_⟩ ?_
    · exact ⟨fun _ _ => rfl, fun p info hp => (by cases hp),
        fun a _ => by simp [genesis, pending, entries_empty],
        fun a _ => rfl, rfl⟩
    · intro tr s l r s' _ ⟨ho, hJ⟩ hok hs
      exact ⟨hok.1.1, hJ.step hC hN ho hok hs.traded⟩
  refine ⟨hledger.2.below, hledger.2.reserved, hledger.2.total, hledger.2.revenue, ?_⟩
  intro e he hfree a
  rcases hfree with hfail | hfree
  · rw [h.failed he hfail]
  · obtain ⟨_, _, _, hs⟩ := h.mem he
    exact hs.traded.total hC hN hfree a

open Mock in
/-- In the sample sale `CHARLIE` ends with 1000 less, the Overlord with
    what was paid for two Shells more, and nothing stays reserved. -/
theorem money_ledger_sale :
    ((runtime 200).balances (after (sale 200)).2.world).reserved BOB =
      ((runtime 200).balances world₀).reserved BOB + (runtime 200).PrimeOriginOfShellPrice * 0 ∧
    ((runtime 200).balances (after (sale 200)).2.world).total CHARLIE + 1000 =
      ((runtime 200).balances world₀).total CHARLIE ∧
    ((runtime 200).balances (after (sale 200)).2.world).total OVERLORD =
      ((runtime 200).balances world₀).total OVERLORD + 1010 := by
  have hrun : Runs (Within (OneOverlord OVERLORD) SameBalances) (genesis₀ 200)
      (after (sale 200)).1 (after (sale 200)).2 := runs_of_labels (sale 200) (by decide +kernel)
  obtain ⟨_, hreserved, htotal, hrevenue, _⟩ :=
    money_ledger (g := GenesisConfig.default) (w := world₀) (currency_laws 200)
      (nft_laws 200) (by simp [GenesisConfig.default]) hrun
  have hpending : pending (after (sale 200)).2 BOB = 0 := by decide +kernel
  have hspent : spent (runtime 200) (history mints (after (sale 200)).1) CHARLIE = 1000 := by
    decide +kernel
  have hsold : revenue (runtime 200) (history mints (after (sale 200)).1) = 1010 := by decide +kernel
  have hbob := hreserved BOB (by decide)
  have hcharlie := htotal CHARLIE (by decide)
  rw [hpending] at hbob
  rw [hspent] at hcharlie
  rw [hsold] at hrevenue
  exact ⟨hbob, hcharlie, hrevenue⟩

end PhalaWorld
