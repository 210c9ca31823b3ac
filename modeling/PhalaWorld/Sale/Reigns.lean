import PhalaWorld.Framework.Payments
import PhalaWorld.Sale.Money

/-! # The money of every reign

    The price of an Origin of Shell goes to the account that is the Overlord
    at that moment, and governance may name another one at any time. Who is
    the Overlord may also buy and preorder, and pays itself. Whatever the
    order of reigns, the totals of all accounts are settled by the payments
    of the buyers to the Overlord of the moment.

    * `payments`: what an entry made a buyer pay to whom.
    * `Settles.step`: every step is settled by its payments.
    * `money_by_reign`: so is every run, and no money appears or is lost.
-/

namespace PhalaWorld

open LTS Ledger

variable {AccountId : Type} {T : Config AccountId}

/-! ### Payments of an entry -/

/-- The payment for a mint under the Overlord `o`. -/
def payment (T : Config AccountId) (o : AccountId) (m : Mint AccountId) : Payment AccountId :=
  ⟨m.owner, o, cost T m⟩

/-- What was paid to the Overlord in one step. -/
def payments (e : Entry T) : List (Payment AccountId) :=
  match e.pre.sale.overlord with
  | some o => (mints e).map (payment T o)
  | none => []

variable [DecidableEq AccountId]

/-- What an entry minted while `a` was the Overlord. -/
def reign (a : AccountId) (e : Entry T) : List (Mint AccountId) :=
  if e.pre.sale.overlord = some a then mints e else []

/-- What `a` earned in the reigns it had. -/
def earned (T : Config AccountId) (tr : List (Entry T)) (a : AccountId) : Nat :=
  revenue T (history (reign a) tr)

section payments
variable {o a : AccountId} {ms : List (Mint AccountId)} {e : Entry T}

theorem paid_payments : paid (ms.map (payment T o)) a = spent T ms a := by
  induction ms with
  | nil => rfl
  | cons m ms ih =>
    rw [← List.singleton_append, spent_append, spent_singleton, List.map_append, paid_append, ih]
    rfl

theorem received_payments :
    received (ms.map (payment T o)) a = if o = a then revenue T ms else 0 := by
  induction ms with
  | nil => simp [received, revenue]
  | cons m ms ih =>
    rw [← List.singleton_append, revenue_append, revenue_singleton, List.map_append,
      received_append, ih]
    by_cases ho : o = a
    · simp [received, payment, ho]
    · simp [received, payment, ho]

omit [DecidableEq AccountId] in
theorem payments_of_overlord (ho : e.pre.sale.overlord = some o) :
    payments e = (mints e).map (payment T o) := by
  rw [payments, ho]

omit [DecidableEq AccountId] in
/-- Without a mint nothing is paid. -/
theorem payments_of_no_mint (h : mints e = []) : payments e = [] := by
  unfold payments
  split
  · rw [h, List.map_nil]
  · rfl

end payments

/-! ### Steps -/

section steps
variable {s s' : State T} {l : Label T} {r : Outcome T} {o a : AccountId}

/-- A sale is settled by the price. -/
theorem Mints.settles (hC : CurrencyLaws T) (hN : NftLaws T) {t : Traits} {price : Nat}
    {pool : NftSaleType} {check : Bool} {c : CollectionId} {i : NftSaleInfo}
    (h : Mints o a t price pool check c i s s') :
    Settles [⟨a, o, price⟩] (T.balances s.world) (T.balances s'.world) := by
  obtain ⟨_, _, hfree, hdep⟩ := h.minted hC hN
  have hpaid : Settles [⟨a, o, price⟩] (T.balances s.world)
      ((T.balances s.world).transfer a o price) := .transfer hfree
  exact hpaid.append (.of_total hdep.total)

/-- A released preorder, and one that is closed, need no payment. -/
theorem settles_release (hC : CurrencyLaws T) (p : PreorderId) (owner : AccountId) :
    Settles [] (T.balances s.world) (T.balances (s.release p owner).world) := by
  apply Settles.of_total
  intro b
  rw [State.release, (hC.unreserve_eq _ _ _).1, Balances.total_unreserve]

/-- A round of `mint_chosen_preorders` is settled by the price of its preorder. -/
theorem MintsPreorder.settles (hC : CurrencyLaws T) (hN : NftLaws T) {b₀ : Balances AccountId}
    {ms : List (Mint AccountId)} {last : Bool} {p : PreorderId}
    (h : Settles (ms.map (payment T o)) b₀ (T.balances s.world))
    (hm : MintsPreorder o last s p s') :
    ∃ evs, s'.events = s.events ++ evs ∧
      Settles ((ms ++ evs.filterMap (Event.mint .ForSale)).map (payment T o)) b₀
        (T.balances s'.world) := by
  obtain ⟨info, c, i, s₁, _, hmint, rfl⟩ := hm
  have hreleased := h.append (settles_release hC p info.owner)
  have hsold := hreleased.append (hmint.settles hC hN)
  refine ⟨_, hmint.events_append _, ?_⟩
  rw [List.append_nil] at hsold
  rw [List.map_append]
  exact hsold

/-- Every step is settled by its payments; where something is minted there
    is an Overlord to pay. -/
theorem Traded.settles (hC : CurrencyLaws T) (hN : NftLaws T) (hs : Traded s l r s')
    (hout : ∀ w, l = .outside w → SameBalances s.world w) :
    Settles (payments ⟨s, l, r, s'⟩) (T.balances s.world) (T.balances s'.world) ∧
      (s.sale.overlord = none → mints ⟨s, l, r, s'⟩ = []) := by
  -- a step that mints nothing and moves money between the parts of one account only
  have hidle (hmints : mints ⟨s, l, r, s'⟩ = [])
      (htotal : ∀ b, (T.balances s'.world).total b = (T.balances s.world).total b) :
      Settles (payments ⟨s, l, r, s'⟩) (T.balances s.world) (T.balances s'.world) ∧
        (s.sale.overlord = none → mints ⟨s, l, r, s'⟩ = []) := by
    rw [payments_of_no_mint hmints]
    exact ⟨.of_total htotal, fun _ => hmints⟩
  -- a step under the Overlord `o` that is settled by the mints it reports
  have hpay {o : AccountId} (ho : s.sale.overlord = some o)
      (h : Settles ((mints ⟨s, l, r, s'⟩).map (payment T o)) (T.balances s.world)
        (T.balances s'.world)) :
      Settles (payments ⟨s, l, r, s'⟩) (T.balances s.world) (T.balances s'.world) ∧
        (s.sale.overlord = none → mints ⟨s, l, r, s'⟩ = []) := by
    rw [payments_of_overlord (o := o) ho]
    refine ⟨h, fun hnone => ?_⟩
    rw [ho] at hnone
    cases hnone
  cases hs with
  | quiet hq _ => exact hidle hq.mints fun b => by rw [hq.world]
  | spirit _ hm _ => exact hidle hm.mints (hm.minted hN).2.total
  | @buy a o' r ra ca cid i c _ ho hm hc =>
    have hpool : (Label.call (.signed a) c).saleType = .ForSale := by
      rcases hc with ⟨rfl, _⟩ | ⟨rfl, sig, rfl⟩ <;> rfl
    apply hpay ho
    rw [hm.mints hpool]
    exact hm.settles hC hN
  | preorder hp =>
    obtain ⟨md, w, _, hreserve, rfl⟩ := hp.post
    obtain ⟨hfree, hbal, _⟩ := hC.reserve_ok hreserve
    exact hidle hp.mints fun b => by
      rw [hbal, Balances.total_reserve _ _ _ _ hfree]
  | mint ho hl =>
    obtain ⟨evs, hevs, h⟩ := hl.recorded (L := State.events) (f := Event.mint .ForSale)
      (J := fun ms s₁ => Settles (ms.map (payment T _)) (T.balances s.world) (T.balances s₁.world))
      (h := []) (fun _ _ _ _ hJ hm => hm.settles hC hN hJ) (.of_total fun _ => rfl)
    apply hpay ho
    rw [mints_of_append hevs]
    exact h
  | refund ho hl =>
    have htotal := (Traded.refund ho hl).total hC hN rfl
    -- the rounds report no mint
    obtain ⟨evs, hevs, hnone⟩ := hl.recorded (L := State.events) (f := Event.mint .ForSale)
      (J := fun ms _ => ms = []) (h := []) (fun ms s₁ p s₂ hJ hr => by
        obtain ⟨info, _, rfl⟩ := hr
        exact ⟨[.NotChosenPreorderRefunded p info.owner], rfl, by rw [hJ]; rfl⟩) rfl
    refine hidle ?_ htotal
    rw [mints_of_append hevs]
    exact hnone
  | gift ho hpool hm =>
    apply hpay ho
    rw [hm.mints_gift, List.map_singleton, payment, cost_gift hpool]
    exact hm.settles hC hN
  | init => exact hidle (mints_sale rfl) fun _ => rfl
  | update => exact hidle (mints_sale rfl) fun _ => rfl
  | create _ hw =>
    obtain ⟨c, _, hdep⟩ := hN.create_collection_ok hw
    exact hidle mints_world hdep.total
  | hatch hh =>
    obtain ⟨w, hawakens, rfl⟩ := hh.post
    obtain ⟨_, _, _, _, hdep⟩ := hawakens.minted hN
    exact hidle hh.mints hdep.total
  | outside => exact hidle mints_world fun b => by rw [hout _ rfl]

end steps

/-! ### Runs -/

section runs
variable {tr : List (Entry T)} {s₀ s : State T}

/-- What `a` paid is the price of what it was sold, and what it was paid is
    what was sold in its reigns. -/
theorem paid_earned (h : ∀ e ∈ tr, e.pre.sale.overlord = none → mints e = []) (a : AccountId) :
    paid (history payments tr) a = spent T (history mints tr) a ∧
      received (history payments tr) a = earned T tr a := by
  induction tr with
  | nil => exact ⟨rfl, rfl⟩
  | cons e tr ih =>
    obtain ⟨hpaid, hreceived⟩ := ih fun d hd => h d (List.mem_cons_of_mem _ hd)
    unfold earned at hreceived ⊢
    simp only [history_cons, paid_append, received_append, spent_append, revenue_append, hpaid,
      hreceived]
    cases ho : e.pre.sale.overlord with
    | none =>
      rw [payments_of_no_mint (h e List.mem_cons_self ho), h e List.mem_cons_self ho, reign, ho]
      exact ⟨rfl, rfl⟩
    | some o =>
      rw [payments_of_overlord ho, paid_payments, received_payments, reign, ho]
      refine ⟨rfl, ?_⟩
      by_cases hoa : o = a
      · rw [if_pos hoa, if_pos (congrArg some hoa)]
      · rw [if_neg hoa, if_neg fun heq => hoa (Option.some.inj heq)]
        rfl

/-- **The money of every reign.** In every run in which nobody outside
    touches the balances, whoever is the Overlord when, and whether or not it
    buys itself: every account has what it had, less the price of what it was
    sold, and plus the price of what was sold while it was the Overlord. A
    group of accounts with all buyers and all Overlords among them has
    together what it had. -/
theorem money_by_reign (hC : CurrencyLaws T) (hN : NftLaws T)
    (h : Runs (Within (fun _ => True) SameBalances) s₀ tr s) :
    (∀ a, (T.balances s.world).total a + spent T (history mints tr) a =
      (T.balances s₀.world).total a + earned T tr a) ∧
    ∀ F : Finset AccountId, (∀ m ∈ history mints tr, m.owner ∈ F) →
      (∀ e ∈ tr, ∀ o, e.pre.sale.overlord = some o → o ∈ F) →
      ∑ a ∈ F, (T.balances s.world).total a = ∑ a ∈ F, (T.balances s₀.world).total a := by
  have hsettled : Settles (history payments tr) (T.balances s₀.world) (T.balances s.world) ∧
      ∀ e ∈ tr, e.pre.sale.overlord = none → mints e = [] := by
    refine Runs.induction (J := fun tr s =>
      Settles (history payments tr) (T.balances s₀.world) (T.balances s.world) ∧
        ∀ e ∈ tr, e.pre.sale.overlord = none → mints e = []) h ?_ ?_
    · exact ⟨.of_total fun _ => rfl, fun e he => absurd he List.not_mem_nil⟩
    · rintro tr s l r s' _ ⟨hJ, hmints⟩ hok hs
      obtain ⟨hstep, hnone⟩ := hs.traded.settles hC hN hok.2
      refine ⟨hJ.append hstep, fun e he => ?_⟩
      rcases List.mem_cons.mp he with rfl | he
      · exact hnone
      · exact hmints e he
  obtain ⟨hsettles, hmints⟩ := hsettled
  constructor
  · intro a
    have ha := hsettles a
    rw [(paid_earned hmints a).1, (paid_earned hmints a).2] at ha
    exact ha
  · intro F hbuyers hoverlords
    apply hsettles.sum
    intro p hp
    obtain ⟨e, he, hp⟩ := mem_history.mp hp
    cases ho : e.pre.sale.overlord with
    | none =>
      rw [payments_of_no_mint (hmints e he ho)] at hp
      cases hp
    | some o =>
      rw [payments_of_overlord ho] at hp
      obtain ⟨m, hm, rfl⟩ := List.mem_map.mp hp
      exact ⟨hbuyers m (mem_history.mpr ⟨e, he, hm⟩), hoverlords e he o ho⟩

open Mock in
/-- After the sample sale the Overlord buys an Origin of Shell itself. -/
def overlord_buys : List (Label (runtime 200)) :=
  sale 200 ++ [admin .claim_spirit, admin (.buy_rare_origin_of_shell .Legendary .XGene .Web3Monk)]

open Mock in
/-- It pays itself, so that it has what it had after the sale, and it earned
    the price it spent. -/
theorem money_by_reign_self :
    spent (runtime 200) (history mints (after overlord_buys).1) OVERLORD = 1000000 ∧
    ((runtime 200).balances (after overlord_buys).2.world).total OVERLORD + 1000000 =
      ((runtime 200).balances world₀).total OVERLORD + 1001010 := by
  have hrun : Runs (Within (fun _ => True) SameBalances) (genesis₀ 200)
      (after overlord_buys).1 (after overlord_buys).2 :=
    runs_of_labels overlord_buys (by decide +kernel)
  have htotal := (money_by_reign (currency_laws 200) (nft_laws 200) hrun).1 OVERLORD
  have hspent : spent (runtime 200) (history mints (after overlord_buys).1) OVERLORD = 1000000 := by
    decide +kernel
  have hearned : earned (runtime 200) (after overlord_buys).1 OVERLORD = 1001010 := by
    decide +kernel
  rw [hspent, hearned] at htotal
  exact ⟨hspent, htotal⟩

end runs

end PhalaWorld
