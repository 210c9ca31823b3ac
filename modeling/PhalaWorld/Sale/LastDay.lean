import PhalaWorld.Framework.Shelves
import PhalaWorld.Shells.Season
import PhalaWorld.Specs.SoldOut
import PhalaWorld.System.Arithmetic

/-! # The last day

    On the last day everybody with a Spirit may buy, as often as they like,
    of every kind, with any signature or none. The inventory is a row of
    shelves then: whoever comes while the shelf of a kind is not empty gets
    one, and the others are told that it is sold out.

    * `Order`: what somebody asks for, and the call that asks for it.
    * `OpenDay`, `Solvent`: the sale is open, and the buyers can pay.
    * `OpenDay.shelved`: orders are served from shelves.
    * `first_come`: which orders of a list are served, and what is left.
-/

namespace PhalaWorld

open LTS Ledger Tokens Transaction

variable {AccountId : Type} {T : Config AccountId}

/-! ### Orders -/

/-- What somebody asks for. On the last day the signature does not count. -/
structure Order (T : Config AccountId) where
  buyer : AccountId
  rarity_type : RarityType
  race : RaceType
  career : CareerType
  signature : T.Signature

namespace Order

def kind (x : Order T) : Kind := (x.rarity_type, x.race)

def traits (x : Order T) : Traits := ⟨x.rarity_type, x.race, x.career, 0⟩

/-- The call that asks for it. -/
def call (x : Order T) : Label T :=
  .call (.signed x.buyer) <| match x.rarity_type with
    | .Prime => .buy_prime_origin_of_shell x.signature x.race x.career
    | rarity_type => .buy_rare_origin_of_shell rarity_type x.race x.career

/-- What an account pays if all its orders are served. -/
def bill [DecidableEq AccountId] (a : AccountId) (l : List (Order T)) : Nat :=
  (l.map fun x => if x.buyer = a then T.price x.rarity_type else 0).sum

theorem bill_cons [DecidableEq AccountId] (a : AccountId) (x : Order T) (l : List (Order T)) :
    bill a (x :: l) = (if x.buyer = a then T.price x.rarity_type else 0) + bill a l := by
  rw [bill, List.map_cons, List.sum_cons]
  rfl

end Order

/-- What is left for sale of a kind. -/
def State.for_sale (s : State T) (k : Kind) : Nat :=
  (s.sale.origin_of_shells_inventory k).elim 0 NftSaleInfo.race_for_sale_count

/-- It is the last day, both sales are open, and the Overlord `o`, who issued
    the collection `c`, is alive. -/
structure OpenDay (existential_deposit : Nat) (o : AccountId) (sp c : CollectionId) (s : State T) :
    Prop where
  overlord : s.sale.overlord = some o
  rare : s.sale.can_purchase_rare_origin_of_shells = true
  prime : s.sale.can_purchase_prime_origin_of_shells = true
  last_day : s.sale.last_day_of_sale = true
  spirit_collection : s.sale.spirit_collection_id = some sp
  collection : s.sale.origin_of_shell_collection_id = some c
  metadata : ∀ race, (s.sale.origin_of_shells_metadata race).isSome
  inventory : ∀ k, (s.sale.origin_of_shells_inventory k).isSome
  issuer : (T.nfts s.world).issuer c = some o
  alive : existential_deposit ≤ (T.balances s.world).total o

/-- Whoever orders holds a Spirit, is not the Overlord, and can pay for all
    its orders and stay alive. -/
def Solvent [DecidableEq AccountId] (existential_deposit : Nat) (o : AccountId) (sp : CollectionId)
    (l : List (Order T)) (s : State T) : Prop :=
  ∀ x ∈ l, T.holds s.world sp x.buyer = true ∧ x.buyer ≠ o ∧
    Order.bill x.buyer l + existential_deposit ≤ (T.balances s.world).free x.buyer

/-! ### One order -/

section orders
variable [DecidableEq AccountId] {s s' : State T} {o : AccountId} {sp c : CollectionId}
  {existential_deposit : Nat} {x : Order T} {l : List (Order T)} {i : NftSaleInfo}

/-- An order is a mint at the price of its rarity, and nothing is asked of
    the signature. -/
theorem OpenDay.step_of_mints (h : OpenDay existential_deposit o sp c s)
    (hencode : (T.encode o).length = 32)
    (hm : Mints o x.buyer x.traits (T.price x.rarity_type) .ForSale false c i s s') :
    step s x.call = (.ok (), s') := by
  obtain ⟨buyer, r, race, career, signature⟩ := x
  have hmint := (NftSale.do_mint_origin_of_shell_nft_ok h.overlord (u := ())).mpr ⟨c, i, hm⟩
  have hflags : s.sale.can_purchase_rare_origin_of_shells = true ∧
    s.sale.can_purchase_prime_origin_of_shells = true ∧ s.sale.last_day_of_sale = true ∧
    s.sale.overlord = some o := ⟨h.rare, h.prime, h.last_day, h.overlord⟩
  cases r with
  | Prime =>
    show NftSale.buy_prime_origin_of_shell (.signed buyer) signature race career s = _
    cases hsig : T.sr25519_verify signature (T.encode buyer ++
      Purpose.BuyPrimeOriginOfShells.encode) (T.encode o) <;>
      simp [NftSale.buy_prime_origin_of_shell, hflags, hencode, hsig] <;>
      exact hmint
  | Magic =>
    show NftSale.buy_rare_origin_of_shell (.signed buyer) .Magic race career s = _
    simp [NftSale.buy_rare_origin_of_shell, hflags]
    exact hmint
  | Legendary =>
    show NftSale.buy_rare_origin_of_shell (.signed buyer) .Legendary race career s = _
    simp [NftSale.buy_rare_origin_of_shell, hflags]
    exact hmint

theorem OpenDay.step_of_sold_out (h : OpenDay existential_deposit o sp c s)
    (hencode : (T.encode o).length = 32) (hholds : T.holds s.world sp x.buyer = true)
    (hempty : s.for_sale x.kind = 0) :
    step s x.call = (.error NftSale.Error.RaceMintMaxReached.into, s) := by
  obtain ⟨buyer, r, race, career, signature⟩ := x
  obtain ⟨md, hmd⟩ := Option.isSome_iff_exists.mp (h.metadata race)
  obtain ⟨i, hi⟩ := Option.isSome_iff_exists.mp (h.inventory (r, race))
  have hleft : i.race_for_sale_count = 0 := by
    have hleft : (s.sale.origin_of_shells_inventory (r, race)).elim 0
      NftSaleInfo.race_for_sale_count = 0 := hempty
    rw [hi] at hleft
    exact hleft
  have hfails (price : Nat) : NftSale.do_mint_origin_of_shell_nft o buyer r race career 0 price
      .ForSale false s = (.error NftSale.Error.RaceMintMaxReached.into, s) :=
    NftSale.do_mint_sold_out h.spirit_collection hholds h.collection hmd hi hleft
  have hflags : s.sale.can_purchase_rare_origin_of_shells = true ∧
    s.sale.can_purchase_prime_origin_of_shells = true ∧ s.sale.last_day_of_sale = true ∧
    s.sale.overlord = some o := ⟨h.rare, h.prime, h.last_day, h.overlord⟩
  cases r with
  | Prime =>
    show NftSale.buy_prime_origin_of_shell (.signed buyer) signature race career s = _
    cases hsig : T.sr25519_verify signature (T.encode buyer ++
      Purpose.BuyPrimeOriginOfShells.encode) (T.encode o) <;>
      simp [NftSale.buy_prime_origin_of_shell, hflags, hencode, hfails, NftSale.overlord,
        NftSale.verify_claim, hsig]
  | Magic =>
    show NftSale.buy_rare_origin_of_shell (.signed buyer) .Magic race career s = _
    simp [NftSale.buy_rare_origin_of_shell, hflags, hfails]
  | Legendary =>
    show NftSale.buy_rare_origin_of_shell (.signed buyer) .Legendary race career s = _
    simp [NftSale.buy_rare_origin_of_shell, hflags, hfails]

/-! ### What an order leaves behind -/

/-- The day goes on. -/
theorem OpenDay.mint (hC : CurrencyLaws T) (hN : NftLaws T)
    (h : OpenDay existential_deposit o sp c s) {a : AccountId} {t : Traits} {price : Nat}
    (hm : Mints o a t price .ForSale false c i s s') : OpenDay existential_deposit o sp c s' := by
  obtain ⟨hminted, _, hpaid, hdep⟩ := hm.minted hC hN
  have htotal := hdep.total o
  obtain ⟨md, w, rc, cc, _, _, _, _, rfl⟩ := hm.post
  refine ⟨h.overlord, h.rare, h.prime, h.last_day, h.spirit_collection, h.collection, h.metadata,
    ?_, ?_, ?_⟩
  · intro k
    by_cases hk : k = (t.rarity_type, t.race)
    · simp [hk]
    · simp only [Function.update_of_ne hk]
      exact h.inventory k
  · rw [hminted.received.issuer]
    exact h.issuer
  · -- the Overlord is paid, and deposits are his own
    have halive := h.alive
    rw [htotal]
    by_cases hao : a = o
    · rw [hao, Balances.transfer_self]
      exact halive
    · rw [Balances.total_transfer_dst _ _ hao]
      omega

omit [DecidableEq AccountId] in
/-- One is taken off the shelf. -/
theorem Mints.for_sale {a : AccountId} {t : Traits} {price : Nat} {check : Bool}
    (hm : Mints o a t price .ForSale check c i s s') :
    s'.for_sale = Function.update s.for_sale (t.rarity_type, t.race)
      (s.for_sale (t.rarity_type, t.race) - 1) := by
  have hinfo := hm.info
  obtain ⟨md, w, rc, cc, _, _, _, _, rfl⟩ := hm.post
  funext k
  by_cases hk : k = (t.rarity_type, t.race)
  · rw [hk, Function.update_self]
    unfold State.for_sale
    simp only [Function.update_self]
    rw [hinfo]
    rfl
  · rw [Function.update_of_ne hk]
    unfold State.for_sale
    simp only [Function.update_of_ne hk]

/-- Who can pay for a list can pay for what follows its first order. -/
theorem Solvent.tail (h : Solvent existential_deposit o sp (x :: l) s) :
    Solvent existential_deposit o sp l s := by
  intro y hy
  obtain ⟨hholds, hne, hfree⟩ := h y (List.mem_cons_of_mem _ hy)
  rw [Order.bill_cons] at hfree
  exact ⟨hholds, hne, by omega⟩

theorem Solvent.mint (hC : CurrencyLaws T) (hN : NftLaws T)
    (h : Solvent existential_deposit o sp (x :: l) s)
    (hm : Mints o x.buyer x.traits (T.price x.rarity_type) .ForSale false c i s s') :
    Solvent existential_deposit o sp l s' := by
  obtain ⟨_, hxo, _⟩ := h x List.mem_cons_self
  obtain ⟨hminted, _, _, hdep⟩ := hm.minted hC hN
  intro y hy
  obtain ⟨hholds, hyo, hfree⟩ := h y (List.mem_cons_of_mem _ hy)
  rw [Order.bill_cons] at hfree
  refine ⟨?_, hyo, ?_⟩
  · -- nobody loses a Spirit
    obtain ⟨n, j, hj, howner⟩ := hN.holds_iff.mp hholds
    exact hN.holds_iff.mpr ⟨n, j, hminted.received.remains hj, howner⟩
  · rw [(hdep.1 y.buyer hyo).1]
    by_cases hyx : x.buyer = y.buyer
    · rw [if_pos hyx] at hfree
      rw [← hyx, Balances.transfer_free_src _ _ hxo, hyx]
      omega
    · rw [if_neg hyx] at hfree
      rw [Balances.transfer_free_of_ne _ _ (Ne.symm hyx) hyo]
      omega

/-! ### The shelves -/

variable {capacity : T.World → CollectionId → Nat} {fees : Fees} {fee : Nat}

/-- The sale is open for the orders of a list: there are ids for all mints,
    the Overlord has room and deposits for them, and the buyers can pay. -/
structure Selling (capacity : T.World → CollectionId → Nat) (fee existential_deposit : Nat)
    (o : AccountId) (sp c : CollectionId) (l : List (Order T)) (s : State T) : Prop where
  day : OpenDay existential_deposit o sp c s
  counted : Counted s
  funded : Funded capacity fee o c l.length s
  solvent : Solvent existential_deposit o sp l s

/-- While there is one left, the next order is a sale. -/
theorem Selling.sells (hC : CurrencyLaws T) (hN : NftLaws T) (hS : SaleLaws T capacity fees)
    (hK : KeepAliveLaw T existential_deposit) (hfee : ∀ t, fees.issue t ≤ fee)
    (h : Selling capacity fee existential_deposit o sp c (x :: l) s)
    (hleft : 0 < s.for_sale x.kind) :
    ∃ i s', Mints o x.buyer x.traits (T.price x.rarity_type) .ForSale false c i s s' ∧
      Funded capacity fee o c l.length s' := by
  obtain ⟨hholds, hne, hmoney⟩ := h.solvent x List.mem_cons_self
  obtain ⟨md, hmd⟩ := Option.isSome_iff_exists.mp (h.day.metadata x.race)
  obtain ⟨i, hi⟩ := Option.isSome_iff_exists.mp (h.day.inventory x.kind)
  have hpositive : 0 < i.race_for_sale_count := by
    unfold State.for_sale at hleft
    rw [hi] at hleft
    exact hleft
  -- the buyer can pay, the Overlord can issue
  rw [Order.bill_cons, if_pos rfl] at hmoney
  have htotal : (T.balances s.world).total x.buyer =
    (T.balances s.world).free x.buyer + (T.balances s.world).reserved x.buyer := rfl
  obtain ⟨w₁, htransfer⟩ : ∃ w₁, T.transfer x.buyer o (T.price x.rarity_type) .KeepAlive s.world =
      .ok w₁ := (hK h.day.alive).mpr (.inr (.inr (by omega)))
  have hroom := h.funded.room
  have hfunds := h.funded.money
  rw [List.length_cons] at hroom hfunds
  rw [Nat.add_mul, Nat.one_mul] at hfunds
  have hcost := hfee x.traits
  obtain ⟨w, hissues, hpaid⟩ := issues_of_transfer hC hN hS.issue md x.traits h.day.issuer
    (show 0 < capacity s.world c by omega) (by omega) htransfer
  have hcapacity := hissues.capacity_le hS
  -- the mint had an id, so the counters have room
  have hbound := (hissues.minted hC hN).1.bound
  obtain ⟨hrace, hcareer⟩ := h.counted.room h.day.collection hbound hi x.career
  have hsale : ForSale x.buyer x.traits .ForSale false c i md s :=
    ⟨⟨sp, h.day.spirit_collection, hholds⟩, h.day.collection, nofun, hi, hpositive, hmd,
      ⟨_, plain_add_of_lt hrace⟩, ⟨_, plain_add_of_lt hcareer⟩⟩
  obtain ⟨s', hm, rfl⟩ := hsale.mints hissues
  exact ⟨i, s', hm, by omega, by omega⟩

/-- **The shelves.** On the last day orders are served from shelves. -/
theorem shelved (hC : CurrencyLaws T) (hN : NftLaws T) (hS : SaleLaws T capacity fees)
    (hK : KeepAliveLaw T existential_deposit) (hfee : ∀ t, fees.issue t ≤ fee)
    (hencode : (T.encode o).length = 32) :
    Shelved step Order.call Order.kind State.for_sale (.ok ())
      (.error NftSale.Error.RaceMintMaxReached.into)
      (Selling capacity fee existential_deposit o sp c) where
  serve x l s h hleft := by
    obtain ⟨i, s', hm, hfunded⟩ := h.sells hC hN hS hK hfee hleft
    rw [h.day.step_of_mints hencode hm]
    obtain ⟨full, given, exact, ms, hstocked⟩ := h.counted
    have hcounted : Counted s' := ⟨full, given, exact, _, hstocked.mint hC hN hm⟩
    exact ⟨rfl, ⟨h.day.mint hC hN hm, hcounted, hfunded, h.solvent.mint hC hN hm⟩, hm.for_sale⟩
  refuse x l s h hempty := by
    obtain ⟨hholds, _, _⟩ := h.solvent x List.mem_cons_self
    rw [h.day.step_of_sold_out hencode hholds hempty]
    exact ⟨rfl, ⟨h.day, h.counted, h.funded.mono (Nat.le_succ _), h.solvent.tail⟩, rfl⟩

/-- **First come, first served.** In every reachable state in which it is the
    last day and both sales are open, in which the Overlord issued the
    collection and has room and deposits for the items, and the buyers hold
    Spirits and can pay: of a list of orders of any kinds, sent one after
    another, exactly those are served that have fewer orders of their kind
    before them than are left for sale, and the others are told that the
    kind is sold out. -/
theorem first_come (hC : CurrencyLaws T) (hN : NftLaws T) (hS : SaleLaws T capacity fees)
    (hK : KeepAliveLaw T existential_deposit) (hfee : ∀ t, fees.issue t ≤ fee)
    (hencode : (T.encode o).length = 32) {g : GenesisConfig AccountId} {w : T.World} {now : UInt64}
    {tr : List (Entry T)} (h : Runs GrowsOutside (genesis g w now) tr s)
    (hday : OpenDay existential_deposit o sp c s) (hfund : Funded capacity fee o c l.length s)
    (hsolvent : Solvent existential_deposit o sp l s) :
    (∀ before x later, l = before ++ x :: later →
      (step (exec step s [] (before.map Order.call)).2 x.call).1 =
        if requests Order.kind x.kind before < s.for_sale x.kind then .ok ()
        else .error NftSale.Error.RaceMintMaxReached.into) ∧
    ∀ k, (exec step s [] (l.map Order.call)).2.for_sale k =
      s.for_sale k - requests Order.kind k l := by
  have hcounted : Counted s := ⟨_, _, _, _, Runs.stocked hC hN h⟩
  have hready : Selling capacity fee existential_deposit o sp c l s :=
    ⟨hday, hcounted, hfund, hsolvent⟩
  have hshelved : Shelved step Order.call Order.kind State.for_sale (.ok ())
      (.error NftSale.Error.RaceMintMaxReached.into)
      (Selling capacity fee existential_deposit o sp c) := shelved hC hN hS hK hfee hencode
  constructor
  · rintro before x later rfl
    exact hshelved.result hready
  · exact hshelved.stock_exec hready

end orders

namespace Mock

/-- The sample sale goes into its last day. -/
def rush : List (Label (runtime 200)) :=
  sale 200 ++ [admin (.set_status_type true .LastDayOfSale)]

/-- `ALICE` wants the Legendary Cyborg twice, and `BOB` comes in between. -/
def rush_orders : List (Order (runtime 200)) :=
  [⟨ALICE, .Legendary, .Cyborg, .Web3Monk, ([], [])⟩, ⟨BOB, .Magic, .XGene, .RoboWarrior, ([], [])⟩,
    ⟨ALICE, .Legendary, .Cyborg, .HackerWizard, ([], [])⟩]

/-- There is one Legendary Cyborg for sale, so she gets one only. -/
theorem first_come_rush :
    (∀ before x later, rush_orders = before ++ x :: later →
      (step (exec step (after rush).2 [] (before.map Order.call)).2 x.call).1 =
        if requests Order.kind x.kind before < (after rush).2.for_sale x.kind then .ok ()
        else .error NftSale.Error.RaceMintMaxReached.into) ∧
    (after rush).2.for_sale (.Legendary, .Cyborg) = 1 ∧
    requests Order.kind (.Legendary, .Cyborg) (rush_orders.take 2) = 1 := by
  have hrun : Runs GrowsOutside (genesis₀ 200) (after rush).1 (after rush).2 :=
    runs_of_labels rush (by decide +kernel)
  have hday : OpenDay (T := runtime 200) 1 OVERLORD 0 1 (after rush).2 := by
    constructor
    case metadata =>
      intro race
      cases race <;> decide +kernel
    case inventory =>
      have hall : ∀ k ∈ kinds, ((after rush).2.sale.origin_of_shells_inventory k).isSome := by
        decide +kernel
      rintro ⟨r, race⟩
      refine hall _ ?_
      cases r <;> cases race <;> decide
    all_goals decide +kernel
  have hfund : Funded (T := runtime 200) capacity 830 OVERLORD 1 rush_orders.length
      (after rush).2 := by
    constructor <;> decide +kernel
  have hsolvent : Solvent (T := runtime 200) 1 OVERLORD 0 rush_orders (after rush).2 := by
    unfold Solvent
    decide +kernel
  exact ⟨(first_come (T := runtime 200) (g := GenesisConfig.default) (w := world₀)
    (currency_laws 200) (nft_laws 200) (sale_laws 200) (keep_alive_law 200) issue_le
    (by decide) hrun hday hfund hsolvent).1, by decide +kernel, by decide⟩

end Mock

end PhalaWorld
