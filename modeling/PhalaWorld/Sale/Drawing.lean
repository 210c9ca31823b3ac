import PhalaWorld.Sale.Chosen

/-! # The drawing

    The escrow of a preorder covers its price. A mint pays the price with a
    transfer that must leave the owner alive, which the escrow does not
    ensure. An owner who spent the rest of its money fails the whole batch
    that one of its preorders is in.

    * `Drawable`: a batch that meets everything else.
    * `Affordable`: what the owners must have, each for all of its own.
    * `Drawable.round`: one round goes through, and the rest stays drawable.
    * `drawing_iff`: when a drawing goes through.
-/

namespace PhalaWorld

open LTS Ledger Tokens

variable {AccountId : Type} [DecidableEq AccountId] {T : Config AccountId}

/-- What the Overlord is charged for the Shell of a preorder. -/
def State.deposit (fees : Fees) (s : State T) (p : PreorderId) : Nat :=
  (s.sale.preorders p).elim 0 fun info => fees.issue ⟨.Prime, info.race, info.career, 0⟩

/-- The preorders `ids` meet everything the Overlord `o` needs to draw them in
    one batch, but for the money of their owners. Both collections are set,
    the owners have Spirits, each race has metadata and stock for all of the
    batch, and `o`, who is alive, has room and the deposits for all of it. -/
structure Drawable (capacity : T.World → CollectionId → Nat) (fees : Fees)
    (existential_deposit : Nat) (o : AccountId) (sp c : CollectionId) (ids : List PreorderId)
    (s : State T) : Prop where
  overlord : s.sale.overlord = some o
  alive : existential_deposit ≤ (T.balances s.world).total o
  spirit_collection : s.sale.spirit_collection_id = some sp
  collection : s.sale.origin_of_shell_collection_id = some c
  issuer : (T.nfts s.world).issuer c = some o
  room : ids.length ≤ capacity s.world c
  deposits : (ids.map (s.deposit fees)).sum ≤ (T.balances s.world).free o
  distinct : ids.Nodup
  eligible : ∀ p ∈ ids, ∃ info md i, s.sale.preorders p = some info ∧
    T.holds s.world sp info.owner = true ∧
    s.sale.origin_of_shells_metadata info.race = some md ∧
    s.sale.origin_of_shells_inventory info.kind = some i ∧
    census PreorderInfo.kind s ids info.kind ≤ i.race_for_sale_count

/-- The price is zero, or each owner but `o` has the price of all its own
    preorders among `ids` and stays alive. -/
def Affordable (existential_deposit : Nat) (o : AccountId) (ids : List PreorderId) (s : State T) :
    Prop :=
  T.PrimeOriginOfShellPrice = 0 ∨ ∀ a, a ≠ o → 0 < share s ids a →
    T.PrimeOriginOfShellPrice * share s ids a + existential_deposit ≤ (T.balances s.world).total a

/-- The owner of one preorder can pay its price and stays alive. -/
abbrev Pays (existential_deposit : Nat) (o owner : AccountId) (s : State T) : Prop :=
  T.PrimeOriginOfShellPrice = 0 ∨ owner = o ∨
    T.PrimeOriginOfShellPrice + existential_deposit ≤ (T.balances s.world).total owner

section rounds
variable {held : T.World → AccountId → Nat} {capacity : T.World → CollectionId → Nat} {fees : Fees}
  {existential_deposit : Nat} {o : AccountId} {last : Bool} {sp c : CollectionId}
  {s s₁ s' : State T} {p : PreorderId} {ids : List PreorderId}
  {info : PreorderInfo AccountId T.Metadata} {full : Bool} {given : Kind → NftSaleType → Nat}
  {exact : Kind → NftSaleType → Prop} {ms : List (Mint AccountId)}

/-! ### What the owners need -/

/-- A round is paid by the owner, who stays alive. -/
theorem MintsPreorder.affords (hC : CurrencyLaws T) (hK : KeepAliveLaw T existential_deposit)
    (halive : existential_deposit ≤ (T.balances s.world).total o)
    (hm : MintsPreorder o last s p s') (hp : s.sale.preorders p = some info) :
    Pays existential_deposit o info.owner s := by
  obtain ⟨info', c, i, s₁, hp', hmint, _⟩ := hm
  obtain rfl : info = info' := Option.some.inj (hp.symm.trans hp')
  have hbal := (hC.unreserve_eq info.owner T.PrimeOriginOfShellPrice s.world).1
  obtain ⟨md, w, _, _, _, ⟨w₁, _, _, htransfer, _⟩, _⟩ := hmint.post
  -- releasing the escrow moves no total
  have htotal (a : AccountId) : (T.balances (s.release p info.owner).world).total a =
      (T.balances s.world).total a := by
    show (T.balances (T.unreserve info.owner T.PrimeOriginOfShellPrice s.world)).total a = _
    rw [hbal, Balances.total_unreserve]
  have hpays := (hK (a := info.owner) (by rw [htotal]; exact halive)).mp ⟨w₁, htransfer⟩
  rw [htotal] at hpays
  rcases hpays with hzero | hself | ⟨_, hle⟩
  · exact .inl hzero
  · exact .inr (.inl hself)
  · exact .inr (.inr hle)

/-- Who can pay for the batch can pay for its first round. -/
theorem Affordable.first (h : Affordable existential_deposit o (p :: ids) s)
    (hp : s.sale.preorders p = some info) : Pays existential_deposit o info.owner s := by
  rcases h with hzero | h
  · exact .inl hzero
  · by_cases hown : info.owner = o
    · exact .inr (.inl hown)
    · have hshare : share s (p :: ids) info.owner = 1 + share s ids info.owner := by
        unfold share
        rw [census_cons hp, if_pos rfl]
      have hall := h info.owner hown (by omega)
      rw [hshare, Nat.mul_add] at hall
      exact .inr (.inr (by omega))

/-- What a batch asks of the owners is what its first round asks, and then the
    rest. -/
theorem MintsPreorder.affordable_iff (hC : CurrencyLaws T) (hN : NftLaws T)
    (hR : OtherReserves T held) (hescrow : Escrowed held s) (hm : MintsPreorder o last s p s')
    (hp : s.sale.preorders p = some info) (hpending : ∀ q ∈ ids, (s'.sale.preorders q).isSome) :
    Affordable existential_deposit o (p :: ids) s ↔
      Pays existential_deposit o info.owner s ∧ Affordable existential_deposit o ids s' := by
  by_cases hzero : T.PrimeOriginOfShellPrice = 0
  · simp [Affordable, Pays, hzero]
  · have hpays : Affordable existential_deposit o (p :: ids) s →
        Pays existential_deposit o info.owner s := fun h => h.first hp
    simp only [Affordable, Pays, hzero, false_or] at hpays ⊢
    obtain ⟨_, hothers, _⟩ := hm.money hC hN hR hescrow
    -- every round but its own leaves an owner's total alone
    have hshare (a : AccountId) : share s (p :: ids) a = share s [p] a + share s' ids a := by
      unfold share
      rw [hm.resolves.census hpending, ← census_append, List.singleton_append]
    have hfirst (a : AccountId) : share s [p] a = if info.owner = a then 1 else 0 :=
      census_singleton hp a
    have htotal (a : AccountId) (ha : a ≠ o) :
        (T.balances s'.world).total a + T.PrimeOriginOfShellPrice * share s [p] a =
          (T.balances s.world).total a := by
      obtain ⟨hfree, hreserved⟩ := hothers a ha
      show (T.balances s'.world).free a + (T.balances s'.world).reserved a + _ =
        (T.balances s.world).free a + (T.balances s.world).reserved a
      omega
    constructor
    · intro h
      refine ⟨hpays h, ?_⟩
      intro a ha hpos
      have hall := h a ha (by rw [hshare]; omega)
      have hrest := htotal a ha
      rw [hshare, Nat.mul_add] at hall
      omega
    · intro ⟨hround, hrest⟩ a ha hpos
      have hmoved := htotal a ha
      rw [hshare, Nat.mul_add]
      by_cases hlater : 0 < share s' ids a
      · have hall := hrest a ha hlater
        omega
      · -- the first round is the owner's only one
        rw [hshare, hfirst] at hpos
        by_cases hown : info.owner = a
        · have hnone : share s' ids a = 0 := by omega
          have hround := hround.resolve_left (hown ▸ ha)
          rw [hnone, hfirst, if_pos hown, ← hown]
          omega
        · rw [if_neg hown] at hpos
          omega

/-! ### One round -/

/-- Nobody loses an item by a round. -/
theorem MintsPreorder.holds (hC : CurrencyLaws T) (hN : NftLaws T)
    (hm : MintsPreorder o last s p s') {a : AccountId} (h : T.holds s.world sp a = true) :
    T.holds s'.world sp a = true := by
  obtain ⟨info, c, i, s₁, _, hmint, rfl⟩ := hm
  have hview := (hC.unreserve_eq info.owner T.PrimeOriginOfShellPrice s.world).2
  have hrec := (hmint.minted hC hN).1.received
  obtain ⟨n, x, hx, howner⟩ := hN.holds_iff.mp h
  have hx : (T.nfts (s.release p info.owner).world).item (sp, n) = some x := by
    show (T.nfts (T.unreserve info.owner T.PrimeOriginOfShellPrice s.world)).item _ = _
    rw [hview]
    exact hx
  exact hN.holds_iff.mpr ⟨n, x, hrec.remains hx, howner⟩

/-- What the first round of a drawable batch finds in the storage. -/
theorem Drawable.for_sale (hC : CurrencyLaws T) (hN : NftLaws T)
    (hD : DrawLaws T capacity fees) (hstocked : Stocked full given exact ms s)
    (h : Drawable capacity fees existential_deposit o sp c (p :: ids) s)
    (hp : s.sale.preorders p = some info) :
    ∃ i md, ForSale info.owner ⟨.Prime, info.race, info.career, 0⟩ .ForSale false c i md
      (s.release p info.owner) := by
  have hview := (hC.unreserve_eq info.owner T.PrimeOriginOfShellPrice s.world).2
  obtain ⟨info', md, i, hp', hholds, hmd, hi, hstock⟩ := h.eligible p List.mem_cons_self
  obtain rfl : info = info' := Option.some.inj (hp.symm.trans hp')
  have hleft : 0 < i.race_for_sale_count := by
    rw [census_cons hp, if_pos rfl] at hstock
    omega
  -- a further id is left, or the collection would have no room
  have hroom := h.room
  have hdeposits := h.deposits
  rw [List.length_cons] at hroom
  rw [List.map_cons, List.sum_cons, State.deposit, hp] at hdeposits
  have hfee : fees.mint ≤ (T.balances s.world).free o := by
    simp only [Option.elim, Fees.issue] at hdeposits
    omega
  have hnext : (T.nfts s.world).next c + 1 < 2 ^ 32 := by
    obtain ⟨_, hmint, _⟩ := hD.issue.mint_nft info.owner md h.issuer
      (show 0 < capacity s.world c by omega) hfee
    exact (hN.mint_ok hmint).2.2.1
  obtain ⟨hrace, hcareer⟩ := hstocked.counters h.collection hnext hi info.career
  have hspirit : T.holds (s.release p info.owner).world sp info.owner = true := by
    rw [hN.holds_iff] at hholds ⊢
    exact hview ▸ hholds
  exact ⟨i, md, ⟨sp, h.spirit_collection, hspirit⟩, h.collection,
    fun hcheck => absurd hcheck Bool.false_ne_true, hi, hleft, hmd, ⟨_, hrace⟩, ⟨_, hcareer⟩⟩

/-- What a round leaves of a drawable batch is drawable. -/
theorem Drawable.tail (hC : CurrencyLaws T) (hN : NftLaws T) (hR : OtherReserves T held)
    (hescrow : Escrowed held s) (hstocked : Stocked full given exact ms s)
    (h : Drawable capacity fees existential_deposit o sp c (p :: ids) s)
    (hm : MintsPreorder o last s p s') (hroom : ids.length ≤ capacity s'.world c)
    (hdeposits : (ids.map (s.deposit fees)).sum ≤ (T.balances s'.world).free o) :
    Drawable capacity fees existential_deposit o sp c ids s' := by
  obtain ⟨hnotin, hdistinct⟩ := List.nodup_cons.mp h.distinct
  obtain ⟨info, md, i, hp, _, _, hi, _⟩ := h.eligible p List.mem_cons_self
  have hframe := (mints_frame (.cons hm (.nil s'))).1
  obtain ⟨_, hcoll, happended, _⟩ := hm.fulfils hC hN hp
  obtain ⟨_, _, htotal⟩ := hm.money hC hN hR hescrow
  obtain ⟨i', hi', _, hinv, _⟩ := hm.counts hC hN hstocked hp
  obtain rfl : i = i' := Option.some.inj (hi.symm.trans hi')
  -- the other preorders are as they were
  have hsame (q : PreorderId) (hq : q ∈ ids) : s'.sale.preorders q = s.sale.preorders q := by
    rw [hm.preorders, Function.update_of_ne fun heq : q = p => hnotin (heq ▸ hq)]
  have hpending : ∀ q ∈ ids, (s'.sale.preorders q).isSome := by
    intro q hq
    obtain ⟨info, _, _, hinfo, _⟩ := h.eligible q (List.mem_cons_of_mem p hq)
    rw [hsame q hq, hinfo, Option.isSome_some]
  constructor
  case overlord => exact hm.overlord.trans h.overlord
  case alive =>
    have halive := h.alive
    have hle : share s [p] o ≤ 1 := List.countP_le_length
    have hmul := Nat.mul_le_mul_left T.PrimeOriginOfShellPrice hle
    omega
  case spirit_collection =>
    rw [hframe]
    exact h.spirit_collection
  case collection =>
    rw [hframe]
    exact h.collection
  case issuer =>
    rw [happended.issuer]
    exact h.issuer
  case room => exact hroom
  case deposits =>
    have hdeposit : ids.map (s'.deposit fees) = ids.map (s.deposit fees) := by
      apply List.map_congr_left
      intro q hq
      rw [State.deposit, State.deposit, hsame q hq]
    rw [hdeposit]
    exact hdeposits
  case distinct => exact hdistinct
  case eligible =>
    intro q hq
    obtain ⟨info', md', j, hq', hholds, hmd, hj, hstock⟩ :=
      h.eligible q (List.mem_cons_of_mem p hq)
    have hspirit := hm.holds hC hN hholds
    have hmd' : s'.sale.origin_of_shells_metadata info'.race = some md' := by
      rw [hframe]
      exact hmd
    rw [census_cons hp] at hstock
    by_cases hkind : info.kind = info'.kind
    · -- one of the kind was sold, and one less is listed
      obtain rfl : i = j := Option.some.inj (hi.symm.trans (hkind ▸ hj))
      refine ⟨info', md', i.sold 1, (hsame q hq).trans hq', hspirit, hmd', ?_, ?_⟩
      · rw [hinv, hkind, Function.update_self]
      · rw [hm.resolves.census hpending]
        show _ ≤ i.race_for_sale_count - 1
        rw [if_pos hkind] at hstock
        omega
    · refine ⟨info', md', j, (hsame q hq).trans hq', hspirit, hmd', ?_, ?_⟩
      · rw [hinv, Function.update_of_ne (Ne.symm hkind)]
        exact hj
      · rw [hm.resolves.census hpending]
        omega

/-- A round leaves one state only. -/
theorem MintsPreorder.unique (ho : s.sale.overlord = some o) (h : MintsPreorder o last s p s₁)
    (h' : MintsPreorder o last s p s') : s₁ = s' := by
  have hleft := (NftSale.mint_chosen_preorder_ok (u := ()) ho).mpr h
  have hright := (NftSale.mint_chosen_preorder_ok (u := ()) ho).mpr h'
  exact (Prod.mk.inj (hleft.symm.trans hright)).2

/-- The first round of a drawable batch goes through if its owner can pay, and
    the rest stays drawable. -/
theorem Drawable.round (last : Bool) (hC : CurrencyLaws T) (hN : NftLaws T)
    (hR : OtherReserves T held) (hD : DrawLaws T capacity fees)
    (hK : KeepAliveLaw T existential_deposit)
    (hescrow : Escrowed held s) (hstocked : Stocked full given exact ms s)
    (h : Drawable capacity fees existential_deposit o sp c (p :: ids) s)
    (hp : s.sale.preorders p = some info)
    (hpays : Pays existential_deposit o info.owner s) :
    ∃ s', MintsPreorder o last s p s' ∧
      Drawable capacity fees existential_deposit o sp c ids s' := by
  obtain ⟨i, md, hsale⟩ := h.for_sale hC hN hD hstocked hp
  obtain ⟨hbal, hview⟩ := hC.unreserve_eq info.owner T.PrimeOriginOfShellPrice s.world
  have hprice := hescrow.price_le hp
  have hcapacity := hD.capacity_unreserve info.owner T.PrimeOriginOfShellPrice s.world c
  have hroom := h.room
  have hdeposits := h.deposits
  rw [List.length_cons] at hroom
  rw [List.map_cons, List.sum_cons, State.deposit, hp] at hdeposits
  -- the Overlord can still pay the deposits when the escrow is released
  have hfree : (T.balances s.world).free o ≤
      (T.balances (T.unreserve info.owner T.PrimeOriginOfShellPrice s.world)).free o := by
    rw [hbal]
    by_cases hown : o = info.owner
    · rw [hown, Balances.unreserve_free_self]
      exact Nat.le_add_right _ _
    · rw [(Balances.unreserve_of_ne _ _ hown).1]
  -- what is free then covers the price, and the owner stays alive
  obtain ⟨w₁, htransfer⟩ : ∃ w₁, T.transfer info.owner o T.PrimeOriginOfShellPrice .KeepAlive
      (T.unreserve info.owner T.PrimeOriginOfShellPrice s.world) = .ok w₁ := by
    rw [hK (by rw [hbal, Balances.total_unreserve]; exact h.alive), hbal,
      Balances.total_unreserve, Balances.unreserve_free_self]
    rcases hpays with hzero | hself | hle
    · exact .inl hzero
    · exact .inr (.inl hself)
    · exact .inr (.inr ⟨by omega, hle⟩)
  obtain ⟨w, hissues, hpaid⟩ := issues_of_transfer hC hN hD.issue md
    ⟨.Prime, info.race, info.career, 0⟩ (hview ▸ h.issuer) (by omega)
    (by simp only [Option.elim] at hdeposits; omega) htransfer
  have hleft := hissues.capacity_le hD.toSaleLaws
  obtain ⟨s₁, hmint, rfl⟩ := hsale.mints hissues
  have hm : MintsPreorder o last s p
      (s₁.close last info.owner (.ChosenPreorderMinted p info.owner)) :=
    ⟨info, c, i, s₁, hp, hmint, rfl⟩
  refine ⟨_, hm, h.tail hC hN hR hescrow hstocked hm ?_ ?_⟩
  · show ids.length ≤ capacity s₁.world c
    omega
  · show (ids.map (s.deposit fees)).sum ≤ (T.balances s₁.world).free o
    simp only [Option.elim] at hdeposits
    omega

/-! ### The batch -/

/-- The rounds of a drawable batch all go through exactly if the owners have
    the money for all of them. -/
theorem Drawable.rounds_iff (hC : CurrencyLaws T) (hN : NftLaws T) (hR : OtherReserves T held)
    (hD : DrawLaws T capacity fees) (hK : KeepAliveLaw T existential_deposit)
    (hescrow : Escrowed held s) (hstocked : Stocked full given exact ms s)
    (h : Drawable capacity fees existential_deposit o sp c ids s) :
    (∃ s', Chain (MintsPreorder o last) s ids s') ↔ Affordable existential_deposit o ids s := by
  induction ids generalizing s ms with
  | nil => exact ⟨fun _ => .inr fun a _ hpos => absurd hpos (Nat.lt_irrefl 0), fun _ => ⟨s, .nil s⟩⟩
  | cons p ids ih =>
    obtain ⟨info, _, _, hp, _⟩ := h.eligible p List.mem_cons_self
    -- one round, from the state before it
    have hround {s₁ : State T} (hm : MintsPreorder o last s p s₁)
        (hnext : Drawable capacity fees existential_deposit o sp c ids s₁) :
        (∃ s', Chain (MintsPreorder o last) s₁ ids s') ↔
          Affordable existential_deposit o ids s₁ := by
      obtain ⟨evs, _, hstocked₁, _⟩ := hstocked.mint_round hC hN hm
      exact ih (hm.money hC hN hR hescrow).1 hstocked₁ hnext
    have hpending {s₁ : State T}
        (hnext : Drawable capacity fees existential_deposit o sp c ids s₁) :
        ∀ q ∈ ids, (s₁.sale.preorders q).isSome := by
      intro q hq
      obtain ⟨info, _, _, hinfo, _⟩ := hnext.eligible q hq
      rw [hinfo, Option.isSome_some]
    constructor
    · intro ⟨s', hl⟩
      obtain ⟨s₁, hm, hrest⟩ := chain_cons.mp hl
      have hpays := hm.affords hC hK h.alive hp
      obtain ⟨s₂, hm₂, hnext⟩ := h.round last hC hN hR hD hK hescrow hstocked hp hpays
      obtain rfl := hm₂.unique h.overlord hm
      exact (hm.affordable_iff hC hN hR hescrow hp (hpending hnext)).mpr
        ⟨hpays, (hround hm hnext).mp ⟨s', hrest⟩⟩
    · intro hafford
      obtain ⟨s₁, hm, hnext⟩ := h.round last hC hN hR hD hK hescrow hstocked hp
        (hafford.first hp)
      obtain ⟨_, hrest⟩ :=
        (hm.affordable_iff hC hN hR hescrow hp (hpending hnext)).mp hafford
      obtain ⟨s', hl⟩ := (hround hm hnext).mpr hrest
      exact ⟨s', .cons hm hl⟩

end rounds

/-! ### The call -/

section calls
variable {held : T.World → AccountId → Nat} {capacity : T.World → CollectionId → Nat} {fees : Fees}
  {existential_deposit : Nat} {s : State T} {o : AccountId} {sp c : CollectionId}

/-- **The drawing.** In every run in which others only unreserve what they
    reserved themselves, and take no item id back: a list of preorders of
    which the first `IterLimit` meet everything else is minted if and only if
    the price is zero or every owner of those but the Overlord has the price
    of all its own among them and the existential deposit on top. What was
    escrowed is enough for the price only, and one owner fails the batch. -/
theorem drawing_iff (hC : CurrencyLaws T) (hN : NftLaws T) (hR : OtherReserves T held)
    (hD : DrawLaws T capacity fees) (hK : KeepAliveLaw T existential_deposit)
    {g : GenesisConfig AccountId} {w : T.World} {now : UInt64} {tr : List (Entry T)}
    (hw : ∀ a, held w a ≤ (T.balances w).reserved a)
    (h : Runs (Within (fun _ => True) fun w w' => Grows w w' ∧ OthersOwn held w w')
      (genesis g w now) tr s)
    {l : List PreorderId}
    (hl : Drawable capacity fees existential_deposit o sp c (l.take T.IterLimit.toNat) s) :
    (∃ s', step s (.call (.signed o) (.mint_chosen_preorders l)) = (.ok (), s')) ↔
      Affordable existential_deposit o (l.take T.IterLimit.toNat) s := by
  have hescrow := Runs.escrowed hC hR hw (h.mono fun _ _ hok =>
    ⟨trivial, fun w hl => (hok.2 w hl).2⟩)
  have hstocked := Runs.stocked hC hN (h.mono fun _ _ hok =>
    ⟨trivial, fun w hl => (hok.2 w hl).1⟩)
  simp only [mint_call_iff hl.overlord]
  exact hl.rounds_iff hC hN hR hD hK hescrow hstocked

end calls

namespace Mock

/-- In the sample presale `ALICE` and `BOB` have money left, and get their
    Shells in one batch. -/
theorem drawing_two : ∃ s',
    step (after (two_preorders 200)).2 (admin (.mint_chosen_preorders [0, 1])) = (.ok (), s') := by
  have hrun : Runs (Within (fun _ => True) fun w w' => Grows w w' ∧ OthersOwn World.held w w')
      (genesis₀ 200) (after (two_preorders 200)).1 (after (two_preorders 200)).2 :=
    runs_of_labels (two_preorders 200) (by decide +kernel)
  have hl : Drawable (T := runtime 200) capacity fees 1 OVERLORD 0 1 [0, 1]
      (after (two_preorders 200)).2 := by
    constructor
    case eligible =>
      have hstock (race : RaceType) : (after (two_preorders 200)).2.sale.origin_of_shells_inventory
          (.Prime, race) = some NftSale.prime_nft_sale_info := by
        cases race <;> decide +kernel
      intro p hp
      rcases List.mem_pair.mp hp with rfl | rfl
      · exact ⟨⟨ALICE, .AISpectre, .RoboWarrior, md⟩, md, _, rfl, by decide +kernel, rfl, hstock _,
          by decide +kernel⟩
      · exact ⟨⟨BOB, .XGene, .Web3Monk, md⟩, md, _, rfl, by decide +kernel, rfl, hstock _,
          by decide +kernel⟩
    all_goals decide +kernel
  refine (drawing_iff (T := runtime 200) (g := GenesisConfig.default) (w := world₀)
    (currency_laws 200) (nft_laws 200) (other_reserves 200) (draw_laws 200) (keep_alive_law 200)
    (fun _ => le_rfl) hrun (l := [0, 1]) hl).mpr (.inr ?_)
  intro a _ hpos
  obtain ⟨p, hp, howner⟩ := List.countP_pos_iff.mp hpos
  rcases List.mem_pair.mp hp with rfl | rfl
  · obtain rfl : ALICE = a := Option.some.inj (of_decide_eq_true howner)
    decide +kernel
  · obtain rfl : BOB = a := Option.some.inj (of_decide_eq_true howner)
    decide +kernel

/-- An account sends all its free money to another. -/
def World.spend (sender recipient : Mock.AccountId) (w : World) : World :=
  { w with balances := w.balances.transfer sender recipient (w.balances.free sender) }

theorem othersOwn_spend (sender recipient : Mock.AccountId) (w : World) :
    OthersOwn (T := runtime 200) World.held w (w.spend sender recipient) := by
  intro a
  show (w.balances.transfer _ _ _).reserved a + _ = _
  rw [Balances.transfer_reserved]
  rfl

/-- `BOB` sends all his free money to `CHARLIE`. -/
def bob_spends (s : State (runtime 200)) : State (runtime 200) :=
  (step s (.outside (s.world.spend BOB CHARLIE))).2

/-- His escrow is there, and everything else a Shell takes, but he cannot be
    minted his: he would not be left alive. -/
theorem drawing_blocked : ∃ tr s,
    Runs (Within (fun _ => True) fun w w' => Grows w w' ∧ OthersOwn World.held w w')
      (genesis₀ 200) tr s ∧
    s.sale.preorders 0 = some ⟨BOB, .XGene, .Web3Monk, md⟩ ∧
    s.world.balances.reserved BOB = (runtime 200).PrimeOriginOfShellPrice ∧
    s.world.nfts.issuer 0 = some OVERLORD ∧
    Drawable (T := runtime 200) capacity fees 1 OVERLORD 0 1 [0] s ∧
    ∀ s', step s (admin (.mint_chosen_preorders [0])) ≠ (.ok (), s') := by
  have hrun : Runs (Within (fun _ => True) fun w w' => Grows w w' ∧ OthersOwn World.held w w')
      (genesis₀ 200) (after (bob_preorders 200)).1 (after (bob_preorders 200)).2 :=
    runs_of_labels (bob_preorders 200) (by decide +kernel)
  have hspends : ∀ w', (Label.outside (T := runtime 200)
      ((after (bob_preorders 200)).2.world.spend BOB CHARLIE)) = .outside w' →
      Grows (T := runtime 200) (after (bob_preorders 200)).2.world w' ∧
        OthersOwn (T := runtime 200) World.held (after (bob_preorders 200)).2.world w' := by
    rintro w' ⟨⟩
    exact ⟨fun _ => le_rfl, othersOwn_spend BOB CHARLIE _⟩
  have hstock : (bob_spends (after (bob_preorders 200)).2).sale.origin_of_shells_inventory
      (.Prime, .XGene) = some NftSale.prime_nft_sale_info := by decide +kernel
  have hfail : succeeded (entry step (bob_spends (after (bob_preorders 200)).2)
      (admin (.mint_chosen_preorders [0]))) = false := by decide +kernel
  refine ⟨_, bob_spends (after (bob_preorders 200)).2, hrun.cons _ ⟨trivial, hspends⟩, rfl,
    by decide +kernel, by decide +kernel, ?_, ?_⟩
  · constructor
    case eligible =>
      intro p hp
      rw [List.mem_singleton] at hp
      subst hp
      exact ⟨⟨BOB, .XGene, .Web3Monk, md⟩, md, _, rfl, by decide +kernel, rfl, hstock,
        by decide +kernel⟩
    all_goals decide +kernel
  · intro s' hs'
    simp only [entry, succeeded, hs'] at hfail
    cases hfail

/-- On the last day `BOB` places two preorders. -/
def bob_twice : List (Label (runtime 200)) :=
  bob_preorders 200 ++
  [admin (.set_status_type true .LastDayOfSale),
    .call (.signed BOB) (.preorder_origin_of_shell .XGene .Web3Monk)]

/-- With nothing but the escrow of both, 20 in all, he can be minted either of
    them, but not the two in one batch. -/
example : [[0], [1], [0, 1]].map (fun ids => succeeded (entry step
    (bob_spends (after bob_twice).2) (admin (.mint_chosen_preorders ids)))) =
    [true, true, false] := by decide +kernel

end Mock

end PhalaWorld
