import PhalaWorld.Sale.Inventory
import PhalaWorld.Sale.Refunds

/-! # A batch of mints

    The Overlord mints the first `IterLimit` of the chosen preorders, all or
    none. Each of them gets the next id of the Origin of Shell collection, in
    the order of the list.

    * `Fulfils`: an item is what a preorder asks for.
    * `Chosen`: everything a batch leaves.
    * `chosen_batch`: what it does, and that it does nothing where one of its
      rounds fails.
-/

namespace PhalaWorld

open LTS Ledger Tokens Transaction

variable {AccountId : Type} [DecidableEq AccountId] {T : Config AccountId}

/-- The kind a preorder asks for. -/
def PreorderInfo.kind {M : Type} (info : PreorderInfo AccountId M) : Kind := (.Prime, info.race)

/-- An entry of the inventory after `n` were sold. -/
def NftSaleInfo.sold (i : NftSaleInfo) (n : Nat) : NftSaleInfo :=
  { i with
    race_count := i.race_count + n
    race_for_sale_count := i.race_for_sale_count - n }

theorem NftSaleInfo.sold_sold (i : NftSaleInfo) (n m : Nat) :
    (i.sold n).sold m = i.sold (n + m) := by
  simp only [NftSaleInfo.sold, Nat.add_assoc, Nat.sub_sub]

/-- The item `x` is what the preorder asks for. Its metadata is what the race
    had in `s`. -/
def Fulfils (s : State T) (info : PreorderInfo AccountId T.Metadata) (x : CollectionId × NftId)
    (w : T.World) : Prop :=
  ∃ md, s.sale.origin_of_shells_metadata info.race = some md ∧
    (T.nfts w).item x = some ⟨info.owner, true, md⟩ ∧
    T.traits w x = some ⟨.Prime, info.race, info.career, 0⟩

/-- What the mint of `ids` leaves: they are gone, the flags of their owners are
    cleared unless it is the last day, the stock and the careers are counted,
    and the `j`-th of them has the `j`-th new item. Their owners paid with
    their escrow. Nothing else changed. -/
structure Chosen (o : AccountId) (s : State T) (ids : List PreorderId) (s' : State T) : Prop where
  nodup : ids.Nodup
  pending : ∀ p ∈ ids, (s.sale.preorders p).isSome
  sale : s'.sale = { s.sale with
    preorders := fun p => if p ∈ ids then none else s.sale.preorders p
    owner_has_preorder := fun a =>
      if s.sale.last_day_of_sale = false ∧ Handled s ids a then false
      else s.sale.owner_has_preorder a
    origin_of_shells_inventory := fun k =>
      (s.sale.origin_of_shells_inventory k).map fun i => i.sold (census PreorderInfo.kind s ids k)
    career_type_count := fun ca =>
      s.sale.career_type_count ca + census PreorderInfo.career s ids ca }
  stock : ∀ k, 0 < census PreorderInfo.kind s ids k →
    ∃ i, s.sale.origin_of_shells_inventory k = some i ∧
      census PreorderInfo.kind s ids k ≤ i.race_for_sale_count
  incubation : s'.incubation = s.incubation
  now : s'.now = s.now
  items : ∃ c, (ids = [] ∨ s.sale.origin_of_shell_collection_id = some c) ∧
    Nfts.Appended c ids.length (T.nfts s.world) (T.nfts s'.world) ∧
    ∀ j p info, ids[j]? = some p → s.sale.preorders p = some info →
      Fulfils s info (c, (T.nfts s.world).next c + j) s'.world
  paid : ∀ a, a ≠ o → (T.balances s'.world).free a = (T.balances s.world).free a ∧
    (T.balances s'.world).reserved a + T.PrimeOriginOfShellPrice * share s ids a =
      (T.balances s.world).reserved a
  /-- The deposits for the items are the Overlord's own money. -/
  earned : (T.balances s'.world).total o = (T.balances s.world).total o +
    T.PrimeOriginOfShellPrice * (ids.length - share s ids o)

section rounds
variable {held : T.World → AccountId → Nat} {o : AccountId} {last : Bool} {s s₁ s' : State T}
  {p : PreorderId} {ids : List PreorderId} {info : PreorderInfo AccountId T.Metadata}

theorem mints_resolve (h : Chain (MintsPreorder o last) s ids s') :
    Resolves .minted last s ids s' :=
  .of_chain (fun _ _ _ hr => MintsPreorder.resolves hr) h

/-- Of the storage, the rounds change four maps. -/
theorem mints_frame (h : Chain (MintsPreorder o last) s ids s') :
    s'.sale = { s.sale with
      preorders := s'.sale.preorders
      owner_has_preorder := s'.sale.owner_has_preorder
      origin_of_shells_inventory := s'.sale.origin_of_shells_inventory
      career_type_count := s'.sale.career_type_count } ∧
    s'.incubation = s.incubation ∧ s'.now = s.now := by
  have hcovers : CoversRounds fun s s' : State T =>
      s'.sale = { s.sale with
        preorders := s'.sale.preorders
        owner_has_preorder := s'.sale.owner_has_preorder
        origin_of_shells_inventory := s'.sale.origin_of_shells_inventory
        career_type_count := s'.sale.career_type_count } ∧
      s'.incubation = s.incubation ∧ s'.now = s.now := by
    refine ⟨fun _ => ⟨rfl, rfl, rfl⟩, ?_, fun _ _ _ => ⟨rfl, rfl, rfl⟩,
      fun _ _ _ _ => ⟨rfl, rfl, rfl⟩⟩
    rintro s₁ s₂ s₃ ⟨hsale, hinc, hnow⟩ ⟨hsale', hinc', hnow'⟩
    refine ⟨?_, hinc'.trans hinc, hnow'.trans hnow⟩
    rw [hsale'.trans (by rw [hsale])]
  refine hcovers.mint ?_ h
  intro a t price pool check c i s s' hm
  obtain ⟨md, w, rc, cc, _, _, _, _, rfl⟩ := hm.post
  exact ⟨rfl, rfl, rfl⟩

/-! ### Items -/

/-- A round mints the next item, and it is what the preorder asks for. -/
theorem MintsPreorder.fulfils (hC : CurrencyLaws T) (hN : NftLaws T)
    (hm : MintsPreorder o last s p s') (hp : s.sale.preorders p = some info) :
    ∃ c, s.sale.origin_of_shell_collection_id = some c ∧
      Nfts.Appended c 1 (T.nfts s.world) (T.nfts s'.world) ∧
      Fulfils s info (c, (T.nfts s.world).next c) s'.world := by
  obtain ⟨info', c, i, s₁, hp', hmint, rfl⟩ := hm
  obtain rfl : info = info' := Option.some.inj (hp.symm.trans hp')
  have hview := (hC.unreserve_eq info.owner T.PrimeOriginOfShellPrice s.world).2
  have hcoll := hmint.collection
  obtain ⟨md, w, rc, cc, hmd, hissues, _, _, rfl⟩ := hmint.post
  obtain ⟨hminted, htraits, _⟩ := hissues.minted hC hN
  have hitem := hissues.item hC hN
  have happended := hminted.received.appended
  simp only [State.release, hview] at htraits hitem happended
  exact ⟨c, hcoll, happended, md, hmd, hitem, htraits⟩

/-- The collection is set, if anything is minted. -/
theorem mints_collection (hl : Chain (MintsPreorder o last) s ids s') :
    ∃ c, ids = [] ∨ s.sale.origin_of_shell_collection_id = some c := by
  cases hl with
  | nil => exact ⟨0, .inl rfl⟩
  | cons hm _ =>
    obtain ⟨info, c, i, s₁, _, hmint, _⟩ := hm
    exact ⟨c, .inr hmint.collection⟩

/-- So do the rounds of a batch: the items are consecutive, in the order of
    the list. -/
theorem mints_items (hC : CurrencyLaws T) (hN : NftLaws T) {c : CollectionId}
    (hc : ids = [] ∨ s.sale.origin_of_shell_collection_id = some c)
    (hl : Chain (MintsPreorder o last) s ids s') :
    Nfts.Appended c ids.length (T.nfts s.world) (T.nfts s'.world) ∧
    ∀ j p info, ids[j]? = some p → s.sale.preorders p = some info →
      Fulfils s info (c, (T.nfts s.world).next c + j) s'.world := by
  induction hl with
  | nil s => exact ⟨.refl c _, fun j p info hj => by cases hj⟩
  | @cons s s₁ s' p ids hm hrest ih =>
    have hcoll := hc.resolve_left (List.cons_ne_nil p ids)
    obtain ⟨q, hq⟩ :=
      Option.isSome_iff_exists.mp (hm.resolves.pending p (List.mem_singleton_self p))
    obtain ⟨d, hd, hfirst, hfulfils⟩ := hm.fulfils hC hN hq
    obtain rfl : c = d := Option.some.inj (hcoll.symm.trans hd)
    have hframe := (mints_frame (.cons hm (.nil s₁))).1
    have hcoll₁ : s₁.sale.origin_of_shell_collection_id = some c := by
      rw [hframe]
      exact hcoll
    have hmeta : s₁.sale.origin_of_shells_metadata = s.sale.origin_of_shells_metadata := by
      rw [hframe]
    obtain ⟨happended, hitems⟩ := ih (.inr hcoll₁)
    have hnext := hfirst.next_self
    refine ⟨?_, ?_⟩
    · rw [List.length_cons, Nat.add_comm]
      exact hfirst.trans happended
    · intro j q' info hj hinfo
      cases j with
      | zero =>
        -- the later rounds leave the first item alone
        obtain rfl : p = q' := Option.some.inj hj
        obtain rfl : q = info := Option.some.inj (hq.symm.trans hinfo)
        obtain ⟨md, hmd, hitem, htraits⟩ := hfulfils
        obtain ⟨hsame, hattr⟩ := happended.of_lt (i := (T.nfts s.world).next c) (by omega)
        exact ⟨md, hmd, hsame.trans hitem, (Config.traits_congr hattr).trans htraits⟩
      | succ j =>
        have hj : ids[j]? = some q' := hj
        have hpending := (mints_resolve hrest).pending q' (List.mem_of_getElem? hj)
        have hsame := (hm.resolves.untouched hpending).2
        obtain ⟨md, hmd, hitem, htraits⟩ := hitems j q' info hj (hsame.trans hinfo)
        rw [hnext, Nat.add_assoc, Nat.add_comm 1 j] at hitem htraits
        exact ⟨md, hmeta ▸ hmd, hitem, htraits⟩

/-! ### Stock and careers -/

section stock
variable {full : Bool} {given : Kind → NftSaleType → Nat} {exact : Kind → NftSaleType → Prop}
  {ms : List (Mint AccountId)}

/-- A round takes one from the stock and counts it. No counter overflows. -/
theorem MintsPreorder.counts (hC : CurrencyLaws T) (hN : NftLaws T)
    (h : Stocked full given exact ms s) (hm : MintsPreorder o last s p s')
    (hp : s.sale.preorders p = some info) :
    ∃ i, s.sale.origin_of_shells_inventory info.kind = some i ∧ 1 ≤ i.race_for_sale_count ∧
      s'.sale.origin_of_shells_inventory =
        Function.update s.sale.origin_of_shells_inventory info.kind (some (i.sold 1)) ∧
      s'.sale.career_type_count =
        Function.update s.sale.career_type_count info.career
          (s.sale.career_type_count info.career + 1) := by
  obtain ⟨info', c, i, s₁, hp', hmint, rfl⟩ := hm
  obtain rfl : info = info' := Option.some.inj (hp.symm.trans hp')
  have hi := hmint.info
  have hleft := hmint.left
  have hreleased : Stocked full given exact ms (s.release p info.owner) := h.release hC
  have hbound := (hmint.minted hC hN).1.bound
  obtain ⟨hrace, hcareer⟩ := hreleased.counters hmint.collection hbound hi info.career
  obtain ⟨info₀, hinfo₀, hcount, _⟩ :=
    hreleased.stock (hreleased.full_of_info hi) (.Prime, info.race)
  obtain rfl : info₀ = i := Option.some.inj (hinfo₀.symm.trans hi)
  obtain ⟨md, w, rc, cc, _, _, hrc, hcc, rfl⟩ := hmint.post
  obtain rfl : rc = _ := Except.ok.inj (hrc.symm.trans hrace)
  obtain rfl : cc = _ := Except.ok.inj (hcc.symm.trans hcareer)
  refine ⟨info₀, hi, hleft, ?_, ?_⟩
  · rw [NftSaleInfo.sold, hcount]
    rfl
  · rw [h.careers]
    rfl

/-- So do the rounds of a batch. -/
theorem mints_counts (hC : CurrencyLaws T) (hN : NftLaws T) (h : Stocked full given exact ms s)
    (hl : Chain (MintsPreorder o last) s ids s') :
    (∀ k, s'.sale.origin_of_shells_inventory k =
      (s.sale.origin_of_shells_inventory k).map fun i =>
        i.sold (census PreorderInfo.kind s ids k)) ∧
    (∀ k, 0 < census PreorderInfo.kind s ids k →
      ∃ i, s.sale.origin_of_shells_inventory k = some i ∧
        census PreorderInfo.kind s ids k ≤ i.race_for_sale_count) ∧
    ∀ ca, s'.sale.career_type_count ca =
      s.sale.career_type_count ca + census PreorderInfo.career s ids ca := by
  induction hl generalizing ms with
  | nil s =>
    refine ⟨?_, fun k hk => absurd hk (Nat.lt_irrefl 0), fun ca => rfl⟩
    intro k
    cases hi : s.sale.origin_of_shells_inventory k with
    | none => rfl
    | some i => rfl
  | @cons s s₁ s' p ids hm hrest ih =>
    obtain ⟨info, hinfo⟩ :=
      Option.isSome_iff_exists.mp (hm.resolves.pending p (List.mem_singleton_self p))
    obtain ⟨i, hi, hleft, hinv, hcareer⟩ := hm.counts hC hN h hinfo
    obtain ⟨evs, _, h₁, _⟩ := h.mint_round hC hN hm
    obtain ⟨hsold, hstock, hcareers⟩ := ih h₁
    have hpending := (mints_resolve hrest).pending
    simp only [hm.resolves.census hpending] at hsold hstock hcareers
    simp only [census_cons hinfo]
    refine ⟨?_, ?_, ?_⟩
    · intro k
      rw [hsold, hinv]
      by_cases hk : info.kind = k
      · subst hk
        rw [Function.update_self, hi, if_pos rfl, Option.map_some, Option.map_some,
          NftSaleInfo.sold_sold]
      · rw [Function.update_of_ne (Ne.symm hk), if_neg hk, Nat.zero_add]
    · intro k hpos
      by_cases hk : info.kind = k
      · subst hk
        rw [if_pos rfl] at hpos ⊢
        refine ⟨i, hi, ?_⟩
        rcases Nat.eq_zero_or_pos (census PreorderInfo.kind s ids info.kind) with hzero | hmore
        · omega
        · -- the later rounds found one less
          obtain ⟨i', hi', hle⟩ := hstock _ hmore
          rw [hinv, Function.update_self, Option.some.injEq] at hi'
          subst hi'
          have hle : census PreorderInfo.kind s ids info.kind ≤ i.race_for_sale_count - 1 := hle
          omega
      · rw [if_neg hk, Nat.zero_add] at hpos ⊢
        obtain ⟨i', hi', hle⟩ := hstock k hpos
        rw [hinv, Function.update_of_ne (Ne.symm hk)] at hi'
        exact ⟨i', hi', hle⟩
    · intro ca
      rw [hcareers, hcareer]
      by_cases hca : info.career = ca
      · subst hca
        rw [Function.update_self, if_pos rfl]
        omega
      · rw [Function.update_of_ne (Ne.symm hca), if_neg hca, Nat.zero_add]

end stock

/-! ### Money -/

/-- The owner pays the price with its escrow. The Overlord's own preorders
    cost nothing. -/
theorem MintsPreorder.money (hC : CurrencyLaws T) (hN : NftLaws T) (hR : OtherReserves T held)
    (h : Escrowed held s) (hm : MintsPreorder o last s p s') :
    Escrowed held s' ∧
      (∀ a, a ≠ o → (T.balances s'.world).free a = (T.balances s.world).free a ∧
        (T.balances s'.world).reserved a + T.PrimeOriginOfShellPrice * share s [p] a =
          (T.balances s.world).reserved a) ∧
      (T.balances s'.world).total o + T.PrimeOriginOfShellPrice * share s [p] o =
        (T.balances s.world).total o + T.PrimeOriginOfShellPrice := by
  obtain ⟨info, c, i, s₁, hinfo, hmint, rfl⟩ := hm
  have hprice := h.price_le hinfo
  have hnext : Escrowed held s₁ := (h.release hC hR hinfo).mint hC hR hmint
  have hbal := (hC.unreserve_eq info.owner T.PrimeOriginOfShellPrice s.world).1
  obtain ⟨_, _, _, hdep⟩ := hmint.minted hC hN
  simp only [State.release, hbal] at hdep
  have hshare (a : AccountId) : share s [p] a = if info.owner = a then 1 else 0 :=
    census_singleton hinfo a
  refine ⟨hnext.close, ?_, ?_⟩
  · intro a ha
    obtain ⟨hfree, hreserved⟩ := hdep.1 a ha
    show (T.balances s₁.world).free a = _ ∧ (T.balances s₁.world).reserved a + _ = _
    rw [hfree, hreserved, Balances.transfer_reserved, hshare]
    by_cases hown : info.owner = a
    · -- the price is released and paid
      subst hown
      rw [Balances.transfer_free_src _ _ ha, Balances.unreserve_free_self,
        Balances.unreserve_reserved_self, if_pos rfl]
      omega
    · obtain ⟨hfree', hreserved'⟩ :=
        (T.balances s.world).unreserve_of_ne T.PrimeOriginOfShellPrice (Ne.symm hown)
      rw [Balances.transfer_free_of_ne _ _ (Ne.symm hown) ha, hfree', hreserved', if_neg hown]
      exact ⟨rfl, rfl⟩
  · show (T.balances s₁.world).total o + _ = _
    rw [hdep.total, hshare]
    by_cases hown : info.owner = o
    · rw [hown, Balances.transfer_self, Balances.total_unreserve, if_pos rfl, Nat.mul_one]
    · rw [Balances.total_transfer_dst _ _ hown, Balances.total_unreserve, if_neg hown]
      rfl

/-- So it is of all rounds, for every account. -/
theorem mints_money (hC : CurrencyLaws T) (hN : NftLaws T) (hR : OtherReserves T held)
    (h : Escrowed held s) (hl : Chain (MintsPreorder o last) s ids s') :
    (∀ a, a ≠ o → (T.balances s'.world).free a = (T.balances s.world).free a ∧
      (T.balances s'.world).reserved a + T.PrimeOriginOfShellPrice * share s ids a =
        (T.balances s.world).reserved a) ∧
    (T.balances s'.world).total o + T.PrimeOriginOfShellPrice * share s ids o =
      (T.balances s.world).total o + T.PrimeOriginOfShellPrice * ids.length := by
  induction hl with
  | nil => exact ⟨fun a _ => ⟨rfl, rfl⟩, rfl⟩
  | @cons s s₁ s' p ids hm hrest ih =>
    obtain ⟨h₁, hothers, htotal⟩ := hm.money hC hN hR h
    obtain ⟨hothers', htotal'⟩ := ih h₁
    have hsplit (a : AccountId) : share s (p :: ids) a = share s [p] a + share s₁ ids a := by
      unfold share
      rw [hm.resolves.census (mints_resolve hrest).pending, ← census_append, List.singleton_append]
    refine ⟨?_, ?_⟩
    · intro a ha
      obtain ⟨hfree, hreserved⟩ := hothers a ha
      obtain ⟨hfree', hreserved'⟩ := hothers' a ha
      rw [hsplit, Nat.mul_add]
      exact ⟨hfree'.trans hfree, by omega⟩
    · rw [hsplit, Nat.mul_add, List.length_cons, Nat.mul_succ]
      omega

/-- What the rounds leave. -/
theorem mints_chosen (hC : CurrencyLaws T) (hN : NftLaws T) (hR : OtherReserves T held)
    {full : Bool} {given : Kind → NftSaleType → Nat} {exact : Kind → NftSaleType → Prop}
    {ms : List (Mint AccountId)} (hescrow : Escrowed held s)
    (hstocked : Stocked full given exact ms s)
    (hl : Chain (MintsPreorder o s.sale.last_day_of_sale) s ids s') : Chosen o s ids s' := by
  have hres := mints_resolve hl
  obtain ⟨hsale, hinc, hnow⟩ := mints_frame hl
  obtain ⟨hsold, hstock, hcareers⟩ := mints_counts hC hN hstocked hl
  obtain ⟨hpaid, htotal⟩ := mints_money hC hN hR hescrow hl
  obtain ⟨c, hc⟩ := mints_collection hl
  refine ⟨hres.nodup, hres.pending, ?_, hstock, hinc, hnow,
    ⟨c, hc, mints_items hC hN hc hl⟩, hpaid, ?_⟩
  · rw [hsale, hres.flags_eq, show s'.sale.preorders = _ from funext hres.preorders,
      show s'.sale.origin_of_shells_inventory = _ from funext hsold,
      show s'.sale.career_type_count = _ from funext hcareers]
  · have hle : share s ids o ≤ ids.length := List.countP_le_length
    have hmul := Nat.mul_le_mul_left T.PrimeOriginOfShellPrice hle
    rw [Nat.mul_sub]
    omega

end rounds

/-! ### The call -/

section calls
variable {held : T.World → AccountId → Nat} {s s' : State T} {o : AccountId}
  {l : List PreorderId}

/-- The Overlord's call fails with the first round that fails, and takes back the rounds before. -/
theorem mint_call_error {e : Failure T.ModuleError} (ho : s.sale.overlord = some o) :
    step s (.call (.signed o) (.mint_chosen_preorders l)) = (.error e, s') ↔
      s' = s ∧ ∃ done p rest s₁ s₂, l.take T.IterLimit.toNat = done ++ p :: rest ∧
        Chain (MintsPreorder o s.sale.last_day_of_sale) s done s₁ ∧
        NftSale.mint_chosen_preorder o T.PrimeOriginOfShellPrice s.sale.last_day_of_sale p s₁ =
          (.error e, s₂) := by
  show NftSale.mint_chosen_preorders (.signed o) l s = (.error e, s') ↔ _
  simp [NftSale.mint_chosen_preorders, NftSale.for_preorders_eq T.IterLimit.toNat_lt, ho,
    forEach_error, NftSale.mint_rounds_ok ho]
  constructor
  · rintro ⟨⟨s₂, done, p, ⟨rest, hids⟩, s₁, hdone, hround⟩, rfl⟩
    exact ⟨rfl, done, p, ⟨rest, hids⟩, s₁, hdone, s₂, hround⟩
  · rintro ⟨rfl, done, p, ⟨rest, hids⟩, s₁, hdone, s₂, hround⟩
    exact ⟨⟨s₂, done, p, ⟨rest, hids⟩, s₁, hdone, hround⟩, rfl⟩

/-- **A batch of mints.** In every run in which others only unreserve what
    they reserved themselves, and take no item id back, a call of the
    Overlord that succeeds leaves what `Chosen` says of the first `IterLimit`
    ids. It fails exactly if one of them cannot be minted on its turn, and
    then nothing changed. -/
theorem chosen_batch (hC : CurrencyLaws T) (hN : NftLaws T) (hR : OtherReserves T held)
    {g : GenesisConfig AccountId} {w : T.World} {now : UInt64} {tr : List (Entry T)}
    (hw : ∀ a, held w a ≤ (T.balances w).reserved a)
    (h : Runs (Within (fun _ => True) fun w w' => Grows w w' ∧ OthersOwn held w w')
      (genesis g w now) tr s)
    (ho : s.sale.overlord = some o) (l : List PreorderId) :
    (∀ s', step s (.call (.signed o) (.mint_chosen_preorders l)) = (.ok (), s') →
      Chosen o s (l.take T.IterLimit.toNat) s') ∧
    ∀ e s', step s (.call (.signed o) (.mint_chosen_preorders l)) = (.error e, s') ↔
      s' = s ∧ ∃ done p rest s₁ s₂, l.take T.IterLimit.toNat = done ++ p :: rest ∧
        Chain (MintsPreorder o s.sale.last_day_of_sale) s done s₁ ∧
        NftSale.mint_chosen_preorder o T.PrimeOriginOfShellPrice s.sale.last_day_of_sale p s₁ =
          (.error e, s₂) := by
  have hescrow := Runs.escrowed hC hR hw (h.mono fun _ _ hok =>
    ⟨trivial, fun w hl => (hok.2 w hl).2⟩)
  have hstocked := Runs.stocked hC hN (h.mono fun _ _ hok =>
    ⟨trivial, fun w hl => (hok.2 w hl).1⟩)
  refine ⟨?_, fun e s' => mint_call_error ho⟩
  intro s' hs'
  exact mints_chosen hC hN hR hescrow hstocked ((mint_call_iff ho).mp hs')

open Mock in
/-- `ALICE` and `BOB` are minted theirs. -/
theorem chosen_batch_two :
    Chosen OVERLORD (after (two_preorders 200)).2 [0, 1]
      (step (after (two_preorders 200)).2 (admin (.mint_chosen_preorders [0, 1]))).2 := by
  have hrun : Runs (Within (fun _ => True) fun w w' => Grows w w' ∧ OthersOwn World.held w w')
      (genesis₀ 200) (after (two_preorders 200)).1 (after (two_preorders 200)).2 :=
    runs_of_labels (two_preorders 200) (by decide +kernel)
  obtain ⟨hchosen, _⟩ := chosen_batch (T := runtime 200) (g := GenesisConfig.default) (w := world₀)
    (currency_laws 200) (nft_laws 200) (other_reserves 200) (fun _ => le_rfl) hrun (o := OVERLORD)
    (by decide +kernel) [0, 1]
  have hdone : succeeded (entry step (after (two_preorders 200)).2
      (admin (.mint_chosen_preorders [0, 1]))) = true := by decide +kernel
  exact hchosen _ (step_of_succeeded hdone)

end calls

end PhalaWorld
