import PhalaWorld.Sale.Escrow

/-! # A batch of refunds

    The Overlord refunds the first `IterLimit` of the listed preorders, all
    or none. The order of the list does not matter, and neither does it
    whether the preorders are refunded in one call or in two, as long as none
    of them fails.

    * `census`, `share`: how many of the listed preorders agree on something,
      and how many are an account's.
    * `Refunded`: everything a batch leaves.
    * `refunded_batch`: when it succeeds, and what it does.
-/

namespace PhalaWorld

open LTS Ledger Transaction

variable {AccountId : Type} [DecidableEq AccountId] {T : Config AccountId}

/-- How many of the preorders have `b` where `f` looks. -/
def census {B : Type} [DecidableEq B] (f : PreorderInfo AccountId T.Metadata → B) (s : State T)
    (ids : List PreorderId) (b : B) : Nat :=
  ids.countP fun p => (s.sale.preorders p).map f = some b

/-- How many of the preorders are `a`'s. -/
def share (s : State T) (ids : List PreorderId) (a : AccountId) : Nat :=
  census PreorderInfo.owner s ids a

/-- What the refund of `ids` leaves: they are gone, the flags of their owners
    are cleared unless it is the last day, and each owner's escrow of them is
    free. Nothing else changed. -/
structure Refunded (s : State T) (ids : List PreorderId) (s' : State T) : Prop where
  sale : s'.sale = { s.sale with
    preorders := fun p => if p ∈ ids then none else s.sale.preorders p
    owner_has_preorder := fun a =>
      if s.sale.last_day_of_sale = false ∧ Handled s ids a then false
      else s.sale.owner_has_preorder a }
  incubation : s'.incubation = s.incubation
  now : s'.now = s.now
  nfts : T.nfts s'.world = T.nfts s.world
  free : ∀ a, (T.balances s'.world).free a =
    (T.balances s.world).free a + T.PrimeOriginOfShellPrice * share s ids a
  reserved : ∀ a, (T.balances s'.world).reserved a + T.PrimeOriginOfShellPrice * share s ids a =
    (T.balances s.world).reserved a

section rounds
variable {held : T.World → AccountId → Nat} {last : Bool} {s s₁ s' : State T} {p : PreorderId}
  {ids ids' : List PreorderId}

section census
omit [DecidableEq AccountId]
variable {B : Type} [DecidableEq B] {f : PreorderInfo AccountId T.Metadata → B}

theorem census_append (b : B) : census f s (ids ++ ids') b = census f s ids b + census f s ids' b :=
  List.countP_append

theorem census_singleton {info : PreorderInfo AccountId T.Metadata}
    (hp : s.sale.preorders p = some info) (b : B) :
    census f s [p] b = if f info = b then 1 else 0 := by
  simp [census, hp]

theorem census_cons {info : PreorderInfo AccountId T.Metadata}
    (hp : s.sale.preorders p = some info) (b : B) :
    census f s (p :: ids) b = (if f info = b then 1 else 0) + census f s ids b := by
  rw [← List.singleton_append, census_append, census_singleton hp]

theorem census_perm (h : ids.Perm ids') (b : B) : census f s ids b = census f s ids' b :=
  h.countP_eq _

/-- The rounds that came before do not touch the other preorders. -/
theorem Resolves.census {how : Resolution} (h : Resolves how last s ids s₁)
    (hpending : ∀ q ∈ ids', (s₁.sale.preorders q).isSome) (b : B) :
    PhalaWorld.census f s₁ ids' b = PhalaWorld.census f s ids' b := by
  refine List.countP_congr ?_
  intro q hq
  rw [(h.untouched (hpending q hq)).2]

end census

/-- The flags, as a map. -/
theorem Resolves.flags_eq {how : Resolution} (h : Resolves how last s ids s') :
    s'.sale.owner_has_preorder = fun a =>
      if last = false ∧ Handled s ids a then false else s.sale.owner_has_preorder a := by
  funext a
  rw [Bool.eq_iff_iff, h.flags a]
  by_cases hcleared : last = false ∧ Handled s ids a
  · rw [if_pos hcleared]
    simp [hcleared.1, hcleared.2]
  · rw [if_neg hcleared]
    refine and_iff_left_of_imp fun _ => ?_
    cases last with
    | true => exact .inl rfl
    | false => exact .inr fun hhandled => hcleared ⟨rfl, hhandled⟩

/-- A round frees the whole price of its preorder, which the escrow covers. -/
theorem RefundsPreorder.money (hC : CurrencyLaws T) (hR : OtherReserves T held)
    (h : Escrowed held s) (hr : RefundsPreorder last s p s') (a : AccountId) :
    Escrowed held s' ∧
      (T.balances s'.world).free a =
        (T.balances s.world).free a + T.PrimeOriginOfShellPrice * share s [p] a ∧
      (T.balances s'.world).reserved a + T.PrimeOriginOfShellPrice * share s [p] a =
        (T.balances s.world).reserved a := by
  obtain ⟨info, hinfo, rfl⟩ := hr
  have hprice := h.price_le hinfo
  refine ⟨(h.release hC hR hinfo).close, ?_⟩
  rw [share, census_singleton hinfo]
  simp only [State.close, State.release, (hC.unreserve_eq _ _ _).1]
  by_cases ha : info.owner = a
  · subst ha
    rw [Balances.unreserve_free_self, Balances.unreserve_reserved_self, if_pos rfl]
    omega
  · obtain ⟨hfree, hreserved⟩ :=
      (T.balances s.world).unreserve_of_ne T.PrimeOriginOfShellPrice (Ne.symm ha)
    rw [hfree, hreserved, if_neg ha]
    exact ⟨rfl, rfl⟩

/-- So do all rounds, for every account. -/
theorem refunds_money (hC : CurrencyLaws T) (hR : OtherReserves T held) (h : Escrowed held s)
    (hl : Chain (RefundsPreorder last) s ids s') (a : AccountId) :
    (T.balances s'.world).free a =
        (T.balances s.world).free a + T.PrimeOriginOfShellPrice * share s ids a ∧
      (T.balances s'.world).reserved a + T.PrimeOriginOfShellPrice * share s ids a =
        (T.balances s.world).reserved a := by
  induction hl with
  | nil => exact ⟨rfl, rfl⟩
  | @cons s s₁ s₂ p ids hr hrest ih =>
    have hpending := (Resolves.of_chain (fun _ _ _ hr => RefundsPreorder.resolves hr) hrest).pending
    obtain ⟨h₁, hfree, hreserved⟩ := hr.money hC hR h a
    obtain ⟨hfree', hreserved'⟩ := ih h₁
    unfold share at hfree hreserved hfree' hreserved' ⊢
    rw [hr.resolves.census hpending a] at hfree' hreserved'
    rw [← List.singleton_append, census_append, Nat.mul_add]
    omega

/-- Of the storage only the preorders and the flags change. -/
theorem refunds_frame (hC : CurrencyLaws T) (hl : Chain (RefundsPreorder last) s ids s') :
    s'.sale = { s.sale with
      preorders := s'.sale.preorders
      owner_has_preorder := s'.sale.owner_has_preorder } ∧
    s'.incubation = s.incubation ∧ s'.now = s.now ∧ T.nfts s'.world = T.nfts s.world := by
  have hcovers : CoversRounds fun s s' : State T =>
      s'.sale = { s.sale with
        preorders := s'.sale.preorders
        owner_has_preorder := s'.sale.owner_has_preorder } ∧
      s'.incubation = s.incubation ∧ s'.now = s.now ∧ T.nfts s'.world = T.nfts s.world := by
    refine ⟨?_, ?_, ?_, ?_⟩
    · exact fun _ => ⟨rfl, rfl, rfl, rfl⟩
    · rintro s₁ s₂ s₃ ⟨hsale, hinc, hnow, hnfts⟩ ⟨hsale', hinc', hnow', hnfts'⟩
      refine ⟨?_, hinc'.trans hinc, hnow'.trans hnow, hnfts'.trans hnfts⟩
      rw [hsale'.trans (by rw [hsale])]
    · exact fun _ _ _ => ⟨rfl, rfl, rfl, (hC.unreserve_eq _ _ _).2⟩
    · exact fun _ _ _ _ => ⟨rfl, rfl, rfl, rfl⟩
  exact hcovers.refund hl

theorem refunds_refunded (hC : CurrencyLaws T) (hR : OtherReserves T held) (h : Escrowed held s)
    (hl : Chain (RefundsPreorder s.sale.last_day_of_sale) s ids s') : Refunded s ids s' := by
  have hres := Resolves.of_chain (fun _ _ _ hr => RefundsPreorder.resolves hr) hl
  obtain ⟨hsale, hinc, hnow, hnfts⟩ := refunds_frame hC hl
  refine ⟨?_, hinc, hnow, hnfts, ?_, ?_⟩
  · rw [hsale, hres.flags_eq, show s'.sale.preorders = _ from funext hres.preorders]
  · exact fun a => (refunds_money hC hR h hl a).1
  · exact fun a => (refunds_money hC hR h hl a).2

/-- The order of the batch does not matter to what it leaves. -/
theorem Refunded.perm {s₂ : State T} (h : Refunded s ids s₁) (h' : Refunded s ids' s₂)
    (hperm : ids.Perm ids') : SameStorage s₁ s₂ := by
  have hhandled (a : AccountId) : Handled s ids' a ↔ Handled s ids a :=
    exists_congr fun p => and_congr_left fun _ => hperm.symm.mem_iff
  have hshare (a : AccountId) : share s ids' a = share s ids a := census_perm hperm.symm a
  refine ⟨?_, h'.incubation.trans h.incubation.symm, h'.now.trans h.now.symm, ?_,
    h'.nfts.trans h.nfts.symm⟩
  · rw [h.sale, h'.sale]
    simp only [hperm.symm.mem_iff, hhandled]
  · have hfree : (T.balances s₂.world).free = (T.balances s₁.world).free := by
      funext a
      rw [h.free, h'.free, hshare]
    have hreserved : (T.balances s₂.world).reserved = (T.balances s₁.world).reserved := by
      funext a
      have hleft := h.reserved a
      have hright := h'.reserved a
      rw [← hshare] at hleft
      omega
    cases hb : T.balances s₂.world
    cases hb' : T.balances s₁.world
    rw [hb, hb'] at hfree hreserved
    congr

end rounds

/-! ### The call -/

section calls
variable {held : T.World → AccountId → Nat} {s s' : State T} {o : AccountId}
  {l l' : List PreorderId}

/-- The Overlord's call fails on an id that is not pending, and only on such. -/
theorem refund_call_error {e : Failure T.ModuleError} (ho : s.sale.overlord = some o)
    (h : step s (.call (.signed o) (.refund_not_chosen_preorders l)) = (.error e, s')) :
    e = NftSale.Error.NoAvailablePreorderId.into ∧ s' = s := by
  have h : NftSale.refund_not_chosen_preorders (.signed o) l s = (.error e, s') := h
  simp [NftSale.refund_not_chosen_preorders, NftSale.for_preorders_eq T.IterLimit.toNat_lt, ho] at h
  obtain ⟨⟨_, hl⟩, rfl⟩ := h
  obtain ⟨done, p, rest, s₁, _, _, hp⟩ := forEach_error.mp hl
  simp [NftSale.refund_not_chosen_preorder, NftSale.take_preorder,
    NftSale.remove_owner_has_preorder] at hp
  exact ⟨hp.2.1.symm, rfl⟩

/-- The call succeeds exactly on distinct pending ids. -/
theorem refund_call_cases (ho : s.sale.overlord = some o) :
    ((l.take T.IterLimit.toNat).Nodup ∧
        (∀ p ∈ l.take T.IterLimit.toNat, (s.sale.preorders p).isSome) ∧
        ∃ s', step s (.call (.signed o) (.refund_not_chosen_preorders l)) = (.ok (), s')) ∨
    (¬ ((l.take T.IterLimit.toNat).Nodup ∧
        ∀ p ∈ l.take T.IterLimit.toNat, (s.sale.preorders p).isSome) ∧
      step s (.call (.signed o) (.refund_not_chosen_preorders l)) =
        (.error NftSale.Error.NoAvailablePreorderId.into, s)) := by
  by_cases hids : (l.take T.IterLimit.toNat).Nodup ∧
      ∀ p ∈ l.take T.IterLimit.toNat, (s.sale.preorders p).isSome
  · obtain ⟨s', hl⟩ := refunds_chain hids.1 hids.2
    exact .inl ⟨hids.1, hids.2, s', (refund_call_iff ho).mpr hl⟩
  · refine .inr ⟨hids, ?_⟩
    match h : step s (.call (.signed o) (.refund_not_chosen_preorders l)) with
    | (.ok (), s') =>
      have hres := Resolves.of_chain (fun _ _ _ hr => RefundsPreorder.resolves hr)
        ((refund_call_iff ho).mp h)
      exact absurd ⟨hres.nodup, hres.pending⟩ hids
    | (.error e, s') =>
      obtain ⟨rfl, rfl⟩ := refund_call_error ho h
      rfl

/-- **A batch of refunds.** In every run in which others only unreserve what
    they reserved themselves, the Overlord's call succeeds exactly if the
    first `IterLimit` ids are distinct and pending, and leaves what `Refunded`
    says, or else nothing changed. A list within the limit may be reordered,
    with the same result and the same storage; and a batch that succeeds can
    be split into two. -/
theorem refunded_batch (hC : CurrencyLaws T) (hR : OtherReserves T held)
    {g : GenesisConfig AccountId} {w : T.World} {now : UInt64} {tr : List (Entry T)}
    (hw : ∀ a, held w a ≤ (T.balances w).reserved a)
    (h : Runs (Within (fun _ => True) (OthersOwn held)) (genesis g w now) tr s)
    (ho : s.sale.overlord = some o) (l : List PreorderId) :
    (succeeded (entry step s (.call (.signed o) (.refund_not_chosen_preorders l))) = true ↔
      (l.take T.IterLimit.toNat).Nodup ∧
        ∀ p ∈ l.take T.IterLimit.toNat, (s.sale.preorders p).isSome) ∧
    (∀ s', step s (.call (.signed o) (.refund_not_chosen_preorders l)) = (.ok (), s') →
      Refunded s (l.take T.IterLimit.toNat) s') ∧
    (∀ e s', step s (.call (.signed o) (.refund_not_chosen_preorders l)) = (.error e, s') →
      s' = s) ∧
    (l.length ≤ T.IterLimit.toNat → ∀ l', l.Perm l' →
      (step s (.call (.signed o) (.refund_not_chosen_preorders l))).1 =
        (step s (.call (.signed o) (.refund_not_chosen_preorders l'))).1 ∧
      SameStorage (step s (.call (.signed o) (.refund_not_chosen_preorders l))).2
        (step s (.call (.signed o) (.refund_not_chosen_preorders l'))).2) ∧
    ∀ l', (l ++ l').length ≤ T.IterLimit.toNat → ∀ s',
      step s (.call (.signed o) (.refund_not_chosen_preorders (l ++ l'))) = (.ok (), s') ↔
        ∃ s₁, step s (.call (.signed o) (.refund_not_chosen_preorders l)) = (.ok (), s₁) ∧
          step s₁ (.call (.signed o) (.refund_not_chosen_preorders l')) = (.ok (), s') := by
  have hescrow := Runs.escrowed hC hR hw h
  have hrefunded {l : List PreorderId} {s' : State T}
      (hs' : step s (.call (.signed o) (.refund_not_chosen_preorders l)) = (.ok (), s')) :
      Refunded s (l.take T.IterLimit.toNat) s' :=
    refunds_refunded hC hR hescrow ((refund_call_iff ho).mp hs')
  refine ⟨?_, fun s' => hrefunded, fun e s' hs' => (refund_call_error ho hs').2, ?_, ?_⟩
  · unfold succeeded entry
    rcases refund_call_cases ho (l := l) with ⟨hnodup, hpending, s', hs'⟩ | ⟨hnot, hs'⟩
    · rw [hs']
      exact iff_of_true rfl ⟨hnodup, hpending⟩
    · rw [hs']
      exact iff_of_false Bool.false_ne_true hnot
  · intro hlength l' hperm
    have htake : l.take T.IterLimit.toNat = l := List.take_of_length_le hlength
    have htake' : l'.take T.IterLimit.toNat = l' :=
      List.take_of_length_le (hperm.length_eq ▸ hlength)
    have hiff : (l.Nodup ∧ ∀ p ∈ l, (s.sale.preorders p).isSome) ↔
        l'.Nodup ∧ ∀ p ∈ l', (s.sale.preorders p).isSome := by
      rw [hperm.nodup_iff]
      simp only [hperm.mem_iff]
    have hcases := refund_call_cases ho (l := l)
    have hcases' := refund_call_cases ho (l := l')
    rw [htake] at hcases
    rw [htake'] at hcases'
    rcases hcases with ⟨hnodup, hpending, s₁, hs₁⟩ | ⟨hnot, hs₁⟩ <;>
      rcases hcases' with ⟨hnodup', hpending', s₂, hs₂⟩ | ⟨hnot', hs₂⟩
    · have h₁ := hrefunded hs₁
      have h₂ := hrefunded hs₂
      rw [htake] at h₁
      rw [htake'] at h₂
      rw [hs₁, hs₂]
      exact ⟨rfl, h₁.perm h₂ hperm⟩
    · exact absurd (hiff.mp ⟨hnodup, hpending⟩) hnot'
    · exact absurd (hiff.mpr ⟨hnodup', hpending'⟩) hnot
    · rw [hs₁, hs₂]
      exact ⟨rfl, rfl, rfl, rfl, rfl, rfl⟩
  · intro l' hlength s'
    have hle : l.length ≤ T.IterLimit.toNat ∧ l'.length ≤ T.IterLimit.toNat := by
      rw [List.length_append] at hlength
      omega
    rw [refund_call_iff ho, List.take_of_length_le hlength, chain_append]
    refine exists_congr ?_
    intro s₁
    rw [refund_call_iff ho, List.take_of_length_le hle.1]
    refine and_congr_right ?_
    intro hfirst
    -- the Overlord and the day are as they were
    have hsale := (refunds_frame hC hfirst).1
    have ho₁ : s₁.sale.overlord = some o := by
      rw [hsale]
      exact ho
    have hlast : s₁.sale.last_day_of_sale = s.sale.last_day_of_sale := by
      rw [hsale]
    rw [refund_call_iff ho₁, List.take_of_length_le hle.2, hlast]

open Mock in
/-- `ALICE` and `BOB` are refunded, in the one order or the other. -/
theorem refunded_batch_two :
    Refunded (after (two_preorders 200)).2 [0, 1]
      (step (after (two_preorders 200)).2 (admin (.refund_not_chosen_preorders [0, 1]))).2 ∧
    SameStorage
      (step (after (two_preorders 200)).2 (admin (.refund_not_chosen_preorders [0, 1]))).2
      (step (after (two_preorders 200)).2 (admin (.refund_not_chosen_preorders [1, 0]))).2 := by
  have hrun : Runs (Within (fun _ => True) (OthersOwn World.held)) (genesis₀ 200)
      (after (two_preorders 200)).1 (after (two_preorders 200)).2 :=
    runs_of_labels (two_preorders 200) (by decide +kernel)
  obtain ⟨hiff, hrefunded, _, hperm, _⟩ := refunded_batch (T := runtime 200)
    (g := GenesisConfig.default) (w := world₀) (currency_laws 200) (other_reserves 200)
    (fun _ => le_rfl) hrun (o := OVERLORD) (by decide +kernel) [0, 1]
  have hdone := step_of_succeeded (hiff.mpr (by decide +kernel))
  exact ⟨hrefunded _ hdone, (hperm (by decide) [1, 0] (List.Perm.swap 1 0 [])).2⟩

open Mock in
/-- Preorder 7 was never placed. Listed with preorder 0 it takes the whole
    batch back; in a call of its own it does not. -/
theorem refund_split_fails : ∃ tr s,
    Runs (Within (fun _ => True) (OthersOwn World.held)) (genesis₀ 200) tr s ∧
    s.sale.overlord = some OVERLORD ∧ ([0] ++ [7] : List PreorderId).length ≤ 200 ∧
    ((step s (admin (.refund_not_chosen_preorders ([0] ++ [7])))).2.sale.preorders 0).isSome =
      true ∧
    ((step (step s (admin (.refund_not_chosen_preorders [0]))).2
      (admin (.refund_not_chosen_preorders [7]))).2.sale.preorders 0).isSome = false :=
  ⟨(after (two_preorders 200)).1, (after (two_preorders 200)).2,
    runs_of_labels (two_preorders 200) (by decide +kernel), by decide +kernel⟩

end calls

end PhalaWorld
