import PhalaWorld.Specs.Items
import PhalaWorld.Sale.OneShell

/-! # How often a whitelist ticket is used

    A ticket is the Overlord's signature on the account and the purpose. It
    has no number, and the pallet keeps no record of the tickets it has seen: what
    stands against a second purchase is that the account holds an Origin of
    Shell. A hatch takes that away (`bought_again`).

    * `HoldsFrozen`: what a purchase leaves, and only a hatch ends.
    * `tickets_used`: an account buys at most once more than Origin of
      Shells of its own were hatched.
-/

namespace PhalaWorld

open LTS Tokens

variable {AccountId : Type} [DecidableEq AccountId] {T : Config AccountId}

/-- A purchase of a Prime Origin of Shell by `a` that went through. -/
def buys_prime (a : AccountId) (e : Entry T) : Bool :=
  match e.label with
  | .call (.signed b) (.buy_prime_origin_of_shell ..) => decide (b = a) && succeeded e
  | _ => false

/-- A hatch of an Origin of Shell of `a` that went through. -/
def hatches_of (a : AccountId) (e : Entry T) : Bool :=
  match e.label with
  | .call _ (.hatch_origin_of_shell c n _) =>
      decide (((T.nfts e.pre.world).item (c, n)).map Item.owner = some a) && succeeded e
  | _ => false

omit [DecidableEq AccountId] in
/-- `a` holds a frozen item of `c`. -/
def HoldsFrozen (c : CollectionId) (s : State T) (a : AccountId) : Prop :=
  ∃ n i, (T.nfts s.world).item (c, n) = some i ∧ i.owner = a ∧ i.frozen = true

section steps
variable {c : CollectionId} {a : AccountId} {s s' : State T} {l : Label T} {r : Outcome T}

/-- Only a hatch of its own takes a frozen item from an account. -/
theorem HoldsFrozen.step (hC : CurrencyLaws T) (hN : NftLaws T) (h : HoldsFrozen c s a)
    (hs : Traded s l r s') (hout : ∀ w, l = .outside w → TransfersOnly c s.world w)
    (hnot : hatches_of a ⟨s, l, r, s'⟩ = false) : HoldsFrozen c s' a := by
  obtain ⟨n, i, hi, howner, hfrozen⟩ := h
  have hother : r = .ok () → ¬ l.hatches c n := by
    rintro rfl ⟨o, md, rfl⟩
    simp [hatches_of, succeeded, hi, howner] at hnot
  obtain ⟨i', hi', hsame⟩ := hs.remains hC hN hout (P := (· = c)) rfl hi hother
  obtain rfl := hsame hfrozen
  exact ⟨n, i', hi', howner, hfrozen⟩

/-- Before the last day a purchase is by an account without an Origin of
    Shell, and leaves it a frozen one. -/
theorem buys_prime_step (hC : CurrencyLaws T) (hN : NftLaws T) (hs : Traded s l r s')
    (hlast : s.sale.last_day_of_sale = false)
    (hcoll : ∀ d, s.sale.origin_of_shell_collection_id = some d → d = c)
    (hbuys : buys_prime a ⟨s, l, r, s'⟩ = true) :
    ¬ HoldsFrozen c s a ∧ HoldsFrozen c s' a := by
  unfold buys_prime at hbuys
  split at hbuys
  · next b sig ra ca hl =>
    obtain rfl : l = _ := hl
    rw [Bool.and_eq_true, decide_eq_true_eq] at hbuys
    obtain ⟨rfl, hsucceeded⟩ := hbuys
    cases hs with
    | quiet _ hlabel =>
      cases r with
      | ok u => cases hlabel rfl
      | error e => cases hsucceeded
    | spirit _ _ hc => rcases hc with hc | ⟨_, hc⟩ <;> cases hc
    | buy _ hm _ =>
      obtain rfl := hcoll _ hm.collection
      constructor
      · intro ⟨n, i, hi, howner, _⟩
        have hfresh := hm.fresh (by rw [hlast]; rfl)
        exact (not_owns hN).mpr hfresh ⟨n, i, hi, howner⟩
      · obtain ⟨hminted, _⟩ := hm.minted hC hN
        obtain ⟨md', hitem⟩ := hminted.received.item_self
        exact ⟨_, _, hitem, rfl, rfl⟩
  · cases hbuys

end steps

/-- **Tickets and hatches.** In every run before the last day, from any
    state, an account completes `buy_prime_origin_of_shell` at most once
    more than Origin of Shells of its own are hatched. -/
theorem tickets_used (hC : CurrencyLaws T) (hN : NftLaws T) {c : CollectionId} {s₀ s : State T}
    {tr : List (Entry T)}
    (h : Runs (Within (fun e => e.pre.sale.last_day_of_sale = false) (TransfersOnly c)) s₀ tr s)
    (hcoll : ∀ d, s.sale.origin_of_shell_collection_id = some d → d = c) (a : AccountId) :
    tr.countP (buys_prime a) ≤ tr.countP (hatches_of a) + 1 := by
  have hcount : tr.countP (buys_prime a) ≤ tr.countP (hatches_of a) ∨
      tr.countP (buys_prime a) ≤ tr.countP (hatches_of a) + 1 ∧ HoldsFrozen c s a := by
    refine Runs.induction (J := fun tr s =>
      (∀ d, s.sale.origin_of_shell_collection_id = some d → d = c) →
        tr.countP (buys_prime a) ≤ tr.countP (hatches_of a) ∨
        tr.countP (buys_prime a) ≤ tr.countP (hatches_of a) + 1 ∧ HoldsFrozen c s a) h ?_ ?_ hcoll
    · intro _
      exact .inl le_rfl
    · intro tr s l r s' _ hJ hok hs hcoll
      have hcoll : ∀ d, s.sale.origin_of_shell_collection_id = some d → d = c :=
        fun d hd => hcoll d (hs.traded.ids_kept.origin_of_shell d hd)
      have hpast := hJ hcoll
      rw [List.countP_cons, List.countP_cons]
      cases hbuys : buys_prime a ⟨s, l, r, s'⟩ with
      | true =>
        -- a purchase finds nothing, so there was a hatch for every one before
        obtain ⟨hnone, hholds⟩ := buys_prime_step hC hN hs.traded hok.1 hcoll hbuys
        rcases hpast with hle | ⟨_, hheld⟩
        · refine .inr ⟨?_, hholds⟩
          simp only [if_true]
          omega
        · exact absurd hheld hnone
      | false =>
        cases hhatch : hatches_of a ⟨s, l, r, s'⟩ with
        | true =>
          refine .inl ?_
          simp only [Bool.false_eq_true, if_false, if_true]
          omega
        | false =>
          simp only [Bool.false_eq_true, if_false, Nat.add_zero]
          rcases hpast with hle | ⟨hle, hheld⟩
          · exact .inl hle
          · exact .inr ⟨hle, hheld.step hC hN hs.traded hok.2 hhatch⟩
  omega

open Mock in
/-- `ALICE`'s ticket. -/
def ticket : (runtime 200).Signature :=
  ((runtime 200).encode ALICE ++ Purpose.BuyPrimeOriginOfShells.encode, (runtime 200).encode OVERLORD)

open Mock in
/-- `ALICE` buys with her ticket, hatches, and buys with it again. -/
def bought_twice : List (Label (runtime 200)) :=
  setup 200 ++
  [.call (.signed ALICE) .claim_spirit,
    .call (.signed ALICE) (.buy_prime_origin_of_shell ticket .Cyborg .HackerWizard),
    admin (.set_can_start_incubation_status true),
    .call (.signed ALICE) (.start_incubation 1 0),
    .set_timestamp 601,
    admin (.hatch_origin_of_shell 1 0 md),
    .call (.signed ALICE) (.buy_prime_origin_of_shell ticket .XGene .Web3Monk)]

open Mock in
/-- The run keeps to the bound, and reaches it. -/
theorem tickets_bought_twice :
    (after bought_twice).1.countP (hatches_of ALICE) = 1 ∧
    (after bought_twice).1.countP (buys_prime ALICE) ≤
      (after bought_twice).1.countP (hatches_of ALICE) + 1 := by
  have hrun : Runs (Within (fun e => e.pre.sale.last_day_of_sale = false) (TransfersOnly 1))
      (genesis₀ 200) (after bought_twice).1 (after bought_twice).2 :=
    runs_of_labels bought_twice (by decide +kernel)
  have hcoll : (after bought_twice).2.sale.origin_of_shell_collection_id = some 1 := by
    decide +kernel
  refine ⟨by decide +kernel, tickets_used (currency_laws 200) (nft_laws 200) hrun ?_ ALICE⟩
  intro d hd
  rw [hcoll, Option.some.injEq] at hd
  exact hd.symm

open Mock in
/-- One ticket bought two. -/
theorem bought_again : ∃ tr s,
    Runs (Within (fun e => e.pre.sale.last_day_of_sale = false) (TransfersOnly 1))
      (genesis₀ 200) tr s ∧
    tr.countP (buys_prime ALICE) = 2 :=
  ⟨(after bought_twice).1, (after bought_twice).2,
    runs_of_labels bought_twice (by decide +kernel), by decide +kernel⟩

end PhalaWorld
