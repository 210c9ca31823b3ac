import PhalaWorld.Specs.Laws

/-! # What becomes of an item

    A mint takes an id that is free, so that nothing that was there is
    overwritten, and outside an item changes hands at most. An item
    disappears in one way: it is hatched.

    * `Adds`: every item is as it was, and new ones have new ids.
    * `Itemized`: the steps, with those that only mint in one case.
    * `Traded.remains`: an item is there after a step, and unchanged if it
      is frozen, unless the step hatched it.
    * `Traded.stays_free`: an id that was passed over is not used again.
-/

namespace PhalaWorld

open LTS Tokens

variable {AccountId : Type} {T : Config AccountId}

/-- Every item of `w` is in `w'`, as it was, and an item that `w` does not
    have got an id that was handed out since. -/
structure Adds (w w' : T.World) : Prop where
  next : ∀ c, (T.nfts w).next c ≤ (T.nfts w').next c
  kept : ∀ x i, (T.nfts w).item x = some i → (T.nfts w').item x = some i
  fresh : ∀ c n, (T.nfts w).item (c, n) = none → (T.nfts w').item (c, n) = none ∨
    (T.nfts w).next c ≤ n ∧ n < (T.nfts w').next c

section grows
variable {w w' w'' : T.World}

theorem Adds.of_eq (hnext : (T.nfts w').next = (T.nfts w).next)
    (hitem : (T.nfts w').item = (T.nfts w).item) : Adds w w' := by
  constructor
  · intro c
    rw [hnext]
  · intro x i hi
    rw [hitem, hi]
  · intro c n hnone
    rw [hitem]
    exact .inl hnone

theorem Adds.refl (w : T.World) : Adds w w := .of_eq rfl rfl

theorem Adds.trans (h : Adds w w') (h' : Adds w' w'') : Adds w w'' := by
  constructor
  · intro c
    exact (h.next c).trans (h'.next c)
  · intro x i hi
    exact h'.kept x i (h.kept x i hi)
  · intro c n hnone
    have hle := h.next c
    have hle' := h'.next c
    rcases h.fresh c n hnone with hnone' | ⟨hge, hlt⟩
    · rcases h'.fresh c n hnone' with hnone'' | ⟨hge, hlt⟩
      · exact .inl hnone''
      · exact .inr ⟨by omega, hlt⟩
    · exact .inr ⟨hge, by omega⟩

theorem Minted.adds {o a : AccountId} {d : CollectionId} {frozen : Bool}
    (h : Minted o a d frozen w w') : Adds w w' := by
  constructor
  · exact h.received.next_le
  · intro x i hi
    exact h.received.remains hi
  · intro c n hnone
    by_cases hx : (c, n) = (d, (T.nfts w).next d)
    · obtain ⟨rfl, rfl⟩ := Prod.mk.inj hx
      exact .inr ⟨le_rfl, by rw [h.received.next_self]; exact Nat.lt_succ_self _⟩
    · exact .inl (by rw [h.received.item_of_ne hx, hnone])

end grows

section steps
variable [DecidableEq AccountId] {s s' : State T}

/-- Nothing happens to an item while a batch releases and closes. -/
theorem adds_covers (hC : CurrencyLaws T) :
    CoversRounds fun s s' : State T => Adds s.world s'.world where
  refl _ := .refl _
  trans _ _ _ := .trans
  release s _ owner := by
    have hnfts := (hC.unreserve_eq owner T.PrimeOriginOfShellPrice s.world).2
    exact .of_eq (congrArg Nfts.next hnfts) (congrArg Nfts.item hnfts)
  close _ _ _ _ := .refl _

/-- The steps, with those that at most mint in one case. -/
inductive Itemized (s : State T) : Label T → Outcome T → State T → Prop where
  | adds {l r s'} : Adds s.world s'.world → Itemized s l r s'
  | hatch {o owner c n sc md t s'} : Hatches o owner c n sc md t s s' →
      Itemized s (.call (.signed o) (.hatch_origin_of_shell c n md)) (.ok ()) s'
  | outside {w} : Itemized s (.outside w) (.ok ()) { s with world := w }

theorem Traded.itemized (hC : CurrencyLaws T) (hN : NftLaws T) {l : Label T} {r : Outcome T}
    (hs : Traded s l r s') : Itemized s l r s' := by
  cases hs with
  | quiet hq _ => exact .adds (by rw [hq.world]; exact .refl _)
  | spirit _ hm _ => exact .adds (hm.minted hN).1.adds
  | buy _ hm _ => exact .adds (hm.minted hC hN).1.adds
  | preorder hp =>
    obtain ⟨md, w, _, hreserve, rfl⟩ := hp.post
    have hnfts := (hC.reserve_ok hreserve).2.2
    exact .adds (.of_eq (congrArg Nfts.next hnfts) (congrArg Nfts.item hnfts))
  | mint _ hl => exact .adds ((adds_covers hC).mint (fun hm => (hm.minted hC hN).1.adds) hl)
  | refund _ hl => exact .adds ((adds_covers hC).refund hl)
  | gift _ _ hm =>
    have hadds := (hm.minted hC hN).1.adds
    exact .adds hadds
  | init => exact .adds (.refl _)
  | update => exact .adds (.refl _)
  | create _ hw =>
    obtain ⟨d, hview, _⟩ := hN.create_collection_ok hw
    exact .adds (.of_eq (by rw [hview, Nfts.create_next]) (by rw [hview, Nfts.create_item]))
  | hatch hh => exact .hatch hh
  | outside => exact .outside

end steps

/-! ### Hatches -/

section hatches
variable {s s' : State T} {o owner : AccountId} {c : CollectionId} {n : NftId} {sc : CollectionId}
  {md : T.Metadata} {t : Traits}

/-- A hatch removes the item it hatches, and then mints one Shell. -/
theorem Hatches.burned (hN : NftLaws T) (h : Hatches o owner c n sc md t s s') :
    ∃ w, (T.nfts w).item = ((T.nfts s.world).burn (c, n)).item ∧
      (T.nfts w).next = (T.nfts s.world).next ∧ Minted o owner sc false w s'.world := by
  obtain ⟨w, hawakens, rfl⟩ := h.post
  obtain ⟨w₂, hattr, hminted, _⟩ := hawakens.minted hN
  exact ⟨w₂, hattr.item, hattr.next, hminted⟩

theorem Hatches.kept (hN : NftLaws T) (h : Hatches o owner c n sc md t s s')
    {x : CollectionId × NftId} (hx : x ≠ (c, n)) {i : Item AccountId T.Metadata}
    (hi : (T.nfts s.world).item x = some i) : (T.nfts s'.world).item x = some i := by
  obtain ⟨w, hitem, _, hminted⟩ := h.burned hN
  apply hminted.adds.kept
  rw [hitem, Nfts.burn_item_of_ne _ _ _ hx, hi]

/-- The hatched item was there, with the owner who gets the Shell. -/
theorem Hatches.found (hN : NftLaws T) (h : Hatches o owner c n sc md t s s') :
    ∃ i, (T.nfts s.world).item (c, n) = some i ∧ i.owner = owner := by
  obtain ⟨root, hroot⟩ := h.root_owner
  exact hN.lookup_root_owner_ok hroot

end hatches

/-! ### Steps -/

/-- The label hatches the item `n` of `c`. -/
def Label.hatches (c : CollectionId) (n : NftId) (l : Label T) : Prop :=
  ∃ o md, l = .call (.signed o) (.hatch_origin_of_shell c n md)

/-- The items of `c` have ids that were handed out. -/
def HandedOut (c : CollectionId) (w : T.World) : Prop :=
  ∀ n, (T.nfts w).next c ≤ n → (T.nfts w).item (c, n) = none

section steps
variable [DecidableEq AccountId] {P : CollectionId → Prop} {s s' : State T} {l : Label T}
  {r : Outcome T} {c : CollectionId} {n : NftId}

/-- An item is there after a step that does not hatch it; if it is frozen, as
    it was. `P` selects the collections in which nothing else happens outside. -/
theorem Traded.remains (hC : CurrencyLaws T) (hN : NftLaws T) (hs : Traded s l r s')
    (hout : ∀ w, l = .outside w → Nfts.Moved P (T.nfts s.world) (T.nfts w)) (hc : P c)
    {i : Item AccountId T.Metadata} (hi : (T.nfts s.world).item (c, n) = some i)
    (hnot : r = .ok () → ¬ l.hatches c n) :
    ∃ i', (T.nfts s'.world).item (c, n) = some i' ∧ (i.frozen = true → i' = i) := by
  cases hs.itemized hC hN with
  | adds hadds => exact ⟨i, hadds.kept _ _ hi, fun _ => rfl⟩
  | @hatch o owner d m sc md t _ hh =>
    have hne : (c, n) ≠ (d, m) := by
      rintro ⟨rfl, rfl⟩
      exact hnot rfl ⟨o, md, rfl⟩
    exact ⟨i, hh.kept hN hne hi, fun _ => rfl⟩
  | @outside w =>
    have hmoved := hout w rfl
    cases hf : i.frozen with
    | true => exact ⟨i, hmoved.frozen hc hi hf, fun _ => rfl⟩
    | false =>
      have hsome := hmoved.isSome hc n
      rw [hi, Option.isSome_some] at hsome
      obtain ⟨i', hi'⟩ := Option.isSome_iff_exists.mp hsome
      exact ⟨i', hi', fun h => by cases h⟩

/-- The counter of ids does not go back, and an id without an item gets one
    only when it is handed out. -/
theorem Traded.stays_free (hC : CurrencyLaws T) (hN : NftLaws T) (hs : Traded s l r s')
    (hout : ∀ w, l = .outside w → Nfts.Moved P (T.nfts s.world) (T.nfts w)) (hc : P c) :
    (T.nfts s.world).next c ≤ (T.nfts s'.world).next c ∧
    ∀ n, (T.nfts s.world).item (c, n) = none → (T.nfts s'.world).item (c, n) = none ∨
      (T.nfts s.world).next c ≤ n ∧ n < (T.nfts s'.world).next c := by
  cases hs.itemized hC hN with
  | adds hadds => exact ⟨hadds.next c, hadds.fresh c⟩
  | hatch hh =>
    obtain ⟨w, hitem, hnext, hminted⟩ := hh.burned hN
    rw [← hnext]
    refine ⟨hminted.adds.next c, fun n hnone => hminted.adds.fresh c n ?_⟩
    rw [hitem, Nfts.burn_item, hnone, ite_self]
  | @outside w =>
    have hmoved := hout w rfl
    refine ⟨Nat.le_of_eq (hmoved c hc).1.symm, fun n hnone => .inl ?_⟩
    have hsome := hmoved.isSome hc n
    rw [hnone, Option.isSome_none, Option.isSome_eq_false_iff, Option.isNone_iff_eq_none] at hsome
    exact hsome

theorem HandedOut.step (hC : CurrencyLaws T) (hN : NftLaws T) (h : HandedOut c s.world)
    (hs : Traded s l r s')
    (hout : ∀ w, l = .outside w → Nfts.Moved P (T.nfts s.world) (T.nfts w)) (hc : P c) :
    HandedOut c s'.world := by
  obtain ⟨hle, hfree⟩ := hs.stays_free hC hN hout hc
  intro n hn
  rcases hfree n (h n (hle.trans hn)) with hnone | ⟨_, hlt⟩
  · exact hnone
  · exact absurd hlt (Nat.not_lt.mpr hn)

end steps

end PhalaWorld
