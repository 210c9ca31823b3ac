import PhalaWorld.Specs.Items
import PhalaWorld.Sale.Preorders

/-! # One Origin of Shell per account

    Before the last day of the sale an account is meant to get one Origin
    of Shell. Purchases and preorders look at what the account holds, but a
    purchase does not look at what it has preordered, and a batch looks at
    neither: an account that preorders, buys and is then chosen ends with
    two (`two_shells`).

    * `OneShell`: the invariant, which only a batch can break.
    * `one_shell_iff`: a run keeps to one Origin of Shell per account
      exactly when no batch chooses a preorder of an account that holds one.
    * `chooses_new_owners`: so it is when nobody buys while a preorder of
      theirs is pending.
-/

namespace PhalaWorld

open LTS Tokens BoundedMap

variable {AccountId : Type} {T : Config AccountId}

/-! ### The invariant -/

/-- Nobody holds two items of `c` or has two preorders; `c` is the Origin of
    Shell collection, if one is set. -/
structure OneShell (c : CollectionId) (s : State T) : Prop where
  collection : ∀ d, s.sale.origin_of_shell_collection_id = some d → d = c
  frozen : (T.nfts s.world).AllFrozen c
  unique : (T.nfts s.world).OneEach c
  single : ∀ p q info info', s.sale.preorders p = some info → s.sale.preorders q = some info' →
    info.owner = info'.owner → p = q
  flagged : ∀ p info, s.sale.preorders p = some info → s.sale.owner_has_preorder info.owner = true

section moves
variable {c : CollectionId} {s s' : State T}

theorem OneShell.keep (h : OneShell c s)
    (hcoll : ∀ d, s'.sale.origin_of_shell_collection_id = some d → d = c)
    (hpre : s'.sale.preorders = s.sale.preorders)
    (hflag : s'.sale.owner_has_preorder = s.sale.owner_has_preorder)
    (hitem : ∀ n, (T.nfts s'.world).item (c, n) = (T.nfts s.world).item (c, n)) :
    OneShell c s' := by
  refine ⟨hcoll, h.frozen.congr hitem, h.unique.congr hitem, ?_, ?_⟩
  · rw [hpre]
    exact h.single
  · rw [hpre, hflag]
    exact h.flagged

/-- `a` got a frozen item. If it is one of `c`, then `a` held none. -/
theorem OneShell.receive {a : AccountId} {d : CollectionId} (h : OneShell c s)
    (hcoll : ∀ d, s'.sale.origin_of_shell_collection_id = some d → d = c)
    (hpre : s'.sale.preorders = s.sale.preorders)
    (hflag : s'.sale.owner_has_preorder = s.sale.owner_has_preorder)
    (hrec : Nfts.Received a d true (T.nfts s.world) (T.nfts s'.world))
    (hfree : d = c → ¬ (T.nfts s.world).Owns c a) : OneShell c s' := by
  refine ⟨hcoll, h.frozen.received hrec, h.unique.received hrec hfree, ?_, ?_⟩
  · rw [hpre]
    exact h.single
  · rw [hpre, hflag]
    exact h.flagged

/-- A preorder taken out of storage: its owner is left without one. -/
theorem OneShell.release [DecidableEq AccountId] (hC : CurrencyLaws T) {p : PreorderId}
    {info : PreorderInfo AccountId T.Metadata} (h : OneShell c s)
    (hp : s.sale.preorders p = some info) :
    OneShell c (s.release p info.owner) ∧
      ∀ q i, (s.release p info.owner).sale.preorders q = some i →
        s.sale.preorders q = some i ∧ i.owner ≠ info.owner := by
  have hnfts : T.nfts (s.release p info.owner).world = T.nfts s.world :=
    (hC.unreserve_eq _ _ _).2
  have hpre (q : PreorderId) (i : PreorderInfo AccountId T.Metadata)
      (hq : (s.release p info.owner).sale.preorders q = some i) :
      q ≠ p ∧ s.sale.preorders q = some i := by
    simp only [State.release] at hq
    by_cases hqp : q = p
    · rw [hqp, Function.update_self] at hq
      cases hq
    · rw [Function.update_of_ne hqp] at hq
      exact ⟨hqp, hq⟩
  refine ⟨⟨h.collection, ?_, ?_, ?_, ?_⟩, fun q i hq => ⟨(hpre q i hq).2, ?_⟩⟩
  · rw [hnfts]
    exact h.frozen
  · rw [hnfts]
    exact h.unique
  · exact fun q q' i i' hq hq' hown => h.single q q' i i' (hpre q i hq).2 (hpre q' i' hq').2 hown
  · exact fun q i hq => h.flagged q i (hpre q i hq).2
  · intro hown
    exact (hpre q i hq).1 (h.single q p i info (hpre q i hq).2 hp hown)

/-- The flag of an owner without preorders is removed. -/
theorem OneShell.close [DecidableEq AccountId] {owner : AccountId} {event : Event T}
    (h : OneShell c s) (hnone : ∀ q i, s.sale.preorders q = some i → i.owner ≠ owner) :
    OneShell c (s.close false owner event) := by
  refine ⟨h.collection, h.frozen, h.unique, h.single, ?_⟩
  intro q i hq
  simp only [State.close, Bool.false_eq_true, if_false]
  rw [Function.update_of_ne (hnone q i hq)]
  exact h.flagged q i hq

/-- A preorder before the last day: its owner has no other. -/
theorem OneShell.place [DecidableEq AccountId] (hC : CurrencyLaws T) {a : AccountId}
    {ra : RaceType} {ca : CareerType} (h : OneShell c s) (hlast : s.sale.last_day_of_sale = false)
    (hp : Preorders a ra ca s s') : OneShell c s' := by
  obtain ⟨_, hfree⟩ := hp.allowed.resolve_left (by simp [hlast])
  -- the owner of any pending preorder has the flag set
  have hother (q : PreorderId) (i : PreorderInfo AccountId T.Metadata)
      (hq : s.sale.preorders q = some i) : i.owner ≠ a := by
    rintro rfl
    rw [h.flagged q i hq] at hfree
    cases hfree
  obtain ⟨md, w, _, hreserve, rfl⟩ := hp.post
  obtain ⟨_, _, hnfts⟩ := hC.reserve_ok hreserve
  -- the pending preorders are the old ones and the new one
  have hpre (q : PreorderId) (i : PreorderInfo AccountId T.Metadata)
      (hq : Function.update s.sale.preorders s.sale.preorder_index (some ⟨a, ra, ca, md⟩) q =
        some i) :
      (q = s.sale.preorder_index ∧ i.owner = a) ∨ s.sale.preorders q = some i := by
    by_cases hqi : q = s.sale.preorder_index
    · rw [hqi, Function.update_self, Option.some.injEq] at hq
      exact .inl ⟨hqi, hq ▸ rfl⟩
    · rw [Function.update_of_ne hqi] at hq
      exact .inr hq
  refine ⟨h.collection, ?_, ?_, ?_, ?_⟩
  · rw [hnfts]
    exact h.frozen
  · rw [hnfts]
    exact h.unique
  · intro q q' i i' hq hq' hown
    rcases hpre q i hq with ⟨hqi, hia⟩ | hq <;> rcases hpre q' i' hq' with ⟨hqi', hia'⟩ | hq'
    · rw [hqi, hqi']
    · exact absurd (hown.symm.trans hia) (hother q' i' hq')
    · exact absurd (hown.trans hia') (hother q i hq)
    · exact h.single q q' i i' hq hq' hown
  · intro q i hq
    simp only [hlast, Bool.false_eq_true, if_false]
    rcases hpre q i hq with ⟨_, hia⟩ | hq
    · rw [hia, Function.update_self]
    · rw [Function.update_of_ne (hother q i hq)]
      exact h.flagged q i hq

/-- A sale to `a`, who holds none. -/
theorem OneShell.mint [DecidableEq AccountId] (hC : CurrencyLaws T) (hN : NftLaws T)
    {o a : AccountId} {t : Traits} {price : Nat} {pool : NftSaleType} {check : Bool}
    {d : CollectionId} {i : NftSaleInfo} (h : OneShell c s)
    (hm : Mints o a t price pool check d i s s') (hnone : ¬ (T.nfts s.world).Owns c a) :
    OneShell c s' := by
  obtain ⟨hminted, _⟩ := hm.minted hC hN
  obtain ⟨md, w, rc, cc, _, _, _, _, rfl⟩ := hm.post
  exact h.receive h.collection rfl rfl hminted.received fun _ => hnone

/-- A hatch takes an item of `c` away; the Shell is in another collection. -/
theorem OneShell.hatch (hN : NftLaws T) {o owner : AccountId} {d sc : CollectionId} {n : NftId}
    {md : T.Metadata} {t : Traits} (h : OneShell c s) (hh : Hatches o owner d n sc md t s s')
    (hsc : sc ≠ c) : OneShell c s' ∧
      ∀ a, (T.nfts s'.world).Owns c a → (T.nfts s.world).Owns c a := by
  obtain rfl := h.collection d hh.collection
  obtain ⟨w₂, hburned, _, hminted⟩ := hh.burned hN
  have hitem (m : NftId) :
      (T.nfts s'.world).item (d, m) = ((T.nfts s.world).burn (d, n)).item (d, m) := by
    rw [hminted.received.item_of_collection_ne (Ne.symm hsc), hburned]
  obtain ⟨w, _, rfl⟩ := hh.post
  refine ⟨⟨h.collection, (h.frozen.burn _).congr hitem, (h.unique.burn _).congr hitem, h.single,
    h.flagged⟩, fun a howns => ((Nfts.owns_congr hitem).mp howns).of_burn⟩

end moves

/-! ### Batches -/

/-- No preorder was added, and no owner of one that is left got an item of `c`. -/
def LeavesPending (c : CollectionId) (s s' : State T) : Prop :=
  ∀ q i, s'.sale.preorders q = some i → s.sale.preorders q = some i ∧
    ((T.nfts s'.world).Owns c i.owner → (T.nfts s.world).Owns c i.owner)

theorem LeavesPending.trans {c : CollectionId} {s s' s'' : State T} (h : LeavesPending c s s')
    (h' : LeavesPending c s' s'') : LeavesPending c s s'' := by
  intro q i hq
  obtain ⟨hq', howns'⟩ := h' q i hq
  obtain ⟨hq, howns⟩ := h q i hq'
  exact ⟨hq, fun h => howns (howns' h)⟩

section batches
variable [DecidableEq AccountId] {c : CollectionId} {s s' : State T} {o : AccountId}

/-- What a round of `mint_chosen_preorders` leaves pending, and who owns what then. -/
theorem OneShell.mint_round (hC : CurrencyLaws T) (hN : NftLaws T) {p : PreorderId}
    (h : OneShell c s) (hm : MintsPreorder o false s p s')
    (hnew : ∀ info, s.sale.preorders p = some info → ¬ (T.nfts s.world).Owns c info.owner) :
    OneShell c s' ∧ LeavesPending c s s' := by
  obtain ⟨info, d, i, s₁, hinfo, hmint, rfl⟩ := hm
  obtain ⟨hrel, hpre⟩ := h.release hC hinfo
  have hnfts : T.nfts (s.release p info.owner).world = T.nfts s.world :=
    (hC.unreserve_eq _ _ _).2
  have hnone : ¬ (T.nfts (s.release p info.owner).world).Owns c info.owner := by
    rw [hnfts]
    exact hnew info hinfo
  have hsold := hrel.mint hC hN hmint hnone
  obtain ⟨hminted, _⟩ := hmint.minted hC hN
  obtain ⟨md, w, rc, cc, _, _, _, _, rfl⟩ := hmint.post
  refine ⟨hsold.close fun q i hq => (hpre q i hq).2, ?_⟩
  intro q i hq
  obtain ⟨hq, hne⟩ := hpre q i hq
  refine ⟨hq, ?_⟩
  intro howns
  -- the new item went to the owner of `p`, who has no other preorder
  rw [← hnfts]
  exact (Nfts.Owns.of_received hminted.received howns).resolve_right fun ⟨_, hi⟩ => hne hi

/-- A batch that chooses preorders of accounts without an item. -/
theorem OneShell.mint_batch (hC : CurrencyLaws T) (hN : NftLaws T) {ids : List PreorderId}
    (hl : Chain (MintsPreorder o false) s ids s') (h : OneShell c s)
    (hnew : ∀ p ∈ ids, ∀ info, s.sale.preorders p = some info →
      ¬ (T.nfts s.world).Owns c info.owner) : OneShell c s' ∧ LeavesPending c s s' := by
  induction hl with
  | nil => exact ⟨h, fun _ _ hq => ⟨hq, fun h => h⟩⟩
  | cons hm _ ih =>
    obtain ⟨h', hpre⟩ := h.mint_round hC hN hm (hnew _ List.mem_cons_self)
    -- who is chosen later still has no item after this round
    have hlater := ih h' fun q hq info hinfo howns => by
      obtain ⟨hinfo, hold⟩ := hpre q info hinfo
      exact hnew q (List.mem_cons_of_mem _ hq) info hinfo (hold howns)
    exact ⟨hlater.1, hpre.trans hlater.2⟩

theorem OneShell.refund_round (hC : CurrencyLaws T) {p : PreorderId} (h : OneShell c s)
    (hr : RefundsPreorder false s p s') : OneShell c s' ∧ LeavesPending c s s' := by
  obtain ⟨info, hinfo, rfl⟩ := hr
  obtain ⟨hrel, hpre⟩ := h.release hC hinfo
  refine ⟨hrel.close fun q i hq => (hpre q i hq).2, fun q i hq => ⟨(hpre q i hq).1, ?_⟩⟩
  intro howns
  rw [show T.nfts s.world = T.nfts (s.release p info.owner).world from
    (hC.unreserve_eq _ _ _).2.symm]
  exact howns

/-- A batch of refunds. -/
theorem OneShell.refund_batch (hC : CurrencyLaws T) {ids : List PreorderId}
    (hl : Chain (RefundsPreorder false) s ids s') (h : OneShell c s) :
    OneShell c s' ∧ LeavesPending c s s' := by
  induction hl with
  | nil => exact ⟨h, fun _ _ hq => ⟨hq, fun h => h⟩⟩
  | cons hr _ ih =>
    obtain ⟨h', hpre⟩ := h.refund_round hC hr
    exact ⟨(ih h').1, hpre.trans (ih h').2⟩


/-- A round takes nothing away, and gives the preorder's owner a new item. -/
theorem MintsPreorder.items (hC : CurrencyLaws T) (hN : NftLaws T) {last : Bool} {p : PreorderId}
    (hm : MintsPreorder o last s p s')
    (hcoll : ∀ d, s.sale.origin_of_shell_collection_id = some d → d = c) :
    s'.sale.origin_of_shell_collection_id = s.sale.origin_of_shell_collection_id ∧
    (∀ q, q ≠ p → s'.sale.preorders q = s.sale.preorders q) ∧
    (∀ x i, (T.nfts s.world).item x = some i → (T.nfts s'.world).item x = some i) ∧
    ∀ info, s.sale.preorders p = some info → ∃ n i, (T.nfts s.world).item (c, n) = none ∧
      (T.nfts s'.world).item (c, n) = some i ∧ i.owner = info.owner := by
  obtain ⟨info, d, i, s₁, hinfo, hmint, rfl⟩ := hm
  obtain rfl := hcoll d hmint.collection
  have hrec := (hmint.minted hC hN).1.received
  obtain ⟨md, w, rc, cc, _, _, _, _, rfl⟩ := hmint.post
  rw [show T.nfts (s.release p info.owner).world = T.nfts s.world from
    (hC.unreserve_eq _ _ _).2] at hrec
  refine ⟨rfl, fun q hq => Function.update_of_ne hq _ _, fun x i hi => hrec.remains hi, ?_⟩
  intro info' hinfo'
  obtain ⟨md', hitem⟩ := hrec.item_self
  rw [hinfo, Option.some.injEq] at hinfo'
  exact ⟨_, _, hrec.free_id, hitem, congrArg PreorderInfo.owner hinfo'⟩

/-- A batch that chooses a preorder of an account with an item gives that
    account a second one. -/
theorem two_of_batch (hC : CurrencyLaws T) (hN : NftLaws T) {last : Bool} {ids : List PreorderId}
    (hl : Chain (MintsPreorder o last) s ids s')
    (hcoll : ∀ d, s.sale.origin_of_shell_collection_id = some d → d = c) :
    (∀ x i, (T.nfts s.world).item x = some i → (T.nfts s'.world).item x = some i) ∧
    ∀ p ∈ ids, ∀ info, s.sale.preorders p = some info → (T.nfts s.world).Owns c info.owner →
      ¬ (T.nfts s'.world).OneEach c := by
  induction hl with
  | nil => exact ⟨fun _ _ h => h, fun _ h => absurd h List.not_mem_nil⟩
  | @cons s s₁ s₂ q l hm _ ih =>
    obtain ⟨hoos, hpre, hitems, hnew⟩ := hm.items hC hN hcoll
    obtain ⟨hlater, htwo⟩ := ih (by rw [hoos]; exact hcoll)
    refine ⟨fun x i hi => hlater x i (hitems x i hi), ?_⟩
    intro p hp info hinfo howns
    obtain ⟨n, i, hi, hown⟩ := howns
    by_cases hpq : p = q
    · -- this round: the old item `n` and the new item `m` have one owner
      subst hpq
      obtain ⟨m, j, hnone, hj, hjown⟩ := hnew info hinfo
      intro hone
      have hnm := hone n m i j (hlater _ _ (hitems _ _ hi)) (hlater _ _ hj) (hown.trans hjown.symm)
      rw [hnm, hnone] at hi
      cases hi
    · -- a later round: the old item is still there
      rcases List.mem_cons.mp hp with heq | hmem
      · exact absurd heq hpq
      · exact htwo p hmem info ((hpre p hpq).trans hinfo) ⟨n, i, hitems _ _ hi, hown⟩

end batches

/-! ### Runs -/

def Label.isGift : Label T → Bool
  | .call _ (.mint_gift_origin_of_shell ..) => true
  | _ => false

def Label.isHatch : Label T → Bool
  | .call _ (.hatch_origin_of_shell ..) => true
  | _ => false

/-- The preorders that a batch handles. -/
def Label.chosen : Label T → List PreorderId
  | .call _ (.mint_chosen_preorders preorders) => preorders.take T.IterLimit.toNat
  | _ => []

theorem Label.mem_chosen {l : Label T} {p : PreorderId} (h : p ∈ l.chosen) :
    ∃ origin ids, l = .call origin (.mint_chosen_preorders ids) ∧
      p ∈ ids.take T.IterLimit.toNat := by
  unfold Label.chosen at h
  split at h
  · exact ⟨_, _, rfl, h⟩
  · cases h

/-- It is not the last day, and nothing is given away; Shells are hatched
    into a collection of their own. -/
def BeforeLastDay (e : Entry T) : Prop :=
  (e.post.sale.last_day_of_sale = false ∧ e.label.isGift = false) ∧
  (e.label.isHatch = true →
    e.pre.incubation.shell_collection_id ≠ e.pre.sale.origin_of_shell_collection_id)

/-- The items of `c` change outside only by transfers of items that are not frozen. -/
def TransfersOnly (c : CollectionId) (w w' : T.World) : Prop :=
  Nfts.Moved (· = c) (T.nfts w) (T.nfts w')

/-- A batch that goes through handles no preorder of an account that holds
    an item of `c`. -/
def ChoosesNewOwners (c : CollectionId) (e : Entry T) : Prop :=
  succeeded e = true → ∀ p ∈ e.label.chosen, ∀ info ∈ e.pre.sale.preorders p,
    T.holds e.pre.world c info.owner = false

instance (e : Entry T) : Decidable (BeforeLastDay e) :=
  inferInstanceAs (Decidable (_ ∧ _))

instance (c : CollectionId) (e : Entry T) : Decidable (ChoosesNewOwners c e) :=
  inferInstanceAs (Decidable (_ → _))

section runs
variable {c : CollectionId} {s s' : State T} {l : Label T} {r : Outcome T}

theorem not_owns (hN : NftLaws T) {w : T.World} {a : AccountId} :
    ¬ (T.nfts w).Owns c a ↔ T.holds w c a = false := by
  rw [← hN.holds_iff, Bool.not_eq_true]

theorem OneShell.step [DecidableEq AccountId] (hC : CurrencyLaws T) (hN : NftLaws T)
    (h : OneShell c s) (hlast : s.sale.last_day_of_sale = false)
    (hcoll : ∀ d, s'.sale.origin_of_shell_collection_id = some d → d = c)
    (hok : Within BeforeLastDay (TransfersOnly c) ⟨s, l, r, s'⟩)
    (hnew : ChoosesNewOwners c ⟨s, l, r, s'⟩) (hs : Traded s l r s') : OneShell c s' := by
  cases hs with
  | quiet hq _ => exact h.keep hcoll hq.preorders hq.owner_has_preorder fun n => by rw [hq.world]
  | spirit _ hm _ =>
    -- the Spirit may be an item of `c`: the claim checks the same collection
    have hfresh := (not_owns hN).mpr hm.fresh
    have hrec := (hm.minted hN).1.received
    obtain ⟨md, w₁, w₂, _, _, _, rfl⟩ := hm.post
    refine h.receive hcoll rfl rfl hrec ?_
    rintro rfl
    exact hfresh
  | buy _ hm _ =>
    obtain rfl := h.collection _ hm.collection
    exact h.mint hC hN hm ((not_owns hN).mpr (hm.fresh (by rw [hlast]; rfl)))
  | preorder hp => exact h.place hC hlast hp
  | mint _ hl =>
    rw [hlast] at hl
    exact (h.mint_batch hC hN hl fun p hp info hinfo =>
      (not_owns hN).mpr (hnew rfl p hp info hinfo)).1
  | refund _ hl =>
    rw [hlast] at hl
    exact (h.refund_batch hC hl).1
  | gift => cases hok.1.1.2
  | init => exact h.keep hcoll rfl rfl fun _ => rfl
  | update => exact h.keep hcoll rfl rfl fun _ => rfl
  | create _ hw =>
    obtain ⟨d, hview, _⟩ := hN.create_collection_ok hw
    exact h.keep hcoll rfl rfl fun n => by simp only [hview, Nfts.create_item]
  | hatch hh =>
    refine (h.hatch hN hh ?_).1
    rintro rfl
    obtain rfl := h.collection _ hh.collection
    exact hok.1.2 rfl (hh.shell_collection.trans hh.collection.symm)
  | outside => exact h.keep hcoll rfl rfl fun n => (hok.2 _ rfl).item_eq rfl h.frozen n

/-- A batch that goes through without giving anybody a second item chose new owners. -/
theorem OneShell.chooses [DecidableEq AccountId] (hC : CurrencyLaws T) (hN : NftLaws T)
    (h : OneShell c s) (hs : Stepped s l r s') (hone : (T.nfts s'.world).OneEach c) :
    ChoosesNewOwners c ⟨s, l, r, s'⟩ := by
  intro hgo p hp info hinfo
  obtain ⟨origin, ids, rfl, hp⟩ := Label.mem_chosen hp
  cases r with
  | error err => cases hgo
  | ok u =>
    obtain ⟨o, hl⟩ := hs.mint_batch
    rw [← not_owns hN]
    exact fun howns => (two_of_batch hC hN hl h.collection).2 p hp info hinfo howns hone

end runs

/-- **One Origin of Shell.** In a run before the last day without gifts,
    nobody ever holds two items of the Origin of Shell collection if and
    only if no batch handled a preorder of an account that held one. -/
theorem one_shell_iff [DecidableEq AccountId] (hC : CurrencyLaws T) (hN : NftLaws T)
    {g : GenesisConfig AccountId} (hg : g.last_day_of_sale = false) {w : T.World} {now : UInt64}
    {c : CollectionId} (hfrozen : (T.nfts w).AllFrozen c) (hunique : (T.nfts w).OneEach c)
    {tr : List (Entry T)} {s : State T}
    (h : Runs (Within BeforeLastDay (TransfersOnly c)) (genesis g w now) tr s)
    (hc : s.sale.origin_of_shell_collection_id = some c) :
    (∀ e ∈ tr, (T.nfts e.post.world).OneEach c) ↔ ∀ e ∈ tr, ChoosesNewOwners c e := by
  -- the collection may be set only later in the run
  have hrun : s.sale.last_day_of_sale = false ∧
      ((∀ d, s.sale.origin_of_shell_collection_id = some d → d = c) →
        ((∀ e ∈ tr, (T.nfts e.post.world).OneEach c) ↔ ∀ e ∈ tr, ChoosesNewOwners c e) ∧
        ((∀ e ∈ tr, ChoosesNewOwners c e) → OneShell c s)) := by
    refine Runs.induction (J := fun tr s => s.sale.last_day_of_sale = false ∧
      ((∀ d, s.sale.origin_of_shell_collection_id = some d → d = c) →
        ((∀ e ∈ tr, (T.nfts e.post.world).OneEach c) ↔ ∀ e ∈ tr, ChoosesNewOwners c e) ∧
        ((∀ e ∈ tr, ChoosesNewOwners c e) → OneShell c s))) h ?_ ?_
    · refine ⟨hg, fun hcoll => ⟨by simp, fun _ => ⟨hcoll, hfrozen, hunique, ?_, ?_⟩⟩⟩
      · exact fun _ _ _ _ h => (by cases h)
      · exact fun _ _ h => (by cases h)
    · intro tr s l r s' _ ⟨hlast, hJ⟩ hok hs
      refine ⟨hok.1.1.1, ?_⟩
      intro hcoll
      obtain ⟨hiff, hinv⟩ := hJ fun d hd => hcoll d (hs.traded.ids_kept.origin_of_shell d hd)
      have hstep (hnew : ∀ e ∈ tr, ChoosesNewOwners c e) (hnew' : ChoosesNewOwners c ⟨s, l, r, s'⟩) :
          OneShell c s' :=
        (hinv hnew).step hC hN hlast hcoll hok hnew' hs.traded
      constructor
      · rw [List.forall_mem_cons, List.forall_mem_cons, hiff]
        constructor
        · rintro ⟨hone, hnew⟩
          exact ⟨(hinv hnew).chooses hC hN hs hone, hnew⟩
        · rintro ⟨hnew', hnew⟩
          exact ⟨(hstep hnew hnew').unique, hnew⟩
      · intro hnew
        rw [List.forall_mem_cons] at hnew
        exact hstep hnew.2 hnew.1
  refine (hrun.2 ?_).1
  intro d hd
  rw [hc, Option.some.injEq] at hd
  exact hd.symm

open Mock in
/-- The presale mints two Origin of Shells, to two accounts. -/
theorem one_shell_presale :
    ((runtime 200).nfts (after (presale 200)).2.world).next 1 = 2 ∧
    ∀ e ∈ (after (presale 200)).1, ((runtime 200).nfts e.post.world).OneEach 1 := by
  have hrun : Runs (Within BeforeLastDay (TransfersOnly 1)) (genesis₀ 200)
      (after (presale 200)).1 (after (presale 200)).2 :=
    runs_of_labels (presale 200) (by decide +kernel)
  have hone := (one_shell_iff (g := GenesisConfig.default) (w := world₀) (currency_laws 200)
    (nft_laws 200) rfl (fun _ _ h => (by cases h)) (fun _ _ _ _ h => (by cases h)) hrun
    (by decide +kernel)).mpr (by decide +kernel)
  exact ⟨by decide +kernel, hone⟩

open Mock in
/-- `ALICE` preorders, buys a Magic Origin of Shell, and is then chosen. -/
def over_preorder : List (Label (runtime 200)) :=
  setup 200 ++
  [.call (.signed ALICE) .claim_spirit,
    .call (.signed ALICE) (.preorder_origin_of_shell .AISpectre .RoboWarrior),
    .call (.signed ALICE) (.buy_rare_origin_of_shell .Magic .Cyborg .HackerWizard),
    admin (.mint_chosen_preorders [0])]

open Mock in
/-- She ends with two, before the last day and without a gift. -/
theorem two_shells : ∃ tr s,
    Runs (Within BeforeLastDay (TransfersOnly 1)) (genesis₀ 200) tr s ∧
    s.sale.origin_of_shell_collection_id = some 1 ∧ ¬ ((runtime 200).nfts s.world).OneEach 1 := by
  refine ⟨(after over_preorder).1, (after over_preorder).2,
    runs_of_labels over_preorder (by decide +kernel), by decide +kernel, ?_⟩
  intro hone
  have howners : (((runtime 200).nfts (after over_preorder).2.world).item (1, 0)).map Item.owner =
      some ALICE ∧
      (((runtime 200).nfts (after over_preorder).2.world).item (1, 1)).map Item.owner =
        some ALICE := by decide +kernel
  obtain ⟨i, hi, hia⟩ := Option.map_eq_some_iff.mp howners.1
  obtain ⟨j, hj, hja⟩ := Option.map_eq_some_iff.mp howners.2
  cases hone 0 1 i j hi hj (hia.trans hja.symm)

/-! ### Nobody buys while a preorder is pending -/

/-- The account that tries to buy directly. -/
def Label.buyer : Label T → Option AccountId
  | .call (.signed a) (.buy_rare_origin_of_shell ..) => some a
  | .call (.signed a) (.buy_prime_origin_of_shell ..) => some a
  | _ => none

/-- Nobody buys while a preorder of theirs is pending. -/
def BuysOrPreorders [DecidableEq AccountId] (e : Entry T) : Prop :=
  ∀ a ∈ e.label.buyer, succeeded e = true → pending e.pre a = 0

/-- No account has a preorder and an item of `c`. Where there are preorders,
    the Spirits are in another collection. -/
structure Apart (c : CollectionId) (s : State T) : Prop where
  apart : ∀ p info, s.sale.preorders p = some info → ¬ (T.nfts s.world).Owns c info.owner
  spirit : ∀ p info, s.sale.preorders p = some info →
    ∃ sp, s.sale.spirit_collection_id = some sp ∧ sp ≠ c

section discipline
variable {c : CollectionId} {s s' : State T} {l : Label T} {r : Outcome T}

theorem Apart.keep (h : Apart c s) (hids : IdsKept s s') (hleft : LeavesPending c s s') :
    Apart c s' := by
  constructor
  · intro p info hp howns
    obtain ⟨hp, hold⟩ := hleft p info hp
    exact h.apart p info hp (hold howns)
  · intro p info hp
    obtain ⟨sp, hsp, hne⟩ := h.spirit p info (hleft p info hp).1
    exact ⟨sp, hids.spirit sp hsp, hne⟩

theorem leaves_pending_of_item (hpre : s'.sale.preorders = s.sale.preorders)
    (hitem : ∀ n, (T.nfts s'.world).item (c, n) = (T.nfts s.world).item (c, n)) :
    LeavesPending c s s' := by
  intro q i hq
  rw [hpre] at hq
  exact ⟨hq, (Nfts.owns_congr hitem).mp⟩

/-- `a` received an item, and has no preorder if it is one of `c`. -/
theorem leaves_pending_of_received {a : AccountId} {d : CollectionId} {frozen : Bool}
    (hpre : s'.sale.preorders = s.sale.preorders)
    (hrec : Nfts.Received a d frozen (T.nfts s.world) (T.nfts s'.world))
    (hfree : d = c → ∀ p info, s.sale.preorders p = some info → info.owner ≠ a) :
    LeavesPending c s s' := by
  intro q i hq
  rw [hpre] at hq
  refine ⟨hq, ?_⟩
  intro howns
  exact (Nfts.Owns.of_received hrec howns).resolve_right fun ⟨hcd, hi⟩ => hfree hcd.symm q i hq hi

theorem pending_eq_zero [DecidableEq AccountId] {a : AccountId}
    (hbelow : Below s.sale.preorders s.sale.preorder_index) (h : pending s a = 0) {p : PreorderId}
    {info : PreorderInfo AccountId T.Metadata} (hp : s.sale.preorders p = some info) :
    info.owner ≠ a := by
  rintro rfl
  have hpos : 0 < pending s info.owner := entries_pos hp (hbelow.lt hp) (by simp)
  rw [h] at hpos
  exact Nat.lt_irrefl 0 hpos

/-- A preorder before the last day: its owner holds no item of `c`. -/
theorem Apart.place [DecidableEq AccountId] (hC : CurrencyLaws T) (hN : NftLaws T) {a : AccountId}
    {ra : RaceType} {ca : CareerType} (h : Apart c s)
    (hcoll : ∀ d, s.sale.origin_of_shell_collection_id = some d → d = c)
    (hlast : s.sale.last_day_of_sale = false) (hp : Preorders a ra ca s s') : Apart c s' := by
  obtain ⟨sp, hsp, hholds⟩ := hp.spirit
  obtain ⟨d, hd, hfresh⟩ := hp.fresh
  obtain rfl := hcoll d hd
  have hfresh := hfresh.resolve_left (by simp [hlast])
  obtain ⟨md, w, _, hreserve, rfl⟩ := hp.post
  obtain ⟨_, _, hnfts⟩ := hC.reserve_ok hreserve
  refine ⟨?_, fun _ _ _ => ⟨sp, hsp, ?_⟩⟩
  · intro q i hq
    simp only at hq ⊢
    rw [hnfts]
    by_cases hqi : q = s.sale.preorder_index
    · rw [hqi, Function.update_self, Option.some.injEq] at hq
      rw [← hq]
      exact (not_owns hN).mpr hfresh
    · rw [Function.update_of_ne hqi] at hq
      exact h.apart q i hq
  · -- the owner has a Spirit and no item of `c`
    rintro rfl
    rw [hholds] at hfresh
    cases hfresh

/-- No batch meets an account with an item. -/
theorem Apart.chooses (hN : NftLaws T) (h : Apart c s) : ChoosesNewOwners c ⟨s, l, r, s'⟩ :=
  fun _ p _ info hinfo => (not_owns hN).mp (h.apart p info hinfo)

theorem Apart.step [DecidableEq AccountId] (hC : CurrencyLaws T) (hN : NftLaws T)
    (h : Apart c s) (hone : OneShell c s) (hlast : s.sale.last_day_of_sale = false)
    (hbelow : Below s.sale.preorders s.sale.preorder_index)
    (hok : Within (fun e => BeforeLastDay e ∧ BuysOrPreorders e) (TransfersOnly c) ⟨s, l, r, s'⟩)
    (hs : Traded s l r s') : Apart c s' := by
  have hids := hs.ids_kept
  cases hs with
  | quiet hq _ =>
    exact h.keep hids (leaves_pending_of_item hq.preorders fun n => by rw [hq.world])
  | spirit _ hm _ =>
    -- with a preorder pending, the Spirits are not in `c`
    have hrec := (hm.minted hN).1.received
    have hspirit := hm.collection
    obtain ⟨md, w₁, w₂, _, _, _, rfl⟩ := hm.post
    refine h.keep hids (leaves_pending_of_received rfl hrec ?_)
    rintro rfl p info hp
    obtain ⟨sp, hsp, hne⟩ := h.spirit p info hp
    rw [hspirit, Option.some.injEq] at hsp
    exact absurd hsp.symm hne
  | @buy a _ _ _ _ _ _ _ _ _ hm hc =>
    have hpending : pending s a = 0 := by
      rcases hc with ⟨rfl, _⟩ | ⟨_, sig, rfl⟩ <;> exact hok.1.2 a rfl rfl
    obtain ⟨hminted, _⟩ := hm.minted hC hN
    obtain ⟨md, w, rc, cc, _, _, _, _, rfl⟩ := hm.post
    exact h.keep hids (leaves_pending_of_received rfl hminted.received fun _ p info hp =>
      pending_eq_zero hbelow hpending hp)
  | preorder hp => exact h.place hC hN hone.collection hlast hp
  | mint _ hl =>
    rw [hlast] at hl
    exact h.keep hids (hone.mint_batch hC hN hl fun p _ info hinfo => h.apart p info hinfo).2
  | refund _ hl =>
    rw [hlast] at hl
    exact h.keep hids (hone.refund_batch hC hl).2
  | gift => cases hok.1.1.1.2
  | init => exact h.keep hids (leaves_pending_of_item rfl fun _ => rfl)
  | update => exact h.keep hids (leaves_pending_of_item rfl fun _ => rfl)
  | create _ hw =>
    obtain ⟨d, hview, _⟩ := hN.create_collection_ok hw
    exact h.keep hids
      (leaves_pending_of_item rfl fun n => by simp only [hview, Nfts.create_item])
  | @hatch o owner d n sc md t _ hh =>
    obtain rfl := hone.collection d hh.collection
    have hsc : sc ≠ d := by
      rintro rfl
      exact hok.1.1.2 rfl (hh.shell_collection.trans hh.collection.symm)
    have howns := (hone.hatch hN hh hsc).2
    obtain ⟨w, _, rfl⟩ := hh.post
    exact h.keep hids fun q i hq => ⟨hq, howns i.owner⟩
  | outside =>
    exact h.keep hids
      (leaves_pending_of_item rfl fun n => (hok.2 _ rfl).item_eq rfl hone.frozen n)

end discipline

/-- Where nobody buys while a preorder of theirs is pending, no batch handles
    a preorder of an account that holds an Origin of Shell. -/
theorem chooses_new_owners [DecidableEq AccountId] (hC : CurrencyLaws T) (hN : NftLaws T)
    {g : GenesisConfig AccountId} (hg : g.last_day_of_sale = false) {w : T.World} {now : UInt64}
    {c : CollectionId} (hfrozen : (T.nfts w).AllFrozen c) (hunique : (T.nfts w).OneEach c)
    {tr : List (Entry T)} {s : State T}
    (h : Runs (Within (fun e => BeforeLastDay e ∧ BuysOrPreorders e) (TransfersOnly c))
      (genesis g w now) tr s)
    (hc : s.sale.origin_of_shell_collection_id = some c) : ∀ e ∈ tr, ChoosesNewOwners c e := by
  have hrun : s.sale.last_day_of_sale = false ∧
      ((∀ d, s.sale.origin_of_shell_collection_id = some d → d = c) →
        (OneShell c s ∧ Apart c s) ∧ ∀ e ∈ tr, ChoosesNewOwners c e) := by
    refine Runs.induction (J := fun tr s => s.sale.last_day_of_sale = false ∧
      ((∀ d, s.sale.origin_of_shell_collection_id = some d → d = c) →
        (OneShell c s ∧ Apart c s) ∧ ∀ e ∈ tr, ChoosesNewOwners c e)) h ?_ ?_
    · refine ⟨hg, fun hcoll => ⟨⟨⟨hcoll, hfrozen, hunique, ?_, ?_⟩, ?_, ?_⟩, ?_⟩⟩
      · exact fun _ _ _ _ h => (by cases h)
      · exact fun _ _ h => (by cases h)
      · exact fun _ _ h => (by cases h)
      · exact fun _ _ h => (by cases h)
      · exact fun _ h => absurd h List.not_mem_nil
    · intro tr s l r s' hpre ⟨hlast, hJ⟩ hok hs
      refine ⟨hok.1.1.1.1, ?_⟩
      intro hcoll
      obtain ⟨⟨hone, hapart⟩, hnew⟩ :=
        hJ fun d hd => hcoll d (hs.traded.ids_kept.origin_of_shell d hd)
      have hnew' : ChoosesNewOwners c ⟨s, l, r, s'⟩ := hapart.chooses hN
      refine ⟨⟨hone.step hC hN hlast hcoll ⟨hok.1.1, hok.2⟩ hnew' hs.traded,
        hapart.step hC hN hone hlast hpre.tracked.1.accounted.below hok hs.traded⟩, ?_⟩
      rw [List.forall_mem_cons]
      exact ⟨hnew', hnew⟩
  refine (hrun.2 ?_).2
  intro d hd
  rw [hc, Option.some.injEq] at hd
  exact hd.symm

end PhalaWorld
