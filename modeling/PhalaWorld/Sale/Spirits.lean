import PhalaWorld.Specs.Items
import PhalaWorld.Sale.Phases
import PhalaWorld.Shells.Soulbound

/-! # A Spirit behind every participant

    A Spirit is claimed or redeemed, by an account that has none. Whoever
    preorders, buys or is given an Origin of Shell must have one, and it is
    frozen: so everybody who takes part has exactly one.

    * `HasSpirit`, `Spirited`: the invariant, over the ids at the end of a
      run, as in `Receipted`.
    * `one_spirit`: the invariant as the claim of every reachable state.
-/

namespace PhalaWorld

open LTS Tokens

variable {AccountId : Type} {T : Config AccountId}

/-- `a` holds a Spirit. -/
def HasSpirit (f s : State T) (a : AccountId) : Prop :=
  ∃ sp, f.sale.spirit_collection_id = some sp ∧ (T.nfts s.world).Owns sp a

/-- Nobody has two Spirits, and everybody with an Origin of Shell or a
    preorder has one. The collections are those set at the end `f` of the run. -/
structure Spirited (f s : State T) : Prop where
  ids : IdsKept s f
  one : ∀ sp, f.sale.spirit_collection_id = some sp → (T.nfts s.world).OneEach sp
  shells : ∀ c a, f.sale.origin_of_shell_collection_id = some c → (T.nfts s.world).Owns c a →
    HasSpirit f s a
  preorders : ∀ p a, s.owner_of p = some a → HasSpirit f s a

section moves
variable {f s s' : State T} {a : AccountId}

theorem HasSpirit.kept (h : HasSpirit f s a)
    (hkept : ∀ sp, f.sale.spirit_collection_id = some sp → ∀ n i,
      (T.nfts s.world).item (sp, n) = some i → (T.nfts s'.world).item (sp, n) = some i) :
    HasSpirit f s' a := by
  obtain ⟨sp, hsp, n, i, hi, ha⟩ := h
  exact ⟨sp, hsp, n, i, hkept sp hsp n i hi, ha⟩

/-- Nothing happened to Spirits and Origin of Shells, and no preorder was added. -/
theorem Spirited.keep (h : Spirited f s) (hids : IdsKept s' f)
    (hitem : ∀ d, Soulbound f d → ∀ n,
      (T.nfts s'.world).item (d, n) = (T.nfts s.world).item (d, n))
    (hpre : ∀ p a, s'.owner_of p = some a → s.owner_of p = some a) : Spirited f s' := by
  have hkept (a : AccountId) (ha : HasSpirit f s a) : HasSpirit f s' a := by
    apply ha.kept
    intro sp hsp n i hi
    rw [hitem sp (.inl hsp), hi]
  constructor
  · exact hids
  · intro sp hsp
    exact (h.one sp hsp).congr (hitem sp (.inl hsp))
  · intro c a hc howns
    exact hkept a (h.shells c a hc ((Nfts.owns_congr (hitem c (.inr hc))).mp howns))
  · intro p a hp
    exact hkept a (h.preorders p a (hpre p a hp))

/-- A Spirit is claimed by an account that has none. -/
theorem Spirited.claim (hN : NftLaws T) (hf : DistinctIds f) {o : AccountId} {c : CollectionId}
    (h : Spirited f s) (hm : MintsSpirit o a c s s') : Spirited f s' := by
  have hspirit := h.ids.spirit c hm.collection
  -- `do_mint_spirit_nft` refuses an account that has one
  have hfresh : ¬ (T.nfts s.world).Owns c a := by
    rw [← hN.holds_iff, hm.fresh]
    exact Bool.false_ne_true
  have hrec := (hm.minted hN).1.received
  have hkept (b : AccountId) (hb : HasSpirit f s b) : HasSpirit f s' b :=
    hb.kept fun _ _ _ _ hi => hrec.remains hi
  obtain ⟨md, w₁, w₂, _, _, _, rfl⟩ := hm.post
  constructor
  · exact h.ids.of_same rfl rfl rfl
  · intro sp hsp
    obtain rfl : c = sp := Option.some.inj (hspirit.symm.trans hsp)
    exact (h.one c hsp).received hrec fun _ => hfresh
  · intro d b hd howns
    rcases Nfts.Owns.of_received hrec howns with hold | ⟨rfl, _⟩
    · exact hkept b (h.shells d b hd hold)
    · exact absurd hd (hf.spirit_origin_of_shell d hspirit)
  · intro p b hp
    exact hkept b (h.preorders p b hp)

/-- An Origin of Shell is minted to an account that has a Spirit. -/
theorem Spirited.mint [DecidableEq AccountId] (hC : CurrencyLaws T) (hN : NftLaws T)
    (hf : DistinctIds f) {o : AccountId} {t : Traits} {price : Nat} {pool : NftSaleType}
    {check : Bool} {c : CollectionId} {i : NftSaleInfo} (h : Spirited f s)
    (hm : Mints o a t price pool check c i s s') : Spirited f s' := by
  have hcoll := h.ids.origin_of_shell c hm.collection
  -- the buyer's Spirit was checked before the mint
  obtain ⟨sp, hsp, hholds⟩ := hm.spirit
  have hbuyer : HasSpirit f s a := ⟨sp, h.ids.spirit sp hsp, hN.holds_iff.mp hholds⟩
  have hrec := (hm.minted hC hN).1.received
  have hkept (b : AccountId) (hb : HasSpirit f s b) : HasSpirit f s' b :=
    hb.kept fun _ _ _ _ hi => hrec.remains hi
  obtain ⟨md, w, rc, cc, _, _, _, _, rfl⟩ := hm.post
  constructor
  · exact h.ids.of_same rfl rfl rfl
  · intro sp hsp
    have hne : sp ≠ c := by
      rintro rfl
      exact hf.spirit_origin_of_shell sp hsp hcoll
    exact (h.one sp hsp).congr (hrec.item_of_collection_ne hne)
  · intro d b hd howns
    rcases Nfts.Owns.of_received hrec howns with hold | ⟨_, rfl⟩
    · exact hkept b (h.shells d b hd hold)
    · exact hkept b hbuyer
  · intro p b hp
    exact hkept b (h.preorders p b hp)

/-- A preorder is placed by an account that has a Spirit. -/
theorem Spirited.place [DecidableEq AccountId] (hC : CurrencyLaws T) (hN : NftLaws T)
    {ra : RaceType} {ca : CareerType} (h : Spirited f s) (hp : Preorders a ra ca s s') :
    Spirited f s' := by
  obtain ⟨sp, hsp, hholds⟩ := hp.spirit
  have hbuyer : HasSpirit f s a := ⟨sp, h.ids.spirit sp hsp, hN.holds_iff.mp hholds⟩
  have howner := hp.owner_of
  -- a preorder moves money only
  have hnfts : T.nfts s'.world = T.nfts s.world := by
    obtain ⟨md, w, _, hreserve, rfl⟩ := hp.post
    exact (hC.reserve_ok hreserve).2.2
  have hkept (b : AccountId) (hb : HasSpirit f s b) : HasSpirit f s' b := by
    apply hb.kept
    intro _ _ n i hi
    rw [hnfts, hi]
  obtain ⟨md, w, _, _, rfl⟩ := hp.post
  constructor
  · exact h.ids.of_same rfl rfl rfl
  · intro sp hsp
    rw [hnfts]
    exact h.one sp hsp
  · intro c b hc howns
    rw [hnfts] at howns
    exact hkept b (h.shells c b hc howns)
  · intro p b hp
    rw [howner p] at hp
    split at hp
    · -- the new preorder
      rw [Option.some.injEq] at hp
      exact hkept b (hp ▸ hbuyer)
    · exact hkept b (h.preorders p b hp)

/-- A hatch burns an Origin of Shell and touches no Spirit. -/
theorem Spirited.hatch (hN : NftLaws T) (hf : DistinctIds f) {o owner : AccountId}
    {c : CollectionId} {n : NftId} {sc : CollectionId} {md : T.Metadata} {t : Traits}
    (h : Spirited f s) (hh : Hatches o owner c n sc md t s s') : Spirited f s' := by
  have hcoll := h.ids.origin_of_shell c hh.collection
  have hshell := h.ids.shell sc hh.shell_collection
  obtain ⟨w, hitem, _, hminted⟩ := hh.burned hN
  -- the Shell is not seen in either collection
  have hburned (d : CollectionId) (hd : d ≠ sc) (m : NftId) :
      (T.nfts s'.world).item (d, m) = ((T.nfts s.world).burn (c, n)).item (d, m) := by
    rw [hminted.received.item_of_collection_ne hd, hitem]
  have hsame (sp : CollectionId) (hsp : f.sale.spirit_collection_id = some sp) (m : NftId) :
      (T.nfts s'.world).item (sp, m) = (T.nfts s.world).item (sp, m) := by
    have hne : sp ≠ sc := by
      rintro rfl
      exact hf.spirit_shell sp hsp hshell
    have hx : (sp, m) ≠ (c, n) := by
      intro heq
      rw [← (Prod.mk.inj heq).1] at hcoll
      exact hf.spirit_origin_of_shell sp hsp hcoll
    rw [hburned sp hne, Nfts.burn_item_of_ne _ _ _ hx]
  have hkept (b : AccountId) (hb : HasSpirit f s b) : HasSpirit f s' b := by
    apply hb.kept
    intro sp hsp m i hi
    rw [hsame sp hsp, hi]
  obtain ⟨w', _, rfl⟩ := hh.post
  constructor
  · exact h.ids.of_same rfl rfl rfl
  · intro sp hsp
    exact (h.one sp hsp).congr (hsame sp hsp)
  · intro d b hd howns
    -- who owns an Origin of Shell now owned it before the hatch
    have hne : d ≠ sc := by
      rintro rfl
      exact hf.origin_of_shell_shell d hd hshell
    have hold := ((Nfts.owns_congr (hburned d hne)).mp howns).of_burn
    exact hkept b (h.shells d b hd hold)
  · intro p b hp
    exact hkept b (h.preorders p b hp)

end moves

/-! ### Steps -/

section steps
variable [DecidableEq AccountId] {f s s' : State T}

theorem Spirited.release (hC : CurrencyLaws T) (p : PreorderId) (owner : AccountId)
    (h : Spirited f s) : Spirited f (s.release p owner) := by
  have hnfts := (hC.unreserve_eq owner T.PrimeOriginOfShellPrice s.world).2
  refine h.keep ?_ ?_ ?_
  · exact h.ids.of_same rfl rfl rfl
  · intro d _ n
    exact congrArg (fun v => v.item (d, n)) hnfts
  · intro q a hq
    unfold State.owner_of at hq ⊢
    have hrelease : (s.release p owner).sale.preorders q =
        if q = p then none else s.sale.preorders q := Function.update_apply _ _ _ _
    rw [hrelease] at hq
    split at hq
    · cases hq
    · exact hq

theorem Spirited.covers (hC : CurrencyLaws T) :
    CoversRounds fun s s' : State T => Spirited f s → Spirited f s' where
  refl _ h := h
  trans _ _ _ h h' hs := h' (h hs)
  release _ p owner h := h.release hC p owner
  close _ _ _ _ h := h.keep (h.ids.of_same rfl rfl rfl) (fun _ _ _ => rfl) fun _ _ hp => hp

/-- Every step keeps the invariant; outside, what is frozen stays. -/
theorem Spirited.step (hC : CurrencyLaws T) (hN : NftLaws T) (hf : DistinctIds f) {l : Label T}
    {r : Outcome T} (h : Spirited f s) (hids : IdsKept s' f)
    (hfrozen : ∀ d, Soulbound f d → (T.nfts s.world).AllFrozen d)
    (hout : ∀ w, l = .outside w → MovesWithin (Soulbound f) s.world w)
    (hs : Traded s l r s') : Spirited f s' := by
  cases hs with
  | quiet hq _ =>
    apply h.keep hids
    · intro _ _ n
      rw [hq.world]
    · intro p a hp
      unfold State.owner_of at hp ⊢
      rw [← hq.preorders]
      exact hp
  | spirit _ hm _ => exact h.claim hN hf hm
  | buy _ hm _ => exact h.mint hC hN hf hm
  | preorder hp => exact h.place hC hN hp
  | mint _ hl => exact (Spirited.covers hC).mint (fun hm hs => hs.mint hC hN hf hm) hl h
  | refund _ hl => exact (Spirited.covers hC).refund hl h
  | gift _ _ hm =>
    have hminted := h.mint hC hN hf hm
    exact hminted.keep hids (fun _ _ _ => rfl) fun _ _ hp => hp
  | init => exact h.keep hids (fun _ _ _ => rfl) fun _ _ hp => hp
  | update => exact h.keep hids (fun _ _ _ => rfl) fun _ _ hp => hp
  | create _ hw =>
    obtain ⟨d, hview, _⟩ := hN.create_collection_ok hw
    apply h.keep hids
    · intro _ _ n
      rw [hview, Nfts.create_item]
    · exact fun _ _ hp => hp
  | hatch hh => exact h.hatch hN hf hh
  | outside =>
    -- every Spirit and Origin of Shell is frozen, so nobody can transfer it
    apply h.keep hids
    · intro d hd n
      exact (hout _ rfl).item_eq hd (hfrozen d hd) n
    · exact fun _ _ hp => hp

end steps

/-- **One Spirit each.** In every reachable state no account owns two
    Spirits, and an account that owns an Origin of Shell or has a pending
    preorder owns exactly one. -/
theorem one_spirit [DecidableEq AccountId] (hC : CurrencyLaws T) (hN : NftLaws T)
    {g : GenesisConfig AccountId} {w : T.World} {now : UInt64} {tr : List (Entry T)} {s : State T}
    (hdistinct : DistinctIds s) (hempty : ∀ d n, Soulbound s d → (T.nfts w).item (d, n) = none)
    (h : Runs (Within (fun _ => True) (MovesWithin (Soulbound s))) (genesis g w now) tr s) :
    (∀ sp, s.sale.spirit_collection_id = some sp → (T.nfts s.world).OneEach sp) ∧
    ∀ a, (∃ c, s.sale.origin_of_shell_collection_id = some c ∧ (T.nfts s.world).Owns c a) ∨
        (∃ p, s.owner_of p = some a) →
      ∃ sp, s.sale.spirit_collection_id = some sp ∧
        ∃! n, ∃ i, (T.nfts s.world).item (sp, n) = some i ∧ i.owner = a := by
  have hspirited : Spirited s s := by
    refine Runs.induction (J := fun _ s' => IdsKept s' s → Spirited s s') h ?_ ?_ (.refl s)
    · intro hids
      have hnone (d : CollectionId) (hd : Soulbound s d) (a : AccountId) :
          ¬ (T.nfts w).Owns d a := by
        intro ⟨n, i, hi, _⟩
        rw [hempty d n hd] at hi
        cases hi
      constructor
      · exact hids
      · intro sp hsp n m i j hi
        exact absurd ⟨n, i, hi, rfl⟩ (hnone sp (.inl hsp) i.owner)
      · intro c a hc howns
        exact absurd howns (hnone c (.inr hc) a)
      · intro p a hp
        cases hp
    · intro tr s₁ l r s₂ hrun hJ hok hs hids
      have hpre := hs.traded.ids_kept.trans hids
      -- the run invariant of the receipts says what is frozen
      have hreceipted := Runs.receipted hC hN hdistinct hempty hrun hpre
      exact (hJ hpre).step hC hN hdistinct hids (fun d hd => hreceipted.all_frozen hd) hok.2
        hs.traded
  refine ⟨hspirited.one, ?_⟩
  intro a hpart
  obtain ⟨sp, hsp, n, i, hi, ha⟩ : HasSpirit s s a := by
    rcases hpart with ⟨c, hc, howns⟩ | ⟨p, hp⟩
    · exact hspirited.shells c a hc howns
    · exact hspirited.preorders p a hp
  refine ⟨sp, hsp, n, ⟨i, hi, ha⟩, ?_⟩
  intro m ⟨j, hj, hja⟩
  exact hspirited.one sp hsp m n j i hj hi (hja.trans ha.symm)

open Mock in
/-- In the sample sale `BOB`, who was given an Origin of Shell, has one Spirit. -/
theorem one_spirit_sale :
    ((runtime 200).nfts (after (sale 200)).2.world).OneEach 0 ∧
    ∃! n, ∃ i, ((runtime 200).nfts (after (sale 200)).2.world).item (0, n) = some i ∧
      i.owner = BOB := by
  have hrun : Runs (Within (fun _ => True) (MovesWithin (Soulbound (after (sale 200)).2)))
      (genesis₀ 200) (after (sale 200)).1 (after (sale 200)).2 :=
    runs_of_labels (sale 200) (by decide +kernel)
  have hids : (after (sale 200)).2.sale.spirit_collection_id = some 0 ∧
      (after (sale 200)).2.sale.origin_of_shell_collection_id = some 1 ∧
      (after (sale 200)).2.incubation.shell_collection_id = some 2 := by decide +kernel
  have howns : (((runtime 200).nfts (after (sale 200)).2.world).item (1, 2)).map Item.owner =
      some BOB := by decide +kernel
  have hspirit := one_spirit (T := runtime 200) (g := GenesisConfig.default) (w := world₀)
    (currency_laws 200) (nft_laws 200) (by constructor <;> intro d hd <;> simp_all)
    (fun _ _ _ => rfl) hrun
  obtain ⟨hsp, hc, _⟩ := hids
  obtain ⟨i, hi, hib⟩ := Option.map_eq_some_iff.mp howns
  obtain ⟨sp, hsp', hone⟩ := hspirit.2 BOB (.inl ⟨1, hc, 2, i, hi, hib⟩)
  rw [hsp, Option.some.injEq] at hsp'
  exact ⟨hspirit.1 0 hsp, hsp' ▸ hone⟩

end PhalaWorld
