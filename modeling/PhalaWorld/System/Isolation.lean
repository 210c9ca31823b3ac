import PhalaWorld.Specs.Items
import PhalaWorld.Sale.Inventory
import PhalaWorld.Sale.Preorders

/-! # What a user can do to the others

    Most calls are for the Overlord, one is for governance. The rest may be
    signed by anybody, with any arguments: the shell of somebody else, a
    signature on somebody else's name, a kind that is not for sale.

    * `UserStep`: what a call of an account that is neither the Overlord nor
      governance does.
    * `Untouched`, `Settled`, `SellsAtMostOne`: what it leaves alone.
    * `isolated`: it leaves them alone in every reachable state.
-/

namespace PhalaWorld

open LTS Ledger Tokens Transaction

variable {AccountId : Type} [DecidableEq AccountId] {T : Config AccountId}

/-! ### The calls of a user -/

section calls
variable {s s' : State T} {a : AccountId}

/-- What a call of `a` does, who is neither the Overlord nor governance. -/
inductive UserStep (a : AccountId) (s : State T) : State T → Prop where
  | fails : UserStep a s s
  | spirit {o c s'} : s.sale.overlord = some o → MintsSpirit o a c s s' → UserStep a s s'
  | buy {o t price check c i s'} : s.sale.overlord = some o →
      Mints o a t price .ForSale check c i s s' → UserStep a s s'
  | preorder {race career s'} : Preorders a race career s s' → UserStep a s s'
  | start {c n s'} : StartsIncubation a c n s s' → UserStep a s s'
  | feed {c n s'} : Feeds a c n s s' → UserStep a s s'

/-- Every other call fails. -/
theorem user_step (hov : s.sale.overlord ≠ some a)
    (hgov : T.GovernanceOrigin (.signed a) = false) (c : Call T) :
    UserStep a s (step s (.call (.signed a) c)).2 := by
  rcases run_cases (dispatch (.signed a) c) s with ⟨⟨⟩, s', h⟩ | ⟨e, s', h⟩
  · rw [step, h]
    show UserStep a s s'
    cases dispatch_ok h with
    | configure hconf =>
      rcases (configures_by hconf.call h).1 with ⟨o, ho, hoo⟩ | hg
      · cases ho
        exact absurd hoo hov
      · rw [hgov] at hg
        cases hg
    | spirit _ ho hm => exact .spirit ho hm
    | buy _ ho hm => exact .buy ho hm
    | preorder hp => exact .preorder hp
    | incubate hi =>
      cases hi with
      | start hstart => exact .start hstart
      | feed hfeed => exact .feed hfeed
      | reduce ho _ => exact absurd ho hov
      | enable ho _ => exact absurd ho hov
      | shell_collection ho _ => exact absurd ho hov
    | hatch hh => exact absurd hh.overlord hov
    | mint ho _ => exact absurd ho hov
    | refund ho _ => exact absurd ho hov
    | gift ho _ _ => exact absurd ho hov
    | init ho _ => exact absurd ho hov
    | update ho => exact absurd ho hov
    | create ho _ => exact absurd ho hov
  · rw [step, h, dispatch_error h]
    exact .fails

end calls

/-! ### What it leaves alone -/

/-- What belongs to `b` is as it was: money, items and their attributes,
    preorders, the food record, and the hatch times of what `b` owns. -/
structure Untouched (b : AccountId) (s s' : State T) : Prop where
  free : (T.balances s'.world).free b = (T.balances s.world).free b
  reserved : (T.balances s'.world).reserved b = (T.balances s.world).reserved b
  items : ∀ x i, i.owner = b →
    ((T.nfts s'.world).item x = some i ↔ (T.nfts s.world).item x = some i)
  attributes : ∀ x i, (T.nfts s.world).item x = some i → i.owner = b →
    ∀ k, (T.nfts s'.world).attr (x, k) = (T.nfts s.world).attr (x, k)
  owner_has_preorder : s'.sale.owner_has_preorder b = s.sale.owner_has_preorder b
  preorders : ∀ p info, info.owner = b →
    (s'.sale.preorders p = some info ↔ s.sale.preorders p = some info)
  food_by_owners : s'.incubation.food_by_owners b = s.incubation.food_by_owners b
  hatch_times : ∀ x i, (T.nfts s.world).item x = some i → i.owner = b →
    s'.incubation.hatch_times x = s.incubation.hatch_times x

/-- What the Overlord and governance set up is as it was. -/
structure Settled (s s' : State T) : Prop where
  overlord : s'.sale.overlord = s.sale.overlord
  can_claim_spirits : s'.sale.can_claim_spirits = s.sale.can_claim_spirits
  can_purchase_rare_origin_of_shells : s'.sale.can_purchase_rare_origin_of_shells =
    s.sale.can_purchase_rare_origin_of_shells
  can_purchase_prime_origin_of_shells : s'.sale.can_purchase_prime_origin_of_shells =
    s.sale.can_purchase_prime_origin_of_shells
  can_preorder_origin_of_shells : s'.sale.can_preorder_origin_of_shells =
    s.sale.can_preorder_origin_of_shells
  last_day_of_sale : s'.sale.last_day_of_sale = s.sale.last_day_of_sale
  can_start_incubation : s'.incubation.can_start_incubation = s.incubation.can_start_incubation
  official_hatch_time : s'.incubation.official_hatch_time = s.incubation.official_hatch_time
  zero_day : s'.sale.zero_day = s.sale.zero_day
  era : s'.sale.era = s.sale.era
  spirit_collection_id : s'.sale.spirit_collection_id = s.sale.spirit_collection_id
  origin_of_shell_collection_id :
    s'.sale.origin_of_shell_collection_id = s.sale.origin_of_shell_collection_id
  shell_collection_id : s'.incubation.shell_collection_id = s.incubation.shell_collection_id
  spirits_metadata : s'.sale.spirits_metadata = s.sale.spirits_metadata
  origin_of_shells_metadata : s'.sale.origin_of_shells_metadata = s.sale.origin_of_shells_metadata

/-- The inventory is as it was, or one unit for sale of one kind was minted. -/
def SellsAtMostOne (s s' : State T) : Prop :=
  s'.sale.origin_of_shells_inventory = s.sale.origin_of_shells_inventory ∨
  ∃ k i, s.sale.origin_of_shells_inventory k = some i ∧ 0 < i.race_for_sale_count ∧
    s'.sale.origin_of_shells_inventory = Function.update s.sale.origin_of_shells_inventory k
      (some { i with
        race_for_sale_count := i.race_for_sale_count - 1
        race_count := i.race_count + 1 })

section frames
variable {s s' : State T} {a b o : AccountId}

omit [DecidableEq AccountId] in
/-- A mint to somebody else, which `b` did not pay for. -/
theorem Minted.untouched {c : CollectionId} {frozen : Bool}
    (hm : Minted o a c frozen s.world s'.world) (hba : b ≠ a)
    (hfunds : (T.balances s'.world).free b = (T.balances s.world).free b ∧
      (T.balances s'.world).reserved b = (T.balances s.world).reserved b)
    (hflags : s'.sale.owner_has_preorder = s.sale.owner_has_preorder)
    (hpre : s'.sale.preorders = s.sale.preorders) (hinc : s'.incubation = s.incubation) :
    Untouched b s s' := by
  constructor
  · exact hfunds.1
  · exact hfunds.2
  · intro x i hi
    exact hm.received.item_iff (hi ▸ hba)
  · intro x i hx _
    exact hm.received.attr_of_item hx
  · rw [hflags]
  · intro p info _
    rw [hpre]
  · rw [hinc]
  · intro x i _ _
    rw [hinc]

omit [DecidableEq AccountId] in
theorem MintsSpirit.untouched (hN : NftLaws T) {c : CollectionId} (hm : MintsSpirit o a c s s')
    (hba : b ≠ a) (hbo : b ≠ o) : Untouched b s s' := by
  obtain ⟨hminted, hdep⟩ := hm.minted hN
  have hfunds := hdep.1 b hbo
  obtain ⟨md, w₁, w₂, _, _, _, rfl⟩ := hm.post
  exact hminted.untouched hba hfunds rfl rfl rfl

theorem Mints.untouched (hC : CurrencyLaws T) (hN : NftLaws T) {t : Traits} {price : Nat}
    {pool : NftSaleType} {check : Bool} {c : CollectionId} {i : NftSaleInfo}
    (hm : Mints o a t price pool check c i s s') (hba : b ≠ a) (hbo : b ≠ o) :
    Untouched b s s' := by
  obtain ⟨hminted, _, _, hdep⟩ := hm.minted hC hN
  -- the price goes from `a` to the Overlord, and `b` is neither
  obtain ⟨hfree, hreserved⟩ := hdep.1 b hbo
  rw [Balances.transfer_free_of_ne _ _ hba hbo] at hfree
  rw [Balances.transfer_reserved] at hreserved
  obtain ⟨md, w, rc, cc, _, _, _, _, rfl⟩ := hm.post
  exact hminted.untouched hba ⟨hfree, hreserved⟩ rfl rfl rfl

/-- The new preorder has an id that was not in use. -/
theorem Preorders.untouched (hC : CurrencyLaws T) {race : RaceType} {career : CareerType}
    (hp : Preorders a race career s s')
    (hfree : s.sale.preorders s.sale.preorder_index = none) (hba : b ≠ a) : Untouched b s s' := by
  obtain ⟨md, w, _, hreserve, rfl⟩ := hp.post
  obtain ⟨_, hbal, hnfts⟩ := hC.reserve_ok hreserve
  obtain ⟨hfunds, hreserved⟩ := Balances.reserve_of_ne (T.balances s.world)
    T.PrimeOriginOfShellPrice hba
  constructor
  · show (T.balances w).free b = (T.balances s.world).free b
    rw [hbal, hfunds]
  · show (T.balances w).reserved b = (T.balances s.world).reserved b
    rw [hbal, hreserved]
  · intro x i _
    show (T.nfts w).item x = some i ↔ (T.nfts s.world).item x = some i
    rw [hnfts]
  · intro x i _ _ k
    show (T.nfts w).attr (x, k) = (T.nfts s.world).attr (x, k)
    rw [hnfts]
  · show (if s.sale.last_day_of_sale then s.sale.owner_has_preorder
      else Function.update s.sale.owner_has_preorder a true) b = s.sale.owner_has_preorder b
    split
    · rfl
    · exact Function.update_of_ne hba _ _
  · intro p info hown
    show Function.update s.sale.preorders s.sale.preorder_index _ p = some info ↔ _
    by_cases hp : p = s.sale.preorder_index
    · -- the id was free, and is `a`'s now
      rw [hp, Function.update_self, hfree]
      constructor
      · intro heq
        rw [← Option.some.inj heq] at hown
        exact absurd hown.symm hba
      · intro heq
        cases heq
    · rw [Function.update_of_ne hp]
  · rfl
  · intro _ _ _ _
    rfl

omit [DecidableEq AccountId] in
/-- Only the owner starts the incubation of an Origin of Shell. -/
theorem StartsIncubation.untouched {c : CollectionId} {n : NftId}
    (hs : StartsIncubation a c n s s') (hba : b ≠ a) : Untouched b s s' := by
  have howner := hs.owner
  obtain rfl := hs.post
  constructor
  · rfl
  · rfl
  · exact fun _ _ _ => Iff.rfl
  · exact fun _ _ _ _ _ => rfl
  · rfl
  · exact fun _ _ _ => Iff.rfl
  · rfl
  · intro x i hx hown
    apply Function.update_of_ne
    -- the shell that is started belongs to `a`
    rintro rfl
    unfold Config.uniques_owner at howner
    rw [hx, Option.map_some, Option.some.injEq] at howner
    exact hba (hown.symm.trans howner)

theorem Feeds.untouched {c : CollectionId} {n : NftId} (hf : Feeds a c n s s') (hba : b ≠ a) :
    Untouched b s s' := by
  obtain ⟨food, count, _, _, rfl⟩ := hf.post
  constructor
  · rfl
  · rfl
  · exact fun _ _ _ => Iff.rfl
  · exact fun _ _ _ _ _ => rfl
  · rfl
  · exact fun _ _ _ => Iff.rfl
  · exact Function.update_of_ne hba _ _
  · exact fun _ _ _ _ => rfl

end frames

/-! ### Steps -/

section steps
variable {s s' : State T} {a : AccountId}

theorem UserStep.untouched (hC : CurrencyLaws T) (hN : NftLaws T) (h : UserStep a s s')
    (hfree : s.sale.preorders s.sale.preorder_index = none) {b : AccountId} (hba : b ≠ a)
    (hbo : s.sale.overlord ≠ some b) : Untouched b s s' := by
  have hne {o : AccountId} (ho : s.sale.overlord = some o) : b ≠ o := by
    rintro rfl
    exact hbo ho
  cases h with
  | fails =>
    constructor <;> intros <;> rfl
  | spirit ho hm => exact hm.untouched hN hba (hne ho)
  | buy ho hm => exact hm.untouched hC hN hba (hne ho)
  | preorder hp => exact hp.untouched hC hfree hba
  | start hs => exact hs.untouched hba
  | feed hf => exact hf.untouched hba

theorem UserStep.settled (h : UserStep a s s') : Settled s s' := by
  cases h with
  | fails => constructor <;> rfl
  | spirit _ hm =>
    obtain ⟨md, w₁, w₂, _, _, _, rfl⟩ := hm.post
    constructor <;> rfl
  | buy _ hm =>
    obtain ⟨md, w, rc, cc, _, _, _, _, rfl⟩ := hm.post
    constructor <;> rfl
  | preorder hp =>
    obtain ⟨md, w, _, _, rfl⟩ := hp.post
    constructor <;> rfl
  | start hs =>
    obtain rfl := hs.post
    constructor <;> rfl
  | feed hf =>
    obtain ⟨food, count, _, _, rfl⟩ := hf.post
    constructor <;> rfl

/-- What the Overlord spends is deposits only, and those stay the Overlord's. -/
theorem UserStep.overlord_total (hC : CurrencyLaws T) (hN : NftLaws T) (h : UserStep a s s')
    {o : AccountId} (ho : s.sale.overlord = some o) (hao : a ≠ o) :
    (T.balances s.world).total o ≤ (T.balances s'.world).total o := by
  -- the Overlord of the call is the Overlord
  have hsame {o' : AccountId} (ho' : s.sale.overlord = some o') : o' = o := by
    rw [ho, Option.some.injEq] at ho'
    exact ho'.symm
  cases h with
  | fails => exact le_rfl
  | spirit ho' hm =>
    obtain rfl := hsame ho'
    obtain ⟨_, hdep⟩ := hm.minted hN
    rw [hdep.total]
  | buy ho' hm =>
    obtain rfl := hsame ho'
    obtain ⟨_, _, _, hdep⟩ := hm.minted hC hN
    rw [hdep.total, Balances.total_transfer_dst _ _ hao]
    exact Nat.le_add_right _ _
  | preorder hp =>
    obtain ⟨md, w, _, hreserve, rfl⟩ := hp.post
    obtain ⟨hfunds, hbal, _⟩ := hC.reserve_ok hreserve
    show _ ≤ (T.balances w).total _
    rw [hbal, Balances.total_reserve _ _ _ _ hfunds]
  | start hs =>
    obtain rfl := hs.post
    exact le_rfl
  | feed hf =>
    obtain ⟨food, count, _, _, rfl⟩ := hf.post
    exact le_rfl

/-- The count does not wrap, as every mint took an item id. -/
theorem Mints.sells_one (hC : CurrencyLaws T) (hN : NftLaws T) {tr : List (Entry T)}
    (hst : StockedBy tr s) {o : AccountId} {t : Traits} {price : Nat} {check : Bool}
    {c : CollectionId} {i : NftSaleInfo} (hm : Mints o a t price .ForSale check c i s s') :
    SellsAtMostOne s s' := by
  -- the ledger of the inventory bounds the counter by the ids handed out
  obtain ⟨i', hi, hcount, _⟩ := hst.stock (hst.full_of_info hm.info) (t.rarity_type, t.race)
  obtain rfl : i' = i := Option.some.inj (hi.symm.trans hm.info)
  have hbound := (hm.minted hC hN).1.bound
  have hrace := (hst.counters hm.collection hbound hm.info t.career).1
  have hleft := hm.left
  obtain ⟨md, w, rc, cc, _, _, hrc, _, rfl⟩ := hm.post
  obtain rfl : rc = i'.race_count + 1 := by
    rw [hrace, Except.ok.injEq, ← hcount] at hrc
    exact hrc.symm
  exact .inr ⟨_, i', hi, hleft, rfl⟩

theorem UserStep.sells (hC : CurrencyLaws T) (hN : NftLaws T) {tr : List (Entry T)}
    (h : UserStep a s s') (hst : StockedBy tr s) : SellsAtMostOne s s' := by
  cases h with
  | fails => exact .inl rfl
  | spirit _ hm =>
    obtain ⟨md, w₁, w₂, _, _, _, rfl⟩ := hm.post
    exact .inl rfl
  | buy _ hm => exact hm.sells_one hC hN hst
  | preorder hp =>
    obtain ⟨md, w, _, _, rfl⟩ := hp.post
    exact .inl rfl
  | start hs =>
    obtain rfl := hs.post
    exact .inl rfl
  | feed hf =>
    obtain ⟨food, count, _, _, rfl⟩ := hf.post
    exact .inl rfl

end steps

/-- **Isolation.** Whatever an account calls that is neither the Overlord
    nor governance, in any reachable state: what belongs to others is left
    alone, so is the set-up, the Overlord does not get poorer, and at most
    one unit is sold. -/
theorem isolated (hC : CurrencyLaws T) (hN : NftLaws T) {g : GenesisConfig AccountId}
    {w : T.World} {now : UInt64} {tr : List (Entry T)} {s : State T}
    (h : Runs GrowsOutside (genesis g w now) tr s) {a : AccountId}
    (hov : s.sale.overlord ≠ some a) (hgov : T.GovernanceOrigin (.signed a) = false)
    {c : Call T} {r : Outcome T} {s' : State T} (hs : step s (.call (.signed a) c) = (r, s')) :
    (∀ b, b ≠ a → s.sale.overlord ≠ some b → Untouched b s s') ∧ Settled s s' ∧
      (∀ o, s.sale.overlord = some o →
        (T.balances s.world).total o ≤ (T.balances s'.world).total o) ∧
      SellsAtMostOne s s' := by
  have huser : UserStep a s s' := by
    have hcall := user_step hov hgov c
    rw [hs] at hcall
    exact hcall
  -- no preorder is pending under the next id, so placing one overwrites none
  have hfree := h.tracked.1.accounted.below _ le_rfl
  refine ⟨?_, huser.settled, ?_, ?_⟩
  · intro b hba hbo
    exact huser.untouched hC hN hfree hba hbo
  · intro o ho
    apply huser.overlord_total hC hN ho
    rintro rfl
    exact hov ho
  · exact huser.sells hC hN (h.stocked hC hN)

open Mock in
/-- `BOB` has a preorder pending, and `CHARLIE` has claimed a Spirit. -/
def queued : List (Label (runtime 200)) :=
  setup 200 ++
  [.call (.signed BOB) .claim_spirit,
    .call (.signed BOB) (.preorder_origin_of_shell .XGene .Web3Monk),
    .call (.signed CHARLIE) .claim_spirit]

open Mock in
/-- `CHARLIE` buys a Magic Origin of Shell: `BOB`'s preorder and money stay. -/
theorem isolated_purchase :
    ∃ s', step (after queued).2 (.call (.signed CHARLIE)
        (.buy_rare_origin_of_shell .Magic .Cyborg .HackerWizard)) = (.ok (), s') ∧
      Untouched BOB (after queued).2 s' := by
  have hrun : Runs GrowsOutside (genesis₀ 200) (after queued).1 (after queued).2 :=
    runs_of_labels queued (by decide +kernel)
  have hok : succeeded (entry step (after queued).2 (.call (.signed CHARLIE)
      (.buy_rare_origin_of_shell .Magic .Cyborg .HackerWizard))) = true := by decide +kernel
  have hs := step_of_succeeded hok
  have hiso := isolated (T := runtime 200) (g := GenesisConfig.default) (w := world₀)
    (currency_laws 200) (nft_laws 200) hrun (by decide +kernel) (by decide) hs
  exact ⟨_, hs, hiso.1 BOB (by decide) (by decide +kernel)⟩

end PhalaWorld
