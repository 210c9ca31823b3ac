import PhalaWorld.Specs.Incubation

/-! # What a step can do

    `Done` lists what a successful call does, `Stepped` what a step does.
    Every invariant below is proved by a case analysis on these, so that no
    proof about runs looks into a pallet's function.

    A failed step leaves the state as it was (`Stepped.error`), also where a
    call is not transactional.
-/

namespace PhalaWorld

open LTS Transaction

variable {AccountId : Type} [DecidableEq AccountId] {T : Config AccountId}

/-! ### Failed calls -/

theorem dispatch_error {origin : Origin AccountId} {c : Call T} {e : Failure T.ModuleError}
    {s s' : State T} (h : dispatch origin c s = (.error e, s')) : s' = s := by
  cases c with
  | set_overlord o =>
    simp [dispatch, NftSale.set_overlord] at h
    grind
  | initialize_world_clock =>
    simp [dispatch, NftSale.initialize_world_clock] at h
    grind
  | set_status_type status status_type =>
    cases status_type <;>
      simp [dispatch, NftSale.set_status_type, NftSale.set_claim_spirits_status,
        NftSale.set_purchase_rare_origin_of_shells_status,
        NftSale.set_purchase_prime_origin_of_shells_status,
        NftSale.set_preorder_origin_of_shells_status, NftSale.set_last_day_of_sale_status] at h <;>
      grind
  | init_rarity_type_counts =>
    simp [dispatch, NftSale.init_rarity_type_counts,
      NftSale.set_initial_origin_of_shell_inventory, NftSale.insert_inventory] at h
    grind
  | update_rarity_type_counts r fs g =>
    simp [dispatch, NftSale.update_rarity_type_counts, NftSale.update_nft_sale_info] at h
    grind
  | set_spirit_collection_id c =>
    simp [dispatch, NftSale.set_spirit_collection_id] at h
    grind
  | set_origin_of_shell_collection_id c =>
    simp [dispatch, NftSale.set_origin_of_shell_collection_id] at h
    grind
  | set_spirits_metadata md =>
    simp [dispatch, NftSale.set_spirits_metadata] at h
    grind
  | set_origin_of_shells_metadata l =>
    simp [dispatch, NftSale.set_origin_of_shells_metadata, forEach_ne_error] at h
    grind
  | set_can_start_incubation_status status =>
    simp [dispatch, Incubation.set_can_start_incubation_status] at h
    grind
  | set_shell_collection_id c =>
    simp [dispatch, Incubation.set_shell_collection_id] at h
    grind
  | _ => exact transactional_rollback h

/-! ### Successful calls -/

/-- What a successful call of the incubation pallet does, other than a hatch. -/
inductive Incubates (s : State T) : Origin AccountId → Call T → State T → Prop where
  | start {a c n s'} :
      StartsIncubation a c n s s' → Incubates s (.signed a) (.start_incubation c n) s'
  | feed {a c n s'} : Feeds a c n s s' → Incubates s (.signed a) (.feed_origin_of_shell c n) s'
  | reduce {o l s'} : s.sale.overlord = some o → Chain ReducesHatchTime s l s' →
      Incubates s (.signed o) (.update_incubation_time l) s'
  | enable {o status t} : s.sale.overlord = some o →
      plain_add T 64 s.now T.IncubationDurationSec.toNat = .ok t →
      Incubates s (.signed o) (.set_can_start_incubation_status status) { s with
        incubation := { s.incubation with
          official_hatch_time := t
          can_start_incubation := status }
        events := s.events ++ [.CanStartIncubationStatusChanged status s.now t] }
  | shell_collection {o c} : s.sale.overlord = some o → s.incubation.shell_collection_id = none →
      Incubates s (.signed o) (.set_shell_collection_id c) { s with
        incubation := { s.incubation with shell_collection_id := some c }
        events := s.events ++ [.ShellCollectionIdSet c] }

/-- What a successful call does. -/
inductive Done (s : State T) : Origin AccountId → Call T → State T → Prop where
  | configure {origin c s'} : Configures c s s' → Done s origin c s'
  | spirit {a o cid c s'} : (c = .claim_spirit ∨ ∃ sig, c = .redeem_spirit sig) →
      s.sale.overlord = some o → MintsSpirit o a cid s s' → Done s (.signed a) c s'
  | buy {a o r ra ca cid i c s'} :
      (c = .buy_rare_origin_of_shell r ra ca ∧ r ≠ .Prime ∨
        r = .Prime ∧ ∃ sig, c = .buy_prime_origin_of_shell sig ra ca) →
      s.sale.overlord = some o →
      Mints o a ⟨r, ra, ca, 0⟩ (T.price r) .ForSale (!s.sale.last_day_of_sale) cid i s s' →
      Done s (.signed a) c s'
  | preorder {a ra ca s'} : Preorders a ra ca s s' →
      Done s (.signed a) (.preorder_origin_of_shell ra ca) s'
  | mint {o l s'} : s.sale.overlord = some o →
      Chain (MintsPreorder o s.sale.last_day_of_sale) s (l.take T.IterLimit.toNat) s' →
      Done s (.signed o) (.mint_chosen_preorders l) s'
  | refund {o l s'} : s.sale.overlord = some o →
      Chain (RefundsPreorder s.sale.last_day_of_sale) s (l.take T.IterLimit.toNat) s' →
      Done s (.signed o) (.refund_not_chosen_preorders l) s'
  | gift {o a r ra ca pool cid i s₁} : s.sale.overlord = some o → pool ≠ .ForSale →
      Mints o a ⟨r, ra, ca, 0⟩ 0 pool false cid i s s₁ →
      Done s (.signed o) (.mint_gift_origin_of_shell a r ra ca pool)
        { s₁ with events := s₁.events ++ [.OriginOfShellGiftedToOwner a pool] }
  | init {o} : s.sale.overlord = some o → s.sale.is_origin_of_shells_inventory_set = false →
      Done s (.signed o) .init_rarity_type_counts { s with
        sale := { s.sale with
          origin_of_shells_inventory := fun k => some (initial_nft_sale_info k.1)
          is_origin_of_shells_inventory_set := true }
        events := s.events ++ [.OriginOfShellsInventoryWasSet true] }
  | update {o fs g} : s.sale.overlord = some o →
      Done s (.signed o) (.update_rarity_type_counts .Prime fs g) { s with
        sale := { s.sale with
          origin_of_shells_inventory := fun k =>
            if k.1 = .Prime then (s.sale.origin_of_shells_inventory k).map fun i => i.add fs g
            else s.sale.origin_of_shells_inventory k }
        events := s.events ++ [.OriginOfShellInventoryUpdated .Prime] }
  | create {o md max symbol w} : s.sale.overlord = some o →
      T.create_collection o md max symbol s.world = .ok w →
      Done s (.signed o) (.pw_create_collection md max symbol) { s with world := w }
  | hatch {o owner c n sc md t s'} : Hatches o owner c n sc md t s s' →
      Done s (.signed o) (.hatch_origin_of_shell c n md) s'
  | incubate {origin c s'} : Incubates s origin c s' → Done s origin c s'

theorem dispatch_ok {origin : Origin AccountId} {c : Call T} {s s' : State T}
    (h : dispatch origin c s = (.ok (), s')) : Done s origin c s' := by
  cases c with
  | claim_spirit =>
    obtain ⟨a, rfl, _, o, ho, _, cid, hmint⟩ := NftSale.claim_spirit_ok.mp h
    exact .spirit (.inl rfl) ho hmint
  | redeem_spirit sig =>
    obtain ⟨a, rfl, _, o, ho, _, _, cid, hmint⟩ := NftSale.redeem_spirit_ok.mp h
    exact .spirit (.inr ⟨sig, rfl⟩) ho hmint
  | buy_rare_origin_of_shell r ra ca =>
    obtain ⟨a, o, cid, i, rfl, _, ho, hr, hmint⟩ := NftSale.buy_rare_origin_of_shell_ok h
    exact .buy (.inl ⟨rfl, hr⟩) ho hmint
  | buy_prime_origin_of_shell sig ra ca =>
    obtain ⟨a, o, cid, i, rfl, _, ho, _, hmint⟩ := NftSale.buy_prime_origin_of_shell_ok h
    exact .buy (.inr ⟨rfl, sig, rfl⟩) ho hmint
  | preorder_origin_of_shell ra ca =>
    obtain ⟨a, rfl, hpre⟩ := NftSale.preorder_origin_of_shell_ok.mp h
    exact .preorder hpre
  | mint_chosen_preorders l =>
    obtain ⟨o, rfl, ho, hl⟩ := NftSale.mint_chosen_preorders_ok.mp h
    exact .mint ho hl
  | refund_not_chosen_preorders l =>
    obtain ⟨o, rfl, ho, hl⟩ := NftSale.refund_not_chosen_preorders_ok.mp h
    exact .refund ho hl
  | mint_gift_origin_of_shell a r ra ca pool =>
    obtain ⟨o, cid, i, s₁, rfl, ho, hpool, hmint, rfl⟩ := NftSale.mint_gift_origin_of_shell_ok h
    exact .gift ho hpool hmint
  | set_overlord o => exact .configure (NftSale.set_overlord_ok h)
  | initialize_world_clock => exact .configure (NftSale.initialize_world_clock_ok h)
  | set_status_type status status_type => exact .configure (NftSale.set_status_type_ok h)
  | init_rarity_type_counts =>
    obtain ⟨o, rfl, ho, hset, rfl⟩ := NftSale.init_rarity_type_counts_ok h
    exact .init ho hset
  | update_rarity_type_counts r fs g =>
    obtain ⟨o, rfl, ho, rfl, rfl⟩ := NftSale.update_rarity_type_counts_ok h
    exact .update ho
  | set_spirit_collection_id cid => exact .configure (NftSale.set_spirit_collection_id_ok h)
  | set_origin_of_shell_collection_id cid =>
    exact .configure (NftSale.set_origin_of_shell_collection_id_ok h)
  | pw_create_collection md max symbol =>
    obtain ⟨o, rfl, ho, w, hw, rfl⟩ := NftSale.pw_create_collection_ok.mp h
    exact .create ho hw
  | set_spirits_metadata md => exact .configure (NftSale.set_spirits_metadata_ok h)
  | set_origin_of_shells_metadata l =>
    exact .configure (NftSale.set_origin_of_shells_metadata_ok h)
  | start_incubation cid n =>
    obtain ⟨a, rfl, hstart⟩ := Incubation.start_incubation_ok h
    exact .incubate (.start hstart)
  | feed_origin_of_shell cid n =>
    obtain ⟨a, rfl, hfeed⟩ := Incubation.feed_origin_of_shell_ok h
    exact .incubate (.feed hfeed)
  | hatch_origin_of_shell cid n md =>
    obtain ⟨o, owner, sc, t, rfl, hhatch⟩ := Incubation.hatch_origin_of_shell_ok h
    exact .hatch hhatch
  | update_incubation_time l =>
    obtain ⟨o, rfl, ho, hl⟩ := Incubation.update_incubation_time_ok h
    exact .incubate (.reduce ho hl)
  | set_can_start_incubation_status status =>
    obtain ⟨o, t, rfl, ho, ht, rfl⟩ := Incubation.set_can_start_incubation_status_ok h
    exact .incubate (.enable ho ht)
  | set_shell_collection_id cid =>
    obtain ⟨o, rfl, ho, hnone, rfl⟩ := Incubation.set_shell_collection_id_ok h
    exact .incubate (.shell_collection ho hnone)

/-- Events that report what was set up. -/
def Event.isSetup : Event T → Bool
  | .OverlordChanged .. | .WorldClockStarted .. | .ClaimSpiritStatusChanged ..
  | .PurchaseRareOriginOfShellsStatusChanged .. | .PurchasePrimeOriginOfShellsStatusChanged ..
  | .PreorderOriginOfShellsStatusChanged .. | .SpiritCollectionIdSet ..
  | .OriginOfShellCollectionIdSet .. | .SpiritsMetadataSet .. | .OriginOfShellsMetadataSet .. =>
      true
  | _ => false

/-- Configuring the sale is for the Overlord and for governance, and is reported. -/
theorem configures_by {origin : Origin AccountId} {c : Call T} {s s' : State T}
    (hc : c.configures = true) (h : dispatch origin c s = (.ok (), s')) :
    ((∃ o, origin = .signed o ∧ s.sale.overlord = some o) ∨ T.GovernanceOrigin origin = true) ∧
      ∃ evs, s'.events = s.events ++ evs ∧ ∀ event ∈ evs, event.isSetup = true := by
  cases c with
  | set_overlord o =>
    simp [dispatch, NftSale.set_overlord] at h
    obtain ⟨hgov, rfl⟩ := h
    exact ⟨.inr hgov, [_], rfl, by simp [Event.isSetup]⟩
  | initialize_world_clock =>
    simp [dispatch, NftSale.initialize_world_clock] at h
    obtain ⟨o, rfl, ho, _, r, _, z, _, rfl⟩ := h
    exact ⟨.inl ⟨o, rfl, ho⟩, [_], rfl, by simp [Event.isSetup]⟩
  | set_status_type status status_type =>
    cases status_type <;>
      simp [dispatch, NftSale.set_status_type, NftSale.set_claim_spirits_status,
        NftSale.set_purchase_rare_origin_of_shells_status,
        NftSale.set_purchase_prime_origin_of_shells_status,
        NftSale.set_preorder_origin_of_shells_status, NftSale.set_last_day_of_sale_status] at h <;>
      obtain ⟨o, rfl, ho, rfl⟩ := h <;>
      exact ⟨.inl ⟨o, rfl, ho⟩, [_], rfl, by simp [Event.isSetup]⟩
  | set_spirit_collection_id cid =>
    simp [dispatch, NftSale.set_spirit_collection_id] at h
    obtain ⟨o, rfl, ho, _, rfl⟩ := h
    exact ⟨.inl ⟨o, rfl, ho⟩, [_], rfl, by simp [Event.isSetup]⟩
  | set_origin_of_shell_collection_id cid =>
    simp [dispatch, NftSale.set_origin_of_shell_collection_id] at h
    obtain ⟨o, rfl, ho, _, rfl⟩ := h
    exact ⟨.inl ⟨o, rfl, ho⟩, [_], rfl, by simp [Event.isSetup]⟩
  | set_spirits_metadata md =>
    simp [dispatch, NftSale.set_spirits_metadata] at h
    obtain ⟨o, rfl, ho, rfl⟩ := h
    exact ⟨.inl ⟨o, rfl, ho⟩, [_], rfl, by simp [Event.isSetup]⟩
  | set_origin_of_shells_metadata l =>
    simp [dispatch, NftSale.set_origin_of_shells_metadata] at h
    obtain ⟨o, rfl, ho, s₁, hl, rfl⟩ := h
    -- the loop deposits nothing
    have hevents : s₁.events = s.events :=
      hl.invariant (I := fun s₁ => s₁.events = s.events)
        (by rintro _ ⟨race, md⟩ _ heq rfl; exact heq) rfl
    exact ⟨.inl ⟨o, rfl, ho⟩, [_], congrArg (· ++ _) hevents, by simp [Event.isSetup]⟩
  | _ => cases hc

/-! ### Steps -/

/-- What a step does. -/
inductive Stepped (s : State T) : Label T → Outcome T → State T → Prop where
  | fails {l e} : Stepped s l (.error e) s
  | call {origin c s'} : Done s origin c s' → Stepped s (.call origin c) (.ok ()) s'
  | idle : Stepped s .on_finalize (.ok ()) s
  | new_era {zero_day era} : s.sale.zero_day = some zero_day → zero_day < s.now →
      s.sale.era < (s.now - zero_day) / T.SecondsPerEra.toNat →
      plain_add T 64 s.sale.era 1 = .ok era →
      Stepped s .on_finalize (.ok ()) { s with
        sale := { s.sale with era := era }
        events := s.events ++ [.NewEra s.now era] }
  | timestamp {t : UInt64} : Stepped s (.set_timestamp t) (.ok ()) { s with now := t.toNat }
  | outside {w} : Stepped s (.outside w) (.ok ()) { s with world := w }

theorem NftSale.on_finalize_cases (s : State T) :
    Stepped s .on_finalize (on_finalize s).1 (on_finalize s).2 := by
  rcases run_cases on_finalize s with ⟨⟨⟩, s', h⟩ | ⟨e, s', h⟩ <;> rw [h]
  · cases hz : s.sale.zero_day with
    | none =>
      simp [on_finalize, hz] at h
      subst h
      exact .idle
    | some z =>
      simp [on_finalize, hz] at h
      rcases h with ⟨hlt, d, hd, q, hq, ⟨hera, n, hn, rfl⟩ | ⟨_, rfl⟩⟩ | ⟨_, rfl⟩
      · rw [plain_sub_of_le hlt.le, Except.ok.injEq] at hd
        subst hd
        rw [← plain_div_ok hq] at hera
        rw [← hz]
        exact .new_era hz hlt hera hn
      · exact .idle
      · exact .idle
  · have hs : s' = s := by
      cases hz : s.sale.zero_day <;> simp [on_finalize, hz] at h
      grind
    rw [hs]
    exact .fails

/-- Every step is one of those. -/
theorem stepped (s : State T) (l : Label T) : Stepped s l (step s l).1 (step s l).2 := by
  cases l with
  | call origin c =>
    rcases run_cases (dispatch origin c) s with ⟨⟨⟩, s', h⟩ | ⟨e, s', h⟩
    · rw [step, h]
      exact .call (dispatch_ok h)
    · rw [step, h, dispatch_error h]
      exact .fails
  | on_finalize => exact NftSale.on_finalize_cases s
  | set_timestamp t => exact .timestamp
  | outside w => exact .outside

/-- A failed step leaves the state as it was. -/
theorem Stepped.error {s s' : State T} {l : Label T} {e : Failure T.ModuleError}
    (h : Stepped s l (.error e) s') : s' = s := by
  cases h
  rfl

/-- A successful batch ran its rounds. -/
theorem Stepped.mint_batch {s s' : State T} {origin : Origin AccountId} {l : List PreorderId}
    (h : Stepped s (.call origin (.mint_chosen_preorders l)) (.ok ()) s') :
    ∃ o, Chain (MintsPreorder o s.sale.last_day_of_sale) s (l.take T.IterLimit.toNat) s' := by
  cases h with
  | call hdone =>
    cases hdone with
    | mint _ hl => exact ⟨_, hl⟩
    | configure h => cases h.call
    | incubate h => cases h
    | spirit hc => rcases hc with hc | ⟨_, hc⟩ <;> cases hc
    | buy hc => rcases hc with ⟨hc, _⟩ | ⟨_, _, hc⟩ <;> cases hc

/-! ### Steps that trade nothing -/

/-- Nothing was sold, minted, preordered, stocked or burned, and nothing
    happened outside. A collection id that was set is still the same. -/
structure Quiet (s s' : State T) : Prop where
  preorder_index : s'.sale.preorder_index = s.sale.preorder_index
  preorders : s'.sale.preorders = s.sale.preorders
  owner_has_preorder : s'.sale.owner_has_preorder = s.sale.owner_has_preorder
  inventory : s'.sale.origin_of_shells_inventory = s.sale.origin_of_shells_inventory
  inventory_set :
    s'.sale.is_origin_of_shells_inventory_set = s.sale.is_origin_of_shells_inventory_set
  career_type_count : s'.sale.career_type_count = s.sale.career_type_count
  spirit_collection_id : ∀ c, s.sale.spirit_collection_id = some c →
    s'.sale.spirit_collection_id = some c
  origin_of_shell_collection_id : ∀ c, s.sale.origin_of_shell_collection_id = some c →
    s'.sale.origin_of_shell_collection_id = some c
  shell_collection_id : ∀ c, s.incubation.shell_collection_id = some c →
    s'.incubation.shell_collection_id = some c
  world : s'.world = s.world
  events : ∃ evs, s'.events = s.events ++ evs ∧ ∀ event ∈ evs, event.isQuiet = true

section quiet
omit [DecidableEq AccountId]
variable {s s' s'' : State T}

theorem Quiet.refl (s : State T) : Quiet s s :=
  ⟨rfl, rfl, rfl, rfl, rfl, rfl, fun _ h => h, fun _ h => h, fun _ h => h, rfl, [], by simp⟩

theorem Quiet.trans (h : Quiet s s') (h' : Quiet s' s'') : Quiet s s'' := by
  obtain ⟨evs, hevs, hq⟩ := h.events
  obtain ⟨evs', hevs', hq'⟩ := h'.events
  refine ⟨h'.preorder_index.trans h.preorder_index, h'.preorders.trans h.preorders,
    h'.owner_has_preorder.trans h.owner_has_preorder, h'.inventory.trans h.inventory,
    h'.inventory_set.trans h.inventory_set, h'.career_type_count.trans h.career_type_count,
    fun c hc => h'.spirit_collection_id c (h.spirit_collection_id c hc),
    fun c hc => h'.origin_of_shell_collection_id c (h.origin_of_shell_collection_id c hc),
    fun c hc => h'.shell_collection_id c (h.shell_collection_id c hc),
    h'.world.trans h.world, evs ++ evs', by rw [hevs', hevs, List.append_assoc], ?_⟩
  intro event hevent
  rcases List.mem_append.mp hevent with hmem | hmem
  · exact hq event hmem
  · exact hq' event hmem

theorem Configures.quiet {c : Call T} (h : Configures c s s') : Quiet s s' := by
  obtain ⟨event, hq, hevent⟩ := h.events
  refine ⟨h.preorder_index, h.preorders, h.owner_has_preorder, h.inventory, h.inventory_set,
    h.career_type_count, ?_, ?_, ?_, h.world, [event], hevent,
    by simpa using hq⟩
  · intro c hc
    rcases h.spirit_collection_id with hnone | heq
    · rw [hnone] at hc; cases hc
    · rw [heq, hc]
  · intro c hc
    rcases h.origin_of_shell_collection_id with hnone | heq
    · rw [hnone] at hc; cases hc
    · rw [heq, hc]
  · intro c hc
    rw [h.incubation, hc]

theorem ReducesHatchTime.quiet {x : (CollectionId × NftId) × Nat}
    (h : ReducesHatchTime s x s') : Quiet s s' := by
  obtain ⟨t, _, _, rfl⟩ := h
  constructor <;> simp [Event.isQuiet]

end quiet

theorem Incubates.quiet {s s' : State T} {origin : Origin AccountId} {c : Call T}
    (h : Incubates s origin c s') : Quiet s s' := by
  cases h with
  | start h => obtain rfl := h.post; constructor <;> simp [Event.isQuiet]
  | feed h => obtain ⟨food, count, _, _, rfl⟩ := h.post; constructor <;> simp [Event.isQuiet]
  | reduce _ h => exact h.covered Quiet.refl (fun _ _ _ => Quiet.trans) fun _ _ _ h => h.quiet
  | enable _ _ => constructor <;> simp [Event.isQuiet]
  | shell_collection _ hnone => constructor <;> simp [Event.isQuiet, hnone]

/-- The labels that trade nothing. -/
def Label.isQuiet : Label T → Bool
  | .call _ c => c.configures || match c with
    | .start_incubation .. | .feed_origin_of_shell .. | .update_incubation_time ..
    | .set_can_start_incubation_status .. | .set_shell_collection_id .. => true
    | _ => false
  | .on_finalize | .set_timestamp _ => true
  | .outside _ => false

/-- The steps, with those that trade nothing in one case. -/
inductive Traded (s : State T) : Label T → Outcome T → State T → Prop where
  | quiet {l r s'} : Quiet s s' → (r = .ok () → l.isQuiet = true) → Traded s l r s'
  | spirit {a o cid c s'} : s.sale.overlord = some o → MintsSpirit o a cid s s' →
      (c = .claim_spirit ∨ ∃ sig, c = .redeem_spirit sig) → Traded s (.call (.signed a) c) (.ok ()) s'
  | buy {a o r ra ca cid i c s'} : s.sale.overlord = some o →
      Mints o a ⟨r, ra, ca, 0⟩ (T.price r) .ForSale (!s.sale.last_day_of_sale) cid i s s' →
      (c = .buy_rare_origin_of_shell r ra ca ∧ r ≠ .Prime ∨
        r = .Prime ∧ ∃ sig, c = .buy_prime_origin_of_shell sig ra ca) →
      Traded s (.call (.signed a) c) (.ok ()) s'
  | preorder {a ra ca s'} : Preorders a ra ca s s' →
      Traded s (.call (.signed a) (.preorder_origin_of_shell ra ca)) (.ok ()) s'
  | mint {o l s'} : s.sale.overlord = some o →
      Chain (MintsPreorder o s.sale.last_day_of_sale) s (l.take T.IterLimit.toNat) s' →
      Traded s (.call (.signed o) (.mint_chosen_preorders l)) (.ok ()) s'
  | refund {o l s'} : s.sale.overlord = some o →
      Chain (RefundsPreorder s.sale.last_day_of_sale) s (l.take T.IterLimit.toNat) s' →
      Traded s (.call (.signed o) (.refund_not_chosen_preorders l)) (.ok ()) s'
  | gift {o a r ra ca pool cid i s₁} : s.sale.overlord = some o → pool ≠ .ForSale →
      Mints o a ⟨r, ra, ca, 0⟩ 0 pool false cid i s s₁ →
      Traded s (.call (.signed o) (.mint_gift_origin_of_shell a r ra ca pool)) (.ok ())
        { s₁ with events := s₁.events ++ [.OriginOfShellGiftedToOwner a pool] }
  | init {o} : s.sale.is_origin_of_shells_inventory_set = false →
      Traded s (.call (.signed o) .init_rarity_type_counts) (.ok ()) { s with
        sale := { s.sale with
          origin_of_shells_inventory := fun k => some (initial_nft_sale_info k.1)
          is_origin_of_shells_inventory_set := true }
        events := s.events ++ [.OriginOfShellsInventoryWasSet true] }
  | update {o fs g} :
      Traded s (.call (.signed o) (.update_rarity_type_counts .Prime fs g)) (.ok ()) { s with
        sale := { s.sale with
          origin_of_shells_inventory := fun k =>
            if k.1 = .Prime then (s.sale.origin_of_shells_inventory k).map fun i => i.add fs g
            else s.sale.origin_of_shells_inventory k }
        events := s.events ++ [.OriginOfShellInventoryUpdated .Prime] }
  | create {o md max symbol w} : s.sale.overlord = some o →
      T.create_collection o md max symbol s.world = .ok w →
      Traded s (.call (.signed o) (.pw_create_collection md max symbol)) (.ok ()) { s with world := w }
  | hatch {o owner c n sc md t s'} : Hatches o owner c n sc md t s s' →
      Traded s (.call (.signed o) (.hatch_origin_of_shell c n md)) (.ok ()) s'
  | outside {w} : Traded s (.outside w) (.ok ()) { s with world := w }

theorem Stepped.traded {s s' : State T} {l : Label T} {r : Outcome T} (h : Stepped s l r s') :
    Traded s l r s' := by
  cases h with
  | fails => exact .quiet (.refl s) (fun h => by cases h)
  | idle => exact .quiet (.refl s) (fun _ => rfl)
  | new_era => exact .quiet (by constructor <;> simp [Event.isQuiet]) (fun _ => rfl)
  | timestamp => exact .quiet (by constructor <;> simp) (fun _ => rfl)
  | outside => exact .outside
  | call hdone =>
    cases hdone with
    | configure h => exact .quiet h.quiet (fun _ => by simp [Label.isQuiet, h.call])
    | spirit hc ho h => exact .spirit ho h hc
    | buy hc ho h => exact .buy ho h hc
    | preorder h => exact .preorder h
    | mint ho h => exact .mint ho h
    | refund ho h => exact .refund ho h
    | gift ho hpool h => exact .gift ho hpool h
    | init _ hset => exact .init hset
    | update _ => exact .update
    | create ho h => exact .create ho h
    | hatch h => exact .hatch h
    | incubate h => exact .quiet h.quiet (fun _ => by cases h <;> rfl)

/-! ### Collection ids -/

/-- A collection id that was set is still the same. -/
structure IdsKept (s s' : State T) : Prop where
  spirit : ∀ c, s.sale.spirit_collection_id = some c → s'.sale.spirit_collection_id = some c
  origin_of_shell : ∀ c, s.sale.origin_of_shell_collection_id = some c →
    s'.sale.origin_of_shell_collection_id = some c
  shell : ∀ c, s.incubation.shell_collection_id = some c →
    s'.incubation.shell_collection_id = some c

section ids
omit [DecidableEq AccountId]
variable {s s' s'' : State T}

theorem IdsKept.refl (s : State T) : IdsKept s s :=
  ⟨fun _ h => h, fun _ h => h, fun _ h => h⟩

theorem IdsKept.of_eq (hsp : s'.sale.spirit_collection_id = s.sale.spirit_collection_id)
    (hos : s'.sale.origin_of_shell_collection_id = s.sale.origin_of_shell_collection_id)
    (hsh : s'.incubation.shell_collection_id = s.incubation.shell_collection_id) :
    IdsKept s s' :=
  ⟨fun _ h => hsp.trans h, fun _ h => hos.trans h, fun _ h => hsh.trans h⟩

theorem IdsKept.trans (h : IdsKept s s') (h' : IdsKept s' s'') : IdsKept s s'' :=
  ⟨fun c hc => h'.spirit c (h.spirit c hc),
    fun c hc => h'.origin_of_shell c (h.origin_of_shell c hc),
    fun c hc => h'.shell c (h.shell c hc)⟩

/-- What is kept from a state is kept from one with the same ids. -/
theorem IdsKept.of_same (h : IdsKept s s'')
    (hsp : s'.sale.spirit_collection_id = s.sale.spirit_collection_id)
    (hos : s'.sale.origin_of_shell_collection_id = s.sale.origin_of_shell_collection_id)
    (hsh : s'.incubation.shell_collection_id = s.incubation.shell_collection_id) :
    IdsKept s' s'' :=
  (IdsKept.of_eq hsp.symm hos.symm hsh.symm).trans h

theorem Mints.ids_kept {o a : AccountId} {t : Traits} {price : Nat} {pool : NftSaleType}
    {check : Bool} {c : CollectionId} {i : NftSaleInfo}
    (h : Mints o a t price pool check c i s s') : IdsKept s s' := by
  obtain ⟨md, w, rc, cc, _, _, _, _, rfl⟩ := h.post
  exact .of_eq rfl rfl rfl

theorem IdsKept.covers [DecidableEq AccountId] : CoversRounds (T := T) IdsKept where
  refl := .refl
  trans _ _ _ := .trans
  release _ _ _ := .of_eq rfl rfl rfl
  close _ _ _ _ := .of_eq rfl rfl rfl

end ids

/-- No step changes a collection id that was set. -/
theorem Traded.ids_kept {s s' : State T} {l : Label T} {r : Outcome T} (h : Traded s l r s') :
    IdsKept s s' := by
  cases h with
  | quiet h _ =>
    exact ⟨h.spirit_collection_id, h.origin_of_shell_collection_id, h.shell_collection_id⟩
  | spirit _ h => obtain ⟨md, w₁, w₂, _, _, _, rfl⟩ := h.post; exact .of_eq rfl rfl rfl
  | buy _ h => exact h.ids_kept
  | preorder h => obtain ⟨md, w, _, _, rfl⟩ := h.post; exact .of_eq rfl rfl rfl
  | mint _ h => exact IdsKept.covers.mint (fun hm => hm.ids_kept) h
  | refund _ h => exact IdsKept.covers.refund h
  | gift _ _ h => exact h.ids_kept.trans (.of_eq rfl rfl rfl)
  | init => exact .of_eq rfl rfl rfl
  | update => exact .of_eq rfl rfl rfl
  | create => exact .of_eq rfl rfl rfl
  | hatch h => obtain ⟨w, _, rfl⟩ := h.post; exact .of_eq rfl rfl rfl
  | outside => exact .of_eq rfl rfl rfl

end PhalaWorld
