import PhalaWorld.Sale.Inventory
import PhalaWorld.Shells.FeedOrder
import PhalaWorld.Specs.Checked

/-! # No operation wraps

    The plain operations of both pallets are safe for reasons that lie
    elsewhere: a pool is asked before it gives, every mint takes an item id
    and there are fewer of them than a `u32` holds, the index of preorders
    stops short of its maximum, an era that is behind the clock is smaller
    than it.

    * `Counted`: there are no more mints than item ids.
    * `step_exact`: a step does the same in the build with overflow checks.
    * `exact_arithmetic`: so do all steps of a run, and nothing panics.
-/

namespace PhalaWorld

open LTS Transaction

variable {AccountId : Type} {T : Config AccountId}

/-! ### Counters -/

/-- There are no more mints than item ids, by kind and by career. -/
def Counted (s : State T) : Prop :=
  ∃ full given exact ms, Stocked full given exact ms s

theorem Counted.room {s : State T} (h : Counted s) {c : CollectionId}
    (hc : s.sale.origin_of_shell_collection_id = some c)
    (hnext : (T.nfts s.world).next c + 1 < 2 ^ 32) {k : Kind} {i : NftSaleInfo}
    (hi : s.sale.origin_of_shells_inventory k = some i) (ca : CareerType) :
    i.race_count + 1 < 2 ^ 32 ∧ s.sale.career_type_count ca + 1 < 2 ^ 32 := by
  obtain ⟨full, given, exact, ms, hstocked⟩ := h
  exact (hstocked.room hc hnext hi ca).2

variable [DecidableEq AccountId]

namespace NftSale
variable {s : State T} {origin : Origin AccountId} {o a : AccountId} {r : RarityType}
  {ra : RaceType} {ca : CareerType} {g : GenerationId} {price : Nat} {pool : NftSaleType}
  {check : Bool}

/-- A mint finds its pool filled, and an item id left for every mint before. -/
theorem do_mint_origin_of_shell_nft_exact (hC : CurrencyLaws T) (hN : NftLaws T)
    (hs : Counted s) :
    Exact (T := T) (do_mint_origin_of_shell_nft o a r ra ca g price pool check)
      (do_mint_origin_of_shell_nft o a r ra ca g price pool check) s := by
  rw [do_mint_origin_of_shell_nft_eq, do_mint_origin_of_shell_nft_eq]
  apply Lockstep.bind issue_origin_of_shell_nft_exact
  rintro ⟨c, n⟩ s₁ hissue
  obtain ⟨hc, ⟨i, hi, hleft⟩, ⟨md, w₁, w₂, htransfer, hmint⟩, w, rfl⟩ :=
    issue_origin_of_shell_nft_ok hissue
  -- the mint had an id, and the transfer before it took none
  have hnext := (hN.mint_ok hmint).2.2.1
  rw [(hC.transfer_ok htransfer).2.2] at hnext
  obtain ⟨hrace, hcareer⟩ := hs.room hc hnext hi ca
  apply Lockstep.bind (decrement_race_type_left_exact ?_)
  · intro _ s₂ hdecrement
    obtain rfl := (decrement_race_type_left_ok (s := { s with world := w }) hi hleft).mp hdecrement
    apply Lockstep.bind (increment_race_type_exact ?_)
    · intro _ s₃ hincrement
      simp [increment_race_type] at hincrement
      obtain ⟨count, _, rfl⟩ := hincrement
      exact .seq (increment_career_type_exact hcareer) fun _ _ =>
        .seq (outside_exact _) fun _ _ => deposit_event_exact _
    · intro j hj
      simp at hj
      rw [← hj, NftSaleInfo.race_count_setLeft]
      exact hrace
  · intro j hj
    obtain rfl : i = j := Option.some.inj (hi.symm.trans hj)
    exact hleft

theorem buy_rare_origin_of_shell_exact (hC : CurrencyLaws T) (hN : NftLaws T) (hs : Counted s) :
    Exact (T := T) (buy_rare_origin_of_shell origin r ra ca)
      (buy_rare_origin_of_shell origin r ra ca) s := by
  apply Lockstep.transactional
  apply Lockstep.look ensure_signed_exact (by simp)
  intro a _
  apply Lockstep.read
  apply Lockstep.look ensure_exact (by simp)
  intro _ _
  apply Lockstep.look overlord_exact (by simp)
  intro o _
  cases r with
  | Prime => exact .bind fail_exact fun _ _ h => absurd h fail_ok
  | Magic => exact .look (.pure _) (by simp) fun _ _ => do_mint_origin_of_shell_nft_exact hC hN hs
  | Legendary =>
    exact .look (.pure _) (by simp) fun _ _ => do_mint_origin_of_shell_nft_exact hC hN hs

theorem buy_prime_origin_of_shell_exact (hC : CurrencyLaws T) (hN : NftLaws T) (hs : Counted s)
    {signature : T.Signature} :
    Exact (buy_prime_origin_of_shell origin signature ra ca)
      (buy_prime_origin_of_shell origin signature ra ca) s := by
  apply Lockstep.transactional
  apply Lockstep.look ensure_signed_exact (by simp)
  intro a _
  apply Lockstep.read
  apply Lockstep.look ensure_exact (by simp)
  intro _ _
  apply Lockstep.look overlord_exact (by simp)
  intro o _
  apply Lockstep.look verify_claim_exact (by simp)
  intro valid _
  apply Lockstep.look ensure_exact (by simp)
  intro _ _
  exact do_mint_origin_of_shell_nft_exact hC hN hs

theorem mint_gift_origin_of_shell_exact (hC : CurrencyLaws T) (hN : NftLaws T) (hs : Counted s) :
    Exact (T := T) (mint_gift_origin_of_shell origin a r ra ca pool)
      (mint_gift_origin_of_shell origin a r ra ca pool) s := by
  apply Lockstep.transactional
  apply Lockstep.look ensure_signed_exact (by simp)
  intro o _
  apply Lockstep.look ensure_overlord_exact (by simp)
  intro _ _
  apply Lockstep.look ensure_exact (by simp)
  intro _ _
  exact .seq (do_mint_origin_of_shell_nft_exact hC hN hs) fun _ _ => deposit_event_exact _

/-! ### Batches -/

theorem mint_chosen_preorder_exact (hC : CurrencyLaws T) (hN : NftLaws T) (hs : Counted s)
    {last : Bool} {p : PreorderId} :
    Exact (T := T) (mint_chosen_preorder o price last p) (mint_chosen_preorder o price last p) s := by
  apply Lockstep.bind take_preorder_exact
  intro info s₁ htake
  obtain ⟨_, rfl⟩ := take_preorder_ok.mp htake
  apply Lockstep.bind (outside_infallible_exact _)
  intro _ s₂ hunreserve
  obtain rfl := outside_infallible_ok.mp hunreserve
  -- neither the entry of the preorder nor the reserve is counted
  have hrelease : Counted
      { s with
        sale := { s.sale with preorders := Function.update s.sale.preorders p none }
        world := T.unreserve info.owner price s.world } := by
    obtain ⟨full, given, exact, ms, h⟩ := hs
    exact ⟨full, given, exact, ms,
      h.keep (.of_eq rfl rfl rfl) rfl rfl rfl (.of_eq (hC.unreserve_eq _ _ _).2)⟩
  exact .seq (do_mint_origin_of_shell_nft_exact hC hN hrelease) fun _ _ =>
    .seq (.when fun _ => remove_owner_has_preorder_exact) fun _ _ => deposit_event_exact _

/-- The rounds of a batch count as single mints do. -/
theorem mint_chosen_preorders_exact (hC : CurrencyLaws T) (hN : NftLaws T) (hs : Counted s)
    {l : List PreorderId} :
    Exact (T := T) (mint_chosen_preorders origin l) (mint_chosen_preorders origin l) s := by
  apply Lockstep.transactional
  apply Lockstep.look ensure_signed_exact (by simp)
  intro o _
  apply Lockstep.look ensure_overlord_exact (by simp)
  intro _ hoverlord
  apply Lockstep.read
  apply for_preorders_exact T.IterLimit.toNat_lt
  apply Lockstep.forEach (I := fun s => s.sale.overlord = some o ∧ Counted s)
  · intro p s₁ s₂ ⟨ho, full, given, exact, ms, hstocked⟩ hround
    have hround := (mint_chosen_preorder_ok ho).mp hround
    obtain ⟨evs, _, hstocked', _⟩ := hstocked.mint_round hC hN hround
    exact ⟨hround.overlord.trans ho, full, given, exact, _, hstocked'⟩
  · intro p s₁ ⟨_, hcounted⟩
    exact mint_chosen_preorder_exact hC hN hcounted
  · exact ⟨(ensure_overlord_ok.mp hoverlord).1, hs⟩

end NftSale

/-! ### Feeding -/

section feeding
variable {s : State T} {a : AccountId} {c : CollectionId} {n : NftId}

omit [DecidableEq AccountId] in
/-- The checks of a feed are the same in both builds. -/
theorem admits_checked {food : Option (Food T)} {x : AccountId × (CollectionId × NftId)} :
    admits s.checked food x = admits s food x := by
  have hupdate : Exact (Incubation.update_food_info s.sale.era x.2 food)
    (Incubation.update_food_info s.sale.era x.2 food) s := Incubation.update_food_info_exact
  have hrecord : (Incubation.update_food_info (T := T.checked) s.checked.sale.era x.2 food
    s.checked).1 = (Incubation.update_food_info s.sale.era x.2 food s).1 :=
      congrArg Prod.fst hupdate.1
  unfold admits
  rw [hrecord]
  rfl

theorem eats_checked {food : Food T} {x : AccountId × (CollectionId × NftId)} {count : Nat} :
    eats s.checked x food count = (eats s x food count).checked := by
  simp only [eats, State.checked, List.map_append, List.map_cons, List.map_nil]
  rfl

theorem feed_refused {e : Failure T.ModuleError}
    (h : admits s (s.incubation.food_by_owners a) (a, c, n) = .error e) :
    Incubation.feed_origin_of_shell (.signed a) c n s = (.error e, s) := by
  show step s (feed_call (a, c, n)) = _
  rw [step_feed]
  dsimp only
  rw [h]

theorem feed_admitted {food : Food T}
    (h : admits s (s.incubation.food_by_owners a) (a, c, n) = .ok food)
    (hroom : s.incubation.origin_of_shell_food_stats (s.sale.era, (c, n)) + 1 < 2 ^ 32) :
    Incubation.feed_origin_of_shell (.signed a) c n s =
      (.ok (), eats s (a, c, n) food
        (s.incubation.origin_of_shell_food_stats (s.sale.era, (c, n)) + 1)) := by
  show step s (feed_call (a, c, n)) = _
  rw [step_feed]
  dsimp only
  rw [h]
  dsimp only
  rw [plain_add_of_lt hroom]

/-- After the checks a feed can only panic. -/
theorem feed_not_refused {food : Food T}
    (h : admits s (s.incubation.food_by_owners a) (a, c, n) = .ok food)
    (err : DispatchError T.ModuleError) :
    (Incubation.feed_origin_of_shell (.signed a) c n s).1 ≠ .error (.err err) := by
  show (step s (feed_call (a, c, n))).1 ≠ _
  rw [step_feed]
  dsimp only
  rw [h]
  dsimp only
  intro herr
  split at herr
  · next e hpanic =>
    cases herr
    exact plain_add_ne_err hpanic
  · cases herr

/-- A feed that is not refused adds one to the count of the shell. -/
theorem feed_origin_of_shell_exact {origin : Origin AccountId}
    (h : ∀ a, origin = .signed a →
      (∀ err, (Incubation.feed_origin_of_shell (.signed a) c n s).1 ≠ .error (.err err)) →
      s.incubation.origin_of_shell_food_stats (s.sale.era, (c, n)) + 1 < 2 ^ 32) :
    Exact (T := T) (Incubation.feed_origin_of_shell origin c n)
      (Incubation.feed_origin_of_shell origin c n) s := by
  cases origin with
  | signed a =>
    unfold Exact Lockstep
    cases hadmits : admits s (s.incubation.food_by_owners a) (a, c, n) with
    | error e =>
      rw [feed_refused hadmits, feed_refused (s := s.checked) (admits_checked.trans hadmits)]
      refine ⟨rfl, ?_⟩
      intro e' he
      obtain ⟨err, rfl⟩ := admits_error hadmits
      cases he
      exact Bool.false_ne_true
    | ok food =>
      have hroom := h a rfl (feed_not_refused hadmits)
      rw [feed_admitted hadmits hroom,
        feed_admitted (s := s.checked) (admits_checked.trans hadmits) hroom]
      refine ⟨congrArg (Prod.mk _) eats_checked, ?_⟩
      intro e' he
      cases he
  | _ => exact .transactional (.bind fail_exact fun _ _ h => absurd h fail_ok)

end feeding

/-! ### Steps -/

/-- The feed of an entry, if it was not refused. Where additions are checked,
    that may also be one that panicked. -/
def servings (e : Entry T) : List (Feed AccountId) :=
  match e.label, e.result with
  | .call (.signed _) (.feed_origin_of_shell _ _), .error (.err _) => []
  | .call (.signed sender) (.feed_origin_of_shell collection_id nft_id), _ =>
      [⟨sender, (collection_id, nft_id), e.pre.sale.era⟩]
  | _, _ => []

omit [DecidableEq AccountId] in
theorem servings_of_not_refused {s s' : State T} {r : Outcome T} {a : AccountId}
    {c : CollectionId} {n : NftId} (h : ∀ err, r ≠ .error (.err err)) :
    servings ⟨s, .call (.signed a) (.feed_origin_of_shell c n), r, s'⟩ =
      [⟨a, (c, n), s.sale.era⟩] := by
  cases r with
  | ok u => rfl
  | error e =>
    cases e with
    | err err => exact absurd rfl (h err)
    | panic message => rfl

omit [DecidableEq AccountId] in
/-- What was fed was served. -/
theorem feeds_sublist_servings (e : Entry T) : (feeds e).Sublist (servings e) := by
  obtain ⟨s, l, r, s'⟩ := e
  unfold feeds
  split
  · next hl hr =>
    cases hl
    cases hr
    exact List.Sublist.refl _
  · exact List.nil_sublist _

omit [DecidableEq AccountId] in
theorem history_feeds_sublist (tr : List (Entry T)) :
    (history feeds tr).Sublist (history servings tr) := by
  induction tr with
  | nil => exact List.Sublist.refl _
  | cons e tr ih => exact ih.append (feeds_sublist_servings e)

section steps
variable {s : State T} (hC : CurrencyLaws T) (hN : NftLaws T) (hS : T.SecondsPerEra ≠ 0)
  (hs : Counted s) (htime : s.now + T.IncubationDurationSec.toNat < 2 ^ 64)
include hC hN hS hs htime

theorem dispatch_exact {origin : Origin AccountId} {c : Call T}
    (hfeed : ∀ f ∈ servings (entry step s (.call origin c)),
      s.incubation.origin_of_shell_food_stats (f.era, f.nft) + 1 < 2 ^ 32) :
    Exact (dispatch origin c) (dispatch origin c.checked) s := by
  have hsecs : T.SecondsPerEra.toNat ≠ 0 := fun h => hS (UInt64.toNat_inj.mp h)
  cases c with
  | claim_spirit => exact NftSale.claim_spirit_exact
  | redeem_spirit => exact NftSale.redeem_spirit_exact
  | buy_rare_origin_of_shell => exact NftSale.buy_rare_origin_of_shell_exact hC hN hs
  | buy_prime_origin_of_shell => exact NftSale.buy_prime_origin_of_shell_exact hC hN hs
  | preorder_origin_of_shell => exact NftSale.preorder_origin_of_shell_exact
  | mint_chosen_preorders => exact NftSale.mint_chosen_preorders_exact hC hN hs
  | refund_not_chosen_preorders => exact NftSale.refund_not_chosen_preorders_exact
  | mint_gift_origin_of_shell => exact NftSale.mint_gift_origin_of_shell_exact hC hN hs
  | set_overlord => exact NftSale.set_overlord_exact
  | initialize_world_clock => exact NftSale.initialize_world_clock_exact hsecs
  | set_status_type => exact NftSale.set_status_type_exact
  | init_rarity_type_counts => exact NftSale.init_rarity_type_counts_exact
  | update_rarity_type_counts => exact NftSale.update_rarity_type_counts_exact
  | set_spirit_collection_id => exact NftSale.set_spirit_collection_id_exact
  | set_origin_of_shell_collection_id => exact NftSale.set_origin_of_shell_collection_id_exact
  | pw_create_collection => exact NftSale.pw_create_collection_exact
  | set_spirits_metadata => exact NftSale.set_spirits_metadata_exact
  | set_origin_of_shells_metadata => exact NftSale.set_origin_of_shells_metadata_exact
  | start_incubation => exact Incubation.start_incubation_exact
  | feed_origin_of_shell c n =>
    apply feed_origin_of_shell_exact
    rintro a rfl hkept
    have hserved : servings (entry step s (.call (.signed a) (.feed_origin_of_shell c n))) =
      [⟨a, (c, n), s.sale.era⟩] := servings_of_not_refused hkept
    apply hfeed ⟨a, (c, n), s.sale.era⟩
    rw [hserved]
    exact List.mem_singleton_self _
  | hatch_origin_of_shell => exact Incubation.hatch_origin_of_shell_exact
  | update_incubation_time => exact Incubation.update_incubation_time_exact
  | set_can_start_incubation_status => exact Incubation.set_can_start_incubation_status_exact htime
  | set_shell_collection_id => exact Incubation.set_shell_collection_id_exact

/-- **One step.** Where there are no more mints than item ids, the time leaves
    room for an incubation, and the count of a shell that is fed has room for
    it, a step does the same in the build with overflow checks, and nothing
    panics in it. -/
theorem step_exact {l : Label T} (hfeed : ∀ f ∈ servings (entry step s l),
      s.incubation.origin_of_shell_food_stats (f.era, f.nft) + 1 < 2 ^ 32) :
    step s.checked l.checked = ((step s l).1, (step s l).2.checked) ∧
      ∀ e, (step s l).1 = .error e → ¬ e.isArithmetic = true := by
  cases l with
  | call origin c => exact dispatch_exact hC hN hS hs htime hfeed
  | on_finalize =>
    have hsecs : T.SecondsPerEra.toNat ≠ 0 := fun h => hS (UInt64.toNat_inj.mp h)
    exact NftSale.on_finalize_exact hsecs (Nat.lt_of_le_of_lt (Nat.le_add_right _ _) htime)
  | set_timestamp t => exact ⟨rfl, fun _ h => by cases h⟩
  | outside w => exact ⟨rfl, fun _ h => by cases h⟩

end steps

/-- The index of preorders is only ever moved on by one, and not from its
    maximum. -/
theorem Traded.preorder_index {s s' : State T} {l : Label T} {r : Outcome T}
    (h : Traded s l r s') : s'.sale.preorder_index = s.sale.preorder_index ∨
      s.sale.preorder_index ≠ 2 ^ 32 - 1 ∧
        s'.sale.preorder_index = s.sale.preorder_index + 1 := by
  have hsold {o a : AccountId} {t : Traits} {price : Nat} {pool : NftSaleType} {check : Bool}
      {c : CollectionId} {i : NftSaleInfo} {s s' : State T}
      (hm : Mints o a t price pool check c i s s') :
      s'.sale.preorder_index = s.sale.preorder_index := by
    obtain ⟨md, w, rc, cc, _, _, _, _, rfl⟩ := hm.post
    rfl
  have hcovers : CoversRounds fun s s' : State T =>
      s'.sale.preorder_index = s.sale.preorder_index :=
    ⟨fun _ => rfl, fun _ _ _ h h' => h'.trans h, fun _ _ _ => rfl, fun _ _ _ _ => rfl⟩
  cases h with
  | quiet h _ => exact .inl h.preorder_index
  | spirit _ h => obtain ⟨md, w₁, w₂, _, _, _, rfl⟩ := h.post; exact .inl rfl
  | buy _ h => exact .inl (hsold h)
  | preorder h =>
    have hindex := h.index
    obtain ⟨md, w, _, _, rfl⟩ := h.post
    exact .inr ⟨hindex, rfl⟩
  | mint _ h => exact .inl (hcovers.mint hsold h)
  | refund _ h => exact .inl (hcovers.refund h)
  | gift _ _ h =>
    have hindex := hsold h
    exact .inl hindex
  | hatch h => obtain ⟨w, _, rfl⟩ := h.post; exact .inl rfl
  | _ => exact .inl rfl

/-! ### Runs -/

/-- The same step in the build with checks. -/
def Entry.checked (e : Entry T) : Entry T.checked :=
  ⟨e.pre.checked, e.label.checked, e.result, e.post.checked⟩

/-- A `u32` that is not the largest has a successor. -/
theorem index_room {i : Nat} (h : i < 2 ^ 32) (hmax : i ≠ 2 ^ 32 - 1) : i + 1 < 2 ^ 32 := by
  omega

/-- Is the time one from which an incubation ends within 64 bits? -/
def Label.timely : Label T → Bool
  | .set_timestamp t => t.toNat + T.IncubationDurationSec.toNat < 2 ^ 64
  | _ => true

/-- Nobody outside takes back an id of the Origin of Shell collection, and
    the times are timely. -/
def WithinWidths (e : Entry T) : Prop :=
  e.label.timely = true ∧ ∀ w, e.label = .outside w → KeepsIds e.pre w

section runs
variable {g : GenesisConfig AccountId} {w : T.World} {now : UInt64} {tr : List (Entry T)}
  {s : State T}

theorem Runs.timely (h : Runs WithinWidths (genesis g w now) tr s)
    (hnow : now.toNat + T.IncubationDurationSec.toNat < 2 ^ 64) :
    s.now + T.IncubationDurationSec.toNat < 2 ^ 64 := by
  apply h.invariant (I := fun s => s.now + T.IncubationDurationSec.toNat < 2 ^ 64) hnow
  intro s l r s' hs hok hstep
  cases hstep.tended with
  | aside h _ => rw [h.now]; exact hs
  | incubate h => rw [h.clock.2]; exact hs
  | new_era => exact hs
  | timestamp => exact of_decide_eq_true hok.1

theorem Runs.preorder_index_lt {ok : Entry T → Prop} (h : Runs ok (genesis g w now) tr s) :
    s.sale.preorder_index < 2 ^ 32 := by
  apply h.invariant (I := fun s => s.sale.preorder_index < 2 ^ 32) (Nat.two_pow_pos 32)
  intro s l r s' hs _ hstep
  rcases hstep.traded.preorder_index with heq | ⟨hmax, heq⟩
  · rw [heq]
    exact hs
  · rw [heq]
    exact index_room hs hmax

/-- A feed that is served is counted, and the count has not wrapped before. -/
theorem Runs.served_fits {ok : Entry T → Prop} {later earlier : List (Entry T)} {e : Entry T}
    (h : Runs ok (genesis g w now) earlier e.pre)
    (hfeeds : ∀ era x, portions (history servings (later ++ e :: earlier)) era x < 2 ^ 32)
    {f : Feed AccountId} (hf : f ∈ servings e) :
    e.pre.incubation.origin_of_shell_food_stats (f.era, f.nft) + 1 < 2 ^ 32 := by
  have hstats := h.fed.stats f.era f.nft
  have hle : portions (history feeds earlier) f.era f.nft ≤
      portions (history servings earlier) f.era f.nft :=
    (history_feeds_sublist earlier).countP_le
  have hserved : 0 < portions (servings e) f.era f.nft :=
    List.countP_pos_iff.mpr ⟨f, hf, by simp⟩
  have hbound := hfeeds f.era f.nft
  rw [history_append, history_cons] at hbound
  unfold portions at hbound
  rw [List.countP_append, List.countP_append] at hbound
  have hmod := Nat.mod_le (portions (history feeds earlier) f.era f.nft) (2 ^ 32)
  unfold portions at hstats hle hserved hmod
  omega

section exact
variable (hC : CurrencyLaws T) (hN : NftLaws T) (hS : T.SecondsPerEra ≠ 0)
  (h : Runs WithinWidths (genesis g w now) tr s)
  (hnow : now.toNat + T.IncubationDurationSec.toNat < 2 ^ 64)
  (hfeeds : ∀ era x, portions (history servings tr) era x < 2 ^ 32)
include hC hN hS h hnow hfeeds

theorem Runs.entry_exact {e : Entry T} (he : e ∈ tr) :
    step e.pre.checked e.label.checked = (e.result, e.post.checked) ∧
      ∀ failure, e.result = .error failure → failure.isArithmetic = false := by
  obtain ⟨later, earlier, rfl⟩ := List.append_of_mem he
  obtain ⟨hrun, _, hentry, _⟩ := Run.split h
  have hcounted : Counted e.pre :=
    ⟨_, _, _, _, Runs.stocked_of hC hN (fun _ hok => hok.2) hrun⟩
  have hserved : ∀ f ∈ servings (entry step e.pre e.label),
      e.pre.incubation.origin_of_shell_food_stats (f.era, f.nft) + 1 < 2 ^ 32 := by
    rw [← hentry]
    exact fun f hf => Runs.served_fits hrun hfeeds hf
  obtain ⟨hsame, hsafe⟩ := step_exact hC hN hS hcounted (Runs.timely hrun hnow) hserved
  rw [hentry]
  refine ⟨hsame, ?_⟩
  intro failure hfail
  exact Bool.eq_false_of_not_eq_true (hsafe failure hfail)

/-- **The builds agree.** The same run is one of the build with checks. -/
theorem Runs.checked : Runs (T := T.checked) (fun _ => True) (genesis g w now)
    (tr.map Entry.checked) s.checked := by
  have hexact := fun e he => (Runs.entry_exact hC hN hS h hnow hfeeds (e := e) he).1
  clear hfeeds
  induction h with
  | nil => exact Run.nil
  | @cons tr s l _ _ ih =>
    have hrun := ih fun e he => hexact e (List.mem_cons_of_mem _ he)
    have hstep : step s.checked l.checked = ((step s l).1, (step s l).2.checked) :=
      hexact _ List.mem_cons_self
    have hentry : Entry.checked (entry step s l) = entry step s.checked l.checked := by
      rw [entry, entry, hstep]
      rfl
    have hpost : (step s l).2.checked = (step s.checked l.checked).2 := by rw [hstep]
    rw [List.map_cons, hentry, hpost]
    exact Run.cons l.checked hrun trivial

end exact

/-- **No operation wraps.** In every run from genesis in which nobody outside
    takes back an id of the Origin of Shell collection, an incubation that
    starts ends within 64 bits, and no shell is fed 2^32 times in an era:
    every step does the same in the build with overflow checks, and no
    arithmetic panics in it; an index of preorders that is moved on stays a
    `u32`; and a mint that has issued its item goes on with the pool and the
    counter of its kind, whose entry is there for both. -/
theorem exact_arithmetic (hC : CurrencyLaws T) (hN : NftLaws T) (hS : T.SecondsPerEra ≠ 0)
    (h : Runs WithinWidths (genesis g w now) tr s)
    (hnow : now.toNat + T.IncubationDurationSec.toNat < 2 ^ 64)
    (hfeeds : ∀ era x, portions (history servings tr) era x < 2 ^ 32) :
    (∀ e ∈ tr, step e.pre.checked e.label.checked = (e.result, e.post.checked) ∧
      ∀ failure, e.result = .error failure → failure.isArithmetic = false) ∧
    (∀ e ∈ tr, e.pre.sale.preorder_index ≠ 2 ^ 32 - 1 →
      e.pre.sale.preorder_index + 1 < 2 ^ 32) ∧
    ∀ (s s₁ : State T) o a r ra ca gen price pool check x,
      NftSale.issue_origin_of_shell_nft o a r ra ca gen price pool check s = (.ok x, s₁) →
      (∃ rest, NftSale.do_mint_origin_of_shell_nft o a r ra ca gen price pool check s =
        (do NftSale.decrement_race_type_left r ra pool
            NftSale.increment_race_type r ra
            rest) s₁) ∧
      ∃ i s₂, s₁.sale.origin_of_shells_inventory (r, ra) = some i ∧ 0 < i.left pool ∧
        NftSale.decrement_race_type_left r ra pool s₁ = (.ok (), s₂) ∧
        s₂.sale.origin_of_shells_inventory (r, ra) =
          some (i.setLeft pool (i.left pool - 1)) := by
  refine ⟨fun e he => Runs.entry_exact hC hN hS h hnow hfeeds he, ?_, ?_⟩
  · intro e he hmax
    obtain ⟨_, hrun, _⟩ := Runs.mem h he
    exact index_room (Runs.preorder_index_lt hrun) hmax
  · intro s s₁ o a r ra ca gen price pool check x hissue
    constructor
    · obtain ⟨c, n⟩ := x
      rw [NftSale.do_mint_origin_of_shell_nft_eq, bind_run, hissue]
      exact ⟨_, rfl⟩
    · obtain ⟨_, ⟨i, hi, hleft⟩, _, w, rfl⟩ := NftSale.issue_origin_of_shell_nft_ok hissue
      refine ⟨i, _, hi, hleft,
        (NftSale.decrement_race_type_left_ok (s := { s with world := w }) hi hleft).mpr rfl, ?_⟩
      exact Function.update_self _ _ _

open Mock in
/-- The sample hatch, and the block that ends with it. -/
def season : List (Label (runtime 200)) := hatching 200 ++ [.on_finalize]

open Mock in
/-- In the sample hatch, in which Origin of Shells are sold, fed and hatched
    and an era ends, the build with checks does the same. -/
theorem exact_arithmetic_season :
    (after season).2.sale.era = 1 ∧
    (after season).2.incubation.origin_of_shell_food_stats (0, (1, 0)) = 1 ∧
    ∀ e ∈ (after season).1, step e.pre.checked e.label.checked = (e.result, e.post.checked) := by
  have hinside : ∀ e ∈ (after season).1,
      e.label.timely = true ∧ e.label.isOutside = false := by decide +kernel
  have hrun : Runs WithinWidths (genesis₀ 200) (after season).1 (after season).2 := by
    apply Run.exec .nil
    intro e he
    refine ⟨(hinside e he).1, ?_⟩
    intro w hw
    have hlabel := (hinside e he).2
    rw [hw] at hlabel
    cases hlabel
  -- there was one feed in all
  have hone : (history servings (after season).1).length = 1 := by decide +kernel
  have hfeeds (era : EraId) (x : CollectionId × NftId) :
      portions (history servings (after season).1) era x < 2 ^ 32 := by
    have hle : portions (history servings (after season).1) era x ≤ 1 := by
      rw [← hone]
      exact List.countP_le_length
    omega
  have hexact := (exact_arithmetic (T := runtime 200) (g := GenesisConfig.default) (w := world₀)
    (currency_laws 200) (nft_laws 200) (by decide) hrun (by decide) hfeeds).1
  exact ⟨by decide +kernel, by decide +kernel, fun e he => (hexact e he).1⟩

end runs

end PhalaWorld
