import PhalaWorld.Framework.Schedules
import PhalaWorld.Reference.Mock
import PhalaWorld.Shells.FeedOrder
import PhalaWorld.Specs.Blind

/-! # Calls in any order

    Within a block the order of the calls is the block author's. This says
    which calls may be exchanged: those who incubate and feed do not depend
    on what is sold to others meanwhile, nor on each other, unless a shell is
    started and fed, or a checked count is filled up.

    * `Task`: a start or a feed, and `Task.effect`, what it comes to.
    * `step_task`: its call is its effect.
    * `Label.Spares`: what makes no difference to an account's tasks.
    * `Independent`: which calls may be exchanged.
    * `any_order`: if the other calls keep their order, everybody gets the
      same.
-/

namespace PhalaWorld

open LTS Tokens Transaction

variable {AccountId : Type} {T : Config AccountId}

/-! ### Tasks -/

/-- A call of an owner or feeder of shells. -/
inductive Task (AccountId : Type) where
  | start (a : AccountId) (x : CollectionId × NftId)
  | feed (a : AccountId) (x : CollectionId × NftId)

namespace Task

def account : Task AccountId → AccountId
  | start a _ => a
  | feed a _ => a

def call : Task AccountId → Label T
  | start a x => .call (.signed a) (.start_incubation x.1 x.2)
  | feed a x => .call (.signed a) (.feed_origin_of_shell x.1 x.2)

theorem call_injective {t t' : Task AccountId} (h : (t.call : Label T) = t'.call) : t = t' := by
  cases t <;> cases t' <;> simp [call] at h <;> simp [h, Prod.ext_iff]

/-- Tasks that may be exchanged. -/
def Apart (T : Config AccountId) : Task AccountId → Task AccountId → Prop
  | start a _, start b _ => a ≠ b
  | start _ x, feed _ y => x ≠ y
  | feed _ x, start _ y => x ≠ y
  | feed a x, feed b y => a ≠ b ∧ (T.overflow_checks = true → x ≠ y)

theorem Apart.symm {t t' : Task AccountId} (h : Apart T t t') : Apart T t' t := by
  cases t <;> cases t'
  · exact Ne.symm h
  · exact Ne.symm h
  · exact Ne.symm h
  · exact ⟨Ne.symm h.1, fun hchecks => Ne.symm (h.2 hchecks)⟩

theorem not_apart_self (t : Task AccountId) : ¬ Apart T t t := by
  cases t
  · exact fun h => h rfl
  · exact fun h => h.1 rfl

end Task

/-- What a call that goes through does to the incubation, and the event. -/
abbrev Change (T : Config AccountId) : Type := (IncubationStorage T → IncubationStorage T) × Event T

/-- The state with a change made. -/
def State.changed (s : State T) (d : Change T) : State T :=
  { s with incubation := d.1 s.incubation, events := s.events ++ [d.2] }

/-- The change a start makes. -/
def begins (s : State T) (a : AccountId) (x : CollectionId × NftId) : Change T :=
  (fun i => { i with
    hatch_times := Function.update i.hatch_times x (some s.incubation.official_hatch_time) },
    .StartedIncubation x.1 x.2 a s.now s.incubation.official_hatch_time)

variable [DecidableEq AccountId]

/-- The change a feed makes. The count wraps where it does not panic. -/
def nourishes (s : State T) (a : AccountId) (x : CollectionId × NftId) (food : Food T) : Change T :=
  (fun i => { i with
    food_by_owners := Function.update i.food_by_owners a (some food)
    origin_of_shell_food_stats := Function.update i.origin_of_shell_food_stats (s.sale.era, x)
      ((i.origin_of_shell_food_stats (s.sale.era, x) + 1) % 2 ^ 32) },
    .OriginOfShellReceivedFood x.1 x.2 a)

/-- What a task comes to in a state. -/
def Task.effect (s : State T) : Task AccountId → Except (Failure T.ModuleError) (Change T)
  | .start a x =>
    if !s.incubation.can_start_incubation then
      .error Incubation.Error.StartIncubationNotAvailable.into
    else if s.sale.origin_of_shell_collection_id ≠ some x.1 then
      .error Incubation.Error.WrongCollectionId.into
    else if T.uniques_owner s.world x.1 x.2 ≠ some a then .error Incubation.Error.NotOwner.into
    else if s.incubation.hatch_times x ≠ none then
      .error Incubation.Error.HatchingInProgress.into
    else .ok (begins s a x)
  | .feed a x =>
    match admits s (s.incubation.food_by_owners a) (a, x) with
    | .error e => .error e
    | .ok food =>
      match plain_add T 32 (s.incubation.origin_of_shell_food_stats (s.sale.era, x)) 1 with
      | .error e => .error e
      | .ok _ => .ok (nourishes s a x food)

/-- What a step with an effect does. -/
def perform (s : State T) : Except (Failure T.ModuleError) (Change T) → Outcome T × State T
  | .error e => (.error e, s)
  | .ok d => (.ok (), s.changed d)

section tasks
variable {s s' : State T} {a b : AccountId} {x y : CollectionId × NftId}

theorem step_start : step s (Task.start a x).call = perform s ((Task.start a x).effect s) := by
  obtain ⟨c, n⟩ := x
  show Incubation.start_incubation (.signed a) c n s = _
  rcases run_cases (Incubation.start_incubation (.signed a) c n) s with ⟨⟨⟩, s', h⟩ | ⟨e, s', h⟩
  · rw [h]
    simp [Incubation.start_incubation] at h
    obtain ⟨henabled, hc, howner, hfresh, rfl⟩ := h
    have heffect : (Task.start a (c, n)).effect s = .ok (begins s a (c, n)) := by
      simp [Task.effect, henabled, hc, howner, hfresh]
    rw [heffect]
    rfl
  · rw [h]
    simp [Incubation.start_incubation] at h
    obtain ⟨⟨s₁, h⟩, rfl⟩ := h
    rcases h with ⟨hclosed, rfl, _⟩ | ⟨henabled, ⟨hc, rfl, _⟩ | ⟨hc, h⟩⟩
    · simp [Task.effect, hclosed, perform]
    · simp [Task.effect, henabled, hc, perform]
    rcases h with ⟨howner, rfl, _⟩ | ⟨howner, hbusy, rfl, _⟩
    · simp [Task.effect, henabled, hc, howner, perform]
    · simp [Task.effect, henabled, hc, howner, hbusy, perform]

/-- **A task is its effect.** -/
theorem step_task (t : Task AccountId) : step s t.call = perform s (t.effect s) := by
  cases t with
  | start a x => exact step_start
  | feed a x =>
    have hstep := step_feed (s := s) (x := (a, x))
    show step s (feed_call (a, x)) = _
    rw [hstep]
    unfold Task.effect
    dsimp only
    cases admits s (s.incubation.food_by_owners a) (a, x) with
    | error e => rfl
    | ok food =>
      dsimp only
      cases hcount : plain_add T 32
        (s.incubation.origin_of_shell_food_stats (s.sale.era, x)) 1 with
      | error e => rfl
      | ok count =>
        rw [plain_add_ok hcount]
        rfl

end tasks

/-! ### What a task depends on -/

/-- What the tasks of `b` look at is as it was. -/
structure Unmoved (b : AccountId) (s s' : State T) : Prop where
  aside : Aside s s'
  collection :
    s'.sale.origin_of_shell_collection_id = s.sale.origin_of_shell_collection_id
  items : ∀ x i, i.owner = b →
    ((T.nfts s'.world).item x = some i ↔ (T.nfts s.world).item x = some i)

section depends
variable {s s' s'' : State T} {a b : AccountId} {t t' : Task AccountId} {d d' : Change T}

omit [DecidableEq AccountId] in
theorem Unmoved.refl (b : AccountId) (s : State T) : Unmoved b s s :=
  ⟨.refl s, rfl, fun _ _ _ => Iff.rfl⟩

omit [DecidableEq AccountId] in
theorem Unmoved.trans (h : Unmoved b s s') (h' : Unmoved b s' s'') : Unmoved b s s'' :=
  ⟨h.aside.trans h'.aside, h'.collection.trans h.collection,
    fun x i hi => (h'.items x i hi).trans (h.items x i hi)⟩

omit [DecidableEq AccountId] in
theorem Unmoved.owner (h : Unmoved b s s') (c : CollectionId) (n : NftId) :
    T.uniques_owner s'.world c n = some b ↔ T.uniques_owner s.world c n = some b := by
  unfold Config.uniques_owner
  rw [Option.map_eq_some_iff, Option.map_eq_some_iff]
  refine exists_congr ?_
  intro i
  exact and_congr_left fun hi => h.items _ i hi

omit [DecidableEq AccountId] in
theorem Unmoved.holds (hN : NftLaws T) (h : Unmoved b s s') (c : CollectionId) :
    (T.owned_in_collection c b s'.world).length = 0 ↔
      (T.owned_in_collection c b s.world).length = 0 := by
  have hmem : ∀ n, n ∈ T.owned_in_collection c b s'.world ↔
      n ∈ T.owned_in_collection c b s.world := by
    intro n
    rw [hN.mem_owned_in_collection, hN.mem_owned_in_collection]
    refine exists_congr ?_
    intro i
    exact and_congr_left fun hi => h.items _ i hi
  rw [List.length_eq_zero_iff, List.length_eq_zero_iff, List.eq_nil_iff_forall_not_mem,
    List.eq_nil_iff_forall_not_mem]
  exact forall_congr' fun n => not_congr (hmem n)

/-- **What does not move it does not change what a task comes to.** -/
theorem Unmoved.effect (hN : NftLaws T) (h : Unmoved t.account s s') :
    t.effect s' = t.effect s := by
  have hinc := h.aside.incubation
  have hera := h.aside.era
  have hnow := h.aside.now
  have hc := h.collection
  cases t with
  | start a x =>
    have howner : T.uniques_owner s'.world x.1 x.2 ≠ some a ↔
        T.uniques_owner s.world x.1 x.2 ≠ some a := not_congr (h.owner x.1 x.2)
    unfold Task.effect begins
    simp only [hinc, hc, hnow, howner]
  | feed a x =>
    have hholds : (T.owned_in_collection x.1 a s'.world).length = 0 ↔
        (T.owned_in_collection x.1 a s.world).length = 0 := h.holds hN x.1
    have hadmits (food : Option (Food T)) : admits s' food (a, x) = admits s food (a, x) := by
      unfold admits
      rw [update_food_info_run _ _ _ s' s]
      simp only [hinc, hc, hnow, hera, hholds]
    unfold Task.effect nourishes
    simp only [hadmits, hinc, hera]

theorem effect_start_ok {x : CollectionId × NftId} (h : (Task.start a x).effect s = .ok d) :
    T.uniques_owner s.world x.1 x.2 = some a ∧ d = begins s a x := by
  unfold Task.effect at h
  dsimp only at h
  split at h
  · cases h
  split at h
  · cases h
  split at h
  · cases h
  next howner =>
  split at h
  · cases h
  · exact ⟨not_not.mp howner, (Except.ok.inj h).symm⟩

theorem effect_feed_ok {x : CollectionId × NftId} (h : (Task.feed a x).effect s = .ok d) :
    ∃ food, d = nourishes s a x food := by
  unfold Task.effect at h
  dsimp only at h
  split at h
  · cases h
  split at h
  · cases h
  · exact ⟨_, (Except.ok.inj h).symm⟩

omit [DecidableEq AccountId] in
/-- Where overflows are not checked, every sum is something. -/
theorem plain_add_unchecked (hchecks : T.overflow_checks = false) (bits n m : Nat) :
    ∃ k, plain_add T bits n m = .ok k := by
  unfold plain_add
  split
  · exact ⟨_, rfl⟩
  · rw [hchecks, if_neg Bool.false_ne_true]
    exact ⟨_, rfl⟩

/-- A task that goes through does not change what one apart from it comes to. -/
theorem Task.Apart.effect (h : Apart T t t') (ht : t.effect s = .ok d) :
    t'.effect (s.changed d) = t'.effect s := by
  cases t with
  | start a x =>
    obtain ⟨howner, rfl⟩ := effect_start_ok ht
    cases t' with
    | start b y =>
      by_cases hxy : y = x
      · -- `b` does not own the shell that `a` started
        subst hxy
        have hother : T.uniques_owner s.world y.1 y.2 ≠ some b := by
          rw [howner]
          exact fun heq => h (Option.some.inj heq)
        unfold Task.effect State.changed begins
        simp only [if_pos hother]
      · have htimes : (s.changed (begins s a x)).incubation.hatch_times y =
            s.incubation.hatch_times y := Function.update_of_ne hxy _ _
        unfold Task.effect
        dsimp only
        rw [htimes]
        rfl
    | feed b y =>
      have htimes : (s.changed (begins s a x)).incubation.hatch_times y =
          s.incubation.hatch_times y := Function.update_of_ne (Ne.symm h) _ _
      have hadmits (food : Option (Food T)) :
          admits (s.changed (begins s a x)) food (b, y) = admits s food (b, y) := by
        unfold admits
        dsimp only
        rw [update_food_info_run _ _ _ _ s, htimes]
        rfl
      unfold Task.effect
      dsimp only
      rw [hadmits]
      rfl
  | feed a x =>
    obtain ⟨food, rfl⟩ := effect_feed_ok ht
    cases t' with
    | start b y => rfl
    | feed b y =>
      obtain ⟨hab, hxy⟩ := h
      have hrecord : (s.changed (nourishes s a x food)).incubation.food_by_owners b =
          s.incubation.food_by_owners b := Function.update_of_ne (Ne.symm hab) _ _
      have hadmits (food' : Option (Food T)) :
          admits (s.changed (nourishes s a x food)) food' (b, y) = admits s food' (b, y) := by
        unfold admits
        rw [update_food_info_run _ _ _ _ s]
        rfl
      unfold Task.effect
      dsimp only
      rw [hadmits, hrecord]
      cases admits s (s.incubation.food_by_owners b) (b, y) with
      | error e => rfl
      | ok food' =>
        dsimp only
        by_cases hsame : y = x
        · -- the count of the shell is another one, which matters to nobody here
          have hunchecked : T.overflow_checks = false := by
            cases hchecks : T.overflow_checks with
            | false => rfl
            | true => exact absurd hsame.symm (hxy hchecks)
          obtain ⟨k, hk⟩ := plain_add_unchecked (T := T) hunchecked 32
            ((s.changed (nourishes s a x food)).incubation.origin_of_shell_food_stats
              ((s.changed (nourishes s a x food)).sale.era, y)) 1
          obtain ⟨k', hk'⟩ := plain_add_unchecked (T := T) hunchecked 32
            (s.incubation.origin_of_shell_food_stats (s.sale.era, y)) 1
          rw [hk, hk']
          rfl
        · have hcount : (s.changed (nourishes s a x food)).incubation.origin_of_shell_food_stats
              ((s.changed (nourishes s a x food)).sale.era, y) =
              s.incubation.origin_of_shell_food_stats (s.sale.era, y) :=
            Function.update_of_ne (fun heq => hsame (Prod.mk.inj heq).2) _ _
          rw [hcount]
          rfl

/-- The changes of tasks that are apart may be made in either order. -/
theorem Task.Apart.comm (h : Apart T t t') (ht : t.effect s = .ok d) (ht' : t'.effect s = .ok d')
    (i : IncubationStorage T) : d'.1 (d.1 i) = d.1 (d'.1 i) := by
  cases t with
  | start a x =>
    obtain ⟨howner, rfl⟩ := effect_start_ok ht
    cases t' with
    | start b y =>
      obtain ⟨howner', rfl⟩ := effect_start_ok ht'
      have hxy : x ≠ y := by
        rintro rfl
        exact h (Option.some.inj (howner.symm.trans howner'))
      unfold begins
      dsimp only
      rw [Function.update_comm hxy]
    | feed b y =>
      obtain ⟨food, rfl⟩ := effect_feed_ok ht'
      rfl
  | feed a x =>
    obtain ⟨food, rfl⟩ := effect_feed_ok ht
    cases t' with
    | start b y =>
      obtain ⟨_, rfl⟩ := effect_start_ok ht'
      rfl
    | feed b y =>
      obtain ⟨food', rfl⟩ := effect_feed_ok ht'
      unfold nourishes
      dsimp only
      rw [Function.update_comm h.1]
      by_cases hxy : x = y
      · rw [hxy, Function.update_self]
      · have hne : (s.sale.era, x) ≠ (s.sale.era, y) := fun heq => hxy (Prod.mk.inj heq).2
        rw [Function.update_of_ne hne, Function.update_of_ne (Ne.symm hne),
          Function.update_comm hne]

end depends

/-! ### What others do -/

/-- The step makes no difference to what the tasks of `b` come to. -/
def Label.Spares (b : AccountId) : Label T → Prop
  | .call origin c =>
    match c with
    | .claim_spirit | .redeem_spirit _ | .buy_rare_origin_of_shell ..
    | .buy_prime_origin_of_shell .. => origin ≠ .signed b
    | .mint_gift_origin_of_shell owner .. => owner ≠ b
    | .preorder_origin_of_shell .. | .refund_not_chosen_preorders _ | .set_overlord _
    | .initialize_world_clock | .set_status_type .. | .init_rarity_type_counts
    | .update_rarity_type_counts .. | .set_spirit_collection_id _ | .pw_create_collection ..
    | .set_spirits_metadata _ | .set_origin_of_shells_metadata _ => True
    | _ => False
  | _ => False

section others
variable {s s' : State T} {a b o : AccountId} {l : Label T}

omit [DecidableEq AccountId] in
theorem Label.Spares.not_incubates (h : l.Spares b) : l.incubates = false := by
  cases l with
  | call origin c => cases c <;> first | rfl | exact h.elim
  | _ => exact h.elim

omit [DecidableEq AccountId] in
/-- The set-up of the sale, but for one call, leaves the collection's id. -/
theorem configure_collection [DecidableEq AccountId] {origin : Origin AccountId} {c : Call T}
    (hc : c.configures = true) (hset : ∀ id, c ≠ .set_origin_of_shell_collection_id id)
    (h : dispatch origin c s = (.ok (), s')) :
    s'.sale.origin_of_shell_collection_id = s.sale.origin_of_shell_collection_id := by
  cases c with
  | set_overlord o =>
    simp [dispatch, NftSale.set_overlord] at h
    obtain ⟨_, rfl⟩ := h
    rfl
  | initialize_world_clock =>
    simp [dispatch, NftSale.initialize_world_clock] at h
    obtain ⟨o, rfl, ho, _, r, _, z, _, rfl⟩ := h
    rfl
  | set_status_type status status_type =>
    cases status_type <;>
      simp [dispatch, NftSale.set_status_type, NftSale.set_claim_spirits_status,
        NftSale.set_purchase_rare_origin_of_shells_status,
        NftSale.set_purchase_prime_origin_of_shells_status,
        NftSale.set_preorder_origin_of_shells_status, NftSale.set_last_day_of_sale_status] at h <;>
      obtain ⟨o, rfl, ho, rfl⟩ := h <;>
      rfl
  | set_spirit_collection_id cid =>
    simp [dispatch, NftSale.set_spirit_collection_id] at h
    obtain ⟨o, rfl, ho, _, rfl⟩ := h
    rfl
  | set_origin_of_shell_collection_id cid => exact absurd rfl (hset cid)
  | set_spirits_metadata md =>
    simp [dispatch, NftSale.set_spirits_metadata] at h
    obtain ⟨o, rfl, ho, rfl⟩ := h
    rfl
  | set_origin_of_shells_metadata l =>
    simp [dispatch, NftSale.set_origin_of_shells_metadata] at h
    obtain ⟨o, rfl, ho, s₁, hl, rfl⟩ := h
    exact hl.invariant (I := fun s₁ =>
        s₁.sale.origin_of_shell_collection_id = s.sale.origin_of_shell_collection_id)
      (by rintro _ ⟨race, md⟩ _ heq rfl; exact heq) rfl
  | _ => cases hc

omit [DecidableEq AccountId] in
theorem Minted.unmoved {c : CollectionId} {frozen : Bool}
    (hm : Minted o a c frozen s.world s'.world) (hba : a ≠ b) (haside : Aside s s')
    (hc : s'.sale.origin_of_shell_collection_id = s.sale.origin_of_shell_collection_id) :
    Unmoved b s s' :=
  ⟨haside, hc, fun _ _ hi => hm.received.item_iff (hi ▸ Ne.symm hba)⟩

theorem Mints.unmoved (hC : CurrencyLaws T) (hN : NftLaws T) {t : Traits} {price : Nat}
    {pool : NftSaleType} {check : Bool} {c : CollectionId} {i : NftSaleInfo}
    (hm : Mints o a t price pool check c i s s') (hba : a ≠ b) : Unmoved b s s' := by
  have hminted := (hm.minted hC hN).1
  obtain ⟨md, w, rc, cc, _, _, _, _, rfl⟩ := hm.post
  exact hminted.unmoved hba ⟨rfl, rfl, rfl⟩ rfl

/-- A refund moves money only. -/
theorem Unmoved.covers (hC : CurrencyLaws T) (b : AccountId) :
    CoversRounds (T := T) (Unmoved b) where
  refl := .refl b
  trans _ _ _ := .trans
  release s p owner := by
    refine ⟨⟨rfl, rfl, rfl⟩, rfl, ?_⟩
    intro x i _
    have hnfts := (hC.unreserve_eq owner T.PrimeOriginOfShellPrice s.world).2
    show (T.nfts (T.unreserve owner T.PrimeOriginOfShellPrice s.world)).item x = some i ↔ _
    rw [hnfts]
  close _ _ _ _ := ⟨⟨rfl, rfl, rfl⟩, rfl, fun _ _ _ => Iff.rfl⟩

/-- **What spares an account leaves what its tasks look at.** -/
theorem Label.Spares.unmoved (hC : CurrencyLaws T) (hN : NftLaws T) (h : l.Spares b)
    (s : State T) : Unmoved b s (step s l).2 := by
  cases l with
  | call origin c =>
    rcases run_cases (dispatch origin c) s with ⟨⟨⟩, s', hs⟩ | ⟨e, s', hs⟩
    · rw [step, hs]
      show Unmoved b s s'
      cases dispatch_ok hs with
      | configure hconf =>
        have hset : ∀ id, c ≠ .set_origin_of_shell_collection_id id := by
          rintro id rfl
          exact h
        have hcoll := configure_collection hconf.call hset hs
        refine ⟨⟨hconf.incubation, hconf.era, hconf.now⟩, hcoll, ?_⟩
        intro x i _
        rw [hconf.world]
      | spirit hc _ hm =>
        have hminted := (hm.minted hN).1
        obtain ⟨md, w₁, w₂, _, _, _, rfl⟩ := hm.post
        refine hminted.unmoved ?_ ⟨rfl, rfl, rfl⟩ rfl
        rintro rfl
        rcases hc with rfl | ⟨_, rfl⟩ <;> exact h rfl
      | buy hc _ hm =>
        apply hm.unmoved hC hN
        rintro rfl
        rcases hc with ⟨rfl, _⟩ | ⟨_, _, rfl⟩ <;> exact h rfl
      | preorder hp =>
        obtain ⟨md, w, _, hreserve, rfl⟩ := hp.post
        have hnfts := (hC.reserve_ok hreserve).2.2
        refine ⟨⟨rfl, rfl, rfl⟩, rfl, ?_⟩
        intro x i _
        show (T.nfts w).item x = some i ↔ _
        rw [hnfts]
      | mint _ _ => exact h.elim
      | refund _ hl => exact (Unmoved.covers hC b).refund hl
      | gift _ _ hm =>
        have hgift := hm.unmoved hC hN h
        exact hgift.trans ⟨⟨rfl, rfl, rfl⟩, rfl, fun _ _ _ => Iff.rfl⟩
      | init _ _ => exact ⟨⟨rfl, rfl, rfl⟩, rfl, fun _ _ _ => Iff.rfl⟩
      | update _ => exact ⟨⟨rfl, rfl, rfl⟩, rfl, fun _ _ _ => Iff.rfl⟩
      | create _ hcreate =>
        obtain ⟨id, hnfts, _⟩ := hN.create_collection_ok hcreate
        refine ⟨⟨rfl, rfl, rfl⟩, rfl, ?_⟩
        intro x i _
        show (T.nfts _).item x = some i ↔ _
        rw [hnfts, Nfts.create_item]
      | hatch _ => exact h.elim
      | incubate hi => cases hi <;> exact h.elim
    · rw [step, hs, dispatch_error hs]
      exact .refl b s
  | _ => exact h.elim

end others

/-! ### Schedules -/

/-- The states differ in the order of their events only. -/
structure Alike (s t : State T) : Prop where
  state : t = { s with events := t.events }
  events : s.events.Perm t.events

/-- Calls that may be exchanged: tasks that are apart, and a task with what
    spares its account. -/
inductive Independent : Label T → Label T → Prop where
  | tasks {t t' : Task AccountId} : t.Apart T t' → Independent t.call t'.call
  | before {l : Label T} {t : Task AccountId} : l.Spares t.account → Independent l t.call
  | after {l : Label T} {t : Task AccountId} : l.Spares t.account → Independent t.call l

section schedules
variable {s t r : State T} {l l' : Label T}

omit [DecidableEq AccountId] in
theorem Alike.refl (s : State T) : Alike s s := ⟨rfl, .refl _⟩

omit [DecidableEq AccountId] in
theorem Alike.symm (h : Alike s t) : Alike t s := by
  refine ⟨?_, h.events.symm⟩
  rw [h.state]

omit [DecidableEq AccountId] in
theorem Alike.trans (h : Alike s t) (h' : Alike t r) : Alike s r := by
  refine ⟨?_, h.events.trans h'.events⟩
  rw [h'.state, h.state]

omit [DecidableEq AccountId] in
theorem Independent.symm (h : Independent l l') : Independent l' l := by
  cases h with
  | tasks h => exact .tasks h.symm
  | before h => exact .after h
  | after h => exact .before h

omit [DecidableEq AccountId] in
theorem Task.not_spared (t : Task AccountId) (b : AccountId) : ¬ (t.call : Label T).Spares b := by
  cases t <;> exact id

omit [DecidableEq AccountId] in
theorem Independent.ne (h : Independent l l') : l ≠ l' := by
  cases h with
  | tasks h =>
    intro heq
    rw [Task.call_injective heq] at h
    exact Task.not_apart_self _ h
  | before h =>
    rintro rfl
    exact Task.not_spared _ _ h
  | after h =>
    rintro rfl
    exact Task.not_spared _ _ h

/-- No step tells states apart whose events differ in their order. -/
theorem Alike.step (h : Alike s t) (l : Label T) :
    (PhalaWorld.step s l).1 = (PhalaWorld.step t l).1 ∧
      Alike (PhalaWorld.step s l).2 (PhalaWorld.step t l).2 := by
  -- both are one state without events, beside some
  have hs : s = State.beside id s.events { s with events := [] } := by
    unfold State.beside
    dsimp only [id]
    rw [List.append_nil]
  have ht : t = State.beside id t.events { s with events := [] } := by
    unfold State.beside
    dsimp only [id]
    rw [List.append_nil]
    exact h.state
  have hstep := step_unread s.events l { s with events := [] }
  have hstep' := step_unread t.events l { s with events := [] }
  rw [← hs] at hstep
  rw [← ht] at hstep'
  rw [hstep, hstep']
  exact ⟨rfl, rfl, h.events.append_right _⟩

/-- Two tasks that are apart. -/
theorem Task.Apart.swap {u v : Task AccountId} (h : Apart T u v) (s : State T) :
    (step (step s u.call).2 v.call).1 = (step s v.call).1 ∧
    (step s u.call).1 = (step (step s v.call).2 u.call).1 ∧
    Alike (step (step s u.call).2 v.call).2 (step (step s v.call).2 u.call).2 := by
  simp only [step_task]
  cases hu : u.effect s with
  | error e =>
    cases hv : v.effect s with
    | error e' =>
      simp only [perform, hu, hv, true_and]
      exact .refl s
    | ok d' =>
      simp only [perform, hu, hv, h.symm.effect hv, true_and]
      exact .refl _
  | ok d =>
    cases hv : v.effect s with
    | error e' =>
      simp only [perform, hu, hv, h.effect hu, true_and]
      exact .refl _
    | ok d' =>
      simp only [perform, hu, hv, h.effect hu, h.symm.effect hv, true_and]
      constructor
      · unfold State.changed
        dsimp only
        rw [h.comm hu hv]
      · show ((s.events ++ [d.2]) ++ [d'.2]).Perm ((s.events ++ [d'.2]) ++ [d.2])
        rw [List.append_assoc, List.append_assoc]
        exact (List.Perm.swap d'.2 d.2 []).append_left _

/-- A task, and what spares its account. -/
theorem Label.Spares.swap (hC : CurrencyLaws T) (hN : NftLaws T) {u : Task AccountId}
    (h : l.Spares u.account) (s : State T) :
    (step (step s l).2 u.call).1 = (step s u.call).1 ∧
    (step s l).1 = (step (step s u.call).2 l).1 ∧
    Alike (step (step s l).2 u.call).2 (step (step s u.call).2 l).2 := by
  have heffect := (h.unmoved hC hN s).effect hN
  rw [step_task u, step_task u, heffect]
  cases u.effect s with
  | error e => exact ⟨rfl, rfl, .refl _⟩
  | ok d =>
    show _ ∧ (step s l).1 = (step (s.changed d) l).1 ∧
      Alike ((step s l).2.changed d) (step (s.changed d) l).2
    -- the other step does the same beside both incubations
    have hstep := step_blind (fun _ => s.incubation) s.events h.not_incubates
      { s with events := [] }
    have hstep' := step_blind (fun _ => d.1 s.incubation) (s.events ++ [d.2]) h.not_incubates
      { s with events := [] }
    rw [State.beside_bare] at hstep hstep'
    rw [show step s l = _ from hstep, show step (s.changed d) l = _ from hstep']
    refine ⟨rfl, rfl, rfl, ?_⟩
    show ((s.events ++ _) ++ [d.2]).Perm ((s.events ++ [d.2]) ++ _)
    rw [List.append_assoc, List.append_assoc]
    exact List.perm_append_comm.append_left _

theorem exchangeable (hC : CurrencyLaws T) (hN : NftLaws T) :
    Exchangeable (step (T := T)) Independent Alike where
  refl := .refl
  trans _ _ _ := .trans
  congr _ _ l h := h.step l
  swap s l l' h := by
    cases h with
    | tasks h => exact h.swap s
    | before h => exact h.swap hC hN s
    | after h =>
      obtain ⟨htask, hother, halike⟩ := h.swap hC hN s
      exact ⟨hother.symm, htask.symm, halike.symm⟩

end schedules

/-- **Calls in any order.** Two schedules, from any state, that have the
    calls which are not independent in the same order: every call returns
    the same in both, and they leave the same storage, world and clock, and
    the same events but for their order. -/
theorem any_order (hC : CurrencyLaws T) (hN : NftLaws T) {l l' : List (Label T)}
    (h : KeepsOrder Independent l l') (s : State T) :
    (∀ x, results x (exec step s [] l).1 = results x (exec step s [] l').1) ∧
      Alike (exec step s [] l).2 (exec step s [] l').2 :=
  (exchangeable hC hN).exec (fun _ _ => .symm) (fun _ h => h.ne rfl) h s

open Mock in
/-- `ALICE` and `BOB` feed `CHARLIE`'s shell, and `CHARLIE` preorders another
    one before or after. -/
theorem any_order_sample :
    let s := (after (sale 200 ++ [admin (.set_status_type true .LastDayOfSale),
      admin (.set_can_start_incubation_status true),
      .call (.signed CHARLIE) (.start_incubation 1 0)])).2
    let l : List (Label (runtime 200)) :=
      [.call (.signed ALICE) (.feed_origin_of_shell 1 0),
        .call (.signed BOB) (.feed_origin_of_shell 1 0),
        .call (.signed CHARLIE) (.preorder_origin_of_shell .XGene .Web3Monk)]
    let l' : List (Label (runtime 200)) :=
      [.call (.signed CHARLIE) (.preorder_origin_of_shell .XGene .Web3Monk),
        .call (.signed BOB) (.feed_origin_of_shell 1 0),
        .call (.signed ALICE) (.feed_origin_of_shell 1 0)]
    Alike (exec step s [] l).2 (exec step s [] l').2 := by
  intro s l l'
  have hfeeds : Independent (T := runtime 200) (Task.feed ALICE (1, 0)).call
      (Task.feed BOB (1, 0)).call :=
    .tasks ⟨by decide, fun h => by cases h⟩
  have hpreorder (a : AccountId) : Independent (T := runtime 200) (Task.feed a (1, 0)).call
      (.call (.signed CHARLIE) (.preorder_origin_of_shell .XGene .Web3Monk)) :=
    .after trivial
  have hreorders : Reorders Independent l l' :=
    .trans (.swap [] _ hfeeds)
      (.trans (.swap [_] [] (hpreorder ALICE)) (.swap [] _ (hpreorder BOB)))
  have horder := (keepsOrder_iff (fun _ _ => .symm) fun _ h => h.ne rfl).mpr hreorders
  exact (any_order (T := runtime 200) (currency_laws 200) (nft_laws 200) horder s).2

end PhalaWorld
