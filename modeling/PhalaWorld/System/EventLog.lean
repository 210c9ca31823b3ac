import PhalaWorld.Framework.Replay
import PhalaWorld.Sale.Batches
import PhalaWorld.Sale.Inventory

/-! # What the event log tells

    A reader who sees the events of both pallets only, and starts from an
    empty ledger in era 0, knows the pending preorders and their owners, how
    many Origin of Shells of each kind and career were minted, the era, the
    hatch times and the food statistics.

    * `EventLedger`: what the reader keeps, and what each event does to it.
    * `State.ledger`: the same in storage.
    * `step_explained`: each step changes the second as its events change
      the first.
    * `event_log`: they agree in every reachable state.
-/

namespace PhalaWorld

open LTS Transaction

variable {AccountId : Type} {T : Config AccountId}

/-! ### The ledger -/

/-- What is read off the events. -/
@[ext]
structure EventLedger (AccountId : Type) where
  /-- The owners of the pending preorders. -/
  pending : PreorderId → Option AccountId
  race_count : Kind → Nat
  career_type_count : CareerType → Nat
  era : EraId
  hatch_times : CollectionId × NftId → Option Nat
  origin_of_shell_food_stats : EraId × (CollectionId × NftId) → Nat

namespace EventLedger

/-- The reader's ledger before the first event. -/
def empty : EventLedger AccountId where
  pending := fun _ => none
  race_count := fun _ => 0
  career_type_count := fun _ => 0
  era := 0
  hatch_times := fun _ => none
  origin_of_shell_food_stats := fun _ => 0

/-- Counts one more under a key, on `u32`. -/
def count {Key : Type} [DecidableEq Key] (n : Key → Nat) (k : Key) : Key → Nat :=
  Function.update n k ((n k + 1) % 2 ^ 32)

/-- What an event tells its reader. -/
def apply (L : EventLedger AccountId) : Event T → EventLedger AccountId
  | .OriginOfShellPreordered owner preorder_id =>
      { L with pending := Function.update L.pending preorder_id (some owner) }
  | .ChosenPreorderMinted preorder_id _ =>
      { L with pending := Function.update L.pending preorder_id none }
  | .NotChosenPreorderRefunded preorder_id _ =>
      { L with pending := Function.update L.pending preorder_id none }
  | .OriginOfShellMinted rarity_type _ _ _ race career =>
      { L with
        race_count := count L.race_count (rarity_type, race)
        career_type_count := count L.career_type_count career }
  | .NewEra _ era => { L with era := era }
  | .StartedIncubation collection_id nft_id _ _ hatch_time =>
      { L with hatch_times :=
          Function.update L.hatch_times (collection_id, nft_id) (some hatch_time) }
  | .HatchTimeUpdated collection_id nft_id _ new_hatch_time =>
      { L with hatch_times :=
          Function.update L.hatch_times (collection_id, nft_id) (some new_hatch_time) }
  | .OriginOfShellReceivedFood collection_id nft_id _ =>
      { L with origin_of_shell_food_stats :=
          count L.origin_of_shell_food_stats (L.era, (collection_id, nft_id)) }
  | _ => L

theorem apply_setup (L : EventLedger AccountId) {event : Event T} (h : event.isSetup = true) :
    L.apply event = L := by
  cases event <;> first | rfl | cases h

/-- An addition that did not panic counts as the reader does. -/
theorem update_eq_count {Key : Type} [DecidableEq Key] {n : Key → Nat} {k : Key} {m : Nat}
    (h : plain_add T 32 (n k) 1 = .ok m) : Function.update n k m = count n k := by
  unfold count
  rw [plain_add_ok h]

end EventLedger

/-- The same, as the storage of both pallets has it. -/
def State.ledger (s : State T) : EventLedger AccountId where
  pending := s.owner_of
  race_count := s.race_count
  career_type_count := s.sale.career_type_count
  era := s.sale.era
  hatch_times := s.incubation.hatch_times
  origin_of_shell_food_stats := s.incubation.origin_of_shell_food_stats

/-- The events from `s` to `s'` tell how the ledger changed. -/
abbrev Explained (s s' : State T) : Prop :=
  Explains State.events State.ledger EventLedger.apply s s'

/-! ### What is written -/

section writes
variable {s s' : State T} {o a : AccountId}

theorem owner_of_update {p : PreorderId} {x : Option (PreorderInfo AccountId T.Metadata)}
    (h : s'.sale.preorders = Function.update s.sale.preorders p x) :
    s'.owner_of = Function.update s.owner_of p (x.map PreorderInfo.owner) := by
  show Option.map PreorderInfo.owner ∘ s'.sale.preorders = _
  rw [h, Function.comp_update]
  rfl

theorem race_count_update {k : Kind} {x : Option NftSaleInfo}
    (h : s'.sale.origin_of_shells_inventory =
      Function.update s.sale.origin_of_shells_inventory k x) :
    s'.race_count = Function.update s.race_count k (x.elim 0 NftSaleInfo.race_count) := by
  show (fun x => Option.elim x 0 NftSaleInfo.race_count) ∘ s'.sale.origin_of_shells_inventory = _
  rw [h, Function.comp_update]
  rfl

/-- A sale is counted under its kind and career. -/
theorem Mints.ledger {t : Traits} {price : Nat} {pool : NftSaleType} {check : Bool}
    {c : CollectionId} {i : NftSaleInfo} (h : Mints o a t price pool check c i s s') (n : NftId) :
    s'.ledger = s.ledger.apply (T := T)
      (.OriginOfShellMinted t.rarity_type c n a t.race t.career) := by
  have hinfo := h.info
  obtain ⟨md, w, rc, cc, _, _, hrc, hcc, rfl⟩ := h.post
  have hcount : s.race_count (t.rarity_type, t.race) = i.race_count := by
    unfold State.race_count
    rw [hinfo]
    rfl
  rw [← hcount] at hrc
  apply EventLedger.ext
  · rfl
  · exact (race_count_update (s := s) rfl).trans (EventLedger.update_eq_count hrc)
  · exact EventLedger.update_eq_count hcc
  · rfl
  · rfl
  · rfl

/-- A preorder taken out of storage is not pending any more. -/
theorem release_ledger (s : State T) (p : PreorderId) (owner : AccountId) :
    (s.release p owner).ledger =
      { s.ledger with pending := Function.update s.owner_of p none } := by
  have hpre : (s.release p owner).sale.preorders = Function.update s.sale.preorders p none := rfl
  apply EventLedger.ext
  · exact owner_of_update hpre
  · rfl
  · rfl
  · rfl
  · rfl
  · rfl

end writes

/-! ### What is reported -/

section reports
variable {s s' : State T} {o a : AccountId}

theorem Mints.explained {t : Traits} {price : Nat} {pool : NftSaleType} {check : Bool}
    {c : CollectionId} {i : NftSaleInfo} (h : Mints o a t price pool check c i s s') :
    Explained s s' :=
  .one h.events (h.ledger _).symm

theorem MintsSpirit.explained {c : CollectionId} (h : MintsSpirit o a c s s') :
    Explained s s' := by
  obtain ⟨md, w₁, w₂, _, _, _, rfl⟩ := h.post
  exact .one rfl rfl

theorem StartsIncubation.explained {c : CollectionId} {n : NftId}
    (h : StartsIncubation a c n s s') : Explained s s' := by
  obtain rfl := h.post
  exact .one rfl rfl

theorem ReducesHatchTime.explained {x : (CollectionId × NftId) × Nat}
    (h : ReducesHatchTime s x s') : Explained s s' := by
  obtain ⟨t, _, _, rfl⟩ := h
  exact .one rfl rfl

theorem Hatches.explained {c : CollectionId} {n : NftId} {sc : CollectionId} {md : T.Metadata}
    {t : Traits} (h : Hatches o a c n sc md t s s') : Explained s s' := by
  obtain ⟨w, _, rfl⟩ := h.post
  exact .one rfl rfl

variable [DecidableEq AccountId]

theorem Preorders.explained {race : RaceType} {career : CareerType}
    (h : Preorders a race career s s') : Explained s s' := by
  obtain ⟨md, w, _, _, hpost⟩ := h.post
  have hpre : s'.sale.preorders =
      Function.update s.sale.preorders s.sale.preorder_index (some ⟨a, race, career, md⟩) := by
    rw [hpost]
  have howner := owner_of_update hpre
  apply Explains.one
  · rw [hpost]
  · apply EventLedger.ext
    · exact howner.symm
    all_goals
      rw [hpost]
      rfl

/-- A food statistic is counted in the era of the reader. -/
theorem Feeds.explained {c : CollectionId} {n : NftId} (h : Feeds a c n s s') :
    Explained s s' := by
  obtain ⟨food, n, _, hn, rfl⟩ := h.post
  apply Explains.one rfl
  apply EventLedger.ext
  · rfl
  · rfl
  · rfl
  · rfl
  · rfl
  · exact (EventLedger.update_eq_count hn).symm

/-- The preorder is taken out of storage before the mint and reported after it. -/
theorem MintsPreorder.explained {last : Bool} {p : PreorderId}
    (h : MintsPreorder o last s p s') : Explained s s' := by
  obtain ⟨info, c, i, s₁, _, hmint, rfl⟩ := h
  -- taking out a preorder and counting a mint write different parts of the ledger
  have hledger := hmint.ledger (T.NextNftId (s.release p info.owner).world c)
  rw [release_ledger] at hledger
  exact .two (hmint.events_append _) hledger.symm

theorem RefundsPreorder.explained {last : Bool} {p : PreorderId}
    (h : RefundsPreorder last s p s') : Explained s s' := by
  obtain ⟨info, _, rfl⟩ := h
  exact .one rfl (release_ledger s p info.owner).symm

theorem Incubates.explained {origin : Origin AccountId} {c : Call T}
    (h : Incubates s origin c s') : Explained s s' := by
  cases h with
  | start h => exact h.explained
  | feed h => exact h.explained
  | reduce _ h => exact h.explained fun _ _ _ h => h.explained
  | enable _ _ => exact .one rfl rfl
  | shell_collection _ _ => exact .one rfl rfl

end reports

/-! ### Before the inventory is set -/

/-- An inventory that was not set has no entries. -/
def Unstocked (s : State T) : Prop :=
  s.sale.is_origin_of_shells_inventory_set = false →
    ∀ k, s.sale.origin_of_shells_inventory k = none

section unstocked
variable {s s' : State T}

theorem Unstocked.of_eq (h : Unstocked s)
    (hset : s'.sale.is_origin_of_shells_inventory_set = s.sale.is_origin_of_shells_inventory_set)
    (hinv : s'.sale.origin_of_shells_inventory = s.sale.origin_of_shells_inventory) :
    Unstocked s' := by
  unfold Unstocked
  rw [hset, hinv]
  exact h

/-- Where something was sold, the inventory was set. -/
theorem Unstocked.mint {o a : AccountId} {t : Traits} {price : Nat} {pool : NftSaleType}
    {check : Bool} {c : CollectionId} {i : NftSaleInfo} (h : Unstocked s)
    (hm : Mints o a t price pool check c i s s') : Unstocked s' := by
  intro hset
  have hinfo := hm.info
  obtain ⟨md, w, rc, cc, _, _, _, _, rfl⟩ := hm.post
  rw [h hset] at hinfo
  cases hinfo

variable [DecidableEq AccountId]

theorem Unstocked.covers :
    CoversRounds fun s s' : State T => Unstocked s → Unstocked s' where
  refl _ h := h
  trans _ _ _ h h' hs := h' (h hs)
  release _ _ _ h := h
  close _ _ _ _ h := h

theorem Unstocked.step {l : Label T} {r : Outcome T} (h : Unstocked s) (hs : Traded s l r s') :
    Unstocked s' := by
  cases hs with
  | quiet hq _ => exact h.of_eq hq.inventory_set hq.inventory
  | spirit _ hm _ =>
    obtain ⟨md, w₁, w₂, _, _, _, rfl⟩ := hm.post
    exact h
  | buy _ hm _ => exact h.mint hm
  | preorder hp =>
    obtain ⟨md, w, _, _, rfl⟩ := hp.post
    exact h
  | mint _ hl => exact Unstocked.covers.mint (fun hm hs => hs.mint hm) hl h
  | refund _ hl => exact Unstocked.covers.refund hl h
  | gift _ _ hm =>
    have hminted := h.mint hm
    exact hminted
  | init _ =>
    intro hset
    cases hset
  | update =>
    intro hset k
    show (if k.1 = .Prime then (s.sale.origin_of_shells_inventory k).map _
      else s.sale.origin_of_shells_inventory k) = none
    rw [h hset k]
    split <;> rfl
  | create _ _ => exact h
  | hatch hh =>
    obtain ⟨w, _, rfl⟩ := hh.post
    exact h
  | outside => exact h

end unstocked

/-! ### Steps and runs -/

section steps
variable [DecidableEq AccountId] {s s' : State T}

omit [DecidableEq AccountId] in
/-- What is configured is not in the ledger. -/
theorem Configures.ledger {c : Call T} (h : Configures c s s') : s'.ledger = s.ledger := by
  unfold State.ledger
  congr 1
  · unfold State.owner_of
    rw [h.preorders]
  · unfold State.race_count
    rw [h.inventory]
  · exact h.career_type_count
  · exact h.era
  · rw [h.incubation]
  · rw [h.incubation]

omit [DecidableEq AccountId] in
/-- The counts start at zero, where there were none. -/
theorem init_ledger (hblank : ∀ k, s.sale.origin_of_shells_inventory k = none) (k : Kind) :
    s.race_count k = (initial_nft_sale_info k.1).race_count := by
  unfold State.race_count
  rw [hblank k]
  obtain ⟨r, ra⟩ := k
  cases r <;> rfl

omit [DecidableEq AccountId] in
/-- A top-up does not touch the counts. -/
theorem update_ledger (s : State T) (fs g : Nat) (k : Kind) : s.race_count k =
    (if k.1 = .Prime then (s.sale.origin_of_shells_inventory k).map fun i => i.add fs g
      else s.sale.origin_of_shells_inventory k).elim 0 NftSaleInfo.race_count := by
  unfold State.race_count
  split
  · cases s.sale.origin_of_shells_inventory k <;> rfl
  · rfl

/-- Every call reports what it did to the ledger. -/
theorem dispatch_explained {origin : Origin AccountId} {c : Call T} (hu : Unstocked s)
    (h : dispatch origin c s = (.ok (), s')) : Explained s s' := by
  cases dispatch_ok h with
  | configure hconf =>
    -- the reader passes over these events
    obtain ⟨_, evs, hevs, hsetup⟩ := configures_by hconf.call h
    apply Explains.of_ignored hevs
    · intro event hmem
      exact EventLedger.apply_setup _ (hsetup event hmem)
    · exact hconf.ledger
  | spirit _ _ h => exact h.explained
  | buy _ _ h => exact h.explained
  | preorder h => exact h.explained
  | mint _ h => exact h.explained fun _ _ _ h => h.explained
  | refund _ h => exact h.explained fun _ _ _ h => h.explained
  | gift _ _ hm => exact hm.explained.trans (.one rfl rfl)
  | init _ hset =>
    -- the event tells nothing: no kind had been counted, and all start at zero
    apply Explains.one rfl
    apply EventLedger.ext
    · rfl
    · exact funext (init_ledger (hu hset))
    · rfl
    · rfl
    · rfl
    · rfl
  | update _ =>
    apply Explains.one rfl
    apply EventLedger.ext
    · rfl
    · exact funext (update_ledger s _ _)
    · rfl
    · rfl
    · rfl
    · rfl
  | create _ _ => exact .of_eq rfl rfl
  | hatch h => exact h.explained
  | incubate h => exact h.explained

theorem step_explained (hu : Unstocked s) (l : Label T) : Explained s (step s l).2 := by
  cases l with
  | call origin c =>
    rcases run_cases (dispatch origin c) s with ⟨⟨⟩, s', h⟩ | ⟨e, s', h⟩
    · rw [step, h]
      exact dispatch_explained hu h
    · -- what was deposited before the failure is rolled back
      rw [step, h, dispatch_error h]
      exact .refl s
  | on_finalize =>
    have hs := stepped s .on_finalize
    generalize step s .on_finalize = x at hs ⊢
    obtain ⟨r, s'⟩ := x
    cases hs with
    | fails => exact .refl _
    | idle => exact .refl _
    | new_era => exact .one rfl rfl
  | set_timestamp now => exact .of_eq rfl rfl
  | outside w => exact .of_eq rfl rfl

end steps

/-- **The event log.** In every reachable state, replaying the events of
    the run from an empty ledger in era 0 gives what is in storage. A step
    that fails deposits nothing and changes nothing. -/
theorem event_log [DecidableEq AccountId] {ok : Entry T → Prop} {g : GenesisConfig AccountId}
    {w : T.World} {now : UInt64} {tr : List (Entry T)} {s : State T} (hera : g.era = 0)
    (h : Runs ok (genesis g w now) tr s) :
    replay EventLedger.apply EventLedger.empty (history emitted tr) = s.ledger ∧
      ∀ e ∈ tr, succeeded e = false → emitted e = [] ∧ e.post = e.pre := by
  have hinit : Unstocked (genesis g w now) := fun _ _ => rfl
  have hkeep (s : State T) (l : Label T) (hu : Unstocked s) (_ : ok (entry step s l)) :
      Unstocked (step s l).2 := hu.step (stepped s l).traded
  have hstep (s : State T) (l : Label T) (hu : Unstocked s) (_ : ok (entry step s l)) :
      Explained s (step s l).2 := step_explained hu l
  have hlog : s.events = history emitted tr := Run.log_eq_history hinit hkeep hstep h
  have hempty : (genesis g w now).ledger = EventLedger.empty := by
    apply EventLedger.ext
    · rfl
    · rfl
    · rfl
    · show g.era.toNat = 0
      rw [hera]
      rfl
    · rfl
    · rfl
  constructor
  · rw [← hlog, ← hempty]
    exact (Run.explained hinit hkeep hstep h).replayed rfl
  · intro e he hfail
    have hsame := Runs.failed h he hfail
    refine ⟨?_, hsame⟩
    unfold emitted
    rw [hsame, List.drop_length]

open Mock in
/-- From the log of the sample hatch one learns when the shell was to hatch. -/
theorem event_log_hatching :
    replay EventLedger.apply EventLedger.empty (history emitted (after (hatching 200)).1) =
      (after (hatching 200)).2.ledger ∧
    (after (hatching 200)).2.ledger.hatch_times (1, 0) = some 500 := by
  have hrun : Runs (fun _ => True) (genesis₀ 200) (after (hatching 200)).1
      (after (hatching 200)).2 := Run.exec (p := fun _ => True) .nil (by simp)
  exact ⟨(event_log (T := runtime 200) (g := GenesisConfig.default) (w := world₀) rfl hrun).1,
    by decide +kernel⟩

end PhalaWorld
