import PhalaWorld.Shells.Hatching
import PhalaWorld.System.Audit

/-! # What comes first

    The order of the set-up, as the event log of a chain that starts with
    the default configuration shows it. Nothing is minted before there is
    an Overlord, two collections, metadata and an inventory, nothing is
    settled that was not preordered, nothing hatches that was not put to
    incubate; and what happens once does not happen twice.

    * `Prepared`: what is in the log before an event, and what is not.
    * `Kept.…_set`: what is set in the books was set by an event of the log.
    * `set_up_first`: in every run, every event was prepared.
-/

namespace PhalaWorld

open LTS Transaction

variable {AccountId : Type} {T : Config AccountId}

/-! ### Preparation -/

/-- There was an Overlord. -/
def Appointed (before : List (Event T)) : Prop :=
  ∃ old new, .OverlordChanged old new ∈ before

/-- The race was given metadata. -/
def Titled (before : List (Event T)) (race : RaceType) : Prop :=
  ∃ metadata, race ∈ metadata.map Prod.fst ∧ .OriginOfShellsMetadataSet metadata ∈ before

/-- The Origin of Shell was put to incubate. -/
def StartedBefore (before : List (Event T)) (collection_id : CollectionId) (nft_id : NftId) : Prop :=
  ∃ owner start_time hatch_time,
    .StartedIncubation collection_id nft_id owner start_time hatch_time ∈ before

/-- Something of the rarity was minted for the account. -/
def MintedFor (before : List (Event T)) (rarity_type : RarityType) (owner : AccountId) : Prop :=
  ∃ collection_id nft_id race career,
    .OriginOfShellMinted rarity_type collection_id nft_id owner race career ∈ before

/-- Events that number what they report. -/
def Event.isNewEra : Event T → Bool
  | .NewEra .. => true
  | _ => false

def Event.isPreordered : Event T → Bool
  | .OriginOfShellPreordered .. => true
  | _ => false

/-- What is in the log before an event; of what happens once, that it has not
    happened; and of what is numbered, how often it has. -/
def Prepared (before : List (Event T)) : Event T → Prop
  | .OverlordChanged _ _ => True
  | .WorldClockStarted _ => Appointed before ∧ ∀ t, .WorldClockStarted t ∉ before
  | .NewEra _ era =>
      (∃ t, .WorldClockStarted t ∈ before) ∧ era = before.countP Event.isNewEra + 1
  | .SpiritClaimed _ collection_id _ =>
      .ClaimSpiritStatusChanged true ∈ before ∧ .SpiritCollectionIdSet collection_id ∈ before ∧
        ∃ metadata, .SpiritsMetadataSet metadata ∈ before
  | .OriginOfShellPreordered _ preorder_id =>
      (∃ c, .SpiritCollectionIdSet c ∈ before) ∧
        (∃ c, .OriginOfShellCollectionIdSet c ∈ before) ∧ (∃ race, Titled before race) ∧
        preorder_id = before.countP Event.isPreordered
  | .OriginOfShellMinted _ collection_id _ _ race _ =>
      Appointed before ∧ (∃ c, .SpiritCollectionIdSet c ∈ before) ∧
        .OriginOfShellCollectionIdSet collection_id ∈ before ∧ Titled before race ∧
        .OriginOfShellsInventoryWasSet true ∈ before
  | .ChosenPreorderMinted preorder_id owner =>
      .OriginOfShellPreordered owner preorder_id ∈ before ∧ MintedFor before .Prime owner
  | .NotChosenPreorderRefunded preorder_id owner =>
      .OriginOfShellPreordered owner preorder_id ∈ before
  | .OriginOfShellGiftedToOwner owner _ => ∃ rarity_type, MintedFor before rarity_type owner
  | .SpiritCollectionIdSet _ => Appointed before ∧ ∀ c, .SpiritCollectionIdSet c ∉ before
  | .OriginOfShellCollectionIdSet _ =>
      Appointed before ∧ ∀ c, .OriginOfShellCollectionIdSet c ∉ before
  | .ShellCollectionIdSet _ => Appointed before ∧ ∀ c, .ShellCollectionIdSet c ∉ before
  | .OriginOfShellsInventoryWasSet _ =>
      Appointed before ∧ ∀ status, .OriginOfShellsInventoryWasSet status ∉ before
  | .StartedIncubation collection_id nft_id _ _ hatch_time =>
      .OriginOfShellCollectionIdSet collection_id ∈ before ∧
        (∃ start_time, .CanStartIncubationStatusChanged true start_time hatch_time ∈ before) ∧
        ¬ StartedBefore before collection_id nft_id
  | .OriginOfShellReceivedFood collection_id nft_id _
  | .HatchTimeUpdated collection_id nft_id _ _ => StartedBefore before collection_id nft_id
  | .ShellAwakened collection_id _ _ =>
      .ShellCollectionIdSet collection_id ∈ before ∧
        ∃ egg_collection_id nft_id, StartedBefore before egg_collection_id nft_id
  | .LastDayOfSaleStatusChanged _ => False
  | .OriginOfShellInventoryUpdated _ | .ClaimSpiritStatusChanged _
  | .PurchaseRareOriginOfShellsStatusChanged _ | .PurchasePrimeOriginOfShellsStatusChanged _
  | .PreorderOriginOfShellsStatusChanged _ | .SpiritsMetadataSet _
  | .OriginOfShellsMetadataSet _ | .CanStartIncubationStatusChanged _ _ _ => Appointed before

/-! ### What put it there -/

/-- The books of a log that starts with the default configuration. -/
abbrev Kept [DecidableEq AccountId] (evs : List (Event T)) (B : Books T) : Prop :=
  Audit Admissible Books.apply GenesisConfig.default.books evs B

section registers
variable [DecidableEq AccountId]

theorem zero_day_register :
    Register (Books.apply (T := T)) (fun B => B.settings.zero_day) .WorldClockStarted := by
  refine ⟨fun _ _ => rfl, ?_⟩
  intro B event hne
  cases event <;> first | rfl | exact absurd rfl (hne _)

theorem spirit_collection_register :
    Register (Books.apply (T := T)) (fun B => B.settings.spirit_collection_id)
      .SpiritCollectionIdSet := by
  refine ⟨fun _ _ => rfl, ?_⟩
  intro B event hne
  cases event <;> first | rfl | exact absurd rfl (hne _)

theorem origin_of_shell_collection_register :
    Register (Books.apply (T := T)) (fun B => B.settings.origin_of_shell_collection_id)
      .OriginOfShellCollectionIdSet := by
  refine ⟨fun _ _ => rfl, ?_⟩
  intro B event hne
  cases event <;> first | rfl | exact absurd rfl (hne _)

theorem shell_collection_register :
    Register (Books.apply (T := T)) (fun B => B.settings.shell_collection_id)
      .ShellCollectionIdSet := by
  refine ⟨fun _ _ => rfl, ?_⟩
  intro B event hne
  cases event <;> first | rfl | exact absurd rfl (hne _)

theorem spirits_metadata_register :
    Register (Books.apply (T := T)) (fun B => B.settings.spirits_metadata)
      .SpiritsMetadataSet := by
  refine ⟨fun _ _ => rfl, ?_⟩
  intro B event hne
  cases event <;> first | rfl | exact absurd rfl (hne _)

theorem era_counter : Counter Admissible (Books.apply (T := T)) (fun B => B.ledger.era)
    Event.isNewEra := by
  constructor
  · intro B event hok hnew
    cases event with
    | NewEra t era => exact hok.1
    | _ => cases hnew
  · intro B event hold
    cases event <;> first | rfl | cases hold

theorem index_counter : Counter Admissible (Books.apply (T := T))
    (fun B => B.settings.preorder_index) Event.isPreordered := by
  constructor
  · intro B event hok hnew
    cases event with
    | OriginOfShellPreordered a p => exact congrArg Nat.succ hok.1
    | _ => cases hnew
  · intro B event hold
    cases event <;> first | rfl | cases hold

end registers

/-- Metadata is only found where it was put. -/
theorem replay_put_ne_none {l : List (RaceType × T.Metadata)} {race : RaceType}
    {m : RaceType → Option T.Metadata} (hold : ¬ m race ≠ none)
    (h : replay put m (l.map fun x => (x.1, some x.2)) race ≠ none) :
    race ∈ l.map Prod.fst := by
  induction l generalizing m with
  | nil => exact absurd h hold
  | cons x l ih =>
    by_cases hx : x.1 = race
    · rw [← hx]
      exact List.mem_cons_self
    · apply List.mem_cons_of_mem
      refine ih (m := put m (x.1, some x.2)) ?_ h
      show ¬ Function.update m x.1 (some x.2) race ≠ none
      rw [Function.update_of_ne (Ne.symm hx)]
      exact hold

section causes
variable [DecidableEq AccountId] {evs : List (Event T)} {B : Books T}

theorem Kept.overlord_set (h : Kept evs B) (hB : B.settings.overlord ≠ none) :
    Appointed evs := by
  obtain ⟨event, hmem, L, hno, _, hyes⟩ :=
    h.cause (P := fun B => B.settings.overlord ≠ none) (fun hne => hne rfl) hB
  cases event <;> first | exact absurd hyes hno | exact ⟨_, _, hmem⟩

theorem Kept.can_claim_set (h : Kept evs B) (hB : B.settings.can_claim_spirits = true) :
    .ClaimSpiritStatusChanged true ∈ evs := by
  obtain ⟨event, hmem, L, hno, _, hyes⟩ :=
    h.cause (P := fun B => B.settings.can_claim_spirits = true) nofun hB
  cases event with
  | ClaimSpiritStatusChanged status =>
    obtain rfl : status = true := hyes
    exact hmem
  | _ => exact absurd hyes hno

theorem Kept.inventory_set (h : Kept evs B)
    (hB : B.settings.is_origin_of_shells_inventory_set = true) :
    .OriginOfShellsInventoryWasSet true ∈ evs := by
  obtain ⟨event, hmem, L, hno, _, hyes⟩ :=
    h.cause (P := fun B => B.settings.is_origin_of_shells_inventory_set = true) nofun hB
  cases event with
  | OriginOfShellsInventoryWasSet status =>
    obtain rfl : status = true := hyes
    exact hmem
  | _ => exact absurd hyes hno

/-- The inventory is only ever announced as set. -/
theorem Kept.inventory_unset (h : Kept evs B)
    (hB : B.settings.is_origin_of_shells_inventory_set = false) (status : Bool) :
    .OriginOfShellsInventoryWasSet status ∉ evs := by
  intro hmem
  have hset : B.settings.is_origin_of_shells_inventory_set = true := by
    refine h.stable (I := fun _ => True)
      (P := fun B => B.settings.is_origin_of_shells_inventory_set = true) trivial
      (fun _ _ _ _ => trivial) ?_ ?_ hmem
    · intro L event _ hok hset
      cases event with
      | OriginOfShellsInventoryWasSet status => exact hok.2.1
      | _ => exact hset
    · intro L _ hok
      exact hok.2.1
  rw [hB] at hset
  cases hset

/-- The incubation that is on was opened for this hatch time. -/
theorem Kept.incubation_set {t : Nat} (h : Kept evs B)
    (hB : B.settings.can_start_incubation = true ∧ B.settings.official_hatch_time = t) :
    ∃ start_time, .CanStartIncubationStatusChanged true start_time t ∈ evs := by
  obtain ⟨event, hmem, L, hno, _, hyes⟩ :=
    h.cause (P := fun B => B.settings.can_start_incubation = true ∧
      B.settings.official_hatch_time = t) (fun hset => by cases hset.1) hB
  cases event with
  | CanStartIncubationStatusChanged status start_time hatch_time =>
    obtain ⟨rfl, rfl⟩ : status = true ∧ hatch_time = t := hyes
    exact ⟨start_time, hmem⟩
  | _ => exact absurd hyes hno

theorem Kept.metadata_set {race : RaceType} (h : Kept evs B)
    (hB : B.settings.origin_of_shells_metadata race ≠ none) : Titled evs race := by
  obtain ⟨event, hmem, L, hno, _, hyes⟩ :=
    h.cause (P := fun B => B.settings.origin_of_shells_metadata race ≠ none)
      (fun hne => hne rfl) hB
  cases event with
  | OriginOfShellsMetadataSet metadata => exact ⟨metadata, replay_put_ne_none hno hyes, hmem⟩
  | _ => exact absurd hyes hno

theorem Kept.pending_set {p : PreorderId} {owner : AccountId} (h : Kept evs B)
    (hB : B.ledger.pending p = some owner) : .OriginOfShellPreordered owner p ∈ evs := by
  obtain ⟨event, hmem, L, hno, _, hyes⟩ :=
    h.cause (P := fun B => B.ledger.pending p = some owner) nofun hB
  have hclosed (q : PreorderId)
      (hq : Function.update L.ledger.pending q none p = some owner) : False := by
    by_cases hpq : p = q
    · subst hpq
      rw [Function.update_self] at hq
      cases hq
    · rw [Function.update_of_ne hpq] at hq
      exact hno hq
  cases event with
  | OriginOfShellPreordered a q =>
    have hq : Function.update L.ledger.pending q (some a) p = some owner := hyes
    by_cases hpq : p = q
    · subst hpq
      rw [Function.update_self] at hq
      rw [← Option.some.inj hq]
      exact hmem
    · rw [Function.update_of_ne hpq] at hq
      exact absurd hq hno
  | ChosenPreorderMinted q a => exact (hclosed q hyes).elim
  | NotChosenPreorderRefunded q a => exact (hclosed q hyes).elim
  | _ => exact absurd hyes hno

/-- A hatch time is updated only where there is one. -/
theorem Kept.hatch_time_set {c : CollectionId} {n : NftId} (h : Kept evs B)
    (hB : B.ledger.hatch_times (c, n) ≠ none) : StartedBefore evs c n := by
  obtain ⟨event, hmem, L, hno, hok, hyes⟩ :=
    h.cause (P := fun B => B.ledger.hatch_times (c, n) ≠ none) (fun hne => hne rfl) hB
  cases event with
  | StartedIncubation c' n' a start_time hatch_time =>
    have hy : Function.update L.ledger.hatch_times (c', n') (some hatch_time) (c, n) ≠ none :=
      hyes
    by_cases hx : (c, n) = (c', n')
    · cases hx
      exact ⟨a, start_time, hatch_time, hmem⟩
    · rw [Function.update_of_ne hx] at hy
      exact absurd hy hno
  | HatchTimeUpdated c' n' old new =>
    have hy : Function.update L.ledger.hatch_times (c', n') (some new) (c, n) ≠ none := hyes
    by_cases hx : (c, n) = (c', n')
    · cases hx
      rw [hok.2.2.1] at hno
      exact (hno nofun).elim
    · rw [Function.update_of_ne hx] at hy
      exact absurd hy hno
  | _ => exact absurd hyes hno

/-- A hatch time is never taken back. -/
theorem Kept.hatch_time_unset {c : CollectionId} {n : NftId} (h : Kept evs B)
    (hB : B.ledger.hatch_times (c, n) = none) : ¬ StartedBefore evs c n := by
  have hupdate (m : CollectionId × NftId → Option Nat) (x : CollectionId × NftId) (t : Nat)
      (hm : m (c, n) ≠ none) : Function.update m x (some t) (c, n) ≠ none := by
    by_cases hx : (c, n) = x
    · rw [hx, Function.update_self]
      exact nofun
    · rw [Function.update_of_ne hx]
      exact hm
  rintro ⟨a, start_time, hatch_time, hmem⟩
  have hset : B.ledger.hatch_times (c, n) ≠ none := by
    refine h.stable (I := fun _ => True) (P := fun B => B.ledger.hatch_times (c, n) ≠ none)
      trivial (fun _ _ _ _ => trivial) ?_ ?_ hmem
    · intro L event _ _ hne
      cases event with
      | StartedIncubation c' n' a start_time hatch_time => exact hupdate _ _ _ hne
      | HatchTimeUpdated c' n' old new => exact hupdate _ _ _ hne
      | _ => exact hne
    · intro L _ _
      show Function.update L.ledger.hatch_times (c, n) (some hatch_time) (c, n) ≠ none
      rw [Function.update_self]
      exact nofun
  exact hset hB

/-- The event before is in the log. -/
theorem Kept.last_mem {event : Event T} (h : Kept evs B) (hB : B.last = some event) :
    event ∈ evs := by
  have hlast : (replay Books.apply GenesisConfig.default.books evs).last = some event := by
    rw [h.replayed]
    exact hB
  rw [replay_last] at hlast
  cases hend : evs.getLast? with
  | none =>
    rw [hend] at hlast
    cases hlast
  | some event' =>
    rw [hend] at hlast
    rw [← Option.some.inj hlast]
    exact List.mem_of_getLast? hend

/-- What is admissible in the books of a log was prepared in the log. -/
theorem Kept.prepared {event : Event T} (h : Kept evs B) (hok : Admissible B event) :
    Prepared evs event := by
  -- what is not `none` was written to a register
  have hwritten {Value : Type} {field : Books T → Option Value} {written : Value → Event T}
      (hr : Register Books.apply field written) (hstart : field GenesisConfig.default.books = none)
      (hB : field B ≠ none) : ∃ x, written x ∈ evs := by
    obtain ⟨x, hx⟩ := Option.ne_none_iff_exists'.mp hB
    exact ⟨x, hr.written h hstart hx⟩
  cases event with
  | OverlordChanged old new => trivial
  | LastDayOfSaleStatusChanged status => exact hok
  | WorldClockStarted t =>
    exact ⟨h.overlord_set hok.1, zero_day_register.unwritten h hok.2.1⟩
  | NewEra t era =>
    obtain ⟨hera, z, hz, _, _⟩ := hok
    have hcount := era_counter.count h
    refine ⟨⟨z, zero_day_register.written h rfl hz⟩, ?_⟩
    rw [hera, hcount]
    exact congrArg Nat.succ (Nat.zero_add _)
  | SpiritClaimed a c n =>
    obtain ⟨hflag, _, hc, hmd⟩ := hok
    exact ⟨h.can_claim_set hflag, spirit_collection_register.written h rfl hc,
      hwritten spirits_metadata_register rfl hmd⟩
  | OriginOfShellPreordered a p =>
    obtain ⟨hp, _, hsp, hos, race, hmd⟩ := hok
    have hcount := index_counter.count h
    refine ⟨hwritten spirit_collection_register rfl hsp,
      hwritten origin_of_shell_collection_register rfl hos, ⟨race, h.metadata_set hmd⟩, ?_⟩
    rw [hp, hcount]
    exact Nat.zero_add _
  | OriginOfShellMinted r c n a race career =>
    obtain ⟨ho, hsp, hc, hmd, hset, _⟩ := hok
    exact ⟨h.overlord_set ho, hwritten spirit_collection_register rfl hsp,
      origin_of_shell_collection_register.written h rfl hc, h.metadata_set hmd,
      h.inventory_set hset⟩
  | ChosenPreorderMinted p owner =>
    obtain ⟨hpending, c, n, race, career, hlast⟩ := hok
    exact ⟨h.pending_set hpending, c, n, race, career, h.last_mem hlast⟩
  | NotChosenPreorderRefunded p owner => exact h.pending_set hok.2
  | OriginOfShellGiftedToOwner owner pool =>
    obtain ⟨_, r, c, n, race, career, hlast⟩ := hok
    exact ⟨r, c, n, race, career, h.last_mem hlast⟩
  | SpiritCollectionIdSet c =>
    exact ⟨h.overlord_set hok.1, spirit_collection_register.unwritten h hok.2⟩
  | OriginOfShellCollectionIdSet c =>
    exact ⟨h.overlord_set hok.1, origin_of_shell_collection_register.unwritten h hok.2⟩
  | ShellCollectionIdSet c =>
    exact ⟨h.overlord_set hok.1, shell_collection_register.unwritten h hok.2⟩
  | OriginOfShellsInventoryWasSet status =>
    exact ⟨h.overlord_set hok.1, h.inventory_unset hok.2.2⟩
  | StartedIncubation c n a start_time t =>
    obtain ⟨henabled, hc, hnone, ht⟩ := hok
    exact ⟨origin_of_shell_collection_register.written h rfl hc,
      h.incubation_set ⟨henabled, ht.symm⟩, h.hatch_time_unset hnone⟩
  | OriginOfShellReceivedFood c n a => exact h.hatch_time_set hok.2.2.1
  | HatchTimeUpdated c n old new =>
    obtain ⟨_, _, hold, _⟩ := hok
    exact h.hatch_time_set (by rw [hold]; exact nofun)
  | ShellAwakened sc n a =>
    obtain ⟨_, _, hsc, c, n', _, ht⟩ := hok
    exact ⟨shell_collection_register.written h rfl hsc, c, n', h.hatch_time_set ht⟩
  | OriginOfShellInventoryUpdated r => exact h.overlord_set hok.1
  | CanStartIncubationStatusChanged status start_time t => exact h.overlord_set hok.1
  | ClaimSpiritStatusChanged status => exact h.overlord_set hok
  | PurchaseRareOriginOfShellsStatusChanged status => exact h.overlord_set hok
  | PurchasePrimeOriginOfShellsStatusChanged status => exact h.overlord_set hok
  | PreorderOriginOfShellsStatusChanged status => exact h.overlord_set hok
  | SpiritsMetadataSet md => exact h.overlord_set hok
  | OriginOfShellsMetadataSet md => exact h.overlord_set hok

end causes

/-- **What comes first.** On a chain that starts with the default
    configuration, every event of every run was prepared by the events
    before it. -/
theorem set_up_first [DecidableEq AccountId] {ok : Entry T → Prop} {w : T.World} {now : UInt64}
    {tr : List (Entry T)} {s : State T} {before after : List (Event T)} {event : Event T}
    (h : Runs ok (genesis GenesisConfig.default w now) tr s)
    (hlog : s.events = before ++ event :: after) : Prepared before event := by
  have haudit := h.audited
  rw [hlog] at haudit
  have hbefore : Kept before (replay Books.apply GenesisConfig.default.books before) :=
    haudit.initial
  exact hbefore.prepared haudit.split

open Mock in
/-- The last event of the sample season is a hatch: something was put to
    incubate before, and the collection of the Shells was set. -/
theorem set_up_first_hatching : ∃ before c n a,
    (after (hatching 200)).2.events = before ++ [.ShellAwakened c n a] ∧
      .ShellCollectionIdSet c ∈ before ∧ ∃ egg n', StartedBefore before egg n' := by
  have hrun : Runs (fun _ => True) (genesis₀ 200) (after (hatching 200)).1
      (after (hatching 200)).2 := Run.exec (p := fun _ => True) .nil (by simp)
  have hlast : (after (hatching 200)).2.events.getLast?.any
      (fun event => (event.hatch (admin (.hatch_origin_of_shell 1 0 md))).isSome) = true := by
    decide +kernel
  cases hevent : (after (hatching 200)).2.events.getLast? with
  | none => simp [hevent] at hlast
  | some event =>
    obtain ⟨before, hlog⟩ := List.getLast?_eq_some_iff.mp hevent
    have hprepared : Prepared before event := set_up_first (w := world₀) hrun hlog
    cases event with
    | ShellAwakened c n a => exact ⟨before, c, n, a, hlog, hprepared⟩
    | _ => simp [hevent, Event.hatch] at hlast

end PhalaWorld
