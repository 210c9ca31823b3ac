import PhalaWorld.Shells.Biography
import PhalaWorld.Shells.AfterHatch
import PhalaWorld.Shells.Soulbound

/-! # Every Origin of Shell lives by the automaton

    The two pallets keep a shell's item, its traits and its hatch time in
    three places, and eight calls write to them. Together they refine one
    copy of `Stage.after` for every id of the collection.

    * `Tale`: what a step tells of the shells, deed by deed.
    * `step_tale`: what a step tells is what its events say.
    * `StartedOfficially`: what an incubation starts with.
    * `life_cycle`: the deeds of every run are biographies.
-/

namespace PhalaWorld

open LTS Tokens

variable {AccountId : Type} {T : Config AccountId}

/-! ### The view and the deeds -/

/-- The stage of a shell, given its item with the traits, and its hatch time. -/
def Stage.of : Option (Item AccountId T.Metadata × Option Traits) → Option Nat → Stage AccountId
  | some (i, some traits), none => .live i.owner traits
  | some (i, some traits), some t => .incubating i.owner traits t
  | none, some t => .hatched t
  | _, _ => .unborn

/-- The stage of the shell `n` of `c`. -/
def stage (c : CollectionId) (s : State T) (n : NftId) : Stage AccountId :=
  .of (T.listed s.world c n) (s.incubation.hatch_times (c, n))

/-- The deed an event reports, with the shell of `c` it is about. The event
    of a hatch names the new Shell, and the call the one that is hatched. -/
def Event.deed (c : CollectionId) (l : Label T) (now : Nat) :
    Event T → Option (NftId × Deed AccountId)
  | .OriginOfShellMinted rarity_type d n owner race career =>
      if d = c then some (n, .born owner ⟨rarity_type, race, career, 0⟩) else none
  | .StartedIncubation d n owner _ hatch_time =>
      if d = c then some (n, .started owner hatch_time) else none
  | .OriginOfShellReceivedFood d n _ => if d = c then some (n, .fed now) else none
  | .HatchTimeUpdated d n old new => if d = c then some (n, .rescheduled old new) else none
  | .ShellAwakened _ _ owner => match l with
    | .call _ (.hatch_origin_of_shell d n _) =>
        if d = c then some (n, .hatched owner now) else none
    | _ => none
  | _ => none

/-- The deeds of one step. -/
def deeds (c : CollectionId) (e : Entry T) : List (NftId × Deed AccountId) :=
  (emitted e).filterMap (Event.deed c e.label e.pre.now)

/-- Every incubation of a run started with the hatch time that was official in
    the state before. -/
def StartedOfficially (c : CollectionId) (tr : List (Entry T)) : Prop :=
  ∀ e ∈ tr, ∀ n a t, (n, .started a t) ∈ deeds c e → t = e.pre.incubation.official_hatch_time

theorem StartedOfficially.cons {c : CollectionId} {e : Entry T} {tr : List (Entry T)}
    (h : StartedOfficially c tr)
    (he : ∀ n a t, (n, .started a t) ∈ deeds c e → t = e.pre.incubation.official_hatch_time) :
    StartedOfficially c (e :: tr) :=
  List.forall_mem_cons.mpr ⟨he, h⟩

theorem Event.deed_of_isSetup {c : CollectionId} {l : Label T} {now : Nat} {event : Event T}
    (h : event.isSetup = true) : event.deed c l now = none := by
  cases event <;> first | rfl | cases h

/-! ### What a step tells -/

/-- The shells of `c` have ids that were handed out and are frozen, with
    traits; what has a hatch time was minted, and if it is gone, that time is
    past. -/
structure Cared (c : CollectionId) (s : State T) : Prop where
  listed : ∀ n x, T.listed s.world c n = some x →
    n < (T.nfts s.world).next c ∧ x.1.frozen = true ∧ x.2.isSome = true
  timed : ∀ n t, s.incubation.hatch_times (c, n) = some t →
    n < (T.nfts s.world).next c ∧ (T.listed s.world c n = none → t < s.now)

/-- The deeds that lead the shells of `c` from `s` to `s'`, where `official` is
    the hatch time an incubation starts with. -/
inductive Tale (c : CollectionId) (official : Nat) :
    State T → List (NftId × Deed AccountId) → State T → Prop where
  | idle {s s'} : T.listed s'.world c = T.listed s.world c →
      (T.nfts s'.world).next c = (T.nfts s.world).next c →
      s'.incubation.hatch_times = s.incubation.hatch_times → s.now ≤ s'.now →
      Tale c official s [] s'
  | born {s s' a t md} : T.listed s'.world c =
        Function.update (T.listed s.world c) ((T.nfts s.world).next c)
          (some (⟨a, true, md⟩, some t)) →
      (T.nfts s'.world).next c = (T.nfts s.world).next c + 1 →
      s'.incubation.hatch_times = s.incubation.hatch_times → s'.now = s.now →
      Tale c official s [((T.nfts s.world).next c, .born a t)] s'
  | started {s s' a n} : ((T.nfts s.world).item (c, n)).map Item.owner = some a →
      s.incubation.hatch_times (c, n) = none → s'.world = s.world →
      s'.incubation.hatch_times = Function.update s.incubation.hatch_times (c, n) (some official) →
      s'.now = s.now → Tale c official s [(n, .started a official)] s'
  | fed {s s' n t} : s.incubation.hatch_times (c, n) = some t → s.now ≤ t → s'.world = s.world →
      s'.incubation.hatch_times = s.incubation.hatch_times → s'.now = s.now →
      Tale c official s [(n, .fed s.now)] s'
  | rescheduled {s s' n old new} : s.incubation.hatch_times (c, n) = some old → new ≤ old →
      s'.world = s.world →
      s'.incubation.hatch_times = Function.update s.incubation.hatch_times (c, n) (some new) →
      s'.now = s.now → Tale c official s [(n, .rescheduled old new)] s'
  | hatched {s s' n i t} : (T.nfts s.world).item (c, n) = some i →
      s.incubation.hatch_times (c, n) = some t → t < s.now →
      T.listed s'.world c = Function.update (T.listed s.world c) n none →
      (T.nfts s'.world).next c = (T.nfts s.world).next c →
      s'.incubation.hatch_times = s.incubation.hatch_times → s'.now = s.now →
      Tale c official s [(n, .hatched i.owner s.now)] s'
  | append {s s₁ s₂ ds ds'} : Tale c official s ds s₁ → Tale c official s₁ ds' s₂ →
      Tale c official s (ds ++ ds') s₂

/-- The events logged from `s` to `s'`, in a step at the time `now`, tell what
    happened. -/
abbrev Tells (c : CollectionId) (official : Nat) (l : Label T) (now : Nat) (s s' : State T) : Prop :=
  ∃ evs, s'.events = s.events ++ evs ∧ Tale c official s (evs.filterMap (Event.deed c l now)) s'

section tales
variable {c : CollectionId} {official : Nat} {s s' : State T} {ds : List (NftId × Deed AccountId)}
  {n : NftId}

theorem Cared.free (h : Cared c s) (hn : (T.nfts s.world).next c ≤ n) :
    T.listed s.world c n = none ∧ s.incubation.hatch_times (c, n) = none := by
  constructor
  · by_contra hsome
    obtain ⟨x, hx⟩ := Option.ne_none_iff_exists'.mp hsome
    exact absurd (h.listed n x hx).1 (Nat.not_lt.mpr hn)
  · by_contra hsome
    obtain ⟨t, ht⟩ := Option.ne_none_iff_exists'.mp hsome
    exact absurd (h.timed n t ht).1 (Nat.not_lt.mpr hn)

theorem Cared.all_frozen (h : Cared c s) : (T.nfts s.world).AllFrozen c := by
  intro n i hi
  have hlisted : T.listed s.world c n = some (i, T.traits s.world (c, n)) := by
    rw [Config.listed, hi, Option.map_some]
  exact (h.listed n _ hlisted).2.1

/-- An item of `c` has traits. -/
theorem Cared.traits (h : Cared c s) {i : Item AccountId T.Metadata}
    (hi : (T.nfts s.world).item (c, n) = some i) :
    ∃ traits, T.listed s.world c n = some (i, some traits) := by
  have hlisted : T.listed s.world c n = some (i, T.traits s.world (c, n)) := by
    rw [Config.listed, hi, Option.map_some]
  obtain ⟨traits, htraits⟩ := Option.isSome_iff_exists.mp (h.listed n _ hlisted).2.2
  have htraits : T.traits s.world (c, n) = some traits := htraits
  rw [htraits] at hlisted
  exact ⟨traits, hlisted⟩

/-- Where a step touches the shell `n` only, the view changes there only. -/
theorem stage_update
    (hlisted : ∀ m, m ≠ n → T.listed s'.world c m = T.listed s.world c m)
    (htimes : ∀ m, m ≠ n → s'.incubation.hatch_times (c, m) = s.incubation.hatch_times (c, m)) :
    stage c s' = Function.update (stage c s) n (stage c s' n) := by
  funext m
  by_cases hm : m = n
  · rw [hm, Function.update_self]
  · rw [Function.update_of_ne hm]
    show Stage.of (T.listed s'.world c m) _ = Stage.of (T.listed s.world c m) _
    rw [hlisted m hm, htimes m hm]

/-- The hatch time of another shell of `c`. -/
theorem hatch_times_of_ne {times : CollectionId × NftId → Option Nat} {t : Option Nat} {m : NftId}
    (hm : m ≠ n) : Function.update times (c, n) t (c, m) = times (c, m) :=
  Function.update_of_ne (fun heq => hm (Prod.mk.inj heq).2) _ _

/-- One deed leads the shells, if it leads the shell it is about. -/
theorem leads_one [DecidableEq AccountId] {d : Deed AccountId}
    (hd : (stage c s n).after d = some (stage c s' n))
    (hlisted : ∀ m, m ≠ n → T.listed s'.world c m = T.listed s.world c m)
    (htimes : ∀ m, m ≠ n → s'.incubation.hatch_times (c, m) = s.incubation.hatch_times (c, m)) :
    Leads (product Stage.after) (stage c s) [(n, d)] (stage c s') := by
  rw [stage_update hlisted htimes]
  exact Leads.copy hd

/-- A tale keeps the invariant. -/
theorem Tale.cared (h : Tale c official s ds s') (hs : Cared c s) : Cared c s' := by
  induction h with
  | idle hlisted hnext htimes hnow =>
    constructor
    · rw [hlisted, hnext]
      exact hs.listed
    · rw [hlisted, hnext, htimes]
      intro n t ht
      obtain ⟨hlt, hpast⟩ := hs.timed n t ht
      exact ⟨hlt, fun hnone => (hpast hnone).trans_le hnow⟩
  | @born s s' a t md hlisted hnext htimes hnow =>
    constructor
    · intro n x hx
      rw [hlisted] at hx
      rw [hnext]
      by_cases hn : n = (T.nfts s.world).next c
      · rw [hn, Function.update_self] at hx
        obtain rfl := Option.some.inj hx
        exact ⟨hn ▸ Nat.lt_succ_self _, rfl, rfl⟩
      · rw [Function.update_of_ne hn] at hx
        obtain ⟨hlt, hx⟩ := hs.listed n x hx
        exact ⟨Nat.lt_succ_of_lt hlt, hx⟩
    · intro n t ht
      rw [htimes] at ht
      obtain ⟨hlt, hpast⟩ := hs.timed n t ht
      rw [hnext, hnow, hlisted, Function.update_of_ne (Nat.ne_of_lt hlt)]
      exact ⟨Nat.lt_succ_of_lt hlt, hpast⟩
  | @started s s' a n howner _ hworld htimes hnow =>
    constructor
    · rw [hworld]
      exact hs.listed
    · rw [hworld, htimes, hnow]
      intro m u hu
      by_cases hm : m = n
      · subst hm
        obtain ⟨i, hi, _⟩ := Option.map_eq_some_iff.mp howner
        obtain ⟨traits, hlisted⟩ := hs.traits hi
        refine ⟨(hs.listed m _ hlisted).1, fun hnone => ?_⟩
        rw [hlisted] at hnone
        cases hnone
      · rw [hatch_times_of_ne hm] at hu
        exact hs.timed m u hu
  | fed _ _ hworld htimes hnow =>
    constructor
    · rw [hworld]
      exact hs.listed
    · rw [hworld, htimes, hnow]
      exact hs.timed
  | @rescheduled s s' n old new hold hle hworld htimes hnow =>
    constructor
    · rw [hworld]
      exact hs.listed
    · rw [hworld, htimes, hnow]
      intro m u hu
      by_cases hm : m = n
      · subst hm
        rw [Function.update_self] at hu
        obtain rfl := Option.some.inj hu
        obtain ⟨hlt, hpast⟩ := hs.timed m old hold
        exact ⟨hlt, fun hnone => hle.trans_lt (hpast hnone)⟩
      · rw [hatch_times_of_ne hm] at hu
        exact hs.timed m u hu
  | @hatched s s' n i t hi ht hlt hlisted hnext htimes hnow =>
    constructor
    · intro m x hx
      rw [hlisted] at hx
      rw [hnext]
      by_cases hm : m = n
      · rw [hm, Function.update_self] at hx
        cases hx
      · rw [Function.update_of_ne hm] at hx
        exact hs.listed m x hx
    · intro m u hu
      rw [htimes] at hu
      obtain ⟨hltm, hpast⟩ := hs.timed m u hu
      rw [hnext, hnow, hlisted]
      refine ⟨hltm, fun hnone => ?_⟩
      by_cases hm : m = n
      · -- the shell that is hatched now: its time has passed
        subst hm
        rw [ht] at hu
        obtain rfl := Option.some.inj hu
        exact hlt
      · rw [Function.update_of_ne hm] at hnone
        exact hpast hnone
  | append _ _ ih ih' => exact ih' (ih hs)

/-- An incubation starts with the official hatch time. -/
theorem Tale.hatch_time (h : Tale c official s ds s') {a : AccountId} {t : Nat}
    (hd : (n, .started a t) ∈ ds) : t = official := by
  induction h with
  | idle => cases hd
  | started =>
    have heq := (Prod.mk.inj (List.mem_singleton.mp hd)).2
    exact (Deed.started.inj heq).2
  | append _ _ ih ih' => exact (List.mem_append.mp hd).elim ih ih'
  | _ =>
    -- another deed
    have heq := (Prod.mk.inj (List.mem_singleton.mp hd)).2
    cases heq

/-- A tale is allowed: each of its deeds by the shell it is about. -/
theorem Tale.leads [DecidableEq AccountId] (h : Tale c official s ds s') (hs : Cared c s) :
    Leads (product Stage.after) (stage c s) ds (stage c s') := by
  induction h with
  | @idle s s' hlisted _ htimes _ =>
    refine .of_eq rfl (funext fun n => ?_)
    show Stage.of (T.listed s'.world c n) _ = Stage.of (T.listed s.world c n) _
    rw [hlisted, htimes]
  | @born s s' a t md hlisted _ htimes _ =>
    obtain ⟨hfree, hnone⟩ := hs.free le_rfl
    apply leads_one
    · unfold stage
      rw [hlisted, htimes, hfree, hnone, Function.update_self]
      rfl
    · intro m hm
      rw [hlisted, Function.update_of_ne hm]
    · intro m _
      rw [htimes]
  | @started s s' a n howner hnone hworld htimes _ =>
    obtain ⟨i, hi, rfl⟩ := Option.map_eq_some_iff.mp howner
    obtain ⟨traits, hlisted⟩ := hs.traits hi
    apply leads_one
    · unfold stage
      rw [hworld, htimes, hlisted, hnone, Function.update_self]
      exact if_pos rfl
    · intro m _
      rw [hworld]
    · intro m hm
      rw [htimes, hatch_times_of_ne hm]
  | @fed s s' n t ht hle hworld htimes _ =>
    -- a shell that is gone would be past its hatch time
    obtain ⟨_, hpast⟩ := hs.timed n t ht
    cases hlisted : T.listed s.world c n with
    | none => exact absurd (hpast hlisted) (Nat.not_lt.mpr hle)
    | some x =>
      obtain ⟨i, traits⟩ := x
      obtain ⟨traits, rfl⟩ := Option.isSome_iff_exists.mp (hs.listed n _ hlisted).2.2
      apply leads_one
      · unfold stage
        rw [hworld, htimes, hlisted, ht]
        exact if_pos hle
      · intro m _
        rw [hworld]
      · intro m _
        rw [htimes]
  | @rescheduled s s' n old new hold hle hworld htimes _ =>
    apply leads_one
    · unfold stage
      rw [hworld, htimes, hold, Function.update_self]
      cases hlisted : T.listed s.world c n with
      | none => exact if_pos ⟨rfl, hle⟩
      | some x =>
        obtain ⟨i, traits⟩ := x
        obtain ⟨traits, rfl⟩ := Option.isSome_iff_exists.mp (hs.listed n _ hlisted).2.2
        exact if_pos ⟨rfl, hle⟩
    · intro m _
      rw [hworld]
    · intro m hm
      rw [htimes, hatch_times_of_ne hm]
  | @hatched s s' n i t hi ht hlt hlisted _ htimes _ =>
    obtain ⟨traits, hbefore⟩ := hs.traits hi
    apply leads_one
    · unfold stage
      rw [hlisted, htimes, hbefore, ht, Function.update_self]
      exact if_pos ⟨rfl, hlt⟩
    · intro m hm
      rw [hlisted, Function.update_of_ne hm]
    · intro m _
      rw [htimes]
  | append h _ ih ih' => exact (ih hs).append (ih' (h.cared hs))

end tales

/-! ### Steps -/

/-- The Origin of Shells are in `c`, the Spirits and the Shells are not. -/
structure ClearOf (c : CollectionId) (s : State T) : Prop where
  origin_of_shell : ∀ d, s.sale.origin_of_shell_collection_id = some d → d = c
  spirit : ∀ d, s.sale.spirit_collection_id = some d → d ≠ c
  shell : ∀ d, s.incubation.shell_collection_id = some d → d ≠ c

section steps
variable [DecidableEq AccountId] {c : CollectionId} {official : Nat} {s s' : State T} {l : Label T}
  {now : Nat}

omit [DecidableEq AccountId] in
theorem DistinctIds.clear_of {f : State T} (hf : DistinctIds f)
    (hc : f.sale.origin_of_shell_collection_id = some c) (hids : IdsKept s f) : ClearOf c s := by
  constructor
  · intro d hd
    have hd := hids.origin_of_shell d hd
    rw [hc] at hd
    exact (Option.some.inj hd).symm
  · rintro d hd rfl
    exact hf.spirit_origin_of_shell d (hids.spirit d hd) hc
  · rintro d hd rfl
    exact hf.origin_of_shell_shell d hc (hids.shell d hd)

omit [DecidableEq AccountId] in
/-- The events of a sale, with the one that the call adds. -/
theorem deeds_of_minted (r : RarityType) (n : NftId) (a : AccountId) (race : RaceType)
    (ca : CareerType) {event : Event T} (hevent : event.deed c l now = none) :
    [.OriginOfShellMinted r c n a race ca, event].filterMap (Event.deed c l now) =
      [(n, .born a ⟨r, race, ca, 0⟩)] := by
  have hminted : Event.deed c l now (.OriginOfShellMinted r c n a race ca) =
      some (n, .born a ⟨r, race, ca, 0⟩) := if_pos rfl
  rw [List.filterMap_cons_some hminted, List.filterMap_cons_none hevent]
  rfl

omit [DecidableEq AccountId] in
/-- A step that leaves the items and the hatch times alone tells nothing. -/
theorem Tale.keep_nfts (hnfts : T.nfts s'.world = T.nfts s.world)
    (htimes : s'.incubation.hatch_times = s.incubation.hatch_times) (hnow : s'.now = s.now) :
    Tale c official s [] s' := by
  apply Tale.idle
  · funext n
    exact listed_congr (by rw [hnfts]) fun k => by rw [hnfts]
  · rw [hnfts]
  · exact htimes
  · exact Nat.le_of_eq hnow.symm

/-- A sale tells of a birth. -/
theorem Mints.tale (hC : CurrencyLaws T) (hN : NftLaws T) {o a : AccountId} {t : Traits}
    {price : Nat} {pool : NftSaleType} {check : Bool} {i : NftSaleInfo}
    (h : Mints o a t price pool check c i s s') :
    Tale c official s [(T.NextNftId s.world c, .born a t)] s' := by
  obtain ⟨hminted, htraits, _⟩ := h.minted hC hN
  obtain ⟨md, hlisted⟩ := listed_received_self hminted.received
  rw [htraits] at hlisted
  have hnext := hminted.received.next_self
  obtain ⟨_, w, rc, cc, _, _, _, _, rfl⟩ := h.post
  exact .born hlisted hnext rfl rfl

theorem MintsPreorder.tale (hC : CurrencyLaws T) (hN : NftLaws T) {o : AccountId} {last : Bool}
    {p : PreorderId} (hcoll : ∀ d, s.sale.origin_of_shell_collection_id = some d → d = c)
    (h : MintsPreorder o last s p s') :
    (∀ d, s'.sale.origin_of_shell_collection_id = some d → d = c) ∧
      Tells c official l now s s' := by
  obtain ⟨info, d, i, s₁, _, hmint, rfl⟩ := h
  obtain rfl := hcoll d hmint.collection
  have hcoll' : ∀ d', s₁.sale.origin_of_shell_collection_id = some d' → d' = d := by
    obtain ⟨_, w, rc, cc, _, _, _, _, rfl⟩ := hmint.post
    exact hcoll
  refine ⟨hcoll', _, hmint.events_append _, ?_⟩
  have hrelease : Tale d official s [] (s.release p info.owner) :=
    .keep_nfts (hC.unreserve_eq info.owner T.PrimeOriginOfShellPrice s.world).2 rfl rfl
  have hclose : Tale d official s₁ []
      (s₁.close last info.owner (.ChosenPreorderMinted p info.owner)) := .keep_nfts rfl rfl rfl
  rw [deeds_of_minted _ _ _ _ _ rfl]
  exact hrelease.append ((hmint.tale hC hN).append hclose)

theorem RefundsPreorder.tale (hC : CurrencyLaws T) {last : Bool} {p : PreorderId}
    (h : RefundsPreorder last s p s') :
    Tells c official l now s s' := by
  obtain ⟨info, _, rfl⟩ := h
  refine ⟨[.NotChosenPreorderRefunded p info.owner], rfl, ?_⟩
  exact .keep_nfts (hC.unreserve_eq info.owner T.PrimeOriginOfShellPrice s.world).2 rfl rfl

omit [DecidableEq AccountId] in
theorem ReducesHatchTime.tale {x : (CollectionId × NftId) × Nat}
    (hcoll : ∀ d, s.sale.origin_of_shell_collection_id = some d → d = c)
    (h : ReducesHatchTime s x s') :
    (∀ d, s'.sale.origin_of_shell_collection_id = some d → d = c) ∧
      Tells c official l now s s' := by
  obtain ⟨⟨d, n⟩, reduction⟩ := x
  obtain ⟨t, hd, ht, rfl⟩ := h
  obtain rfl := hcoll d hd
  refine ⟨hcoll, [.HatchTimeUpdated d n t (t - reduction)], rfl, ?_⟩
  have htale : Tale d official s [(n, .rescheduled t (t - reduction))] { s with
      incubation := { s.incubation with
        hatch_times := Function.update s.incubation.hatch_times (d, n) (some (t - reduction)) }
      events := s.events ++ [.HatchTimeUpdated d n t (t - reduction)] } :=
    .rescheduled ht (Nat.sub_le _ _) rfl rfl rfl
  simpa [Event.deed] using htale

omit [DecidableEq AccountId] in
/-- A hatch tells of one shell of `c`, and nothing of the Shell. -/
theorem Hatches.tale (hN : NftLaws T) (official : Nat) {o owner : AccountId} {n : NftId}
    {sc : CollectionId} {md : T.Metadata} {t : Traits} (hsc : sc ≠ c)
    (h : Hatches o owner c n sc md t s s') :
    Tale c official s [(n, .hatched owner s.now)] s' := by
  obtain ⟨i, hi, rfl⟩ := h.found hN
  obtain ⟨time, htime, hlt⟩ := h.hatch_time
  obtain ⟨w, hawakens, rfl⟩ := h.post
  obtain ⟨hnext, hlisted⟩ := hawakens.listed_burned hN hsc.symm
  rw [if_pos rfl] at hlisted
  exact .hatched hi htime hlt hlisted hnext rfl rfl

omit [DecidableEq AccountId] in
/-- A step without events tells nothing. -/
theorem Tells.silent (hsame : s'.events = s.events) (htale : Tale c official s [] s') :
    Tells c official l now s s' :=
  ⟨[], by rw [hsame, List.append_nil], htale⟩

omit [DecidableEq AccountId] in
/-- Nor does one whose event is no deed. -/
theorem Tells.idle {event : Event T} (hevent : s'.events = s.events ++ [event])
    (hnone : event.deed c l now = none) (htale : Tale c official s [] s') :
    Tells c official l now s s' := by
  refine ⟨[event], hevent, ?_⟩
  rw [List.filterMap_cons_none hnone]
  exact htale

omit [DecidableEq AccountId] in
theorem Tells.one {event : Event T} {d : NftId × Deed AccountId}
    (hevent : s'.events = s.events ++ [event]) (hdeed : event.deed c l now = some d)
    (htale : Tale c official s [d] s') : Tells c official l now s s' := by
  refine ⟨[event], hevent, ?_⟩
  rw [List.filterMap_cons_some hdeed]
  exact htale

omit [DecidableEq AccountId] in
/-- A chain of rounds tells what its rounds tell. -/
theorem Tale.rounds {Input : Type} {R : State T → Input → State T → Prop} {ids : List Input}
    (hround : ∀ {s₁ a s₂}, (∀ d, s₁.sale.origin_of_shell_collection_id = some d → d = c) →
      R s₁ a s₂ → (∀ d, s₂.sale.origin_of_shell_collection_id = some d → d = c) ∧
        Tells c official l now s₁ s₂)
    (hcoll : ∀ d, s.sale.origin_of_shell_collection_id = some d → d = c)
    (h : Chain R s ids s') :
    Tells c official l now s s' := by
  have hstart : Tale c official s [] s := .keep_nfts rfl rfl rfl
  have hrun := h.recorded (L := State.events) (f := Event.deed c l now)
    (J := fun ds s₁ => (∀ d, s₁.sale.origin_of_shell_collection_id = some d → d = c) ∧
      Tale c official s ds s₁) (h := []) ?_ ⟨hcoll, hstart⟩
  · obtain ⟨evs, hevs, _, htale⟩ := hrun
    exact ⟨evs, hevs, htale⟩
  · intro ds s₁ a s₂ ⟨hcoll, htale⟩ hr
    obtain ⟨hcoll', evs, hevs, hnext⟩ := hround hcoll hr
    exact ⟨evs, hevs, hcoll', htale.append hnext⟩

/-- What a step tells is what its events say. -/
theorem step_tale (hC : CurrencyLaws T) (hN : NftLaws T) {r : Outcome T} (hclear : ClearOf c s)
    (hcared : Cared c s) (htimely : s.now ≤ s'.now)
    (hout : ∀ w, l = .outside w → TransfersOnly c s.world w) (hstep : step s l = (r, s')) :
    Tells c s.incubation.official_hatch_time l s.now s s' := by
  have hs := stepped s l
  rw [hstep] at hs
  cases hs with
  | fails => exact Tells.silent rfl (.keep_nfts rfl rfl rfl)
  | idle => exact Tells.silent rfl (.keep_nfts rfl rfl rfl)
  | new_era => exact Tells.idle rfl rfl (.keep_nfts rfl rfl rfl)
  | timestamp => exact Tells.silent rfl (.idle rfl rfl rfl htimely)
  | @outside w =>
    have hmoved := hout w rfl
    obtain ⟨hnext, hattr, _⟩ := hmoved c rfl
    refine Tells.silent rfl (.idle (funext fun n => ?_) hnext rfl htimely)
    exact listed_congr (hmoved.item_eq rfl hcared.all_frozen n) (hattr n)
  | call hdone =>
    cases hdone with
    | configure h =>
      obtain ⟨_, evs, hevs, hsetup⟩ := configures_by h.call hstep
      refine ⟨evs, hevs, ?_⟩
      rw [List.filterMap_eq_nil_iff.mpr fun event hmem => Event.deed_of_isSetup (hsetup event hmem)]
      exact .keep_nfts (by rw [h.world]) (by rw [h.incubation]) h.now
    | spirit _ _ h =>
      -- a Spirit is minted in another collection
      have hne := hclear.spirit _ h.collection
      have hrec := (h.minted hN).1.received
      have hlisted := listed_received_of_ne hrec hne.symm
      have hnext := hrec.next_of_ne hne.symm
      obtain ⟨md, w₁, w₂, _, _, _, rfl⟩ := h.post
      exact Tells.idle rfl rfl (.idle hlisted hnext rfl le_rfl)
    | buy _ _ h =>
      obtain rfl := hclear.origin_of_shell _ h.collection
      exact Tells.one h.events (if_pos rfl) (h.tale hC hN)
    | preorder h =>
      obtain ⟨md, w, _, hreserve, rfl⟩ := h.post
      exact Tells.idle rfl rfl (.keep_nfts (hC.reserve_ok hreserve).2.2 rfl rfl)
    | mint _ h =>
      exact Tale.rounds (fun hcoll hm => hm.tale hC hN hcoll) hclear.origin_of_shell h
    | refund _ h =>
      refine Tale.rounds (fun hcoll hr => ⟨?_, hr.tale hC⟩) hclear.origin_of_shell h
      obtain ⟨info, _, rfl⟩ := hr
      exact hcoll
    | gift _ _ h =>
      obtain rfl := hclear.origin_of_shell _ h.collection
      refine ⟨_, h.events_append _, ?_⟩
      rw [deeds_of_minted _ _ _ _ _ rfl]
      exact (h.tale hC hN).append (.keep_nfts rfl rfl rfl)
    | init => exact Tells.idle rfl rfl (.keep_nfts rfl rfl rfl)
    | update => exact Tells.idle rfl rfl (.keep_nfts rfl rfl rfl)
    | create _ hw =>
      obtain ⟨d, hview, _⟩ := hN.create_collection_ok hw
      refine Tells.silent rfl (.idle (funext fun n => ?_) ?_ rfl le_rfl)
      · exact listed_congr (by rw [hview, Nfts.create_item]) fun k => by
          rw [hview, Nfts.create_attr]
      · rw [hview, Nfts.create_next]
    | hatch h =>
      obtain rfl := hclear.origin_of_shell _ h.collection
      have htale := h.tale hN s.incubation.official_hatch_time
        (hclear.shell _ h.shell_collection)
      obtain ⟨w, _, rfl⟩ := h.post
      exact Tells.one rfl (if_pos rfl) htale
    | incubate h =>
      cases h with
      | start h =>
        obtain rfl := hclear.origin_of_shell _ h.collection
        obtain rfl := h.post
        exact Tells.one rfl (if_pos rfl) (.started h.owner h.fresh rfl rfl rfl)
      | feed h =>
        obtain rfl := hclear.origin_of_shell _ h.collection
        obtain ⟨t, ht, hle⟩ := h.hatch_time
        obtain ⟨food, count, _, _, rfl⟩ := h.post
        exact Tells.one rfl (if_pos rfl) (.fed ht hle rfl rfl rfl)
      | reduce _ h => exact Tale.rounds (fun hcoll hr => hr.tale hcoll) hclear.origin_of_shell h
      | enable => exact Tells.idle rfl rfl (.keep_nfts rfl rfl rfl)
      | shell_collection => exact Tells.idle rfl rfl (.keep_nfts rfl rfl rfl)

end steps

/-! ### Runs -/

section runs
variable [DecidableEq AccountId] {g : GenesisConfig AccountId} {w : T.World} {now : UInt64}
  {tr : List (Entry T)} {s : State T} {c : CollectionId}

omit [DecidableEq AccountId] in
theorem genesis_cared (hempty : ∀ n, (T.nfts w).item (c, n) = none) :
    Cared c (genesis g w now) := by
  constructor
  · intro n x hx
    rw [show T.listed (genesis g w now).world c n = none from listed_of_none (hempty n)] at hx
    cases hx
  · intro n t ht
    cases ht

/-- **Every Origin of Shell has a biography.** In every run in which the
    clock does not go back and items of the collection only change hands
    outside, whatever is called by whom in which order, also in batches: the
    deeds that the events report lead one automaton for each id from unborn to
    the stage the storage shows. So what is there was minted once, is
    incubated once, by the owner, for the hatch time that is official then less
    what was taken off, is fed only until then and hatched only later, once, for the
    owner, and then only its hatch time is left to update. -/
theorem life_cycle (hC : CurrencyLaws T) (hN : NftLaws T)
    (hc : s.sale.origin_of_shell_collection_id = some c) (hdistinct : DistinctIds s)
    (hempty : ∀ n, (T.nfts w).item (c, n) = none)
    (h : Runs (Within Timely (TransfersOnly c)) (genesis g w now) tr s) :
    Leads (product Stage.after) (fun _ => .unborn) (history (deeds c) tr) (stage c s) ∧
    (∀ n, Biography (about n (history (deeds c) tr)) (stage c s n)) ∧
    StartedOfficially c tr := by
  have hids := h.ids_kept
  have hrun : Runs (fun e => Within Timely (TransfersOnly c) e ∧ IdsKept e.pre s)
      (genesis g w now) tr s :=
    h.of_entries (q := fun e => Within Timely (TransfersOnly c) e ∧ IdsKept e.pre s)
      fun e he hok => ⟨hok, hids e he⟩
  -- what one step tells, from a state in which the shells are cared for
  have htale (s₁ : State T) (l : Label T) (hcared : Cared c s₁)
      (hok : Within Timely (TransfersOnly c) (entry step s₁ l) ∧ IdsKept s₁ s) :
      Tale c s₁.incubation.official_hatch_time s₁ (deeds c (entry step s₁ l)) (step s₁ l).2 := by
    obtain ⟨⟨htimely, hout⟩, hkept⟩ := hok
    obtain ⟨evs, hevs, htale⟩ :=
      step_tale hC hN (hdistinct.clear_of hc hkept) hcared htimely hout (Prod.eta (step s₁ l)).symm
    have hemitted : emitted (entry step s₁ l) = evs := emitted_of_append hevs
    rw [deeds, hemitted]
    exact htale
  have hcared : Cared c (genesis g w now) := genesis_cared hempty
  have hstart : stage c (genesis g w now) = fun _ => .unborn := by
    funext n
    show Stage.of (T.listed w c n) none = .unborn
    rw [listed_of_none (hempty n)]
    rfl
  obtain ⟨⟨_, hofficial⟩, hleads⟩ : (Cared c s ∧ StartedOfficially c tr) ∧
      Leads (product Stage.after) (stage c (genesis g w now)) (history (deeds c) tr)
        (stage c s) :=
    Run.leads (J := fun tr s => Cared c s ∧ StartedOfficially c tr)
      ⟨hcared, fun _ he => absurd he List.not_mem_nil⟩
      (fun _ s₁ l hJ hok => ⟨(htale s₁ l hJ.1 hok).cared hJ.1,
        hJ.2.cons fun _ _ _ hd => (htale s₁ l hJ.1 hok).hatch_time hd⟩)
      (fun _ s₁ l hJ hok => (htale s₁ l hJ.1 hok).leads hJ.1) hrun
  rw [hstart] at hleads
  exact ⟨hleads, fun n => biography (hleads.component n), hofficial⟩

open Mock in
/-- `CHARLIE`'s Origin of Shell was bought, started, brought forward and
    hatched. -/
theorem life_cycle_hatching :
    stage 1 (after (hatching 200)).2 0 = .hatched 500 ∧
    Biography (about 0 (history (deeds 1) (after (hatching 200)).1))
      (stage 1 (after (hatching 200)).2 0) := by
  have hrun : Runs (Within Timely (TransfersOnly 1)) (genesis₀ 200) (after (hatching 200)).1
      (after (hatching 200)).2 := runs_of_labels (hatching 200) (by decide +kernel)
  have hids : (after (hatching 200)).2.sale.spirit_collection_id = some 0 ∧
      (after (hatching 200)).2.sale.origin_of_shell_collection_id = some 1 ∧
      (after (hatching 200)).2.incubation.shell_collection_id = some 2 := by decide +kernel
  obtain ⟨hsp, hc, hsc⟩ := hids
  have hdistinct : DistinctIds (after (hatching 200)).2 := by
    constructor <;> intro d hd <;> simp_all
  have hempty : ∀ n, ((runtime 200).nfts world₀).item (1, n) = none := fun _ => rfl
  have hlife := life_cycle (T := runtime 200) (g := GenesisConfig.default) (w := world₀)
    (currency_laws 200) (nft_laws 200) hc hdistinct hempty hrun
  exact ⟨by decide +kernel, hlife.2.1 0⟩

end runs

end PhalaWorld
