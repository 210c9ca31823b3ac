import PhalaWorld.Framework.Replay
import PhalaWorld.Specs.History

/-! # What is switched and set

    The Overlord opens and closes the phases of the sale, starts the world
    clock once and gives each race its metadata. Three calls do that, and no
    other step touches any of it.

    * `switches`, `retitles`: the statuses and the metadata an entry set.
    * `Configured`: what a step does to the flags, the clock, the metadata and
      the announcements in the event log.
    * `Stepped.configured`: it is that of every step.
-/

namespace PhalaWorld

open LTS Transaction

variable {AccountId : Type} {T : Config AccountId}

/-! ### Readings -/

/-- The flag of a phase. -/
def State.flag (s : State T) : StatusType → Bool
  | .ClaimSpirits => s.sale.can_claim_spirits
  | .PurchaseRareOriginOfShells => s.sale.can_purchase_rare_origin_of_shells
  | .PurchasePrimeOriginOfShells => s.sale.can_purchase_prime_origin_of_shells
  | .PreorderOriginOfShells => s.sale.can_preorder_origin_of_shells
  | .LastDayOfSale => s.sale.last_day_of_sale

/-- The status an event announces, with its phase. -/
def Event.announces : Event T → Option (StatusType × Bool)
  | .ClaimSpiritStatusChanged status => some (.ClaimSpirits, status)
  | .PurchaseRareOriginOfShellsStatusChanged status => some (.PurchaseRareOriginOfShells, status)
  | .PurchasePrimeOriginOfShellsStatusChanged status => some (.PurchasePrimeOriginOfShells, status)
  | .PreorderOriginOfShellsStatusChanged status => some (.PreorderOriginOfShells, status)
  | .LastDayOfSaleStatusChanged status => some (.LastDayOfSale, status)
  | _ => none

/-- What the pallet announces when a status is set. -/
def announcement : StatusType × Bool → StatusType × Bool
  -- the event of another phase, as in the source
  | (.LastDayOfSale, status) => (.PreorderOriginOfShells, status)
  | x => x

/-- Overwrites one entry of a map. -/
def put {Key Val : Type} [DecidableEq Key] (m : Key → Val) (x : Key × Val) : Key → Val :=
  Function.update m x.1 x.2

/-- The status an entry set. -/
def switches (e : Entry T) : List (StatusType × Bool) :=
  match e.label, e.result with
  | .call _ (.set_status_type status status_type), .ok () => [(status_type, status)]
  | _, _ => []

/-- The metadata an entry gave to races, in order. -/
def retitles (e : Entry T) : List (RaceType × Option T.Metadata) :=
  match e.label, e.result with
  | .call _ (.set_origin_of_shells_metadata origin_of_shells_metadata), .ok () =>
      origin_of_shells_metadata.map fun x => (x.1, some x.2)
  | _, _ => []

section readings
variable {s s' : State T} {l : Label T} {r : Outcome T}

/-- Only two calls switch or retitle anything, and both configure the sale. -/
theorem switches_eq_nil
    (h : ∀ origin c, l = .call origin c → r = .ok () → c.configures = false) :
    switches ⟨s, l, r, s'⟩ = [] ∧ retitles ⟨s, l, r, s'⟩ = [] := by
  cases l with
  | call origin c =>
    cases r with
    | ok u =>
      have hconf := h origin c rfl rfl
      cases c <;> first | exact ⟨rfl, rfl⟩ | cases hconf
    | error e => cases c <;> exact ⟨rfl, rfl⟩
  | _ => exact ⟨rfl, rfl⟩

end readings

/-! ### Steps that set nothing -/

/-- Nothing was switched, set or announced. -/
structure Unswitched (s s' : State T) : Prop where
  flag : s'.flag = s.flag
  zero_day : s'.sale.zero_day = s.sale.zero_day
  metadata : s'.sale.origin_of_shells_metadata = s.sale.origin_of_shells_metadata
  events : ∃ evs, s'.events = s.events ++ evs ∧ ∀ event ∈ evs, event.announces = none

section unswitched
variable {s s' s'' : State T}

theorem Unswitched.refl (s : State T) : Unswitched s s :=
  ⟨rfl, rfl, rfl, [], (List.append_nil _).symm, fun _ h => absurd h List.not_mem_nil⟩

theorem Unswitched.trans (h : Unswitched s s') (h' : Unswitched s' s'') : Unswitched s s'' := by
  obtain ⟨evs, hevs, hnone⟩ := h.events
  obtain ⟨evs', hevs', hnone'⟩ := h'.events
  refine ⟨h'.flag.trans h.flag, h'.zero_day.trans h.zero_day, h'.metadata.trans h.metadata,
    evs ++ evs', by rw [hevs', hevs, List.append_assoc], ?_⟩
  intro event hmem
  rcases List.mem_append.mp hmem with hmem | hmem
  · exact hnone event hmem
  · exact hnone' event hmem

/-- One event was deposited. -/
theorem Unswitched.one {event : Event T} (hflag : s'.flag = s.flag)
    (hzero : s'.sale.zero_day = s.sale.zero_day)
    (hmeta : s'.sale.origin_of_shells_metadata = s.sale.origin_of_shells_metadata)
    (hevents : s'.events = s.events ++ [event]) (hnone : event.announces = none) :
    Unswitched s s' := by
  refine ⟨hflag, hzero, hmeta, [event], hevents, ?_⟩
  intro event' hmem
  rw [List.mem_singleton.mp hmem]
  exact hnone

theorem Mints.unswitched {o a : AccountId} {t : Traits} {price : Nat} {pool : NftSaleType}
    {check : Bool} {c : CollectionId} {i : NftSaleInfo}
    (h : Mints o a t price pool check c i s s') : Unswitched s s' := by
  obtain ⟨md, w, rc, cc, _, _, _, _, rfl⟩ := h.post
  exact .one rfl rfl rfl rfl rfl

/-- A batch is made of such steps. -/
theorem Chain.unswitched {Input : Type} {R : State T → Input → State T → Prop} {l : List Input}
    (hlink : ∀ s x s', R s x s' → Unswitched s s') (h : Chain R s l s') : Unswitched s s' :=
  h.covered Unswitched.refl (fun _ _ _ => Unswitched.trans) hlink

variable [DecidableEq AccountId]

theorem MintsPreorder.unswitched {o : AccountId} {last : Bool} {p : PreorderId}
    (h : MintsPreorder o last s p s') : Unswitched s s' := by
  obtain ⟨info, c, i, s₁, _, hmint, rfl⟩ := h
  have hrelease : Unswitched s (s.release p info.owner) :=
    ⟨rfl, rfl, rfl, [], (List.append_nil _).symm, fun _ h => absurd h List.not_mem_nil⟩
  exact (hrelease.trans hmint.unswitched).trans (.one rfl rfl rfl rfl rfl)

theorem RefundsPreorder.unswitched {last : Bool} {p : PreorderId}
    (h : RefundsPreorder last s p s') : Unswitched s s' := by
  obtain ⟨info, _, rfl⟩ := h
  exact .one rfl rfl rfl rfl rfl

omit [DecidableEq AccountId] in
theorem ReducesHatchTime.unswitched {x : (CollectionId × NftId) × Nat}
    (h : ReducesHatchTime s x s') : Unswitched s s' := by
  obtain ⟨t, _, _, rfl⟩ := h
  exact .one rfl rfl rfl rfl rfl

theorem Incubates.unswitched {origin : Origin AccountId} {c : Call T}
    (h : Incubates s origin c s') : Unswitched s s' ∧ c.configures = false := by
  cases h with
  | start h =>
    obtain rfl := h.post
    exact ⟨.one rfl rfl rfl rfl rfl, rfl⟩
  | feed h =>
    obtain ⟨food, count, _, _, rfl⟩ := h.post
    exact ⟨.one rfl rfl rfl rfl rfl, rfl⟩
  | reduce _ h => exact ⟨Chain.unswitched (fun _ _ _ hr => hr.unswitched) h, rfl⟩
  | enable => exact ⟨.one rfl rfl rfl rfl rfl, rfl⟩
  | shell_collection => exact ⟨.one rfl rfl rfl rfl rfl, rfl⟩

/-- The block hook sets nothing. -/
theorem Stepped.finalize_unswitched {r : Outcome T} (h : Stepped s .on_finalize r s') :
    Unswitched s s' := by
  cases h with
  | fails => exact .refl s
  | idle => exact .refl s
  | new_era => exact .one rfl rfl rfl rfl rfl

/-- A call that does not configure the sale sets nothing. -/
theorem Done.unswitched {origin : Origin AccountId} {c : Call T} (h : Done s origin c s')
    (hc : c.configures = false) : Unswitched s s' := by
  cases h with
  | configure h =>
    have hconf := h.call
    rw [hc] at hconf
    cases hconf
  | spirit _ _ h =>
    obtain ⟨md, w₁, w₂, _, _, _, rfl⟩ := h.post
    exact .one rfl rfl rfl rfl rfl
  | buy _ _ h => exact h.unswitched
  | preorder h =>
    obtain ⟨md, w, _, _, rfl⟩ := h.post
    exact .one rfl rfl rfl rfl rfl
  | mint _ h => exact Chain.unswitched (fun _ _ _ hm => hm.unswitched) h
  | refund _ h => exact Chain.unswitched (fun _ _ _ hr => hr.unswitched) h
  | gift _ _ h => exact h.unswitched.trans (.one rfl rfl rfl rfl rfl)
  | init => exact .one rfl rfl rfl rfl rfl
  | update => exact .one rfl rfl rfl rfl rfl
  | create =>
    exact ⟨rfl, rfl, rfl, [], (List.append_nil _).symm, fun _ h => absurd h List.not_mem_nil⟩
  | hatch h =>
    obtain ⟨w, _, rfl⟩ := h.post
    exact .one rfl rfl rfl rfl rfl
  | incubate h => exact h.unswitched.1

end unswitched

/-! ### All steps -/

/-- What a step did to what is switched and set, and what it announced. -/
structure Configured (s : State T) (l : Label T) (r : Outcome T) (s' : State T) : Prop where
  flag : s'.flag = replay put s.flag (switches ⟨s, l, r, s'⟩)
  zero_day : s'.sale.zero_day = s.sale.zero_day ∨ s.sale.zero_day = none
  metadata : s'.sale.origin_of_shells_metadata =
    replay put s.sale.origin_of_shells_metadata (retitles ⟨s, l, r, s'⟩)
  announces : ∃ evs, s'.events = s.events ++ evs ∧
    evs.filterMap Event.announces = (switches ⟨s, l, r, s'⟩).map announcement

section configured
variable {s s' : State T} {l : Label T} {r : Outcome T}

theorem Unswitched.configured (h : Unswitched s s')
    (hl : ∀ origin c, l = .call origin c → r = .ok () → c.configures = false) :
    Configured s l r s' := by
  have hnothing : switches ⟨s, l, r, s'⟩ = [] ∧ retitles ⟨s, l, r, s'⟩ = [] := switches_eq_nil hl
  obtain ⟨hswitches, hretitles⟩ := hnothing
  obtain ⟨evs, hevs, hnone⟩ := h.events
  refine ⟨?_, .inl h.zero_day, ?_, evs, hevs, ?_⟩
  · rw [hswitches]
    exact h.flag
  · rw [hretitles]
    exact h.metadata
  · rw [hswitches, List.map_nil, List.filterMap_eq_nil_iff]
    exact hnone

variable [DecidableEq AccountId]

omit [DecidableEq AccountId] in
/-- The loop over the metadata writes one entry after the other. -/
theorem retitled_of_chain {l : List (RaceType × T.Metadata)}
    (h : Chain (fun (s : State T) x s' => s' = { s with sale := { s.sale with
      origin_of_shells_metadata :=
        Function.update s.sale.origin_of_shells_metadata x.1 (some x.2) } }) s l s') :
    s' = { s with sale := { s.sale with
      origin_of_shells_metadata := replay put s.sale.origin_of_shells_metadata
        (l.map fun x => (x.1, some x.2)) } } := by
  induction l generalizing s with
  | nil => exact chain_nil.mp h
  | cons x l ih =>
    obtain ⟨s₁, rfl, hl⟩ := chain_cons.mp h
    rw [ih hl]
    rfl

/-- What the calls that configure the sale set. -/
theorem dispatch_configured {origin : Origin AccountId} {c : Call T} (hc : c.configures = true)
    (h : dispatch origin c s = (.ok (), s')) : Configured s (.call origin c) (.ok ()) s' := by
  cases c with
  | set_overlord o =>
    simp [dispatch, NftSale.set_overlord] at h
    obtain ⟨_, rfl⟩ := h
    exact ⟨rfl, .inl rfl, rfl, [_], rfl, rfl⟩
  | initialize_world_clock =>
    simp [dispatch, NftSale.initialize_world_clock] at h
    obtain ⟨o, rfl, _, hz, r, _, z, _, rfl⟩ := h
    exact ⟨rfl, .inr hz, rfl, [_], rfl, rfl⟩
  | set_status_type status status_type =>
    cases status_type <;>
      simp [dispatch, NftSale.set_status_type, NftSale.set_claim_spirits_status,
        NftSale.set_purchase_rare_origin_of_shells_status,
        NftSale.set_purchase_prime_origin_of_shells_status,
        NftSale.set_preorder_origin_of_shells_status, NftSale.set_last_day_of_sale_status] at h <;>
      obtain ⟨o, rfl, _, rfl⟩ := h <;>
      refine ⟨?_, .inl rfl, rfl, [_], rfl, rfl⟩ <;>
      funext status_type <;>
      cases status_type <;> rfl
  | set_spirit_collection_id cid =>
    simp [dispatch, NftSale.set_spirit_collection_id] at h
    obtain ⟨o, rfl, _, _, rfl⟩ := h
    exact ⟨rfl, .inl rfl, rfl, [_], rfl, rfl⟩
  | set_origin_of_shell_collection_id cid =>
    simp [dispatch, NftSale.set_origin_of_shell_collection_id] at h
    obtain ⟨o, rfl, _, _, rfl⟩ := h
    exact ⟨rfl, .inl rfl, rfl, [_], rfl, rfl⟩
  | set_spirits_metadata md =>
    simp [dispatch, NftSale.set_spirits_metadata] at h
    obtain ⟨o, rfl, _, rfl⟩ := h
    exact ⟨rfl, .inl rfl, rfl, [_], rfl, rfl⟩
  | set_origin_of_shells_metadata l =>
    simp [dispatch, NftSale.set_origin_of_shells_metadata] at h
    obtain ⟨o, rfl, _, s₁, hl, rfl⟩ := h
    obtain rfl := retitled_of_chain hl
    exact ⟨rfl, .inl rfl, rfl, [_], rfl, rfl⟩
  | _ => cases hc

/-- **What a step sets.** -/
theorem configured (s : State T) (l : Label T) : Configured s l (step s l).1 (step s l).2 := by
  have hidle (hl : ∀ origin c, l = .call origin c → (step s l).1 = .ok () → c.configures = false)
      (h : Unswitched s (step s l).2) : Configured s l (step s l).1 (step s l).2 := h.configured hl
  cases l with
  | call origin c =>
    rcases run_cases (dispatch origin c) s with ⟨⟨⟩, s', h⟩ | ⟨e, s', h⟩
    · rw [step, h]
      cases hc : c.configures with
      | true => exact dispatch_configured hc h
      | false =>
        refine ((dispatch_ok h).unswitched hc).configured ?_
        intro _ _ hl _
        cases hl
        exact hc
    · rw [step, h, dispatch_error h]
      exact (Unswitched.refl s).configured fun _ _ _ hok => by cases hok
  | on_finalize =>
    apply hidle (fun _ _ hl => by cases hl)
    exact (stepped s .on_finalize).finalize_unswitched
  | set_timestamp t =>
    apply hidle (fun _ _ hl => by cases hl)
    exact ⟨rfl, rfl, rfl, [], (List.append_nil _).symm, fun _ h => absurd h List.not_mem_nil⟩
  | outside w =>
    apply hidle (fun _ _ hl => by cases hl)
    exact ⟨rfl, rfl, rfl, [], (List.append_nil _).symm, fun _ h => absurd h List.not_mem_nil⟩

end configured

end PhalaWorld
