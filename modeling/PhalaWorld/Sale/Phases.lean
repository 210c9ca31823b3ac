import PhalaWorld.Sale.Batches

/-! # The preorder flag and the two phases of the sale

    `OwnerHasPreorder` is set by a preorder before the last day and cleared by a batch before
    the last day, in whatever phase the preorder was placed. So
    the flag and `Preorders` can disagree in two ways.

    * A batch before the last day that resolves a preorder placed on it
      clears the flag of an account that has another preorder pending, and
      the account can place a second one (`first_phase_alone`).
    * A batch on the last day keeps the flag of an account that has no
      preorder left, and the account is locked out (`locked_out_iff`).

    `Booked` says what a step does to both.
-/

namespace PhalaWorld

open LTS

variable {AccountId : Type} {T : Config AccountId}

/-! ### What a step does to preorders and flags -/

/-- The ids a batch call handles: as many as the limit lets it. -/
def Label.batch : Label T → Option (List PreorderId)
  | .call _ (.mint_chosen_preorders preorders) => some (preorders.take T.IterLimit.toNat)
  | .call _ (.refund_not_chosen_preorders preorders) => some (preorders.take T.IterLimit.toNat)
  | _ => none

theorem Resolution.batch_call (how : Resolution) (origin : Origin AccountId)
    (l : List PreorderId) :
    (Label.call origin (how.call l) : Label T).batch = some (l.take T.IterLimit.toNat) := by
  cases how <;> rfl

/-- The steps, by what they do to preorders and flags. -/
inductive Booked [DecidableEq AccountId] (s : State T) : Label T → Outcome T → State T → Prop where
  | aside {l r s'} (evs : List (Event T)) : s'.sale.preorders = s.sale.preorders →
      s'.sale.owner_has_preorder = s.sale.owner_has_preorder → s'.events = s.events ++ evs →
      (∀ event ∈ evs, event.isPreorder = false) → (r = .ok () → l.batch = none) → Booked s l r s'
  | place {a ra ca s'} : Preorders a ra ca s s' →
      Booked s (.call (.signed a) (.preorder_origin_of_shell ra ca)) (.ok ()) s'
  | batch {o s'} (how : Resolution) (l : List PreorderId) :
      Resolves how s.sale.last_day_of_sale s (l.take T.IterLimit.toNat) s' →
      Booked s (.call (.signed o) (how.call l)) (.ok ()) s'

section steps
variable [DecidableEq AccountId] {s s' : State T} {l : Label T} {r : Outcome T}

theorem Stepped.booked (h : Stepped s l r s') : Booked s l r s' := by
  cases h.traded with
  | quiet hq hlabel =>
    obtain ⟨evs, hevs, hquiet⟩ := hq.events
    refine .aside evs hq.preorders hq.owner_has_preorder hevs
      (fun event hmem => Event.isPreorder_of_isQuiet (hquiet event hmem)) ?_
    intro hr
    have hl := hlabel hr
    cases l with
    | call origin c => cases c <;> first | rfl | cases hl
    | _ => rfl
  | preorder hp => exact .place hp
  | @mint o l _ _ hrounds =>
    have hrounds : Chain (Round .minted o s.sale.last_day_of_sale) s _ s' := hrounds
    exact .batch .minted l (rounds_resolve hrounds)
  | @refund o l _ _ hrounds =>
    have hrounds : Chain (Round .refunded o s.sale.last_day_of_sale) s _ s' := hrounds
    exact .batch .refunded l (rounds_resolve hrounds)
  | spirit _ hm hc =>
    obtain ⟨md, w₁, w₂, _, _, _, rfl⟩ := hm.post
    refine .aside _ rfl rfl rfl (by simp [Event.isPreorder]) ?_
    intro _
    rcases hc with rfl | ⟨sig, rfl⟩ <;> rfl
  | buy _ hm hc =>
    obtain ⟨md, w, rc, cc, _, _, _, _, rfl⟩ := hm.post
    refine .aside _ rfl rfl rfl (by simp [Event.isPreorder]) ?_
    intro _
    rcases hc with ⟨rfl, _⟩ | ⟨_, sig, rfl⟩ <;> rfl
  | gift _ _ hm =>
    obtain ⟨md, w, rc, cc, _, _, _, _, rfl⟩ := hm.post
    exact .aside _ rfl rfl (List.append_assoc _ _ _) (by simp [Event.isPreorder]) fun _ => rfl
  | init => exact .aside _ rfl rfl rfl (by simp [Event.isPreorder]) fun _ => rfl
  | update => exact .aside _ rfl rfl rfl (by simp [Event.isPreorder]) fun _ => rfl
  | create => exact .aside [] rfl rfl (List.append_nil _).symm (by simp) fun _ => rfl
  | hatch hh =>
    obtain ⟨w, _, rfl⟩ := hh.post
    exact .aside _ rfl rfl rfl (by simp [Event.isPreorder]) fun _ => rfl
  | outside => exact .aside [] rfl rfl (List.append_nil _).symm (by simp) fun _ => rfl

end steps

section placing
variable [DecidableEq AccountId] {s s' : State T} {a : AccountId} {ra : RaceType} {ca : CareerType}

theorem Preorders.owner_of (h : Preorders a ra ca s s') (p : PreorderId) :
    s'.owner_of p = if p = s.sale.preorder_index then some a else s.owner_of p := by
  obtain ⟨md, w, _, _, rfl⟩ := h.post
  unfold State.owner_of
  by_cases hp : p = s.sale.preorder_index
  · subst hp
    simp
  · simp [hp]

theorem Preorders.flags (h : Preorders a ra ca s s') (b : AccountId) :
    s'.sale.owner_has_preorder b = true ↔
      s.sale.owner_has_preorder b = true ∨ s.sale.last_day_of_sale = false ∧ b = a := by
  obtain ⟨md, w, _, _, rfl⟩ := h.post
  cases hlast : s.sale.last_day_of_sale with
  | true => simp
  | false =>
    by_cases hb : b = a
    · subst hb
      simp
    · simp [hb]

end placing

/-! ### Preorders of the first phase -/

/-- The ids an entry placed while it was not the last day. -/
def firstPhase (e : Entry T) : List PreorderId :=
  if e.pre.sale.last_day_of_sale then [] else (placements e).map Placement.preorder_id

/-- No account has two of the preorders `ids` pending. -/
def OneFirst (ids : List PreorderId) (s : State T) : Prop :=
  ∀ p ∈ ids, ∀ q ∈ ids, ∀ a ∈ s.owner_of p, s.owner_of q = some a → p = q

/-- A batch that goes through before the last day, and handles a preorder
    of an account, handles the account's pending ones among `ids` too. -/
def TakesAll (ids : List PreorderId) (e : Entry T) : Prop :=
  succeeded e = true → e.pre.sale.last_day_of_sale = false → ∀ handled ∈ e.label.batch,
    ∀ p ∈ ids, ∀ a ∈ e.pre.owner_of p, Handled e.pre handled a → p ∈ handled

instance [DecidableEq AccountId] (ids : List PreorderId) (e : Entry T) :
    Decidable (TakesAll ids e) := by
  unfold TakesAll
  infer_instance

/-- The flag of an owner of one of the preorders `ids` is set. -/
structure Guarded (ids : List PreorderId) (s : State T) : Prop where
  flag : ∀ p ∈ ids, ∀ a ∈ s.owner_of p, s.sale.owner_has_preorder a = true
  one : OneFirst ids s

section alone
variable {ids : List PreorderId} {s s' : State T}

theorem Guarded.keep (h : Guarded ids s) (hpre : s'.sale.preorders = s.sale.preorders)
    (hflag : s'.sale.owner_has_preorder = s.sale.owner_has_preorder) : Guarded ids s' := by
  have howner : s'.owner_of = s.owner_of := by
    unfold State.owner_of
    rw [hpre]
  constructor
  · rw [howner, hflag]
    exact h.flag
  · unfold OneFirst
    rw [howner]
    exact h.one

/-- A preorder takes the next id, which goes to the list in the first phase. -/
theorem Guarded.place [DecidableEq AccountId] {a : AccountId} {ra : RaceType} {ca : CareerType}
    (h : Guarded ids s) (hnew : s.sale.preorder_index ∉ ids) (hplace : Preorders a ra ca s s') :
    Guarded (ids ++ if s.sale.last_day_of_sale then [] else [s.sale.preorder_index]) s' := by
  have hold (p : PreorderId) (hp : p ∈ ids) : s'.owner_of p = s.owner_of p := by
    have hne : p ≠ s.sale.preorder_index := by
      rintro rfl
      exact hnew hp
    rw [hplace.owner_of p, if_neg hne]
  cases hlast : s.sale.last_day_of_sale with
  | true =>
    -- nothing is added to the list, and no flag is touched
    rw [if_pos rfl, List.append_nil]
    constructor
    · intro p hp b hb
      rw [hold p hp] at hb
      exact (hplace.flags b).mpr (.inl (h.flag p hp b hb))
    · intro p hp q hq b hb hb'
      rw [hold p hp] at hb
      rw [hold q hq] at hb'
      exact h.one p hp q hq b hb hb'
  | false =>
    -- the flag of `a` was clear, so `a` has none of the list pending
    have hclear : s.sale.owner_has_preorder a = false := by
      rcases hplace.allowed with hlast' | ⟨_, hclear⟩
      · rw [hlast] at hlast'
        cases hlast'
      · exact hclear
    have hnone (p : PreorderId) (hp : p ∈ ids) : s.owner_of p ≠ some a := by
      intro howner
      have hset := h.flag p hp a howner
      rw [hclear] at hset
      cases hset
    have hcase (p : PreorderId) (hp : p ∈ ids ++ [s.sale.preorder_index]) :
        (p ∈ ids ∧ s'.owner_of p = s.owner_of p) ∨
          (p = s.sale.preorder_index ∧ s'.owner_of p = some a) := by
      rcases List.mem_append.mp hp with hp | hp
      · exact .inl ⟨hp, hold p hp⟩
      · have hp := List.mem_singleton.mp hp
        exact .inr ⟨hp, by rw [hplace.owner_of p, if_pos hp]⟩
    rw [if_neg Bool.false_ne_true]
    constructor
    · intro p hp b hb
      rcases hcase p hp with ⟨hp, heq⟩ | ⟨_, heq⟩
      · rw [heq] at hb
        exact (hplace.flags b).mpr (.inl (h.flag p hp b hb))
      · rw [heq] at hb
        exact (hplace.flags b).mpr (.inr ⟨hlast, (Option.some.inj hb).symm⟩)
    · intro p hp q hq b hb hb'
      rcases hcase p hp with ⟨hp, heq⟩ | ⟨hpi, heq⟩ <;> rw [heq] at hb <;>
        rcases hcase q hq with ⟨hq, heq'⟩ | ⟨hqi, heq'⟩ <;> rw [heq'] at hb'
      · exact h.one p hp q hq b hb hb'
      · exact absurd (hb'.symm ▸ hb) (hnone p hp)
      · exact absurd (hb.symm ▸ hb') (hnone q hq)
      · exact hpi.trans hqi.symm

/-- A batch takes preorders away, and clears no flag that is still needed. -/
theorem Guarded.batch {how : Resolution} {handled : List PreorderId} (h : Guarded ids s)
    (hres : Resolves how s.sale.last_day_of_sale s handled s')
    (hall : s.sale.last_day_of_sale = false → ∀ p ∈ ids, ∀ a ∈ s.owner_of p,
      Handled s handled a → p ∈ handled) : Guarded ids s' := by
  constructor
  · intro p hp a ha
    obtain ⟨hnot, hold⟩ := hres.owner_iff.mp ha
    refine (hres.flags a).mpr ⟨h.flag p hp a hold, ?_⟩
    cases hlast : s.sale.last_day_of_sale with
    | true => exact .inl rfl
    | false => exact .inr fun hhandled => hnot (hall hlast p hp a hold hhandled)
  · -- what is pending after the batch was pending before it
    intro p hp q hq a ha ha'
    exact h.one p hp q hq a (hres.owner_iff.mp ha).2 (hres.owner_iff.mp ha').2

/-- The list gets what the entry placed, if it was not the last day. -/
theorem firstPhase_of_append {l : Label T} {r : Outcome T} {evs : List (Event T)}
    (hevs : s'.events = s.events ++ evs) :
    firstPhase ⟨s, l, r, s'⟩ = if s.sale.last_day_of_sale then []
      else (evs.filterMap (Event.placement l)).map Placement.preorder_id := by
  unfold firstPhase
  rw [placements_of_append hevs]

theorem firstPhase_eq_nil {l : Label T} {r : Outcome T} {evs : List (Event T)}
    (hevs : s'.events = s.events ++ evs) (hnone : evs.filterMap (Event.placement l) = []) :
    firstPhase ⟨s, l, r, s'⟩ = [] := by
  rw [firstPhase_of_append hevs, hnone, List.map_nil, ite_self]

/-- The next id is not on the list yet. -/
theorem Runs.next_not_listed [DecidableEq AccountId] {ok : Entry T → Prop}
    {g : GenesisConfig AccountId} {w : T.World} {now : UInt64} {tr : List (Entry T)}
    (h : Runs ok (genesis g w now) tr s) : s.sale.preorder_index ∉ history firstPhase tr := by
  intro hmem
  obtain ⟨e, he, hpe⟩ := mem_history.mp hmem
  unfold firstPhase at hpe
  split at hpe
  · cases hpe
  · -- what was placed has an id below the next one
    obtain ⟨pl, hpl, hid⟩ := List.mem_map.mp hpe
    have hlt := h.tracked.1.id_lt (mem_history.mpr ⟨e, he, hpl⟩)
    rw [hid] at hlt
    exact Nat.lt_irrefl _ hlt

/-- Every step keeps the invariant, if a batch takes all it has to. -/
theorem Guarded.step [DecidableEq AccountId] {l : Label T} {r : Outcome T} (h : Guarded ids s)
    (hnew : s.sale.preorder_index ∉ ids) (hall : TakesAll ids ⟨s, l, r, s'⟩)
    (hs : Booked s l r s') : Guarded (ids ++ firstPhase ⟨s, l, r, s'⟩) s' := by
  cases hs with
  | aside evs hpre hflag hevs hnone hbatch =>
    have hplaced : evs.filterMap (Event.placement l) = [] := by
      rw [List.filterMap_eq_nil_iff]
      exact fun event hmem => Event.placement_of_not (hnone event hmem) l
    rw [firstPhase_eq_nil hevs hplaced, List.append_nil]
    exact h.keep hpre hflag
  | @place a ra ca _ hp =>
    obtain ⟨md, w, _, _, hpost⟩ := hp.post
    have hevs : s'.events = s.events ++ [.OriginOfShellPreordered a s.sale.preorder_index] := by
      rw [hpost]
    rw [firstPhase_of_append hevs]
    exact h.place hnew hp
  | @batch o _ how l hres =>
    obtain ⟨evs, hevs, _, hnone⟩ := hres.events
    rw [firstPhase_eq_nil hevs (hnone _), List.append_nil]
    exact h.batch hres fun hlast => hall rfl hlast _ (how.batch_call _ l)

end alone

/-- **One first-phase preorder per account.** In every run from genesis
    whose batches before the last day take all first-phase preorders of the
    accounts they handle, no account ever has two pending. -/
theorem first_phase_alone [DecidableEq AccountId] {ok : Entry T → Prop}
    {g : GenesisConfig AccountId} {w : T.World} {now : UInt64} {tr : List (Entry T)} {s : State T}
    (h : Runs ok (genesis g w now) tr s)
    (hall : Throughout (fun e earlier => TakesAll (history firstPhase earlier) e) tr) :
    OneFirst (history firstPhase tr) s := by
  have hguarded : Guarded (history firstPhase tr) s := by
    refine Runs.induction (J := fun tr s =>
      Throughout (fun e earlier => TakesAll (history firstPhase earlier) e) tr →
        Guarded (history firstPhase tr) s) h ?_ ?_ hall
    · intro _
      constructor
      · intro p hp
        cases hp
      · intro p hp
        cases hp
    · intro tr s l r s' hrun hJ _ hs hall
      obtain ⟨hhead, htail⟩ := throughout_cons.mp hall
      rw [history_cons]
      exact (hJ htail).step hrun.next_not_listed hhead hs.booked
  exact hguarded.one

open Mock in
/-- `ALICE` preorders in the first phase and on the last day. -/
def both_phases : List (Label (runtime 200)) :=
  setup 200 ++
  [.call (.signed ALICE) .claim_spirit,
    .call (.signed ALICE) (.preorder_origin_of_shell .AISpectre .RoboWarrior),
    admin (.set_status_type true .LastDayOfSale),
    .call (.signed ALICE) (.preorder_origin_of_shell .XGene .Web3Monk),
    admin (.set_status_type false .LastDayOfSale)]

open Mock in
/-- Both are refunded in one batch, and `ALICE` preorders again. -/
def refunded_together : List (Label (runtime 200)) :=
  both_phases ++
  [admin (.refund_not_chosen_preorders [1, 0]),
    .call (.signed ALICE) (.preorder_origin_of_shell .Cyborg .HackerWizard)]

open Mock in
theorem first_phase_refunded_together :
    history firstPhase (after refunded_together).1 = [0, 2] ∧
    OneFirst (history firstPhase (after refunded_together).1) (after refunded_together).2 := by
  have hrun : Runs (fun _ => True) (genesis₀ 200) (after refunded_together).1
      (after refunded_together).2 := Run.exec (p := fun _ => True) .nil (by simp)
  have hone := first_phase_alone (T := runtime 200) (g := GenesisConfig.default) (w := world₀) hrun
    (by decide +kernel)
  exact ⟨by decide +kernel, hone⟩

open Mock in
/-- Only the preorder of the last day is refunded, and `ALICE` preorders again. -/
def refunded_apart : List (Label (runtime 200)) :=
  both_phases ++
  [admin (.refund_not_chosen_preorders [1]),
    .call (.signed ALICE) (.preorder_origin_of_shell .Cyborg .HackerWizard)]

open Mock in
/-- She has two first-phase preorders pending. -/
theorem two_first_preorders : ∃ tr s, Runs (fun _ => True) (genesis₀ 200) tr s ∧
    ¬ OneFirst (history firstPhase tr) s := by
  refine ⟨(after refunded_apart).1, (after refunded_apart).2,
    Run.exec (p := fun _ => True) .nil (by simp), ?_⟩
  have htwo : history firstPhase (after refunded_apart).1 = [0, 2] ∧
      (after refunded_apart).2.owner_of 0 = some ALICE ∧
      (after refunded_apart).2.owner_of 2 = some ALICE := by decide +kernel
  obtain ⟨hids, hfirst, hsecond⟩ := htwo
  intro hone
  rw [hids] at hone
  cases hone 0 (by simp) 2 (by simp) ALICE hfirst hsecond

/-! ### Flags without a preorder -/

/-- The account has no preorder pending. -/
def Unlisted (s : State T) (a : AccountId) : Prop :=
  ∀ p, s.owner_of p ≠ some a

/-- The flag of the account is set, though it has no preorder pending. -/
def LockedOut (s : State T) (a : AccountId) : Prop :=
  s.sale.owner_has_preorder a = true ∧ Unlisted s a

/-- A batch that goes through on the last day resolves the last preorders of
    an account whose flag is set. -/
def Strips (a : AccountId) (e : Entry T) : Prop :=
  succeeded e = true ∧ e.pre.sale.last_day_of_sale = true ∧
    e.pre.sale.owner_has_preorder a = true ∧
    ∃ handled ∈ e.label.batch, Handled e.pre handled a ∧
      ∀ p, e.pre.owner_of p = some a → p ∈ handled

/-- The account was stripped, and has had no preorder pending since. -/
def Stranded (a : AccountId) (tr : List (Entry T)) : Prop :=
  ∃ later e earlier, tr = later ++ e :: earlier ∧ Strips a e ∧ ∀ d ∈ later, Unlisted d.post a

section stranded
variable {a : AccountId} {e : Entry T} {tr : List (Entry T)}

theorem stranded_nil : ¬ Stranded a ([] : List (Entry T)) := by
  intro ⟨later, e, earlier, htr, _⟩
  cases later <;> cases htr

theorem stranded_cons :
    Stranded a (e :: tr) ↔ Strips a e ∨ Stranded a tr ∧ Unlisted e.post a := by
  constructor
  · intro ⟨later, d, earlier, htr, hstrips, hlater⟩
    cases later with
    | nil =>
      cases htr
      exact .inl hstrips
    | cons d' later =>
      cases htr
      exact .inr ⟨⟨later, d, earlier, rfl, hstrips,
        fun d hd => hlater d (List.mem_cons_of_mem _ hd)⟩, hlater e List.mem_cons_self⟩
  · intro h
    rcases h with hstrips | ⟨⟨later, d, earlier, htr, hstrips, hlater⟩, hpost⟩
    · exact ⟨[], e, tr, rfl, hstrips, by simp⟩
    · refine ⟨e :: later, d, earlier, by rw [htr]; rfl, hstrips, ?_⟩
      rw [List.forall_mem_cons]
      exact ⟨hpost, hlater⟩

/-- An account is locked out by the batch that strips it, or was before and
    has placed nothing. -/
theorem Booked.locked_out [DecidableEq AccountId] {s s' : State T} {l : Label T} {r : Outcome T}
    (h : Booked s l r s') (hfree : s.owner_of s.sale.preorder_index = none) :
    LockedOut s' a ↔ Strips a ⟨s, l, r, s'⟩ ∨ LockedOut s a ∧ Unlisted s' a := by
  cases h with
  | aside evs hpre hflag _ _ hbatch =>
    have howner : s'.owner_of = s.owner_of := by
      unfold State.owner_of
      rw [hpre]
    have hnot : ¬ Strips a ⟨s, l, r, s'⟩ := by
      intro ⟨hsucceeded, _, _, handled, hhandled, _⟩
      cases r with
      | ok u =>
        rw [hbatch rfl] at hhandled
        cases hhandled
      | error err => cases hsucceeded
    unfold LockedOut Unlisted
    rw [howner, hflag]
    simp [hnot]
  | @place b ra ca _ hplace =>
    have hnot : ¬ Strips a ⟨s, .call (.signed b) (.preorder_origin_of_shell ra ca), .ok (), s'⟩ := by
      intro ⟨_, _, _, handled, hhandled, _⟩
      cases hhandled
    constructor
    · intro ⟨hflag, hnone⟩
      -- `a` did not place it, so nothing changed for `a`
      have hne : a ≠ b := by
        rintro rfl
        exact hnone s.sale.preorder_index (by rw [hplace.owner_of, if_pos rfl])
      refine .inr ⟨⟨?_, ?_⟩, hnone⟩
      · rcases (hplace.flags a).mp hflag with hold | ⟨_, heq⟩
        · exact hold
        · exact absurd heq hne
      · intro p hp
        have hne : p ≠ s.sale.preorder_index := by
          rintro rfl
          rw [hfree] at hp
          cases hp
        exact hnone p (by rw [hplace.owner_of, if_neg hne, hp])
    · intro h
      rcases h with hstrips | ⟨⟨hflag, _⟩, hnone⟩
      · exact absurd hstrips hnot
      · exact ⟨(hplace.flags a).mpr (.inl hflag), hnone⟩
  | @batch o _ how ids hres =>
    have hlabel := how.batch_call (.signed o) ids (T := T)
    constructor
    · intro ⟨hflag, hnone⟩
      obtain ⟨hold, hkept⟩ := (hres.flags a).mp hflag
      by_cases hhandled : Handled s (ids.take T.IterLimit.toNat) a
      · -- its flag is still set, so it is the last day
        have hlast := hkept.resolve_right (not_not_intro hhandled)
        refine .inl ⟨rfl, hlast, hold, _, hlabel, hhandled, ?_⟩
        intro p hp
        by_contra hnot
        exact hnone p (hres.owner_iff.mpr ⟨hnot, hp⟩)
      · -- the batch was not about `a`
        refine .inr ⟨⟨hold, ?_⟩, hnone⟩
        intro p hp
        have hnot : p ∉ ids.take T.IterLimit.toNat := fun hmem => hhandled ⟨p, hmem, hp⟩
        exact hnone p (hres.owner_iff.mpr ⟨hnot, hp⟩)
    · intro h
      rcases h with ⟨_, hlast, hflag, handled, hhandled, _, hall⟩ | ⟨⟨hflag, hnone⟩, hpost⟩
      · refine ⟨(hres.flags a).mpr ⟨hflag, .inl hlast⟩, ?_⟩
        intro p hp
        obtain rfl : _ = handled := Option.some.inj (hlabel.symm.trans hhandled)
        obtain ⟨hnot, hold⟩ := hres.owner_iff.mp hp
        exact hnot (hall p hold)
      · refine ⟨(hres.flags a).mpr ⟨hflag, .inr ?_⟩, hpost⟩
        intro ⟨p, _, hp⟩
        exact hnone p hp

end stranded

/-- **Stale flags.** In every run from genesis an account's flag is set without
    a pending preorder exactly if a batch on the last day, which keeps the
    flags, resolved its last preorders, and it has had none since. -/
theorem locked_out_iff [DecidableEq AccountId] {ok : Entry T → Prop}
    {g : GenesisConfig AccountId} {w : T.World} {now : UInt64} {tr : List (Entry T)} {s : State T}
    (h : Runs ok (genesis g w now) tr s) (a : AccountId) : LockedOut s a ↔ Stranded a tr := by
  refine Runs.induction (J := fun tr s => LockedOut s a ↔ Stranded a tr) h ?_ ?_
  · refine iff_of_false ?_ stranded_nil
    intro ⟨hflag, _⟩
    cases hflag
  · intro tr s l r s' hrun hJ _ hs
    have hfree : s.owner_of s.sale.preorder_index = none := by
      unfold State.owner_of
      rw [hrun.tracked.1.accounted.below _ le_rfl]
      rfl
    rw [hs.booked.locked_out hfree, stranded_cons, hJ]

open Mock in
/-- `ALICE` preorders in the first phase, and the preorder is refunded on the
    last day. -/
def refunded_late : List (Label (runtime 200)) :=
  setup 200 ++
  [.call (.signed ALICE) .claim_spirit,
    .call (.signed ALICE) (.preorder_origin_of_shell .AISpectre .RoboWarrior),
    admin (.set_status_type true .LastDayOfSale),
    admin (.refund_not_chosen_preorders [0]),
    admin (.set_status_type false .LastDayOfSale)]

open Mock in
/-- Her flag is set and she has no preorder. -/
theorem locked_out_alice : LockedOut (after refunded_late).2 ALICE := by
  have hrun : Runs (fun _ => True) (genesis₀ 200) (after refunded_late).1
      (after refunded_late).2 := Run.exec (p := fun _ => True) .nil (by simp)
  have hbelow := (Runs.tracked (T := runtime 200) (g := GenesisConfig.default) (w := world₀)
    hrun).1.accounted.below
  have hafter : (after refunded_late).2.sale.owner_has_preorder ALICE = true ∧
      (after refunded_late).2.sale.preorder_index = 1 ∧
      (after refunded_late).2.owner_of 0 = none := by decide +kernel
  obtain ⟨hflag, hindex, hnone⟩ := hafter
  refine ⟨hflag, ?_⟩
  intro p hp
  -- there is no id but 0
  cases p with
  | zero =>
    rw [hnone] at hp
    cases hp
  | succ p =>
    have hp' := hbelow (p + 1) (by rw [hindex]; exact Nat.le_add_left 1 p)
    unfold State.owner_of at hp
    rw [hp'] at hp
    cases hp

open Mock in
theorem stranded_alice : Stranded ALICE (after refunded_late).1 := by
  have hrun : Runs (fun _ => True) (genesis₀ 200) (after refunded_late).1
      (after refunded_late).2 := Run.exec (p := fun _ => True) .nil (by simp)
  exact (locked_out_iff (T := runtime 200) (g := GenesisConfig.default) (w := world₀) hrun
    ALICE).mp locked_out_alice

open Mock in
/-- A set flag does not mean a pending preorder. -/
theorem stale_flag : ∃ tr s, Runs (fun _ => True) (genesis₀ 200) tr s ∧
    ¬ ∀ a, s.sale.owner_has_preorder a = true → ∃ p, s.owner_of p = some a := by
  refine ⟨(after refunded_late).1, (after refunded_late).2,
    Run.exec (p := fun _ => True) .nil (by simp), ?_⟩
  intro hpending
  obtain ⟨hflag, hnone⟩ := locked_out_alice
  obtain ⟨p, hp⟩ := hpending ALICE hflag
  exact hnone p hp

end PhalaWorld
