import PhalaWorld.Sale.Preorders

/-! # What a batch does, and calling it again

    `mint_chosen_preorders` and `refund_not_chosen_preorders` both run
    through the first `IterLimit` of the ids they are given, and take each
    preorder out of storage. `Resolves` says what the two have in common,
    for as many rounds as were run.

    A comment in both loops says that calling the function again starts from
    where it left off. It does not: the second call meets the first id, which
    is gone, and fails (`resumed_iff`).
-/

namespace PhalaWorld

open LTS

variable {AccountId : Type} {T : Config AccountId}

/-! ### Rounds -/

/-- The owner of a pending preorder. -/
def State.owner_of (s : State T) (p : PreorderId) : Option AccountId :=
  (s.sale.preorders p).map PreorderInfo.owner

/-- `a` owns one of the preorders. -/
def Handled (s : State T) (ids : List PreorderId) (a : AccountId) : Prop :=
  ∃ p ∈ ids, s.owner_of p = some a

instance [DecidableEq AccountId] (s : State T) (ids : List PreorderId) (a : AccountId) :
    Decidable (Handled s ids a) :=
  inferInstanceAs (Decidable (∃ p ∈ ids, s.owner_of p = some a))

/-- What the rounds of a batch over `ids` leave. The flag of an owner is
    cleared unless it is the last day. -/
structure Resolves (how : Resolution) (last : Bool) (s : State T) (ids : List PreorderId)
    (s' : State T) : Prop where
  nodup : ids.Nodup
  pending : ∀ p ∈ ids, (s.sale.preorders p).isSome
  preorders : ∀ p, s'.sale.preorders p = if p ∈ ids then none else s.sale.preorders p
  flags : ∀ a, s'.sale.owner_has_preorder a = true ↔
    s.sale.owner_has_preorder a = true ∧ (last = true ∨ ¬ Handled s ids a)
  preorder_index : s'.sale.preorder_index = s.sale.preorder_index
  last_day_of_sale : s'.sale.last_day_of_sale = s.sale.last_day_of_sale
  events : ∃ evs, s'.events = s.events ++ evs ∧
    (evs.filterMap Event.resolution = ids.map fun p => (p, how)) ∧
    ∀ l, evs.filterMap (Event.placement l) = []

section resolves
variable {how : Resolution} {last : Bool} {s s₁ s' : State T} {ids ids' : List PreorderId}

/-- What is pending after some rounds is what was pending and not handled. -/
theorem Resolves.owner_iff (h : Resolves how last s ids s') {p : PreorderId} {a : AccountId} :
    s'.owner_of p = some a ↔ p ∉ ids ∧ s.owner_of p = some a := by
  unfold State.owner_of
  rw [h.preorders p]
  by_cases hp : p ∈ ids
  · simp [hp]
  · simp [hp]

/-- A round that came later found its preorder untouched. -/
theorem Resolves.untouched (h : Resolves how last s ids s₁) {p : PreorderId}
    (hp : (s₁.sale.preorders p).isSome) : p ∉ ids ∧ s₁.sale.preorders p = s.sale.preorders p := by
  rw [h.preorders p] at hp ⊢
  by_cases hmem : p ∈ ids
  · rw [if_pos hmem] at hp
    cases hp
  · exact ⟨hmem, if_neg hmem⟩

theorem Resolves.nil (s : State T) : Resolves how last s [] s := by
  refine ⟨List.nodup_nil, ?_, ?_, ?_, rfl, rfl, [], by simp, rfl, fun _ => rfl⟩
  · simp
  · simp
  · simp [Handled]

/-- The accounts handled by two groups of rounds, one after the other. -/
theorem Resolves.handled_append (h : Resolves how last s ids s₁)
    (h' : Resolves how last s₁ ids' s') (a : AccountId) :
    Handled s (ids ++ ids') a ↔ Handled s ids a ∨ Handled s₁ ids' a := by
  constructor
  · intro ⟨p, hp, howner⟩
    rcases List.mem_append.mp hp with hp | hp
    · exact .inl ⟨p, hp, howner⟩
    · exact .inr ⟨p, hp, h.owner_iff.mpr ⟨(h.untouched (h'.pending p hp)).1, howner⟩⟩
  · intro hhandled
    rcases hhandled with ⟨p, hp, howner⟩ | ⟨p, hp, howner⟩
    · exact ⟨p, List.mem_append_left _ hp, howner⟩
    · exact ⟨p, List.mem_append_right _ hp, (h.owner_iff.mp howner).2⟩

/-- Rounds after rounds. -/
theorem Resolves.append (h : Resolves how last s ids s₁) (h' : Resolves how last s₁ ids' s') :
    Resolves how last s (ids ++ ids') s' := by
  obtain ⟨evs, hevs, hres, hplaced⟩ := h.events
  obtain ⟨evs', hevs', hres', hplaced'⟩ := h'.events
  constructor
  · -- an id that was resolved is not pending when its second round comes
    refine List.nodup_append.mpr ⟨h.nodup, h'.nodup, ?_⟩
    intro p hp q hq heq
    exact (h.untouched (h'.pending q hq)).1 (heq ▸ hp)
  · intro p hp
    rcases List.mem_append.mp hp with hp | hp
    · exact h.pending p hp
    · rw [← (h.untouched (h'.pending p hp)).2]
      exact h'.pending p hp
  · intro p
    rw [h'.preorders p, h.preorders p]
    by_cases hp : p ∈ ids
    · simp [hp]
    · simp [hp]
  · intro a
    rw [h'.flags a, h.flags a, h.handled_append h' a, and_assoc, ← or_and_left, not_or]
  · exact h'.preorder_index.trans h.preorder_index
  · exact h'.last_day_of_sale.trans h.last_day_of_sale
  · refine ⟨evs ++ evs', by rw [hevs', hevs, List.append_assoc], ?_, ?_⟩
    · rw [List.filterMap_append, hres, hres', List.map_append]
    · intro l
      rw [List.filterMap_append, hplaced l, hplaced' l, List.nil_append]

/-- What resolves one id in each link resolves the ids of the chain. -/
theorem Resolves.of_chain {R : State T → PreorderId → State T → Prop}
    (hround : ∀ s p s', R s p s' → Resolves how last s [p] s') (h : Chain R s ids s') :
    Resolves how last s ids s' := by
  induction h with
  | nil s => exact .nil s
  | cons hr _ ih => exact (hround _ _ _ hr).append ih

end resolves

section rounds
variable [DecidableEq AccountId] {how : Resolution} {last : Bool} {s s' : State T}

/-- One round, for a state that the round left. -/
theorem Resolves.one {p : PreorderId} {info : PreorderInfo AccountId T.Metadata}
    (hp : s.sale.preorders p = some info)
    (hpre : s'.sale.preorders = Function.update s.sale.preorders p none)
    (hflag : s'.sale.owner_has_preorder = if last then s.sale.owner_has_preorder
      else Function.update s.sale.owner_has_preorder info.owner false)
    (hindex : s'.sale.preorder_index = s.sale.preorder_index)
    (hlast : s'.sale.last_day_of_sale = s.sale.last_day_of_sale)
    (hevents : ∃ evs, s'.events = s.events ++ evs ∧
      evs.filterMap Event.resolution = [(p, how)] ∧
      ∀ l, evs.filterMap (Event.placement l) = []) :
    Resolves how last s [p] s' := by
  have hhandled (a : AccountId) : Handled s [p] a ↔ info.owner = a := by
    simp [Handled, State.owner_of, hp]
  refine ⟨List.nodup_singleton p, ?_, ?_, ?_, hindex, hlast, hevents⟩
  · simp [hp]
  · intro q
    simp only [hpre, Function.update_apply, List.mem_singleton]
  · intro a
    rw [hflag, hhandled a]
    cases last with
    | true => simp
    | false =>
      by_cases ha : info.owner = a
      · subst ha
        simp
      · simp [ha, Function.update_of_ne (Ne.symm ha)]

theorem MintsPreorder.resolves {o : AccountId} {p : PreorderId}
    (h : MintsPreorder o last s p s') : Resolves .minted last s [p] s' := by
  obtain ⟨info, c, i, s₁, hinfo, hmint, rfl⟩ := h
  obtain ⟨md, w, rc, cc, _, _, _, _, rfl⟩ := hmint.post
  exact .one hinfo rfl rfl rfl rfl ⟨_, List.append_assoc _ _ _, rfl, fun _ => rfl⟩

theorem RefundsPreorder.resolves {p : PreorderId} (h : RefundsPreorder last s p s') :
    Resolves .refunded last s [p] s' := by
  obtain ⟨info, hinfo, rfl⟩ := h
  exact .one hinfo rfl rfl rfl rfl ⟨_, rfl, rfl, fun _ => rfl⟩

/-- One round of a batch. -/
def Round (how : Resolution) (o : AccountId) (last : Bool) :
    State T → PreorderId → State T → Prop :=
  match how with
  | .minted => MintsPreorder o last
  | .refunded => RefundsPreorder last

theorem rounds_resolve {o : AccountId} {ids : List PreorderId}
    (h : Chain (Round how o last) s ids s') : Resolves how last s ids s' := by
  cases how with
  | minted => exact .of_chain (fun _ _ _ hr => MintsPreorder.resolves hr) h
  | refunded => exact .of_chain (fun _ _ _ hr => RefundsPreorder.resolves hr) h

/-- Distinct pending preorders can all be refunded. -/
theorem refunds_chain {ids : List PreorderId} (hnodup : ids.Nodup)
    (hpending : ∀ p ∈ ids, (s.sale.preorders p).isSome) :
    ∃ s', Chain (RefundsPreorder last) s ids s' := by
  induction ids generalizing s with
  | nil => exact ⟨s, .nil s⟩
  | cons p ids ih =>
    obtain ⟨hp, hnodup⟩ := List.nodup_cons.mp hnodup
    obtain ⟨info, hinfo⟩ := Option.isSome_iff_exists.mp (hpending p List.mem_cons_self)
    obtain ⟨s₁, hround⟩ : ∃ s₁, RefundsPreorder last s p s₁ := ⟨_, info, hinfo, rfl⟩
    -- the others are pending still
    have hrest : ∀ q ∈ ids, (s₁.sale.preorders q).isSome := by
      intro q hq
      have hne : q ∉ [p] := fun h => hp (List.mem_singleton.mp h ▸ hq)
      rw [hround.resolves.preorders q, if_neg hne]
      exact hpending q (List.mem_cons_of_mem _ hq)
    obtain ⟨s', hl⟩ := ih hnodup hrest
    exact ⟨s', .cons hround hl⟩

/-- The world after the escrow of the preorder `p` of `s` was released. -/
def released (s : State T) (w : T.World) (p : PreorderId) : T.World :=
  match s.sale.preorders p with
  | some info => T.unreserve info.owner T.PrimeOriginOfShellPrice w
  | none => w

/-- Refunds release the escrow of each preorder, and touch nothing else of
    the world. -/
theorem refunds_world {ids : List PreorderId} (h : Chain (RefundsPreorder last) s ids s') :
    s'.world = ids.foldl (released s) s.world := by
  induction h with
  | nil s => rfl
  | @cons s s₁ s₂ p ids hround hl ih =>
    have hrest := Resolves.of_chain (fun _ _ _ hr => RefundsPreorder.resolves hr) hl
    -- the later rounds find the preorders as they were in the first state
    have hsame (w : T.World) (q : PreorderId) (hq : q ∈ ids) :
        released s₁ w q = released s w q := by
      unfold released
      rw [(hround.resolves.untouched (hrest.pending q hq)).2]
    have hfirst : s₁.world = released s s.world p := by
      obtain ⟨info, hinfo, rfl⟩ := hround
      unfold released
      rw [hinfo]
      rfl
    rw [ih, hfirst, List.foldl_cons]
    exact List.foldl_ext _ _ _ hsame

end rounds

/-! ### Calling a batch again -/

/-- The call of a batch. -/
def Resolution.call : Resolution → List PreorderId → Call T
  | .minted, preorders => .mint_chosen_preorders preorders
  | .refunded, preorders => .refund_not_chosen_preorders preorders

/-- How often a batch of `n` ids has to be called: `n / IterLimit`, rounded up. -/
def calls (T : Config AccountId) (n : Nat) : Nat :=
  (n + T.IterLimit.toNat - 1) / T.IterLimit.toNat

/-- A batch no longer than the limit is one call. -/
theorem calls_of_le {n : Nat} (hpos : 0 < n) (hle : n ≤ T.IterLimit.toNat) : calls T n = 1 := by
  unfold calls
  exact Nat.div_eq_of_lt_le (by omega) (by omega)

/-- A longer one is at least two. -/
theorem two_le_calls {n : Nat} (hlimit : 1 ≤ T.IterLimit.toNat) (hlt : T.IterLimit.toNat < n) :
    2 ≤ calls T n := by
  unfold calls
  rw [Nat.le_div_iff_mul_le hlimit]
  omega

section again
variable [DecidableEq AccountId] {how : Resolution} {o : AccountId} {s s' : State T}
  {l : List PreorderId}

/-- What `o` gets by calling the batch as often as its ids need, each time
    with all of them. -/
def recalled (how : Resolution) (o : AccountId) (l : List PreorderId) (s : State T) :
    List (Entry T) × State T :=
  exec step s [] (List.replicate (calls T l.length) (.call (.signed o) (how.call l)))

/-- Every call went through, and each preorder was resolved once. A refund
    releases the escrow, once for each preorder. -/
structure Completes (how : Resolution) (l : List PreorderId) (s : State T)
    (run : List (Entry T) × State T) : Prop where
  succeeded : ∀ e ∈ run.1, succeeded e = true
  once : ∀ p ∈ l, times (history resolutions run.1) p how = 1
  gone : ∀ p ∈ l, run.2.sale.preorders p = none
  released : how = .refunded → run.2.world = l.foldl (released s) s.world

theorem batch_ok {origin : Origin AccountId} {u : Unit} :
    dispatch origin (how.call l) s = (.ok u, s') ↔
      ∃ o, origin = .signed o ∧ s.sale.overlord = some o ∧
        Chain (Round how o s.sale.last_day_of_sale) s (l.take T.IterLimit.toNat) s' := by
  cases how with
  | minted => exact NftSale.mint_chosen_preorders_ok
  | refunded => exact NftSale.refund_not_chosen_preorders_ok

/-- The Overlord's call runs its rounds. -/
theorem batch_call_iff (ho : s.sale.overlord = some o) :
    step s (.call (.signed o) (how.call l)) = (.ok (), s') ↔
      Chain (Round how o s.sale.last_day_of_sale) s (l.take T.IterLimit.toNat) s' := by
  refine batch_ok.trans ⟨?_, fun hl => ⟨o, rfl, ho, hl⟩⟩
  intro ⟨o', horigin, _, hl⟩
  cases horigin
  exact hl

theorem mint_call_iff (ho : s.sale.overlord = some o) :
    step s (.call (.signed o) (.mint_chosen_preorders l)) = (.ok (), s') ↔
      Chain (MintsPreorder o s.sale.last_day_of_sale) s (l.take T.IterLimit.toNat) s' := by
  have hcall : step s (.call (.signed o) (Resolution.minted.call l)) = (.ok (), s') ↔ _ :=
    batch_call_iff ho
  exact hcall

theorem refund_call_iff (ho : s.sale.overlord = some o) :
    step s (.call (.signed o) (.refund_not_chosen_preorders l)) = (.ok (), s') ↔
      Chain (RefundsPreorder s.sale.last_day_of_sale) s (l.take T.IterLimit.toNat) s' := by
  have hcall : step s (.call (.signed o) (Resolution.refunded.call l)) = (.ok (), s') ↔ _ :=
    batch_call_iff ho
  exact hcall

omit [DecidableEq AccountId] in
/-- A single id is within the limit, unless that is zero. -/
theorem take_singleton (hlimit : T.IterLimit ≠ 0) (p : PreorderId) :
    [p].take T.IterLimit.toNat = [p] :=
  List.take_of_length_le (Nat.pos_of_ne_zero fun hzero => hlimit (UInt32.toNat_inj.mp hzero))

theorem rounds_of_succeeded {o : AccountId}
    (h : succeeded (entry step s (.call (.signed o) (how.call l))) = true) :
    Chain (Round how o s.sale.last_day_of_sale) s (l.take T.IterLimit.toNat)
      (step s (.call (.signed o) (how.call l))).2 := by
  obtain ⟨o', horigin, _, hrounds⟩ := batch_ok.mp (step_of_succeeded h)
  cases horigin
  exact hrounds

/-- A batch no longer than the limit completes, if its rounds go through. -/
theorem completes_of_le (ho : s.sale.overlord = some o) (hle : l.length ≤ T.IterLimit.toNat)
    (hrounds : Chain (Round how o s.sale.last_day_of_sale) s l s') :
    Completes how l s (recalled how o l s) := by
  rcases Nat.eq_zero_or_pos l.length with hzero | hpos
  · -- nothing is to be called
    obtain rfl := List.length_eq_zero_iff.mp hzero
    have hrun : recalled how o [] s = ([], s) := by
      unfold recalled
      have hnone : calls T ([] : List PreorderId).length = 0 :=
        Nat.div_eq_zero_iff.mpr (by simp; omega)
      rw [hnone]
      rfl
    rw [hrun]
    exact ⟨by simp, by simp, by simp, fun _ => rfl⟩
  · have hstep : step s (.call (.signed o) (how.call l)) = (.ok (), s') := by
      rw [batch_call_iff ho, List.take_of_length_le hle]
      exact hrounds
    have hrun : recalled how o l s =
        ([⟨s, .call (.signed o) (how.call l), .ok (), s'⟩], s') := by
      unfold recalled
      rw [calls_of_le hpos hle, List.replicate_one, exec, exec, entry, hstep]
    have hres := rounds_resolve hrounds
    obtain ⟨evs, hevs, hevents, _⟩ := hres.events
    rw [hrun]
    refine ⟨?_, ?_, ?_, ?_⟩
    · simp [succeeded]
    · intro p hp
      rw [history_cons, history_nil, List.nil_append, resolutions_of_append hevs, hevents, times]
      apply List.count_eq_one_of_mem
      · exact hres.nodup.map fun p q h => congrArg Prod.fst h
      · exact List.mem_map_of_mem hp
    · intro p hp
      show s'.sale.preorders p = none
      rw [hres.preorders p, if_pos hp]
    · rintro rfl
      exact refunds_world hrounds

/-- A longer one does not: its second call meets the first id again. -/
theorem not_completes_of_lt (hlimit : 1 ≤ T.IterLimit.toNat) (hlt : T.IterLimit.toNat < l.length) :
    ¬ Completes how l s (recalled how o l s) := by
  intro hcompletes
  obtain ⟨n, hn⟩ : ∃ n, calls T l.length = n + 1 + 1 :=
    ⟨calls T l.length - 2, by have := two_le_calls hlimit hlt; omega⟩
  obtain ⟨p, hp⟩ : ∃ p, p ∈ l.take T.IterLimit.toNat := by
    apply List.exists_mem_of_length_pos
    rw [List.length_take]
    omega
  let c : Label T := .call (.signed o) (how.call l)
  have hsucceeded := hcompletes.succeeded
  unfold recalled at hsucceeded
  rw [hn, List.replicate_succ, List.replicate_succ, exec, exec] at hsucceeded
  have hfirst : succeeded (entry step s c) = true :=
    hsucceeded _ (mem_exec (List.mem_cons_of_mem _ List.mem_cons_self))
  have hsecond : succeeded (entry step (step s c).2 c) = true :=
    hsucceeded _ (mem_exec List.mem_cons_self)
  -- the first call took `p` out of storage, the second would need it there
  have hgone := (rounds_resolve (rounds_of_succeeded hfirst)).preorders p
  have hpending := (rounds_resolve (rounds_of_succeeded hsecond)).pending p hp
  rw [hgone, if_pos hp] at hpending
  cases hpending

/-- **Resuming a long batch.** In every state, calling `refund_not_chosen_preorders`
    over distinct pending ids as often as they need completes exactly if
    one call was enough, and so does calling `mint_chosen_preorders` where
    each of the preorders can be minted on its turn. -/
theorem resumed_iff (hlimit : 1 ≤ T.IterLimit.toNat) (ho : s.sale.overlord = some o)
    (hnodup : l.Nodup) (hpending : ∀ p ∈ l, (s.sale.preorders p).isSome) :
    (Completes .refunded l s (recalled .refunded o l s) ↔ l.length ≤ T.IterLimit.toNat) ∧
    ((∃ s', Chain (MintsPreorder o s.sale.last_day_of_sale) s l s') →
      (Completes .minted l s (recalled .minted o l s) ↔ l.length ≤ T.IterLimit.toNat)) := by
  constructor
  · obtain ⟨s', hrounds⟩ : ∃ s', Chain (Round .refunded o s.sale.last_day_of_sale) s l s' :=
      refunds_chain hnodup hpending
    constructor
    · intro hcompletes
      exact Nat.le_of_not_lt fun hlt => not_completes_of_lt hlimit hlt hcompletes
    · intro hle
      exact completes_of_le ho hle hrounds
  · intro ⟨s', hrounds⟩
    have hrounds : Chain (Round .minted o s.sale.last_day_of_sale) s l s' := hrounds
    constructor
    · intro hcompletes
      exact Nat.le_of_not_lt fun hlt => not_completes_of_lt hlimit hlt hcompletes
    · intro hle
      exact completes_of_le ho hle hrounds

end again

open Mock in
/-- `ALICE` and `BOB` preorder. -/
def two_preorders (n : UInt32) : List (Label (runtime n)) :=
  setup n ++
  [.call (.signed ALICE) .claim_spirit,
    .call (.signed BOB) .claim_spirit,
    .call (.signed ALICE) (.preorder_origin_of_shell .AISpectre .RoboWarrior),
    .call (.signed BOB) (.preorder_origin_of_shell .XGene .Web3Monk)]

open Mock in
/-- With a limit of 200 the two are one batch. -/
theorem resumed_two_preorders :
    Completes .refunded [0, 1] (after (two_preorders 200)).2
      (recalled .refunded OVERLORD [0, 1] (after (two_preorders 200)).2) ∧
    Completes .minted [0, 1] (after (two_preorders 200)).2
      (recalled .minted OVERLORD [0, 1] (after (two_preorders 200)).2) := by
  have hdone : succeeded (entry step (after (two_preorders 200)).2
      (.call (.signed OVERLORD) (Resolution.minted.call [0, 1]))) = true := by decide +kernel
  have hmint := rounds_of_succeeded hdone
  obtain ⟨hrefunded, hminted⟩ := resumed_iff (T := runtime 200)
    (s := (after (two_preorders 200)).2) (o := OVERLORD) (l := [0, 1]) (by decide)
    (by decide +kernel) (by decide) (by decide +kernel)
  exact ⟨hrefunded.mpr (by decide), (hminted ⟨_, hmint⟩).mpr (by decide)⟩

open Mock in
/-- With a limit of 1 the second call fails, and `BOB` is not refunded. -/
theorem refunds_stop : ∃ tr s,
    Runs (Within (fun _ => True) fun _ _ => True) (genesis₀ 1) tr s ∧
    s.sale.overlord = some OVERLORD ∧ ([0, 1] : List PreorderId).Nodup ∧
    (∀ p ∈ ([0, 1] : List PreorderId), (s.sale.preorders p).isSome) ∧
    ¬ Completes .refunded [0, 1] s (recalled .refunded OVERLORD [0, 1] s) := by
  refine ⟨(after (two_preorders 1)).1, (after (two_preorders 1)).2,
    runs_of_labels (two_preorders 1) (by decide +kernel), by decide +kernel, by decide,
    by decide +kernel, ?_⟩
  intro hcompletes
  exact absurd hcompletes.succeeded (by decide +kernel)

end PhalaWorld
