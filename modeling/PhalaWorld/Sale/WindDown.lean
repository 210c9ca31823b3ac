import PhalaWorld.Sale.Refunds

/-! # Refunding according to plan

    The lists of preorders to refund are drawn up off-chain, and are called
    for while the sale goes on: others buy and preorder in between, phases
    are opened and closed, blocks end. Nobody but the Overlord resolves a
    preorder, so that a plan that was good when it was drawn up stays good.

    * `Traded.book`: what a step does to the pending preorders.
    * `refund_plan`: every call of a plan goes through, whatever happens in
      between.
    * `wind_down`: from every reachable state all preorders can be refunded,
      in as many calls as the limit makes necessary.
-/

namespace PhalaWorld

open LTS Ledger BoundedMap

variable {AccountId : Type} {T : Config AccountId}

/-! ### Steps and the pending preorders -/

/-- The ids a batch would resolve. -/
def Label.batch_ids : Label T → List PreorderId
  | .call _ (.mint_chosen_preorders l) => l.take T.IterLimit.toNat
  | .call _ (.refund_not_chosen_preorders l) => l.take T.IterLimit.toNat
  | _ => []

section book
variable [DecidableEq AccountId] {s s' : State T} {l : Label T} {r : Outcome T}

/-- Pending preorders stay as they are, unless a batch resolves them; a new
    one gets the next id. -/
structure Book (s : State T) (l : Label T) (r : Outcome T) (s' : State T) : Prop where
  index : s.sale.preorder_index ≤ s'.sale.preorder_index
  kept : ∀ p, p < s.sale.preorder_index → (r = .ok () → p ∉ l.batch_ids) →
    s'.sale.preorders p = s.sale.preorders p
  fresh : ∀ p info, s'.sale.preorders p = some info →
    s.sale.preorders p = some info ∨ s.sale.preorder_index ≤ p

omit [DecidableEq AccountId] in
theorem Book.same (hindex : s'.sale.preorder_index = s.sale.preorder_index)
    (hpre : s'.sale.preorders = s.sale.preorders) : Book s l r s' := by
  refine ⟨Nat.le_of_eq hindex.symm, fun p _ _ => by rw [hpre], fun p info hp => .inl ?_⟩
  rw [← hpre]
  exact hp

omit [DecidableEq AccountId] in
theorem Book.resolved {how : Resolution} {last : Bool} (hres : Resolves how last s l.batch_ids s') :
    Book s l (.ok ()) s' := by
  refine ⟨Nat.le_of_eq hres.preorder_index.symm, ?_, ?_⟩
  · intro p _ hp
    rw [hres.preorders p, if_neg (hp rfl)]
  · intro p info hp
    exact .inl ((hres.untouched (Option.isSome_of_mem hp)).2 ▸ hp)

theorem Traded.book (hs : Traded s l r s') : Book s l r s' := by
  cases hs with
  | quiet hq _ => exact .same hq.preorder_index hq.preorders
  | spirit _ hm _ =>
    obtain ⟨md, w₁, w₂, _, _, _, rfl⟩ := hm.post
    exact .same rfl rfl
  | buy _ hm _ =>
    obtain ⟨md, w, rc, cc, _, _, _, _, rfl⟩ := hm.post
    exact .same rfl rfl
  | preorder hp =>
    obtain ⟨md, w, _, _, rfl⟩ := hp.post
    refine ⟨Nat.le_succ _, ?_, ?_⟩
    · intro p hlt _
      exact Function.update_of_ne (Nat.ne_of_lt hlt) _ _
    · intro p info hinfo
      by_cases hp : p = s.sale.preorder_index
      · exact .inr (Nat.le_of_eq hp.symm)
      · have hold : Function.update s.sale.preorders _ _ p = some info := hinfo
        rw [Function.update_of_ne hp] at hold
        exact .inl hold
  | mint _ hl => exact .resolved (.of_chain (fun _ _ _ hm => MintsPreorder.resolves hm) hl)
  | refund _ hl => exact .resolved (.of_chain (fun _ _ _ hr => RefundsPreorder.resolves hr) hl)
  | gift _ _ hm =>
    obtain ⟨md, w, rc, cc, _, _, _, _, rfl⟩ := hm.post
    exact .same rfl rfl
  | init => exact .same rfl rfl
  | update => exact .same rfl rfl
  | create => exact .same rfl rfl
  | hatch hh =>
    obtain ⟨w, _, rfl⟩ := hh.post
    exact .same rfl rfl
  | outside => exact .same rfl rfl

end book

/-! ### A plan, and what happens in between -/

section plan
variable [DecidableEq AccountId] {held : T.World → AccountId → Nat} {o : AccountId}
  {s s' : State T} {tr : List (Entry T)} {plan : List (List PreorderId)}

/-- The lists `o` asks to refund. -/
def refund_calls (o : AccountId) (e : Entry T) : List (List PreorderId) :=
  match e.label with
  | .call (.signed a) (.refund_not_chosen_preorders l) => if a = o then [l] else []
  | _ => []

/-- `o` stays the Overlord, and no batch that is minted takes a preorder that
    is to be refunded. -/
def LetsRefund (o : AccountId) (ids : List PreorderId) (e : Entry T) : Prop :=
  e.post.sale.overlord = some o ∧
    (succeeded e = true → refund_calls o e = [] → ∀ p ∈ e.label.batch_ids, p ∉ ids)

instance (o : AccountId) (ids : List PreorderId) (e : Entry T) : Decidable (LetsRefund o ids e) :=
  inferInstanceAs (Decidable (_ ∧ _))

/-- A list that can be refunded: within the limit, distinct and pending. -/
structure Refundable (s : State T) (ids : List PreorderId) : Prop where
  nodup : ids.Nodup
  pending : ∀ p ∈ ids, (s.sale.preorders p).isSome

theorem refund_calls_label {e : Entry T} {ids : List PreorderId} (h : ids ∈ refund_calls o e) :
    e.label = .call (.signed o) (.refund_not_chosen_preorders ids) ∧ refund_calls o e = [ids] := by
  unfold refund_calls at h ⊢
  split at h
  · next a l hlabel =>
    split at h
    · next ha =>
      obtain rfl := List.mem_singleton.mp h
      rw [hlabel, ha]
      exact ⟨rfl, by simp⟩
    · cases h
  · cases h

/-- The Overlord's refund of a list within the limit goes through. -/
theorem refund_goes_through (hC : CurrencyLaws T) (hR : OtherReserves T held)
    (hescrow : Escrowed held s) (ho : s.sale.overlord = some o) {ids : List PreorderId}
    (hlimit : ids.length ≤ T.IterLimit.toNat) (hids : Refundable s ids) :
    ∃ s', step s (.call (.signed o) (.refund_not_chosen_preorders ids)) = (.ok (), s') ∧
      Chain (RefundsPreorder s.sale.last_day_of_sale) s ids s' ∧ Refunded s ids s' := by
  obtain ⟨s', hl⟩ : ∃ s', Chain (RefundsPreorder s.sale.last_day_of_sale) s ids s' :=
    refunds_chain hids.nodup hids.pending
  refine ⟨s', (refund_call_iff ho).mpr ?_, hl, refunds_refunded hC hR hescrow hl⟩
  rw [List.take_of_length_le hlimit]
  exact hl

/-- What is left of a plan after `tr`, which started in `s`: the calls so far
    went through, and what they refunded is gone; what is still to be refunded
    is as it was, and nothing but new preorders came on top. -/
structure OnPlan (held : T.World → AccountId → Nat) (o : AccountId) (s : State T)
    (tr : List (Entry T)) (rest : List (List PreorderId)) (s₁ : State T) : Prop where
  escrow : Escrowed held s₁
  overlord : s₁.sale.overlord = some o
  index : s.sale.preorder_index ≤ s₁.sale.preorder_index
  calls : ∀ e ∈ tr, ∀ ids ∈ refund_calls o e, succeeded e = true ∧ Refunded e.pre ids e.post
  done : ∀ p ∈ (history (refund_calls o) tr).flatten, s₁.sale.preorders p = none
  rest : ∀ p ∈ rest.flatten, s₁.sale.preorders p = s.sale.preorders p
  fresh : ∀ p info, s₁.sale.preorders p = some info →
    s.sale.preorders p = some info ∨ s.sale.preorder_index ≤ p

/-- A step that calls for no refund leaves the plan good. -/
theorem OnPlan.between (hC : CurrencyLaws T) (hR : OtherReserves T held)
    {rest : List (List PreorderId)} {s₁ : State T} {l : Label T} {ids : List PreorderId}
    (h : OnPlan held o s tr rest s₁) (hcalls : refund_calls o (entry step s₁ l) = [])
    (hok : Within (LetsRefund o ids) (OthersOwn held) (entry step s₁ l))
    (hdone : ∀ p ∈ (history (refund_calls o) tr).flatten, p ∈ ids ∧ p < s.sale.preorder_index)
    (hrest : ∀ p ∈ rest.flatten, p ∈ ids ∧ p < s.sale.preorder_index) :
    OnPlan held o s (entry step s₁ l :: tr) rest (step s₁ l).2 := by
  have hs := (stepped s₁ l).traded
  have hbook := hs.book
  -- a preorder of the plan is not touched
  have hkept (p : PreorderId) (hp : p ∈ ids ∧ p < s.sale.preorder_index) :
      (step s₁ l).2.sale.preorders p = s₁.sale.preorders p := by
    refine hbook.kept p (hp.2.trans_le h.index) fun hr hmem => ?_
    have hsucc : succeeded (entry step s₁ l) = true := by
      unfold succeeded entry
      rw [hr]
    exact hok.1.2 hsucc hcalls p hmem hp.1
  refine ⟨h.escrow.step hC hR hok.2 hs, hok.1.1, h.index.trans hbook.index, ?_, ?_, ?_, ?_⟩
  · intro e he ids' hids'
    rcases List.mem_cons.mp he with rfl | he
    · rw [hcalls] at hids'
      cases hids'
    · exact h.calls e he ids' hids'
  · rw [history_cons, hcalls, List.append_nil]
    intro p hp
    rw [hkept p (hdone p hp), h.done p hp]
  · intro p hp
    rw [hkept p (hrest p hp), h.rest p hp]
  · intro p info hp
    rcases hbook.fresh p info hp with hold | hge
    · exact h.fresh p info hold
    · exact .inr (h.index.trans hge)

/-- The next call of the plan goes through. -/
theorem OnPlan.call (hC : CurrencyLaws T) (hR : OtherReserves T held)
    {rest : List (List PreorderId)} {s₁ : State T} {l : Label T} {ids : List PreorderId}
    (h : OnPlan held o s tr (ids :: rest) s₁) (hlimit : ids.length ≤ T.IterLimit.toNat)
    (hcalls : ids ∈ refund_calls o (entry step s₁ l)) (hids : Refundable s ids)
    (hapart : ∀ p ∈ ids, p ∉ rest.flatten) :
    OnPlan held o s (entry step s₁ l :: tr) rest (step s₁ l).2 := by
  obtain ⟨hlabel, hcall⟩ := refund_calls_label hcalls
  have hl : l = .call (.signed o) (.refund_not_chosen_preorders ids) := hlabel
  have hpending (p : PreorderId) (hp : p ∈ ids) : s₁.sale.preorders p = s.sale.preorders p :=
    h.rest p (by rw [List.flatten_cons]; exact List.mem_append_left _ hp)
  have hrefundable : Refundable s₁ ids :=
    ⟨hids.nodup, fun p hp => by rw [hpending p hp]; exact hids.pending p hp⟩
  obtain ⟨s', hstep, hl', hrefunded⟩ :=
    refund_goes_through hC hR h.escrow h.overlord hlimit hrefundable
  have hs := (stepped s₁ l).traded
  rw [hl, hstep] at hs
  have hescrow : Escrowed held s' := h.escrow.step hC hR (fun w hw => by cases hw) hs
  have hgone (p : PreorderId) :
      s'.sale.preorders p = if p ∈ ids then none else s₁.sale.preorders p := by
    rw [hrefunded.sale]
  have hsame : s'.sale.preorder_index = s₁.sale.preorder_index ∧
      s'.sale.overlord = s₁.sale.overlord := by
    rw [hrefunded.sale]
    exact ⟨rfl, rfl⟩
  rw [hl] at hcall ⊢
  have hentry : entry step s₁ (.call (.signed o) (.refund_not_chosen_preorders ids)) =
      ⟨s₁, .call (.signed o) (.refund_not_chosen_preorders ids), .ok (), s'⟩ := by
    rw [entry, hstep]
  rw [hentry] at hcall ⊢
  rw [hstep]
  refine ⟨hescrow, hsame.2.trans h.overlord, h.index.trans (Nat.le_of_eq hsame.1.symm), ?_, ?_,
    ?_, ?_⟩
  · intro e he ids' hids'
    rcases List.mem_cons.mp he with rfl | he
    · rw [hcall] at hids'
      obtain rfl := List.mem_singleton.mp hids'
      exact ⟨rfl, hrefunded⟩
    · exact h.calls e he ids' hids'
  · rw [history_cons, hcall, List.flatten_append, List.flatten_singleton]
    intro p hp
    rw [hgone p]
    split
    · rfl
    · next hnot => exact h.done p ((List.mem_append.mp hp).resolve_right hnot)
  · intro p hp
    rw [hgone p, if_neg fun hmem => hapart p hmem hp]
    exact h.rest p (by rw [List.flatten_cons]; exact List.mem_append_right _ hp)
  · intro p info hp
    rw [hgone p] at hp
    split at hp
    · cases hp
    · exact h.fresh p info hp

/-- What is left of the plan after a part of it was called for. -/
theorem OnPlan.run (hC : CurrencyLaws T) (hR : OtherReserves T held) {s₁ : State T}
    (hescrow : Escrowed held s) (ho : s.sale.overlord = some o)
    (hlimit : ∀ ids ∈ plan, ids.length ≤ T.IterLimit.toNat) (hplan : Refundable s plan.flatten)
    (h : Runs (Within (LetsRefund o plan.flatten) (OthersOwn held)) s tr s₁)
    {rest : List (List PreorderId)} (hrest : history (refund_calls o) tr ++ rest = plan) :
    OnPlan held o s tr rest s₁ := by
  have hlt (p : PreorderId) (hp : p ∈ plan.flatten) : p < s.sale.preorder_index := by
    obtain ⟨info, hinfo⟩ := Option.isSome_iff_exists.mp (hplan.pending p hp)
    exact hescrow.below.lt hinfo
  induction h generalizing rest with
  | nil =>
    exact ⟨hescrow, ho, le_rfl, fun e he => absurd he List.not_mem_nil,
      fun p hp => absurd hp List.not_mem_nil, fun _ _ => rfl, fun p info hp => .inl hp⟩
  | @cons tr s₁ l hrun hok ih =>
    rw [history_cons, List.append_assoc] at hrest
    have hbefore := ih hrest
    -- every id of the history or the rest is one of the plan
    have hmem {ids : List PreorderId} (hids : ids ∈ plan) {p : PreorderId} (hp : p ∈ ids) :
        p ∈ plan.flatten ∧ p < s.sale.preorder_index :=
      have hflat := List.mem_flatten.mpr ⟨ids, hids, hp⟩
      ⟨hflat, hlt p hflat⟩
    have hall (part : List (List PreorderId)) (hpart : ∀ ids ∈ part, ids ∈ plan) :
        ∀ p ∈ part.flatten, p ∈ plan.flatten ∧ p < s.sale.preorder_index := by
      intro p hp
      obtain ⟨ids, hids, hp⟩ := List.mem_flatten.mp hp
      exact hmem (hpart ids hids) hp
    cases hcalls : refund_calls o (entry step s₁ l) with
    | nil =>
      rw [hcalls, List.nil_append] at hrest hbefore
      refine hbefore.between hC hR hcalls hok (hall _ ?_) (hall _ ?_)
      · intro ids hids
        rw [← hrest]
        exact List.mem_append_left _ hids
      · intro ids hids
        rw [← hrest]
        exact List.mem_append_right _ hids
    | cons ids more =>
      have hin : ids ∈ refund_calls o (entry step s₁ l) := by rw [hcalls]; exact List.mem_cons_self
      obtain ⟨_, hone⟩ := refund_calls_label hin
      rw [hone, List.singleton_append] at hrest hbefore
      have hidsplan : ids ∈ plan := by
        rw [← hrest]
        exact List.mem_append_right _ List.mem_cons_self
      -- the plan's ids are distinct, also across its lists
      have hnodup := hplan.nodup
      rw [← hrest, List.flatten_append, List.flatten_cons] at hnodup
      have htail := (List.nodup_append.mp hnodup).2.1
      obtain ⟨hidsnodup, _, hapart⟩ := List.nodup_append.mp htail
      refine hbefore.call hC hR (hlimit ids hidsplan) hin
        ⟨hidsnodup, fun p hp => hplan.pending p (hmem hidsplan hp).1⟩ ?_
      exact fun p hp hrestp => hapart p hp p hrestp rfl

end plan

/-! ### Runs -/

section runs
variable [DecidableEq AccountId] {held : T.World → AccountId → Nat} {g : GenesisConfig AccountId}
  {w : T.World} {now : UInt64} {tr tr' : List (Entry T)} {s s' : State T} {o : AccountId}
  {plan : List (List PreorderId)}

/-- **A plan of refunds stays good.** Let the Overlord, in a reachable state,
    draw up lists of pending preorders, each within the limit, no preorder
    twice. Whatever happens before, between and after its calls (users buy,
    preorder, feed and transfer, phases are switched, blocks end), as long as
    it stays the Overlord and mints none of these preorders itself: every call
    goes through and does what `Refunded` says, and afterwards what is pending
    was pending before and not on a list, or was placed meanwhile. -/
theorem refund_plan (hC : CurrencyLaws T) (hR : OtherReserves T held)
    (hw : ∀ a, held w a ≤ (T.balances w).reserved a)
    (h : Runs (Within (fun _ => True) (OthersOwn held)) (genesis g w now) tr s)
    (ho : s.sale.overlord = some o)
    (hlimit : ∀ ids ∈ plan, ids.length ≤ T.IterLimit.toNat) (hplan : Refundable s plan.flatten)
    (h' : Runs (Within (LetsRefund o plan.flatten) (OthersOwn held)) s tr' s')
    (hcalls : history (refund_calls o) tr' = plan) :
    (∀ e ∈ tr', ∀ ids ∈ refund_calls o e, succeeded e = true ∧ Refunded e.pre ids e.post) ∧
    (∀ p ∈ plan.flatten, s'.sale.preorders p = none) ∧
    ∀ p info, s'.sale.preorders p = some info →
      p ∉ plan.flatten ∧ (s.sale.preorders p = some info ∨ s.sale.preorder_index ≤ p) := by
  have hend : OnPlan held o s tr' [] s' :=
    OnPlan.run hC hR (Runs.escrowed hC hR hw h) ho hlimit hplan h' (by rw [List.append_nil, hcalls])
  have hdone := hend.done
  rw [hcalls] at hdone
  refine ⟨hend.calls, hdone, fun p info hp => ⟨fun hmem => ?_, hend.fresh p info hp⟩⟩
  rw [hdone p hmem] at hp
  cases hp

open Mock in
/-- Between two refunds `CHARLIE` claims a Spirit and buys, and a phase is
    closed. -/
def between_refunds : List (Label (runtime 1)) :=
  [admin (.refund_not_chosen_preorders [1]), .call (.signed CHARLIE) .claim_spirit,
    .call (.signed CHARLIE) (.buy_rare_origin_of_shell .Magic .Cyborg .HackerWizard),
    admin (.set_status_type false .PreorderOriginOfShells), .on_finalize,
    admin (.refund_not_chosen_preorders [0])]

open Mock in
/-- The second refund goes through as planned. -/
theorem refund_plan_two :
    (exec step (after (two_preorders 1)).2 [] between_refunds).2.sale.preorders 1 = none ∧
    (exec step (after (two_preorders 1)).2 [] between_refunds).2.sale.preorders 0 = none := by
  have hrun : Runs (Within (fun _ => True) (OthersOwn World.held)) (genesis₀ 1)
      (after (two_preorders 1)).1 (after (two_preorders 1)).2 :=
    runs_of_labels (two_preorders 1) (by decide +kernel)
  have hrun' : Runs (Within (LetsRefund OVERLORD [1, 0]) (OthersOwn World.held))
      (after (two_preorders 1)).2 (exec step (after (two_preorders 1)).2 [] between_refunds).1
      (exec step (after (two_preorders 1)).2 [] between_refunds).2 :=
    runs_of_labels between_refunds (by decide +kernel)
  have hcalls : history (refund_calls OVERLORD)
      (exec step (after (two_preorders 1)).2 [] between_refunds).1 = [[1], [0]] := by
    decide +kernel
  obtain ⟨_, hgone, _⟩ := refund_plan (T := runtime 1) (g := GenesisConfig.default) (w := world₀)
    (currency_laws 1) (other_reserves 1) (fun _ => le_rfl) hrun (by decide +kernel) (by decide)
    ⟨by decide, by decide +kernel⟩ hrun' hcalls
  exact ⟨hgone 1 (by decide), hgone 0 (by decide)⟩

/-! ### Winding down -/

/-- The ids of all pending preorders. -/
def pending_ids (s : State T) : List PreorderId :=
  (List.range s.sale.preorder_index).filter fun p => (s.sale.preorders p).isSome

/-- A list cut into parts of `n`. -/
def parts {α : Type} (n : Nat) (l : List α) : List (List α) :=
  (List.range ((l.length + n - 1) / n)).map fun i => (l.drop (i * n)).take n

/-- The calls that refund everything that is pending. -/
def wind_down_calls (o : AccountId) (s : State T) : List (Label T) :=
  (parts T.IterLimit.toNat (pending_ids s)).map fun ids =>
    .call (.signed o) (.refund_not_chosen_preorders ids)

theorem flatten_parts {α : Type} {n : Nat} (hn : 0 < n) (l : List α) : (parts n l).flatten = l := by
  -- the first `k` parts are the first `k * n` elements
  have hfirst (k : Nat) :
      ((List.range k).map fun i => (l.drop (i * n)).take n).flatten = l.take (k * n) := by
    induction k with
    | zero => simp
    | succ k ih =>
      rw [List.range_succ, List.map_append, List.flatten_append, ih, List.map_singleton,
        List.flatten_singleton, Nat.succ_mul, List.take_add]
  rw [parts, hfirst]
  apply List.take_of_length_le
  have hdiv := Nat.div_add_mod (l.length + n - 1) n
  have hmod := Nat.mod_lt (l.length + n - 1) hn
  rw [Nat.mul_comm] at hdiv
  omega

theorem length_of_mem_parts {α : Type} {n : Nat} {l part : List α} (h : part ∈ parts n l) :
    part.length ≤ n := by
  obtain ⟨i, _, rfl⟩ := List.mem_map.mp h
  exact List.length_take_le _ _

omit [DecidableEq AccountId] in
theorem pending_ids_refundable (s : State T) : Refundable s (pending_ids s) :=
  ⟨List.nodup_range.filter _, fun _ hp => (List.mem_filter.mp hp).2⟩

omit [DecidableEq AccountId] in
theorem mem_pending_ids (hbelow : Below s.sale.preorders s.sale.preorder_index) {p : PreorderId} :
    p ∈ pending_ids s ↔ (s.sale.preorders p).isSome := by
  refine ⟨fun hp => (List.mem_filter.mp hp).2, fun hp => ?_⟩
  obtain ⟨info, hinfo⟩ := Option.isSome_iff_exists.mp hp
  exact List.mem_filter.mpr ⟨List.mem_range.mpr (hbelow.lt hinfo), hp⟩

/-- An account's share of all pending preorders is what it has pending. -/
theorem share_pending_ids (s : State T) (a : AccountId) :
    share s (pending_ids s) a = pending s a := by
  unfold share census pending_ids pending entries
  rw [List.countP_filter]
  refine List.countP_congr ?_
  intro p _
  cases hp : s.sale.preorders p <;> simp [hp]

/-- Calls along a plan, with nothing in between, refund its preorders one
    after the other. -/
theorem refund_calls_chain (hC : CurrencyLaws T) (hR : OtherReserves T held)
    (hescrow : Escrowed held s) (ho : s.sale.overlord = some o)
    (hlimit : ∀ ids ∈ plan, ids.length ≤ T.IterLimit.toNat) (hplan : Refundable s plan.flatten) :
    Chain (RefundsPreorder s.sale.last_day_of_sale) s plan.flatten
        (exec step s [] (plan.map fun ids =>
          .call (.signed o) (.refund_not_chosen_preorders ids))).2 ∧
      ∀ e ∈ (exec step s [] (plan.map fun ids =>
        Label.call (.signed o) (.refund_not_chosen_preorders ids))).1, succeeded e = true := by
  induction plan generalizing s with
  | nil => exact ⟨.nil s, fun e he => absurd he List.not_mem_nil⟩
  | cons ids plan ih =>
    obtain ⟨hnodup, hpending⟩ := hplan
    rw [List.flatten_cons] at hnodup hpending
    obtain ⟨hids, hrest, hapart⟩ := List.nodup_append.mp hnodup
    obtain ⟨s₁, hstep, hl, hrefunded⟩ := refund_goes_through hC hR hescrow ho
      (hlimit ids List.mem_cons_self)
      ⟨hids, fun p hp => hpending p (List.mem_append_left _ hp)⟩
    -- the other lists are still to be refunded, by the same Overlord
    have hs := (stepped s (.call (.signed o) (.refund_not_chosen_preorders ids))).traded
    rw [hstep] at hs
    have hsame : s₁.sale.overlord = s.sale.overlord ∧
        s₁.sale.last_day_of_sale = s.sale.last_day_of_sale := by
      rw [hrefunded.sale]
      exact ⟨rfl, rfl⟩
    have hlater : Refundable s₁ plan.flatten := by
      refine ⟨hrest, fun p hp => ?_⟩
      have hgone : s₁.sale.preorders p = if p ∈ ids then none else s.sale.preorders p := by
        rw [hrefunded.sale]
      rw [hgone, if_neg fun hmem => hapart p hmem p hp rfl]
      exact hpending p (List.mem_append_right _ hp)
    obtain ⟨hchain, hall⟩ := ih (hescrow.step hC hR (fun w hw => by cases hw) hs)
      (hsame.1.trans ho) (fun ids' hids' => hlimit ids' (List.mem_cons_of_mem _ hids')) hlater
    rw [hsame.2] at hchain
    have hentry : entry step s (.call (.signed o) (.refund_not_chosen_preorders ids)) =
        ⟨s, .call (.signed o) (.refund_not_chosen_preorders ids), .ok (), s₁⟩ := by
      rw [entry, hstep]
    rw [List.map_cons, exec, hstep, hentry, exec_eq]
    refine ⟨hl.append hchain, fun e he => ?_⟩
    rcases List.mem_append.mp he with he | he
    · exact hall e he
    · rw [List.mem_singleton.mp he]
      rfl

/-- **The sale can always be wound down.** In every reachable state with an
    Overlord, whatever was sold, switched, rotated or restocked before, the
    Overlord can refund everything that is pending in `calls` many calls: each
    goes through, no preorder is left, every account has the price of each of
    its preorders back, and nothing else changed but the flags. -/
theorem wind_down (hC : CurrencyLaws T) (hR : OtherReserves T held) (hlimit : T.IterLimit ≠ 0)
    (hw : ∀ a, held w a ≤ (T.balances w).reserved a)
    (h : Runs (Within (fun _ => True) (OthersOwn held)) (genesis g w now) tr s)
    (ho : s.sale.overlord = some o) :
    (wind_down_calls o s).length = calls T (pending_ids s).length ∧
    (∀ e ∈ (exec step s [] (wind_down_calls o s)).1, succeeded e = true) ∧
    (∀ p, (exec step s [] (wind_down_calls o s)).2.sale.preorders p = none) ∧
    (∀ a, (T.balances (exec step s [] (wind_down_calls o s)).2.world).free a =
        (T.balances s.world).free a + T.PrimeOriginOfShellPrice * pending s a ∧
      (T.balances (exec step s [] (wind_down_calls o s)).2.world).reserved a +
        T.PrimeOriginOfShellPrice * pending s a = (T.balances s.world).reserved a) ∧
    Refunded s (pending_ids s) (exec step s [] (wind_down_calls o s)).2 := by
  have hescrow := Runs.escrowed hC hR hw h
  have hpos : 0 < T.IterLimit.toNat :=
    Nat.pos_of_ne_zero fun hzero => hlimit (UInt32.toNat_inj.mp hzero)
  have hflat : (parts T.IterLimit.toNat (pending_ids s)).flatten = pending_ids s :=
    flatten_parts hpos _
  have hplan : Refundable s (parts T.IterLimit.toNat (pending_ids s)).flatten := by
    rw [hflat]
    exact pending_ids_refundable s
  obtain ⟨hchain, hall⟩ :=
    refund_calls_chain hC hR hescrow ho (fun _ => length_of_mem_parts) hplan
  rw [hflat] at hchain
  have hrefunded := refunds_refunded hC hR hescrow hchain
  refine ⟨?_, hall, ?_, ?_, hrefunded⟩
  · rw [wind_down_calls, List.length_map, parts, List.length_map, List.length_range]
    rfl
  · intro p
    have hgone := congrArg (fun st => st.preorders p) hrefunded.sale
    refine hgone.trans ?_
    show (if p ∈ pending_ids s then none else s.sale.preorders p) = none
    by_cases hmem : p ∈ pending_ids s
    · rw [if_pos hmem]
    · rw [if_neg hmem]
      rw [mem_pending_ids hescrow.below, Option.not_isSome_iff_eq_none] at hmem
      exact hmem
  · intro a
    rw [← share_pending_ids]
    exact ⟨hrefunded.free a, hrefunded.reserved a⟩

open Mock in
/-- With a limit of one, two calls give `ALICE` and `BOB` their money back. -/
theorem wind_down_two :
    (wind_down_calls OVERLORD (after (two_preorders 1)).2).length = 2 ∧
    ∀ p, (exec step (after (two_preorders 1)).2 []
      (wind_down_calls OVERLORD (after (two_preorders 1)).2)).2.sale.preorders p = none := by
  have hrun : Runs (Within (fun _ => True) (OthersOwn World.held)) (genesis₀ 1)
      (after (two_preorders 1)).1 (after (two_preorders 1)).2 :=
    runs_of_labels (two_preorders 1) (by decide +kernel)
  obtain ⟨hlength, _, hgone, _⟩ := wind_down (T := runtime 1) (g := GenesisConfig.default)
    (w := world₀) (currency_laws 1) (other_reserves 1) (by decide) (fun _ => le_rfl) hrun
    (o := OVERLORD) (by decide +kernel)
  refine ⟨?_, hgone⟩
  rw [hlength]
  decide +kernel

end runs

end PhalaWorld
