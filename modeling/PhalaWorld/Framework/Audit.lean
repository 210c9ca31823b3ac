import PhalaWorld.Framework.Replay

/-! # Auditing a log

    Who replays a log can also check it. If the ledger the events so far
    lead to tells which event may come next, then a log can be refused,
    and a log that is not refused says more than its last ledger: of each
    of its events, that there was a time for it.

    * `Audit`: each event is admissible in the ledger it is replayed in.
    * `Register`, `Counter`: a field that one kind of event writes, or counts.
    * `Audits`: from a state to another, by the events in between.
    * `Run.audited`: what holds of each step holds of a run.
    * `Audit.split`, `Audit.cause`, `Audit.stable`: what a log that passed
      has to contain, and what it cannot contain twice.
-/

namespace LTS

variable {State Event Ledger Input Label Result : Type}

/-- The log leads from a ledger to another, by events that are all
    admissible when they come. -/
def Audit (ok : Ledger → Event → Prop) (apply : Ledger → Event → Ledger) :
    Ledger → List Event → Ledger → Prop :=
  Chain fun L e L' => ok L e ∧ L' = apply L e

/-! ### Logs -/

section logs
variable {ok : Ledger → Event → Prop} {apply : Ledger → Event → Ledger} {L L' : Ledger}
  {evs : List Event}

/-- An audit is a replay. -/
theorem Audit.replayed (h : Audit ok apply L evs L') : replay apply L evs = L' := by
  unfold Audit at h
  induction h with
  | nil => rfl
  | cons hlink _ ih =>
    obtain ⟨_, rfl⟩ := hlink
    exact ih

/-- **When an event came**, it was admissible after the events before it. -/
theorem Audit.split {before after : List Event} {e : Event}
    (h : Audit ok apply L (before ++ e :: after) L') : ok (replay apply L before) e := by
  obtain ⟨L₁, hbefore, hafter⟩ := chain_append.mp h
  obtain ⟨L₂, ⟨hok, _⟩, _⟩ := chain_cons.mp hafter
  have hledger : replay apply L before = L₁ := Audit.replayed hbefore
  rw [hledger]
  exact hok

/-- A part of a log is audited too. -/
theorem Audit.initial {before after : List Event} (h : Audit ok apply L (before ++ after) L') :
    Audit ok apply L before (replay apply L before) := by
  obtain ⟨L₁, hbefore, _⟩ := chain_append.mp h
  have hledger : replay apply L before = L₁ := Audit.replayed hbefore
  rw [hledger]
  exact hbefore

/-- **What a ledger has come to satisfy**, one of the events brought about
    when it was admissible. -/
theorem Audit.cause {P : Ledger → Prop} (h : Audit ok apply L evs L') (hstart : ¬ P L)
    (hend : P L') : ∃ e ∈ evs, ∃ L₁, ¬ P L₁ ∧ ok L₁ e ∧ P (apply L₁ e) := by
  unfold Audit at h
  induction h with
  | nil => exact absurd hend hstart
  | @cons L L₁ L₂ e evs hlink _ ih =>
    obtain ⟨hok, rfl⟩ := hlink
    by_cases hfirst : P (apply L e)
    · exact ⟨e, List.mem_cons_self, L, hstart, hok, hfirst⟩
    · obtain ⟨e', hmem, hcause⟩ := ih hfirst hend
      exact ⟨e', List.mem_cons_of_mem _ hmem, hcause⟩

/-- **What an event brings about** and no admissible event undoes is there in
    the end. Both may rest on an invariant of the ledger. -/
theorem Audit.stable {I P : Ledger → Prop} {e : Event} (h : Audit ok apply L evs L')
    (hinit : I L) (hinv : ∀ L e, I L → ok L e → I (apply L e))
    (hkeep : ∀ L e, I L → ok L e → P L → P (apply L e))
    (hdo : ∀ L, I L → ok L e → P (apply L e)) (hmem : e ∈ evs) : P L' := by
  unfold Audit at h
  induction h with
  | nil => cases hmem
  | @cons L L₁ L₂ e' evs hlink hrest ih =>
    obtain ⟨hok, rfl⟩ := hlink
    have hI := hinv L e' hinit hok
    rcases List.mem_cons.mp hmem with rfl | hmem
    · have hend : I L₂ ∧ P L₂ :=
        hrest.invariant (I := fun L => I L ∧ P L)
          (fun L e L' hIP hlink => by
            obtain ⟨hok, rfl⟩ := hlink
            exact ⟨hinv L e hIP.1 hok, hkeep L e hIP.1 hok hIP.2⟩)
          ⟨hI, hdo L hinit hok⟩
      exact hend.2
    · exact ih hI hmem

/-- A view of the ledger that has its own replay. -/
theorem replay_view {View : Type} (view : Ledger → View) (apply' : View → Event → View)
    (h : ∀ L e, view (apply L e) = apply' (view L) e) :
    view (replay apply L evs) = replay apply' (view L) evs := by
  induction evs generalizing L with
  | nil => rfl
  | cons e evs ih =>
    rw [replay_cons, replay_cons, ← h]
    exact ih

end logs

/-! ### Registers -/

/-- A field of the ledger that one kind of event writes, and no other. -/
structure Register (apply : Ledger → Event → Ledger) {Value : Type} (field : Ledger → Option Value)
    (event : Value → Event) : Prop where
  write : ∀ L x, field (apply L (event x)) = some x
  keep : ∀ L e, (∀ x, e ≠ event x) → field (apply L e) = field L

section registers
variable {ok : Ledger → Event → Prop} {apply : Ledger → Event → Ledger} {L L' : Ledger}
  {evs : List Event} {Value : Type} {field : Ledger → Option Value} {event : Value → Event}

theorem Register.cases (hr : Register apply field event) (L : Ledger) (e : Event) :
    field (apply L e) = field L ∨ ∃ x, e = event x ∧ field (apply L e) = some x := by
  by_cases he : ∃ x, e = event x
  · obtain ⟨x, rfl⟩ := he
    exact .inr ⟨x, rfl, hr.write L x⟩
  · exact .inl (hr.keep L e fun x heq => he ⟨x, heq⟩)

/-- What an empty register has come to hold was written. -/
theorem Register.written (hr : Register apply field event) (h : Audit ok apply L evs L')
    (hstart : field L = none) {x : Value} (hend : field L' = some x) : event x ∈ evs := by
  have hempty : ¬ field L = some x := by
    rw [hstart]
    exact nofun
  obtain ⟨e, hmem, L₁, hno, _, hyes⟩ := h.cause (P := fun L => field L = some x) hempty hend
  rcases hr.cases L₁ e with hsame | ⟨y, rfl, hy⟩
  · rw [hsame] at hyes
    exact absurd hyes hno
  · rw [hy] at hyes
    rw [← Option.some.inj hyes]
    exact hmem

/-- A register that is empty was never written. -/
theorem Register.unwritten (hr : Register apply field event) (h : Audit ok apply L evs L')
    (hend : field L' = none) (x : Value) : event x ∉ evs := by
  intro hmem
  have hfull : field L' ≠ none := by
    refine h.stable (I := fun _ => True) (P := fun L => field L ≠ none) trivial
      (fun _ _ _ _ => trivial) ?_ ?_ hmem
    · intro L e _ _ hne
      rcases hr.cases L e with hsame | ⟨y, _, hy⟩
      · rw [hsame]
        exact hne
      · rw [hy]
        exact nofun
    · intro L _ _
      rw [hr.write]
      exact nofun
  exact hfull hend

end registers

/-- A number in the ledger that one kind of event moves on by one when it is
    admissible, and no other event changes. -/
structure Counter (ok : Ledger → Event → Prop) (apply : Ledger → Event → Ledger)
    (field : Ledger → Nat) (counts : Event → Bool) : Prop where
  up : ∀ L e, ok L e → counts e = true → field (apply L e) = field L + 1
  keep : ∀ L e, counts e = false → field (apply L e) = field L

/-- A counter counts the events of its kind. -/
theorem Counter.count {ok : Ledger → Event → Prop} {apply : Ledger → Event → Ledger}
    {field : Ledger → Nat} {counts : Event → Bool} {L L' : Ledger} {evs : List Event}
    (hc : Counter ok apply field counts) (h : Audit ok apply L evs L') :
    field L' = field L + evs.countP counts := by
  unfold Audit at h
  induction h with
  | nil => rfl
  | @cons L L₁ L₂ e evs hlink _ ih =>
    obtain ⟨hok, rfl⟩ := hlink
    rw [ih, List.countP_cons]
    cases he : counts e with
    | true =>
      rw [hc.up L e hok he, if_pos rfl]
      omega
    | false =>
      rw [hc.keep L e he, if_neg Bool.false_ne_true]
      omega

/-! ### States -/

/-- The events logged from `s` to `s'` pass the audit. -/
def Audits (log : State → List Event) (view : State → Ledger) (ok : Ledger → Event → Prop)
    (apply : Ledger → Event → Ledger) (s s' : State) : Prop :=
  ∃ evs, log s' = log s ++ evs ∧ Audit ok apply (view s) evs (view s')

section audits
variable {log : State → List Event} {view : State → Ledger} {ok : Ledger → Event → Prop}
  {apply : Ledger → Event → Ledger} {s s' s'' : State}

theorem Audits.refl (s : State) : Audits log view ok apply s s :=
  ⟨[], (List.append_nil _).symm, .nil _⟩

theorem Audits.trans (h : Audits log view ok apply s s') (h' : Audits log view ok apply s' s'') :
    Audits log view ok apply s s'' := by
  obtain ⟨evs, hlog, haudit⟩ := h
  obtain ⟨evs', hlog', haudit'⟩ := h'
  refine ⟨evs ++ evs', ?_, haudit.append haudit'⟩
  rw [hlog', hlog, List.append_assoc]

/-- Nothing was logged, and the ledger is the same. -/
theorem Audits.of_eq (hlog : log s' = log s) (hview : view s' = view s) :
    Audits log view ok apply s s' := by
  refine ⟨[], ?_, ?_⟩
  · rw [hlog, List.append_nil]
  · rw [hview]
    exact .nil _

/-- What was logged is determined by the logs. -/
theorem Explains.replayed_of (h : Explains log view apply s s') {evs : List Event}
    (hlog : log s' = log s ++ evs) : replay apply (view s) evs = view s' := by
  obtain ⟨evs', hlog', hview⟩ := h
  have hevs : evs' = evs := List.append_cancel_left (hlog'.symm.trans hlog)
  rw [← hevs]
  exact hview

/-- One event was logged, and it may come. -/
theorem Audits.one {e : Event} (hlog : log s' = log s ++ [e]) (hok : ok (view s) e)
    (hview : apply (view s) e = view s') : Audits log view ok apply s s' :=
  ⟨[e], hlog, .cons ⟨hok, hview.symm⟩ (.nil _)⟩

/-- Two events were logged, and the second may come after the first. -/
theorem Audits.two {e e' : Event} (hlog : log s' = log s ++ [e, e']) (hok : ok (view s) e)
    (hok' : ok (apply (view s) e) e') (hview : apply (apply (view s) e) e' = view s') :
    Audits log view ok apply s s' :=
  ⟨[e, e'], hlog, .cons ⟨hok, rfl⟩ (.cons ⟨hok', hview.symm⟩ (.nil _))⟩

/-- A loop passes if its rounds do, which may rest on an invariant. -/
theorem Chain.audited {R : State → Input → State → Prop} {l : List Input} {I : State → Prop}
    (hkeep : ∀ s a s', I s → R s a s' → I s')
    (hlink : ∀ s a s', I s → R s a s' → Audits log view ok apply s s') (hI : I s)
    (h : Chain R s l s') : Audits log view ok apply s s' := by
  induction h with
  | nil => exact .refl _
  | cons hr _ ih => exact (hlink _ _ _ hI hr).trans (ih (hkeep _ _ _ hI hr))

end audits

/-- A run passes the audit if its steps do, which may rest on an invariant. -/
theorem Run.audited {log : State → List Event} {view : State → Ledger}
    {ok : Ledger → Event → Prop} {apply : Ledger → Event → Ledger}
    {step : State → Label → Result × State} {allowed : State → Label → Prop} {s₀ s : State}
    {tr : List (Entry State Label Result)} {I : State → Prop} (hinit : I s₀)
    (hkeep : ∀ s l, I s → allowed s l → I (step s l).2)
    (hstep : ∀ s l, I s → allowed s l → Audits log view ok apply s (step s l).2)
    (h : Run step allowed s₀ tr s) : Audits log view ok apply s₀ s := by
  induction h with
  | nil => exact .refl _
  | cons l hrun hok ih =>
    have hI := hrun.invariant hinit hkeep
    exact ih.trans (hstep _ l hI hok)

end LTS
