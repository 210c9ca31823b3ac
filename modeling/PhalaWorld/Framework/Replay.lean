import PhalaWorld.Framework.Runs

/-! # Replaying a log

    A system deposits events in a log while it works on its state. A
    ledger is a view of the state, and every event has a meaning, a
    function on ledgers. The log *explains* the ledger if the meanings of
    the events between two states lead from the ledger of the first to the
    ledger of the second: whoever reads the log only, knows the ledger.

    * `replay`: the meaning of a list of events.
    * `Explains`: from a state to another, by the events in between.
    * `Run.explained`: what holds of each step holds of a run.
-/

namespace LTS

variable {State Event Ledger Input Label Result : Type}

/-- The ledger after the events, oldest first. -/
def replay (apply : Ledger → Event → Ledger) (L : Ledger) (evs : List Event) : Ledger :=
  evs.foldl apply L

section replays
variable {apply : Ledger → Event → Ledger} {L : Ledger}

@[simp] theorem replay_nil : replay apply L [] = L := rfl

@[simp] theorem replay_cons (e : Event) (evs : List Event) :
    replay apply L (e :: evs) = replay apply (apply L e) evs := rfl

theorem replay_append (evs evs' : List Event) :
    replay apply L (evs ++ evs') = replay apply (replay apply L evs) evs' :=
  List.foldl_append

/-- Events without a meaning may be left out. -/
theorem replay_ignored {evs : List Event} (h : ∀ e ∈ evs, apply L e = L) :
    replay apply L evs = L := by
  induction evs with
  | nil => rfl
  | cons e evs ih =>
    rw [replay_cons, h e List.mem_cons_self]
    exact ih fun e he => h e (List.mem_cons_of_mem _ he)

end replays

/-- The events logged from `s` to `s'` lead from the ledger of `s` to that
    of `s'`. -/
def Explains (log : State → List Event) (view : State → Ledger)
    (apply : Ledger → Event → Ledger) (s s' : State) : Prop :=
  ∃ evs, log s' = log s ++ evs ∧ replay apply (view s) evs = view s'

section explains
variable {log : State → List Event} {view : State → Ledger} {apply : Ledger → Event → Ledger}
  {s s' s'' : State}

theorem Explains.refl (s : State) : Explains log view apply s s :=
  ⟨[], (List.append_nil _).symm, rfl⟩

theorem Explains.trans (h : Explains log view apply s s') (h' : Explains log view apply s' s'') :
    Explains log view apply s s'' := by
  obtain ⟨evs, hlog, hview⟩ := h
  obtain ⟨evs', hlog', hview'⟩ := h'
  refine ⟨evs ++ evs', ?_, ?_⟩
  · rw [hlog', hlog, List.append_assoc]
  · rw [replay_append, hview, hview']

/-- Nothing was logged, and the ledger is the same. -/
theorem Explains.of_eq (hlog : log s' = log s) (hview : view s' = view s) :
    Explains log view apply s s' :=
  ⟨[], by rw [hlog, List.append_nil], hview.symm⟩

/-- What was logged has no meaning, and the ledger is the same. -/
theorem Explains.of_ignored {evs : List Event} (hlog : log s' = log s ++ evs)
    (hevs : ∀ e ∈ evs, apply (view s) e = view s) (hview : view s' = view s) :
    Explains log view apply s s' :=
  ⟨evs, hlog, by rw [replay_ignored hevs, hview]⟩

/-- One event was logged. -/
theorem Explains.one {e : Event} (hlog : log s' = log s ++ [e]) (hview : apply (view s) e = view s') :
    Explains log view apply s s' :=
  ⟨[e], hlog, hview⟩

/-- Two events were logged. -/
theorem Explains.two {e e' : Event} (hlog : log s' = log s ++ [e, e'])
    (hview : apply (apply (view s) e) e' = view s') : Explains log view apply s s' :=
  ⟨[e, e'], hlog, hview⟩

/-- A loop is explained if its rounds are. -/
theorem Chain.explained {R : State → Input → State → Prop} {l : List Input}
    (hlink : ∀ s a s', R s a s' → Explains log view apply s s') (h : Chain R s l s') :
    Explains log view apply s s' :=
  h.covered Explains.refl (fun _ _ _ => Explains.trans) hlink

/-- An empty log that was explained since reproduces the ledger. -/
theorem Explains.replayed (h : Explains log view apply s s') (hempty : log s = []) :
    replay apply (view s) (log s') = view s' := by
  obtain ⟨evs, hlog, hview⟩ := h
  rw [hlog, hempty, List.nil_append, hview]

/-- The log is only added to. -/
theorem Explains.log_eq (h : Explains log view apply s s') :
    log s' = log s ++ (log s').drop (log s).length := by
  obtain ⟨evs, hlog, _⟩ := h
  rw [hlog, List.drop_left]

end explains

section runs
variable {log : State → List Event} {view : State → Ledger} {apply : Ledger → Event → Ledger}
  {step : State → Label → Result × State} {ok : State → Label → Prop} {s₀ s : State}
  {tr : List (Entry State Label Result)}

/-- A run is explained if its steps are, which may rest on an invariant. -/
theorem Run.explained {I : State → Prop} (hinit : I s₀)
    (hkeep : ∀ s l, I s → ok s l → I (step s l).2)
    (hstep : ∀ s l, I s → ok s l → Explains log view apply s (step s l).2)
    (h : Run step ok s₀ tr s) : Explains log view apply s₀ s := by
  induction h with
  | nil => exact .refl _
  | cons l hrun hok ih =>
    have hI := hrun.invariant hinit hkeep
    exact ih.trans (hstep _ l hI hok)

/-- The log at the end is what the steps of the run logged. -/
theorem Run.log_eq_history {I : State → Prop} (hinit : I s₀)
    (hkeep : ∀ s l, I s → ok s l → I (step s l).2)
    (hstep : ∀ s l, I s → ok s l → Explains log view apply s (step s l).2)
    (h : Run step ok s₀ tr s) :
    log s = log s₀ ++ history (fun e => (log e.post).drop (log e.pre).length) tr := by
  induction h with
  | nil => exact (List.append_nil _).symm
  | cons l hrun hok ih =>
    have hI := hrun.invariant hinit hkeep
    rw [(hstep _ l hI hok).log_eq, history_cons, ← List.append_assoc, ← ih]
    rfl

end runs

end LTS
