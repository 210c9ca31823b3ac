import Mathlib.Data.List.Basic

/-! # Runs of a deterministic labelled system

    A system is a step function `State → Label → Result × State`: every
    label can be tried in every state, and the result says what came of
    it. A *run* is a finite sequence of such steps. Its trace keeps one
    entry per step, newest first, so that a property of the whole history
    is a structural recursion over the trace.

    * `Chain`: a relation iterated along a list, the meaning of a loop.
    * `Run`: the runs of a system whose steps all satisfy a side condition.
    * `history`: what a run wrote, read off its trace in order of time.
    * `Throughout`: a condition on every entry of a trace and its past.
    * `Run.invariant`: the induction rule.
-/

namespace LTS

/-! ### Chains -/

/-- `R` iterated along a list of inputs. -/
inductive Chain {State Input : Type} (R : State → Input → State → Prop) :
    State → List Input → State → Prop where
  | nil (s : State) : Chain R s [] s
  | cons {s s₁ s₂ : State} {a : Input} {l : List Input} :
      R s a s₁ → Chain R s₁ l s₂ → Chain R s (a :: l) s₂

section chains
variable {State Input Output : Type} {R R' : State → Input → State → Prop}

@[simp] theorem chain_nil {s s' : State} : Chain R s [] s' ↔ s' = s := by
  constructor
  · intro h; cases h; rfl
  · rintro rfl; exact Chain.nil _

@[simp] theorem chain_cons {s s' : State} {a : Input} {l : List Input} :
    Chain R s (a :: l) s' ↔ ∃ s₁, R s a s₁ ∧ Chain R s₁ l s' := by
  constructor
  · intro h; cases h with | cons h₁ h₂ => exact ⟨_, h₁, h₂⟩
  · rintro ⟨s₁, h₁, h₂⟩; exact Chain.cons h₁ h₂

/-- A chain along two lists, one after the other. -/
theorem Chain.append {s s₁ s₂ : State} {l l' : List Input} (h : Chain R s l s₁)
    (h' : Chain R s₁ l' s₂) : Chain R s (l ++ l') s₂ := by
  induction h with
  | nil => exact h'
  | cons hr _ ih => exact .cons hr (ih h')

theorem chain_append {s s₂ : State} {l l' : List Input} :
    Chain R s (l ++ l') s₂ ↔ ∃ s₁, Chain R s l s₁ ∧ Chain R s₁ l' s₂ := by
  constructor
  · intro h
    induction l generalizing s with
    | nil => exact ⟨s, .nil s, h⟩
    | cons a l ih =>
      obtain ⟨s', hr, hl⟩ := chain_cons.mp h
      obtain ⟨s₁, hfirst, hsecond⟩ := ih hl
      exact ⟨s₁, .cons hr hfirst, hsecond⟩
  · rintro ⟨s₁, hfirst, hsecond⟩
    exact hfirst.append hsecond

/-- An invariant of the links is an invariant of the chain. -/
theorem Chain.invariant {I : State → Prop}
    (hlink : ∀ s a s', I s → R s a s' → I s')
    {s s' : State} {l : List Input} (h : Chain R s l s') (hI : I s) : I s' := by
  induction h with
  | nil => exact hI
  | cons hr _ ih => exact ih (hlink _ _ _ hI hr)

/-- Two relations that agree where an invariant of the first holds have
    the same chains from there. -/
theorem Chain.congr {I : State → Prop} (hkeep : ∀ s a s', I s → R s a s' → I s')
    (heq : ∀ s a s', I s → (R s a s' ↔ R' s a s')) {s s' : State} {l : List Input} (hI : I s) :
    Chain R s l s' ↔ Chain R' s l s' := by
  induction l generalizing s with
  | nil => rw [chain_nil, chain_nil]
  | cons a l ih =>
    rw [chain_cons, chain_cons]
    refine exists_congr ?_
    intro s₁
    constructor
    · rintro ⟨hr, hl⟩
      exact ⟨(heq _ _ _ hI).mp hr, (ih (hkeep _ _ _ hI hr)).mp hl⟩
    · rintro ⟨hr, hl⟩
      have hr := (heq _ _ _ hI).mpr hr
      exact ⟨hr, (ih (hkeep _ _ _ hI hr)).mpr hl⟩

/-- A reflexive and transitive relation that covers each link covers the
    chain. -/
theorem Chain.covered {Q : State → State → Prop} (hrefl : ∀ s, Q s s)
    (htrans : ∀ s₁ s₂ s₃, Q s₁ s₂ → Q s₂ s₃ → Q s₁ s₃)
    (hlink : ∀ s a s', R s a s' → Q s s')
    {s s' : State} {l : List Input} (h : Chain R s l s') : Q s s' := by
  induction h with
  | nil => exact hrefl _
  | cons hr _ ih => exact htrans _ _ _ (hlink _ _ _ hr) ih

/-- Chains along one list from related states end in related states, if the
    links do. -/
theorem Chain.related {Q : State → State → Prop}
    (hlink : ∀ s t a s' t', Q s t → R s a s' → R t a t' → Q s' t')
    {s s' t t' : State} {l : List Input} (hQ : Q s t) (h : Chain R s l s') (h' : Chain R t l t') :
    Q s' t' := by
  induction h generalizing t with
  | nil =>
    obtain rfl := chain_nil.mp h'
    exact hQ
  | cons hr _ ih =>
    obtain ⟨t₁, hr', hl'⟩ := chain_cons.mp h'
    exact ih (hlink _ _ _ _ _ hQ hr hr') hl'

/-- An invariant of the links that also speaks of what a log `L` recorded
    is an invariant of the chain. `f` reads an output off a log entry. -/
theorem Chain.recorded {Event : Type} {L : State → List Event} {f : Event → Option Output}
    {J : List Output → State → Prop}
    (hlink : ∀ h s a s', J h s → R s a s' →
      ∃ evs, L s' = L s ++ evs ∧ J (h ++ evs.filterMap f) s')
    {s s' : State} {l : List Input} {h : List Output} (hc : Chain R s l s') (hJ : J h s) :
    ∃ evs, L s' = L s ++ evs ∧ J (h ++ evs.filterMap f) s' := by
  induction hc generalizing h with
  | nil => exact ⟨[], by simp, by simpa using hJ⟩
  | cons hr _ ih =>
    obtain ⟨evs, hlog, hJ'⟩ := hlink _ _ _ _ hJ hr
    obtain ⟨evs', hlog', hJ''⟩ := ih hJ'
    refine ⟨evs ++ evs', by rw [hlog', hlog, List.append_assoc], ?_⟩
    rw [List.filterMap_append, ← List.append_assoc]
    exact hJ''

end chains

/-! ### Runs -/

/-- One step of a run. -/
structure Entry (State Label Result : Type) where
  /-- The state the step was taken in. -/
  pre : State
  /-- What was tried. -/
  label : Label
  /-- What came of it. -/
  result : Result
  /-- The state the step left. -/
  post : State

variable {State Label Result Output : Type}

/-- The entry that taking `l` in `s` gives. -/
def entry (step : State → Label → Result × State) (s : State) (l : Label) :
    Entry State Label Result :=
  ⟨s, l, (step s l).1, (step s l).2⟩

/-- The runs from `s₀` whose steps all satisfy `ok`, each with its trace
    (newest entry first) and the state it reaches. -/
inductive Run (step : State → Label → Result × State) (ok : State → Label → Prop)
    (s₀ : State) : List (Entry State Label Result) → State → Prop where
  | nil : Run step ok s₀ [] s₀
  | cons {tr : List (Entry State Label Result)} {s : State} (l : Label) :
      Run step ok s₀ tr s → ok s l →
      Run step ok s₀ (entry step s l :: tr) (step s l).2

/-- What the entries of a trace put out, oldest first. -/
def history (out : Entry State Label Result → List Output) :
    List (Entry State Label Result) → List Output
  | [] => []
  | e :: tr => history out tr ++ out e

section runs
variable {step : State → Label → Result × State} {ok ok' : State → Label → Prop}
  {s₀ s : State} {tr : List (Entry State Label Result)}

/-- **Invariance**: what holds at the start and is kept by every allowed
    step of the run holds in every state the run reaches. -/
theorem Run.invariant {I : State → Prop} (hinit : I s₀)
    (hstep : ∀ s l, I s → ok s l → I (step s l).2)
    (h : Run step ok s₀ tr s) : I s := by
  induction h with
  | nil => exact hinit
  | cons l _ hok ih => exact hstep _ l ih hok

/-- A run under a stronger side condition is one under a weaker. -/
theorem Run.mono (hweak : ∀ s l, ok s l → ok' s l) (h : Run step ok s₀ tr s) :
    Run step ok' s₀ tr s := by
  induction h with
  | nil => exact Run.nil
  | cons l _ hok ih => exact Run.cons l ih (hweak _ _ hok)

/-- A run is one under any condition that its entries satisfy. -/
theorem Run.of_entries {p q : Entry State Label Result → Prop}
    (h : Run step (fun s l => p (entry step s l)) s₀ tr s) (hp : ∀ e ∈ tr, p e → q e) :
    Run step (fun s l => q (entry step s l)) s₀ tr s := by
  induction h with
  | nil => exact Run.nil
  | cons l hrun hok ih =>
    have hearlier := ih fun e he => hp e (List.mem_cons_of_mem _ he)
    exact Run.cons l hearlier (hp _ List.mem_cons_self hok)

/-- Every entry of a trace was taken in a state that a run reaches. -/
theorem Run.mem (h : Run step ok s₀ tr s) {e : Entry State Label Result} (he : e ∈ tr) :
    ∃ tr', Run step ok s₀ tr' e.pre ∧ ok e.pre e.label ∧ e = entry step e.pre e.label := by
  induction h with
  | nil => cases he
  | cons l hrun hok ih =>
    rcases List.mem_cons.mp he with rfl | hmem
    · exact ⟨_, hrun, hok, rfl⟩
    · exact ih hmem

/-- A run cut at one of its entries: the run before it and the run after. -/
theorem Run.split {later earlier : List (Entry State Label Result)}
    {e : Entry State Label Result} (h : Run step ok s₀ (later ++ e :: earlier) s) :
    Run step ok s₀ earlier e.pre ∧ ok e.pre e.label ∧ e = entry step e.pre e.label ∧
      Run step ok e.post later s := by
  induction later generalizing s with
  | nil =>
    cases h with
    | cons l hrun hok => exact ⟨hrun, hok, rfl, Run.nil⟩
  | cons d later ih =>
    cases h with
    | cons l hrun hok =>
      obtain ⟨hpre, hoke, he, hpost⟩ := ih hrun
      exact ⟨hpre, hoke, he, Run.cons l hpost hok⟩

/-- The entries a run's trace holds after trying the labels of a list,
    oldest label first. -/
def exec (step : State → Label → Result × State) (s : State)
    (tr : List (Entry State Label Result)) : List Label → List (Entry State Label Result) × State
  | [] => (tr, s)
  | l :: ls => exec step (step s l).2 (entry step s l :: tr) ls

theorem exec_append {tr : List (Entry State Label Result)} (ls ls' : List Label) :
    exec step s tr (ls ++ ls') = exec step (exec step s tr ls).2 (exec step s tr ls).1 ls' := by
  induction ls generalizing s tr with
  | nil => rfl
  | cons l ls ih => exact ih

/-- What was there before the labels stays below their entries. -/
theorem exec_eq (tr : List (Entry State Label Result)) (ls : List Label) :
    exec step s tr ls = ((exec step s [] ls).1 ++ tr, (exec step s [] ls).2) := by
  induction ls generalizing s tr with
  | nil => rfl
  | cons l ls ih =>
    show exec step _ _ ls = ((exec step _ _ ls).1 ++ tr, (exec step _ _ ls).2)
    rw [ih (entry step s l :: tr), ih [entry step s l], List.append_assoc]
    rfl

theorem mem_exec {ls : List Label} {e : Entry State Label Result} (he : e ∈ tr) :
    e ∈ (exec step s tr ls).1 := by
  induction ls generalizing s tr with
  | nil => exact he
  | cons l ls ih => exact ih (List.mem_cons_of_mem _ he)

/-- Trying the labels of a list extends a run, if what each step did is
    allowed. -/
theorem Run.exec {p : Entry State Label Result → Prop} {ls : List Label}
    (h : Run step (fun s l => p (entry step s l)) s₀ tr s)
    (hp : ∀ e ∈ (LTS.exec step s tr ls).1, p e) :
    Run step (fun s l => p (entry step s l)) s₀ (LTS.exec step s tr ls).1
      (LTS.exec step s tr ls).2 := by
  induction ls generalizing s tr with
  | nil => exact h
  | cons l ls ih =>
    have hmem : entry step s l ∈ (LTS.exec step (step s l).2 (entry step s l :: tr) ls).1 :=
      mem_exec List.mem_cons_self
    exact ih (h.cons l (hp _ hmem)) hp

end runs

/-! ### Histories -/

section histories
variable {out : Entry State Label Result → List Output} {e : Entry State Label Result}
  {tr : List (Entry State Label Result)}

@[simp] theorem history_nil : history out ([] : List (Entry State Label Result)) = [] := rfl

@[simp] theorem history_cons : history out (e :: tr) = history out tr ++ out e := rfl

/-- What a later part of a trace put out comes after the rest. -/
theorem history_append (later earlier : List (Entry State Label Result)) :
    history out (later ++ earlier) = history out earlier ++ history out later := by
  induction later with
  | nil => rw [List.nil_append, history_nil, List.append_nil]
  | cons e later ih => rw [List.cons_append, history_cons, ih, history_cons, List.append_assoc]

theorem mem_history {x : Output} : x ∈ history out tr ↔ ∃ e ∈ tr, x ∈ out e := by
  induction tr with
  | nil => simp
  | cons e tr ih =>
    rw [history_cons, List.mem_append, ih]
    simp only [List.mem_cons, exists_eq_or_imp]
    exact Or.comm

end histories

/-! ### Conditions along a trace -/

/-- `P` holds of every entry of the trace, together with the trace before it. -/
def Throughout (P : Entry State Label Result → List (Entry State Label Result) → Prop)
    (tr : List (Entry State Label Result)) : Prop :=
  ∀ later e earlier, tr = later ++ e :: earlier → P e earlier

section throughout
variable {P : Entry State Label Result → List (Entry State Label Result) → Prop}
  {e : Entry State Label Result} {tr : List (Entry State Label Result)}

@[simp] theorem throughout_nil : Throughout P [] := by
  intro later e earlier htr
  cases later <;> cases htr

@[simp] theorem throughout_cons : Throughout P (e :: tr) ↔ P e tr ∧ Throughout P tr := by
  constructor
  · intro h
    exact ⟨h [] e tr rfl, fun later d earlier htr => h (e :: later) d earlier (congrArg _ htr)⟩
  · intro ⟨hhead, htail⟩ later d earlier htr
    cases later with
    | nil =>
      cases htr
      exact hhead
    | cons d' later =>
      cases htr
      exact htail later d earlier rfl

instance decidableThroughout [∀ e earlier, Decidable (P e earlier)] :
    ∀ tr, Decidable (Throughout P tr)
  | [] => isTrue throughout_nil
  | e :: tr =>
    have := decidableThroughout tr
    decidable_of_iff (P e tr ∧ Throughout P tr) throughout_cons.symm

end throughout

end LTS
