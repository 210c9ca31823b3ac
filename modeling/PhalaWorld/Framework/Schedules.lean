import Mathlib.Data.List.Count
import PhalaWorld.Framework.Runs

/-! # Schedules that come to the same

    Two labels are independent if it does not matter which of them is tried
    first. Two schedules then come to the same if every two labels that are
    not independent are in the same order in both, whatever else differs.
    And what leaves no trace in a view of the states can be left out of a
    schedule, as far as that view goes.

    * `Reorders`: independent neighbours exchanged, any number of times.
    * `KeepsOrder`: labels that are not independent stay in order.
    * `keepsOrder_iff`: the two are the same.
    * `Exchangeable`: what a system must satisfy for its labels to be
      independent, up to an equivalence of its states.
    * `Exchangeable.exec`: whatever the order, everyone gets the same.
    * `Separates.purge`: hidden steps are left out, and nobody else notices.
-/

namespace LTS

open Classical

variable {Label : Type} {ind : Label → Label → Prop} {x y : Label} {l l' : List Label}

/-- Neighbours that are independent are exchanged, any number of times. -/
inductive Reorders (ind : Label → Label → Prop) : List Label → List Label → Prop where
  | refl (l : List Label) : Reorders ind l l
  | swap {x y : Label} (u v : List Label) :
      ind x y → Reorders ind (u ++ x :: y :: v) (u ++ y :: x :: v)
  | trans {l₁ l₂ l₃ : List Label} :
      Reorders ind l₁ l₂ → Reorders ind l₂ l₃ → Reorders ind l₁ l₃

/-- The occurrences of `x` and `y` in a schedule. -/
noncomputable def restrict (x y : Label) (l : List Label) : List Label :=
  l.filter fun z => z = x ∨ z = y

/-- Labels that are not independent are in the same order in both. -/
def KeepsOrder (ind : Label → Label → Prop) (l l' : List Label) : Prop :=
  ∀ x y, ¬ ind x y → restrict x y l = restrict x y l'

/-! ### The two notions agree -/

theorem restrict_append (u v : List Label) :
    restrict x y (u ++ v) = restrict x y u ++ restrict x y v :=
  List.filter_append ..

theorem restrict_cons_of_mem {z : Label} (h : z = x ∨ z = y) :
    restrict x y (z :: l) = z :: restrict x y l :=
  List.filter_cons_of_pos (decide_eq_true h)

theorem restrict_cons_of_not {z : Label} (h : ¬ (z = x ∨ z = y)) :
    restrict x y (z :: l) = restrict x y l :=
  List.filter_cons_of_neg fun hz => h (of_decide_eq_true hz)

theorem restrict_eq_nil (h : ∀ z ∈ l, ¬ (z = x ∨ z = y)) : restrict x y l = [] :=
  List.filter_eq_nil_iff.mpr fun z hz hmem => h z hz (of_decide_eq_true hmem)

/-- Under a label put before the rest, the order goes on. -/
theorem Reorders.cons (x : Label) (h : Reorders ind l l') : Reorders ind (x :: l) (x :: l') := by
  induction h with
  | refl l => exact .refl _
  | swap u v hind => exact .swap (x :: u) v hind
  | trans _ _ ih ih' => exact .trans ih ih'

/-- A label goes to the front past labels it is independent of. -/
theorem Reorders.front {u : List Label} (v : List Label) (h : ∀ y ∈ u, ind x y) :
    Reorders ind (x :: u ++ v) (u ++ x :: v) := by
  induction u with
  | nil => exact .refl _
  | cons y u ih =>
    have hrest := ih fun z hz => h z (List.mem_cons_of_mem _ hz)
    exact .trans (.swap [] (u ++ v) (h y List.mem_cons_self)) (hrest.cons y)

theorem Reorders.keepsOrder (hsymm : ∀ x y, ind x y → ind y x) (hirrefl : ∀ x, ¬ ind x x)
    (h : Reorders ind l l') : KeepsOrder ind l l' := by
  intro a b hab
  induction h with
  | refl l => rfl
  | trans _ _ ih ih' => exact ih.trans ih'
  | @swap x y u v hind =>
    rw [restrict_append, restrict_append]
    refine congrArg _ ?_
    -- not both of the neighbours are among the two
    by_cases hx : x = a ∨ x = b
    · have hy : ¬ (y = a ∨ y = b) := by
        intro hy
        rcases hx with rfl | rfl <;> rcases hy with rfl | rfl
        · exact hirrefl _ hind
        · exact hab hind
        · exact hab (hsymm _ _ hind)
        · exact hirrefl _ hind
      rw [restrict_cons_of_mem hx, restrict_cons_of_not hy, restrict_cons_of_not hy,
        restrict_cons_of_mem hx]
    · by_cases hy : y = a ∨ y = b
      · rw [restrict_cons_of_not hx, restrict_cons_of_mem hy, restrict_cons_of_mem hy,
          restrict_cons_of_not hx]
      · rw [restrict_cons_of_not hx, restrict_cons_of_not hy, restrict_cons_of_not hy,
          restrict_cons_of_not hx]

/-- Whatever stands before the first `x` of the other schedule is
    independent of `x`, if `x` stands first in this one. -/
theorem KeepsOrder.before {u v : List Label} (h : KeepsOrder ind (x :: l) (u ++ x :: v))
    (hu : x ∉ u) : ∀ y ∈ u, ind x y := by
  intro y hy
  by_contra hind
  have heq := h x y hind
  rw [restrict_cons_of_mem (.inl rfl), restrict_append] at heq
  have hmem : y ∈ restrict x y u := List.mem_filter.mpr ⟨hy, decide_eq_true (.inr rfl)⟩
  cases hr : restrict x y u with
  | nil => rw [hr] at hmem; cases hmem
  | cons z r =>
    -- so the first of `x` and `y` would be `x` here and not there
    rw [hr, List.cons_append] at heq
    obtain ⟨rfl, -⟩ := List.cons.inj heq
    have hx : x ∈ restrict x y u := hr ▸ List.mem_cons_self
    exact hu (List.mem_filter.mp hx).1

/-- What is left when the first `x` is taken out of both. -/
theorem KeepsOrder.rest {u v : List Label} (h : KeepsOrder ind (x :: l) (u ++ x :: v))
    (hu : x ∉ u) (hind : ∀ y ∈ u, ind x y) (hsymm : ∀ x y, ind x y → ind y x) :
    KeepsOrder ind l (u ++ v) := by
  intro a b hab
  have heq := h a b hab
  rw [restrict_append] at heq ⊢
  by_cases hx : x = a ∨ x = b
  · -- neither `a` nor `b` is in `u`
    have hnil : restrict a b u = [] := by
      apply restrict_eq_nil
      intro z hz hmem
      have hzx := hind z hz
      rcases hx with rfl | rfl <;> rcases hmem with rfl | rfl
      · exact hu hz
      · exact hab hzx
      · exact hab (hsymm _ _ hzx)
      · exact hu hz
    rw [restrict_cons_of_mem hx, restrict_cons_of_mem hx, hnil, List.nil_append,
      List.cons.injEq] at heq
    rw [hnil, List.nil_append]
    exact heq.2
  · rw [restrict_cons_of_not hx, restrict_cons_of_not hx] at heq
    exact heq

/-- **Schedules and their exchanges**: one schedule comes of another by
    exchanging independent neighbours if and only if labels that are not
    independent are in the same order in both. -/
theorem keepsOrder_iff (hsymm : ∀ x y, ind x y → ind y x) (hirrefl : ∀ x, ¬ ind x x) :
    KeepsOrder ind l l' ↔ Reorders ind l l' := by
  refine ⟨?_, fun h => h.keepsOrder hsymm hirrefl⟩
  induction l generalizing l' with
  | nil =>
    intro h
    cases l' with
    | nil => exact .refl _
    | cons z l' =>
      have hz := h z z (hirrefl z)
      rw [restrict_cons_of_mem (.inl rfl)] at hz
      cases hz
  | cons x l ih =>
    intro h
    have hmem : x ∈ restrict x x l' := by
      rw [← h x x (hirrefl x), restrict_cons_of_mem (.inl rfl)]
      exact List.mem_cons_self
    obtain ⟨u, v, rfl, hu⟩ := List.eq_append_cons_of_mem (List.mem_filter.mp hmem).1
    have hind := h.before hu
    exact .trans ((ih (h.rest hu hind hsymm)).cons x) (.front v hind)

/-! ### Systems -/

section systems
variable {State Result : Type} {step : State → Label → Result × State}
  {alike : State → State → Prop} {s t : State}

/-- Independent labels may be exchanged, up to an equivalence of the states
    that no step can tell apart. -/
structure Exchangeable (step : State → Label → Result × State) (ind : Label → Label → Prop)
    (alike : State → State → Prop) : Prop where
  refl : ∀ s, alike s s
  trans : ∀ s t r, alike s t → alike t r → alike s r
  congr : ∀ s t x, alike s t →
    (step s x).1 = (step t x).1 ∧ alike (step s x).2 (step t x).2
  swap : ∀ s x y, ind x y → (step (step s x).2 y).1 = (step s y).1 ∧
    (step s x).1 = (step (step s y).2 x).1 ∧
    alike (step (step s x).2 y).2 (step (step s y).2 x).2

/-- What the occurrences of a label returned, oldest first. -/
noncomputable def results (x : Label) (tr : List (Entry State Label Result)) : List Result :=
  history (fun e => if e.label = x then [e.result] else []) tr

/-- A schedule gives each label the same results from both states, and leads
    to states that are alike. -/
def SameAnswers (step : State → Label → Result × State) (alike : State → State → Prop)
    (s t : State) (l l' : List Label) : Prop :=
  (∀ x, results x (exec step s [] l).1 = results x (exec step t [] l').1) ∧
    alike (exec step s [] l).2 (exec step t [] l').2

theorem results_exec_cons (x z : Label) : results z (exec step s [] (x :: l)).1 =
    (if x = z then [(step s x).1] else []) ++ results z (exec step (step s x).2 [] l).1 := by
  show results z (exec step (step s x).2 [entry step s x] l).1 = _
  rw [exec_eq, results, history_append]
  rfl

theorem exec_state_cons (x : Label) :
    (exec step s [] (x :: l)).2 = (exec step (step s x).2 [] l).2 := by
  show (exec step (step s x).2 [entry step s x] l).2 = _
  rw [exec_eq]

/-- The same step first, and then the same answers. -/
theorem SameAnswers.cons {x : Label} (hres : (step s x).1 = (step t x).1)
    (h : SameAnswers step alike (step s x).2 (step t x).2 l l') :
    SameAnswers step alike s t (x :: l) (x :: l') := by
  constructor
  · intro z
    rw [results_exec_cons, results_exec_cons, hres, h.1 z]
  · rw [exec_state_cons, exec_state_cons]
    exact h.2

theorem SameAnswers.trans {r : State} {l'' : List Label} (hE : Exchangeable step ind alike)
    (h : SameAnswers step alike s t l l') (h' : SameAnswers step alike t r l' l'') :
    SameAnswers step alike s r l l'' :=
  ⟨fun z => (h.1 z).trans (h'.1 z), hE.trans _ _ _ h.2 h'.2⟩

namespace Exchangeable

/-- The same schedule from states that are alike. -/
theorem same (hE : Exchangeable step ind alike) (h : alike s t) (l : List Label) :
    SameAnswers step alike s t l l := by
  induction l generalizing s t with
  | nil => exact ⟨fun _ => rfl, h⟩
  | cons x l ih =>
    obtain ⟨hres, halike⟩ := hE.congr s t x h
    exact .cons hres (ih halike)

/-- Two independent labels at the front are exchanged. -/
theorem front (hE : Exchangeable step ind alike) (hirrefl : ∀ x, ¬ ind x x) (h : ind x y)
    (v : List Label) : SameAnswers step alike s s (x :: y :: v) (y :: x :: v) := by
  obtain ⟨hy, hx, halike⟩ := hE.swap s x y h
  obtain ⟨hres, hstate⟩ := hE.same halike v
  have hne : x ≠ y := by
    rintro rfl
    exact hirrefl _ h
  constructor
  · intro z
    rw [results_exec_cons, results_exec_cons, results_exec_cons, results_exec_cons, hres z, hy,
      hx]
    -- at most one of the two is `z`
    by_cases hxz : x = z
    · rw [if_pos hxz, if_neg fun hyz => hne (hxz.trans hyz.symm)]
      rfl
    · rw [if_neg hxz]
      rfl
  · rw [exec_state_cons, exec_state_cons, exec_state_cons, exec_state_cons]
    exact hstate

/-- **Any order.** Schedules that keep the order of what is not independent
    give every label the same results, and lead to states that are alike. -/
theorem exec (hE : Exchangeable step ind alike) (hsymm : ∀ x y, ind x y → ind y x)
    (hirrefl : ∀ x, ¬ ind x x) (h : KeepsOrder ind l l') (s : State) :
    SameAnswers step alike s s l l' := by
  have hreorders := (keepsOrder_iff hsymm hirrefl).mp h
  clear h
  induction hreorders generalizing s with
  | refl l => exact hE.same (hE.refl s) l
  | trans _ _ ih ih' => exact (ih s).trans hE (ih' s)
  | @swap x y u v hind =>
    induction u generalizing s with
    | nil => exact hE.front hirrefl hind v
    | cons z u ih => exact .cons rfl (ih _)

end Exchangeable

/-! ### Leaving out -/

/-- An equivalence of the states that the steps which are not hidden keep,
    and whose results it determines. -/
structure Separates (step : State → Label → Result × State) (hidden : Label → Bool)
    (alike : State → State → Prop) : Prop where
  symm : ∀ s t, alike s t → alike t s
  trans : ∀ s t r, alike s t → alike t r → alike s r
  visible : ∀ s t x, hidden x = false → alike s t →
    (step s x).1 = (step t x).1 ∧ alike (step s x).2 (step t x).2

theorem mem_exec_cons {x : Label} {e : Entry State Label Result} :
    e ∈ (exec step s [] (x :: l)).1 ↔
      e ∈ (exec step (step s x).2 [] l).1 ∨ e = entry step s x := by
  show e ∈ (exec step (step s x).2 [entry step s x] l).1 ↔ _
  rw [exec_eq, List.mem_append, List.mem_singleton]

/-- **Purging**: if every hidden step of a schedule left a state that is
    alike, then without the hidden steps all others return the same. -/
theorem Separates.purge {hidden : Label → Bool} (hS : Separates step hidden alike)
    (h : alike s t) (hquiet : ∀ e ∈ (exec step s [] l).1, hidden e.label = true →
      alike e.pre e.post) :
    (∀ x, hidden x = false → results x (exec step s [] l).1 =
      results x (exec step t [] (l.filter fun x => !hidden x)).1) ∧
    alike (exec step s [] l).2 (exec step t [] (l.filter fun x => !hidden x)).2 := by
  induction l generalizing s t with
  | nil => exact ⟨fun _ _ => rfl, h⟩
  | cons y l ih =>
    have hrest : ∀ e ∈ (exec step (step s y).2 [] l).1, hidden e.label = true →
        alike e.pre e.post :=
      fun e he => hquiet e (mem_exec_cons.mpr (.inl he))
    rw [exec_state_cons]
    cases hy : hidden y with
    | true =>
      -- the step is left out, and its state is as good as the one before
      have hstep : alike s (step s y).2 := hquiet _ (mem_exec_cons.mpr (.inr rfl)) hy
      obtain ⟨hres, hstate⟩ := ih (hS.trans _ _ _ (hS.symm _ _ hstep) h) hrest
      rw [List.filter_cons_of_neg (by simp [hy])]
      refine ⟨?_, hstate⟩
      intro x hx
      have hne : y ≠ x := by
        rintro rfl
        rw [hx] at hy
        cases hy
      rw [results_exec_cons, if_neg hne, List.nil_append, hres x hx]
    | false =>
      obtain ⟨hy', halike⟩ := hS.visible s t y hy h
      obtain ⟨hres, hstate⟩ := ih halike hrest
      rw [List.filter_cons_of_pos (by simp [hy]), exec_state_cons]
      refine ⟨?_, hstate⟩
      intro x hx
      rw [results_exec_cons, results_exec_cons, hy', hres x hx]

end systems

end LTS
