import Mathlib.Logic.Function.Basic
import PhalaWorld.Framework.Runs

/-! # Refining an automaton

    An abstract view of a system is a deterministic automaton that only
    takes the steps it allows: `after q d` is the next state, or nothing. A
    system refines it if whatever one step does (`deeds`) leads the automaton
    from the view of the state before to the view of the state after. Then
    the deeds of every run lead from the view of its start to the view of its
    end, so that a run does nothing the automaton does not allow, in no other
    order.

    * `Leads`: the automaton takes a list of deeds, and where it ends.
    * `Leads.invariant`: the induction rule for what the automaton allows.
    * `product`: many copies side by side, each deed at one of them.
    * `Leads.component`: what leads the product leads each copy.
    * `Run.leads`: the forward simulation.
-/

namespace LTS

variable {Q Deed : Type} {after : Q → Deed → Option Q}

/-- The deeds, oldest first, lead from `q` to `q'`. -/
def Leads (after : Q → Deed → Option Q) (q : Q) (ds : List Deed) (q' : Q) : Prop :=
  ds.foldlM after q = some q'

section leads
variable {q q' q'' : Q} {d : Deed} {ds ds' : List Deed}

instance [DecidableEq Q] : Decidable (Leads after q ds q') :=
  inferInstanceAs (Decidable (_ = _))

theorem Leads.nil (q : Q) : Leads after q [] q := rfl

theorem Leads.of_eq (hds : ds = []) (hq : q' = q) : Leads after q ds q' := by
  rw [hds, hq]
  rfl

theorem Leads.one (h : after q d = some q') : Leads after q [d] q' := by
  unfold Leads
  rw [List.foldlM_cons, h]
  rfl

theorem Leads.append (h : Leads after q ds q') (h' : Leads after q' ds' q'') :
    Leads after q (ds ++ ds') q'' := by
  unfold Leads at h h' ⊢
  rw [List.foldlM_append, h]
  exact h'

/-- What holds at the start of the deeds so far, and is kept by every deed
    that is allowed, holds at the end. -/
theorem Leads.invariant {J : List Deed → Q → Prop} (hinit : J [] q)
    (hstep : ∀ ds p d p', J ds p → after p d = some p' → J (ds ++ [d]) p')
    (h : Leads after q ds q') : J ds q' := by
  -- along the deeds, with those that came before
  have hrun : ∀ ds before p, J before p → Leads after p ds q' → J (before ++ ds) q' := by
    intro ds
    induction ds with
    | nil =>
      intro before p hJ hl
      obtain rfl : p = q' := Option.some.inj hl
      rw [List.append_nil]
      exact hJ
    | cons d ds ih =>
      intro before p hJ hl
      unfold Leads at hl
      rw [List.foldlM_cons] at hl
      obtain ⟨p', hp', hl⟩ := Option.bind_eq_some_iff.mp hl
      rw [List.append_cons]
      exact ih _ p' (hstep before p d p' hJ hp') hl
  exact hrun ds [] q hinit h

end leads

/-! ### Many copies -/

section copies
variable {I : Type} [DecidableEq I]

/-- Copies of an automaton side by side: a deed is one of the copy it names. -/
def product (after : Q → Deed → Option Q) (f : I → Q) (x : I × Deed) : Option (I → Q) :=
  (after (f x.1) x.2).map (Function.update f x.1)

/-- The deeds of the copy `i`. -/
def about (i : I) (ds : List (I × Deed)) : List Deed :=
  (ds.filter fun x => x.1 = i).map Prod.snd

variable {f f' : I → Q} {x : I × Deed} {ds ds' : List (I × Deed)} {i : I}

@[simp] theorem about_nil : about i ([] : List (I × Deed)) = [] := rfl

theorem about_append : about i (ds ++ ds') = about i ds ++ about i ds' := by
  unfold about
  rw [List.filter_append, List.map_append]

theorem about_self (i : I) (d : Deed) : about i [(i, d)] = [d] := by
  simp [about]

theorem about_of_ne {j : I} (h : j ≠ i) (d : Deed) : about i [(j, d)] = [] := by
  simp [about, h]

/-- A deed of one copy leads the product, if it leads that copy. -/
theorem Leads.copy {q : Q} {d : Deed} (h : after (f i) d = some q) :
    Leads (product after) f [(i, d)] (Function.update f i q) := by
  apply Leads.one
  show (after (f i) d).map (Function.update f i) = _
  rw [h, Option.map_some]

/-- What leads the product leads every copy. -/
theorem Leads.component (h : Leads (product after) f ds f') (i : I) :
    Leads after (f i) (about i ds) (f' i) := by
  refine Leads.invariant (J := fun ds f' => Leads after (f i) (about i ds) (f' i)) (.nil _) ?_ h
  intro ds p x p' hJ hp
  obtain ⟨q, hq, rfl⟩ := Option.map_eq_some_iff.mp hp
  obtain ⟨j, d⟩ := x
  rw [about_append]
  by_cases hj : j = i
  · subst hj
    rw [about_self, Function.update_self]
    exact hJ.append (.one hq)
  · rw [about_of_ne hj, List.append_nil, Function.update_of_ne (Ne.symm hj)]
    exact hJ

end copies

section runs
variable {State Label Result : Type} {step : State → Label → Result × State}
  {ok : State → Label → Prop} {s₀ s : State} {tr : List (Entry State Label Result)}
  {view : State → Q} {deeds : Entry State Label Result → List Deed}

/-- **Forward simulation**: if every step of the run is matched by its deeds,
    in the states that satisfy an invariant of the history, so is the run. -/
theorem Run.leads {J : List (Entry State Label Result) → State → Prop} (hinit : J [] s₀)
    (hkeep : ∀ tr s l, J tr s → ok s l → J (entry step s l :: tr) (step s l).2)
    (hmatch : ∀ tr s l, J tr s → ok s l →
      Leads after (view s) (deeds (entry step s l)) (view (step s l).2))
    (h : Run step ok s₀ tr s) : J tr s ∧ Leads after (view s₀) (history deeds tr) (view s) := by
  induction h with
  | nil => exact ⟨hinit, .nil _⟩
  | cons l _ hok ih =>
    obtain ⟨hJ, hl⟩ := ih
    exact ⟨hkeep _ _ l hJ hok, hl.append (hmatch _ _ l hJ hok)⟩

end runs

end LTS
