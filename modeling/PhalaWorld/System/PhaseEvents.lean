import PhalaWorld.Reference.Mock
import PhalaWorld.Specs.Settings

/-! # What the phase events tell

    Every phase of the sale has a flag in storage and an event that
    announces its status. Whoever keeps, for each phase, the status of its
    last event should know the flags. The setter of the last day announces
    the status of the preorders instead, and the event of the last day is
    never deposited.

    * `announced`: what the reader of the log knows.
    * `phase_events_iff`: when that is what is stored.
-/

namespace PhalaWorld

open LTS

variable {AccountId : Type} {T : Config AccountId}

/-- The status of each phase by its own last event, `false` before it. -/
def announced (evs : List (Event T)) : StatusType → Bool :=
  replay put (fun _ => false) (evs.filterMap Event.announces)

/-- The events tell the flags. -/
def Truthful (s : State T) : Prop := announced s.events = s.flag

/-- A call for the last day, if it went through, ended it while no preorders
    were taken. -/
def KeepsTruth (e : Entry T) : Prop :=
  ∀ status, (StatusType.LastDayOfSale, status) ∈ switches e →
    status = false ∧ e.pre.sale.can_preorder_origin_of_shells = false

section steps
variable {s s' : State T} {l : Label T} {r : Outcome T}

/-- At most one flag is set in a step. -/
theorem switches_cases (e : Entry T) :
    switches e = [] ∨ ∃ t status, switches e = [(t, status)] := by
  unfold switches
  split
  · exact .inr ⟨_, _, rfl⟩
  · exact .inl rfl

/-- The reader goes by the announcements of the step. -/
theorem Configured.announced (h : Configured s l r s') :
    announced s'.events =
      replay put (announced s.events) ((switches ⟨s, l, r, s'⟩).map announcement) := by
  obtain ⟨evs, hevs, hannounces⟩ := h.announces
  unfold PhalaWorld.announced
  rw [hevs, List.filterMap_append, replay_append, hannounces]

/-- Nothing ever announces the last day. -/
theorem Configured.silent (h : Configured s l r s')
    (hs : PhalaWorld.announced s.events .LastDayOfSale = false) :
    PhalaWorld.announced s'.events .LastDayOfSale = false := by
  rw [h.announced]
  rcases switches_cases (⟨s, l, r, s'⟩ : Entry T) with hnil | ⟨t, status, hone⟩
  · rw [hnil]
    exact hs
  · rw [hone]
    cases t <;> exact hs

/-- A step keeps the events true exactly as `KeepsTruth` says. -/
theorem Truthful.step_iff (h : Truthful s) (hs : Configured s l r s')
    (hsilent : PhalaWorld.announced s.events .LastDayOfSale = false) :
    Truthful s' ↔ KeepsTruth (⟨s, l, r, s'⟩ : Entry T) := by
  unfold Truthful KeepsTruth at *
  rw [hs.announced, hs.flag, h]
  rw [h] at hsilent
  rcases switches_cases (⟨s, l, r, s'⟩ : Entry T) with hnil | ⟨t, status, hone⟩
  · rw [hnil]
    exact iff_of_true rfl fun _ hmem => absurd hmem List.not_mem_nil
  · rw [hone]
    by_cases ht : t = .LastDayOfSale
    · subst ht
      -- one side sets the flag of the preorders, the other that of the last day
      show Function.update s.flag .PreorderOriginOfShells status =
        Function.update s.flag .LastDayOfSale status ↔ _
      have hpreorder : s.flag .PreorderOriginOfShells = s.sale.can_preorder_origin_of_shells := rfl
      constructor
      · intro heq status' hmem
        obtain ⟨_, rfl⟩ := Prod.mk.inj (List.mem_singleton.mp hmem)
        have hlast : s.flag .LastDayOfSale = status' := congrFun heq .LastDayOfSale
        have hopen : status' = s.flag .PreorderOriginOfShells :=
          congrFun heq .PreorderOriginOfShells
        rw [hsilent] at hlast
        rw [← hpreorder, ← hopen]
        exact ⟨hlast.symm, hlast.symm⟩
      · intro hkeeps
        obtain ⟨rfl, hclosed⟩ := hkeeps status List.mem_cons_self
        funext t
        cases t with
        | LastDayOfSale => exact hsilent
        | PreorderOriginOfShells => exact hclosed.symm
        | _ => rfl
    · refine iff_of_true ?_ ?_
      · cases t <;> first | rfl | exact absurd rfl ht
      · intro status' hmem
        exact absurd (Prod.mk.inj (List.mem_singleton.mp hmem)).1.symm ht

end steps

section runs
variable [DecidableEq AccountId] {ok : Entry T → Prop} {g : GenesisConfig AccountId} {w : T.World}
  {now : UInt64} {tr : List (Entry T)} {s : State T}

/-- **Phase events.** Along a run from closed phases the events tell the
    flags at every point if and only if the last day of sale is never
    switched on, and only switched off while preorders are closed. -/
theorem phase_events_iff (hclosed : (genesis g w now : State T).flag = fun _ => false)
    (h : Runs ok (genesis g w now) tr s) :
    Throughout (fun e _ => Truthful e.post) tr ↔ Throughout (fun e _ => KeepsTruth e) tr := by
  have hall : (Throughout (fun e _ => Truthful e.post) tr ↔
      Throughout (fun e _ => KeepsTruth e) tr) ∧
      (Throughout (fun e _ => Truthful e.post) tr → Truthful s) ∧
      announced s.events .LastDayOfSale = false := by
    induction h with
    | nil => exact ⟨by simp, fun _ => hclosed.symm, rfl⟩
    | @cons tr s l hrun _ ih =>
      obtain ⟨hiff, htrue, hsilent⟩ := ih
      have hs := configured s l
      refine ⟨?_, fun hpast => (throughout_cons.mp hpast).1, hs.silent hsilent⟩
      rw [throughout_cons, throughout_cons, ← hiff]
      refine and_congr_left ?_
      intro hpast
      exact (htrue hpast).step_iff hs hsilent
  exact hall.1

open Mock in
/-- The Overlord announces the last day of sale. -/
def last_day_begins : List (Label (runtime 200)) :=
  [.call .root (.set_overlord OVERLORD), admin (.set_status_type true .LastDayOfSale)]

open Mock in
/-- Who reads the events takes preorders to be open, and the last day not to
    have come. -/
theorem last_day_unannounced : ∃ tr s, Runs (fun _ => True) (genesis₀ 200) tr s ∧
    s.flag .LastDayOfSale = true ∧ announced s.events .LastDayOfSale = false ∧
    s.flag .PreorderOriginOfShells = false ∧ announced s.events .PreorderOriginOfShells = true :=
  ⟨(after last_day_begins).1, (after last_day_begins).2,
    Run.exec (p := fun _ => True) .nil (by simp), by decide +kernel⟩

open Mock in
/-- The setup of the sample sale opens four phases and keeps to the truth. -/
theorem phase_events_setup :
    Throughout (fun e _ => Truthful e.post) (after (setup 200)).1 := by
  have hrun : Runs (fun _ => True) (genesis₀ 200) (after (setup 200)).1 (after (setup 200)).2 :=
    Run.exec (p := fun _ => True) .nil (by simp)
  have hclosed : (genesis₀ 200).flag = fun _ => false := by
    funext t
    cases t <;> rfl
  refine (phase_events_iff (T := runtime 200) (g := GenesisConfig.default) (w := world₀) hclosed
    hrun).mpr ?_
  intro later e earlier htr status hmem
  have hnone : ∀ e ∈ (after (setup 200)).1, ∀ x ∈ switches e, x.1 ≠ .LastDayOfSale := by
    decide +kernel
  have hin : e ∈ (after (setup 200)).1 := by
    rw [htr]
    exact List.mem_append_right _ List.mem_cons_self
  exact absurd rfl (hnone e hin _ hmem)

end runs

end PhalaWorld
