import PhalaWorld.Framework.Schedules
import PhalaWorld.Sale.OneShell
import PhalaWorld.Specs.Blind

/-! # The incubation left out

    The sale does not know of the incubation: until the first Origin of
    Shell is hatched, whatever is incubated, fed, relieved or switched there
    makes no difference to anybody who claims, buys or preorders.

    * `SameSale`: two states that differ in the incubation only.
    * `Stepped.same_sale`: a call of the incubation leaves such a state,
      unless it hatches.
    * `sale_purged`: without these calls, the sale goes the same way.
-/

namespace PhalaWorld

open LTS Transaction

variable {AccountId : Type} {T : Config AccountId}

/-- Is it an event of the incubation pallet? -/
def Event.incubates : Event T → Bool
  | .CanStartIncubationStatusChanged .. | .StartedIncubation .. | .OriginOfShellReceivedFood ..
  | .HatchTimeUpdated .. | .ShellCollectionIdSet .. | .ShellAwakened .. => true
  | _ => false

/-- The events of the sale pallet. -/
def sale_events (s : State T) : List (Event T) :=
  s.events.filter fun event => !event.incubates

/-- The two states differ in the incubation and its events only. -/
structure SameSale (s t : State T) : Prop where
  sale : t.sale = s.sale
  world : t.world = s.world
  now : t.now = s.now
  events : sale_events t = sale_events s

section same
variable {s t r : State T}

theorem SameSale.refl (s : State T) : SameSale s s := ⟨rfl, rfl, rfl, rfl⟩

theorem SameSale.symm (h : SameSale s t) : SameSale t s :=
  ⟨h.sale.symm, h.world.symm, h.now.symm, h.events.symm⟩

theorem SameSale.trans (h : SameSale s t) (h' : SameSale t r) : SameSale s r :=
  ⟨h'.sale.trans h.sale, h'.world.trans h.world, h'.now.trans h.now, h'.events.trans h.events⟩

/-- Events of the incubation are not events of the sale. -/
theorem SameSale.of_events {i : IncubationStorage T} {evs : List (Event T)}
    (h : ∀ event ∈ evs, event.incubates = true) :
    SameSale s { s with incubation := i, events := s.events ++ evs } := by
  refine ⟨rfl, rfl, rfl, ?_⟩
  have hnil : evs.filter (fun event => !event.incubates) = [] := by
    apply List.filter_eq_nil_iff.mpr
    intro event hevent
    simp [h event hevent]
  show (s.events ++ evs).filter _ = _
  rw [List.filter_append, hnil, List.append_nil]
  rfl

theorem sale_events_beside {f : IncubationStorage T → IncubationStorage T} :
    sale_events (s.beside f t.events) = sale_events t ++ sale_events s :=
  List.filter_append ..

end same

variable [DecidableEq AccountId] {s s' : State T} {l : Label T} {r : Outcome T}

/-! ### Calls of the incubation -/

theorem Incubates.same_sale {origin : Origin AccountId} {c : Call T}
    (h : Incubates s origin c s') : SameSale s s' := by
  cases h with
  | start h =>
    obtain rfl := h.post
    exact .of_events (by simp [Event.incubates])
  | feed h =>
    obtain ⟨food, count, _, _, rfl⟩ := h.post
    exact .of_events (by simp [Event.incubates])
  | reduce _ h =>
    refine h.covered SameSale.refl (fun _ _ _ => SameSale.trans) ?_
    rintro s x s' ⟨t, _, _, rfl⟩
    exact .of_events (by simp [Event.incubates])
  | enable _ _ => exact .of_events (by simp [Event.incubates])
  | shell_collection _ _ => exact .of_events (by simp [Event.incubates])

/-- The only call of the incubation that the sale could notice is a hatch. -/
theorem Stepped.same_sale (h : Stepped s l r s') (hl : l.incubates = true)
    (hhatch : r = .ok () → l.isHatch = false) : SameSale s s' := by
  cases h with
  | fails => exact .refl s
  | @call _ c _ hdone =>
    cases hdone with
    | incubate h => exact h.same_sale
    | hatch => cases hhatch rfl
    | configure h =>
      -- the set-up of the sale is none of the incubation's
      have hcall := h.call
      cases c <;>
        first | exact absurd hl Bool.false_ne_true | exact absurd hcall Bool.false_ne_true
    | spirit hc => rcases hc with rfl | ⟨_, rfl⟩ <;> cases hl
    | buy hc => rcases hc with ⟨rfl, _⟩ | ⟨_, _, rfl⟩ <;> cases hl
    | _ => cases hl
  | _ => cases hl

/-! ### Everything else -/

/-- To the other steps the two states are the same. -/
theorem SameSale.step {t : State T} (h : SameSale s t) (hl : l.incubates = false) :
    (PhalaWorld.step s l).1 = (PhalaWorld.step t l).1 ∧
      SameSale (PhalaWorld.step s l).2 (PhalaWorld.step t l).2 := by
  -- both are one state beside different incubations
  have ht : t = { s with incubation := t.incubation, events := t.events } := by
    rw [← h.sale, ← h.world, ← h.now]
  have hstep := step_blind (fun _ => s.incubation) s.events hl { s with events := [] }
  have hstep' := step_blind (fun _ => t.incubation) t.events hl { s with events := [] }
  rw [State.beside_bare] at hstep
  rw [State.beside_bare, ← ht] at hstep'
  rw [show PhalaWorld.step s l = _ from hstep, hstep']
  refine ⟨rfl, rfl, rfl, rfl, ?_⟩
  rw [sale_events_beside, sale_events_beside, h.events]

theorem separates_sale : Separates (step (T := T)) Label.incubates SameSale where
  symm _ _ := .symm
  trans _ _ _ := .trans
  visible _ _ _ hx h := h.step hx

/-- **The incubation left out.** Take any schedule from any state in which
    no shell is hatched, and leave out every call of the incubation: every
    other step returns the same, and the storage of the sale, the world, the
    clock and the events of the sale are the same, from a state with any
    other incubation as well. -/
theorem sale_purged {s t : State T} (h : SameSale s t) (l : List (Label T))
    (hhatch : ∀ e ∈ (exec step s [] l).1, succeeded e = true → e.label.isHatch = false) :
    (∀ x : Label T, x.incubates = false → results x (exec step s [] l).1 =
      results x (exec step t [] (l.filter fun x => !x.incubates)).1) ∧
    SameSale (exec step s [] l).2 (exec step t [] (l.filter fun x => !x.incubates)).2 := by
  apply separates_sale.purge h
  intro e he hincubates
  have hrun : Run step (fun _ _ => True) s (exec step s [] l).1 (exec step s [] l).2 :=
    Run.exec (p := fun _ => True) .nil fun _ _ => trivial
  obtain ⟨_, _, _, heq⟩ := hrun.mem he
  have hstep := stepped e.pre e.label
  rw [heq] at hincubates ⊢
  refine hstep.same_sale hincubates ?_
  intro hok
  have hsucc : succeeded e = true := by
    rw [heq]
    unfold succeeded entry
    dsimp only
    rw [hok]
  exact hhatch e he hsucc

open Mock in
/-- `CHARLIE` incubates, `ALICE` feeds, the Overlord relieves; `BOB`'s
    preorder in between is the same without. -/
theorem sale_purged_sample :
    let s := (after (sale 200 ++ [admin (.set_can_start_incubation_status true)])).2
    let l : List (Label (runtime 200)) :=
      [.call (.signed CHARLIE) (.start_incubation 1 0),
        .call (.signed ALICE) (.feed_origin_of_shell 1 0),
        admin (.set_status_type true .LastDayOfSale),
        admin (.update_incubation_time [((1, 0), 100)]),
        .call (.signed BOB) (.preorder_origin_of_shell .XGene .Web3Monk)]
    SameSale (exec step s [] l).2 (exec step s [] (l.filter fun x => !x.incubates)).2 := by
  intro s l
  exact (sale_purged (T := runtime 200) (.refl s) l (by decide +kernel)).2

end PhalaWorld
