import PhalaWorld.Framework.Schedules

/-! # First come, first served

    A shop keeps its goods on shelves, one for each kind. A request takes
    one off the shelf of its kind, and is refused when the shelf is empty.
    However requests of different kinds are mixed, a request is then served
    if and only if there were fewer requests of its kind before it than
    the shelf held at first.

    * `Shelved`: the requests of a system are served from shelves.
    * `Shelved.stock_exec`: what a list of requests leaves on the shelves.
    * `Shelved.result`: which of them are served.
-/

namespace LTS

variable {State Label Result Request Kind : Type} [DecidableEq Kind]

/-- Requests are served from shelves: `ready l s` is what it takes in `s`
    for the requests `l` to be served, as far as the goods last. -/
structure Shelved (step : State → Label → Result × State) (call : Request → Label)
    (kind : Request → Kind) (stock : State → Kind → Nat) (served refused : Result)
    (ready : List Request → State → Prop) : Prop where
  serve : ∀ x l s, ready (x :: l) s → 0 < stock s (kind x) →
    (step s (call x)).1 = served ∧ ready l (step s (call x)).2 ∧
      stock (step s (call x)).2 = Function.update (stock s) (kind x) (stock s (kind x) - 1)
  refuse : ∀ x l s, ready (x :: l) s → stock s (kind x) = 0 →
    (step s (call x)).1 = refused ∧ ready l (step s (call x)).2 ∧
      stock (step s (call x)).2 = stock s

/-- The number of requests of a kind. -/
def requests (kind : Request → Kind) (k : Kind) (l : List Request) : Nat :=
  l.countP fun x => decide (kind x = k)

section requests
variable {kind : Request → Kind} {k : Kind} {x : Request} {l : List Request}

@[simp] theorem requests_nil : requests kind k [] = 0 := rfl

theorem requests_cons :
    requests kind k (x :: l) = requests kind k l + if kind x = k then 1 else 0 := by
  unfold requests
  rw [List.countP_cons]
  by_cases h : kind x = k <;> simp [h]

end requests

section shelved
variable {step : State → Label → Result × State} {call : Request → Label}
  {kind : Request → Kind} {stock : State → Kind → Nat} {served refused : Result}
  {ready : List Request → State → Prop} {s : State} {x : Request} {l : List Request}

/-- One request takes at most one off its shelf, and the next can come. -/
theorem Shelved.next (h : Shelved step call kind stock served refused ready)
    (hready : ready (x :: l) s) : ready l (step s (call x)).2 ∧
      ∀ k, stock (step s (call x)).2 k = stock s k - if kind x = k then 1 else 0 := by
  by_cases hempty : stock s (kind x) = 0
  · obtain ⟨_, hnext, hstock⟩ := h.refuse x l s hready hempty
    refine ⟨hnext, fun k => ?_⟩
    rw [hstock]
    by_cases hk : kind x = k
    · rw [← hk, hempty, Nat.zero_sub]
    · rw [if_neg hk, Nat.sub_zero]
  · obtain ⟨_, hnext, hstock⟩ := h.serve x l s hready (Nat.pos_of_ne_zero hempty)
    refine ⟨hnext, fun k => ?_⟩
    rw [hstock]
    by_cases hk : kind x = k
    · rw [if_pos hk, ← hk, Function.update_self]
    · rw [if_neg hk, Nat.sub_zero, Function.update_of_ne (Ne.symm hk)]

/-- What requests leave on the shelves, and that more can follow. -/
theorem Shelved.exec (h : Shelved step call kind stock served refused ready)
    {before : List Request} (hready : ready (before ++ l) s) :
    ready l (LTS.exec step s [] (before.map call)).2 ∧
      ∀ k, stock (LTS.exec step s [] (before.map call)).2 k = stock s k - requests kind k before := by
  induction before generalizing s with
  | nil => exact ⟨hready, fun k => rfl⟩
  | cons x before ih =>
    obtain ⟨hnext, hstock⟩ := h.next hready
    obtain ⟨hend, hleft⟩ := ih hnext
    rw [List.map_cons, exec_state_cons]
    refine ⟨hend, fun k => ?_⟩
    rw [hleft, hstock, requests_cons]
    omega

theorem Shelved.stock_exec (h : Shelved step call kind stock served refused ready)
    (hready : ready l s) (k : Kind) :
    stock (LTS.exec step s [] (l.map call)).2 k = stock s k - requests kind k l := by
  rw [← List.append_nil l] at hready
  exact (h.exec hready).2 k

/-- **First come, first served.** -/
theorem Shelved.result (h : Shelved step call kind stock served refused ready)
    {before : List Request} (hready : ready (before ++ x :: l) s) :
    (step (LTS.exec step s [] (before.map call)).2 (call x)).1 =
      if requests kind (kind x) before < stock s (kind x) then served else refused := by
  obtain ⟨hnext, hleft⟩ := h.exec hready
  have hstock := hleft (kind x)
  by_cases hlt : requests kind (kind x) before < stock s (kind x)
  · rw [if_pos hlt]
    exact (h.serve x l _ hnext (by omega)).1
  · rw [if_neg hlt]
    exact (h.refuse x l _ hnext (by omega)).1

end shelved

end LTS
