import Mathlib.Data.List.Count
import Mathlib.Data.List.Perm.Basic
import Mathlib.Logic.Function.Basic

/-! # Interleavings

    Every input has a key, the party it comes from, and every party has a
    state of its own that answers its inputs. The parties' inputs may be
    served in any interleaving that keeps each party's own order.

    * `SameOrder`: two interleavings of the same sequences.
    * `serve`: the parties served in turn, `alone`: one party by itself.
    * `serve_of`: a party is served as if it were alone.
    * `SameOrder.serve`: so the interleaving makes no difference to anyone.
-/

namespace Interleaving

variable {Key Input Local Output : Type} [DecidableEq Key] {key : Input → Key} {k : Key}
  {l l' : List Input}

/-- The inputs of the party `k`, in order. -/
def inputs_of (key : Input → Key) (k : Key) (l : List Input) : List Input :=
  l.filter fun x => key x = k

/-- `l` and `l'` interleave the same sequence of each party. -/
def SameOrder (key : Input → Key) (l l' : List Input) : Prop :=
  ∀ k, inputs_of key k l = inputs_of key k l'

theorem inputs_of_cons_self (key : Input → Key) (x : Input) : inputs_of key (key x) (x :: l) =
    x :: inputs_of key (key x) l :=
  List.filter_cons_of_pos (decide_eq_true rfl)

theorem inputs_of_cons_of_ne (key : Input → Key) {x : Input} (h : key x ≠ k) :
    inputs_of key k (x :: l) = inputs_of key k l :=
  List.filter_cons_of_neg fun heq => h (of_decide_eq_true heq)

/-- Interleavings of the same sequences hold the same inputs. -/
theorem SameOrder.perm (h : SameOrder key l l') : l.Perm l' := by
  classical
  rw [List.perm_iff_count]
  intro x
  -- every `x` is among the inputs of its own party
  have hcount (l : List Input) : (inputs_of key (key x) l).count x = l.count x :=
    List.count_filter (decide_eq_true rfl)
  rw [← hcount l, ← hcount l', h (key x)]

/-- The inputs and what they were answered, and the states left. Party `k`
    starts from `m k`. -/
def serve (answer : Local → Input → Output × Local) (key : Input → Key) (m : Key → Local) :
    List Input → List (Input × Output) × (Key → Local)
  | [] => ([], m)
  | x :: l =>
    let (y, v) := answer (m (key x)) x
    let (answered, m') := serve answer key (Function.update m (key x) v) l
    ((x, y) :: answered, m')

/-- The same for one party by itself. -/
def alone (answer : Local → Input → Output × Local) (v : Local) :
    List Input → List (Input × Output) × Local
  | [] => ([], v)
  | x :: l =>
    let (y, v') := answer v x
    let (answered, v'') := alone answer v' l
    ((x, y) :: answered, v'')

/-- **Isolation**: each party is served as if it were alone. -/
theorem serve_of (answer : Local → Input → Output × Local) (key : Input → Key) (m : Key → Local)
    (l : List Input) (k : Key) :
    inputs_of (fun xy => key xy.1) k (serve answer key m l).1 =
        (alone answer (m k) (inputs_of key k l)).1 ∧
      (serve answer key m l).2 k = (alone answer (m k) (inputs_of key k l)).2 := by
  induction l generalizing m with
  | nil => exact ⟨rfl, rfl⟩
  | cons x l ih =>
    obtain ⟨hrest, hstate⟩ := ih (Function.update m (key x) (answer (m (key x)) x).2)
    by_cases hk : key x = k
    · subst hk
      rw [Function.update_self] at hrest hstate
      rw [inputs_of_cons_self]
      refine ⟨?_, hstate⟩
      exact (inputs_of_cons_self (fun xy : Input × Output => key xy.1) (x, _)).trans
        (congrArg _ hrest)
    · -- serving another party leaves the state of `k` alone
      rw [Function.update_of_ne (Ne.symm hk)] at hrest hstate
      rw [inputs_of_cons_of_ne key hk]
      exact ⟨(inputs_of_cons_of_ne (fun xy : Input × Output => key xy.1) hk).trans hrest, hstate⟩

/-- **Order between the parties is irrelevant**: each gets the same answers,
    and is left in the same state. -/
theorem SameOrder.serve {answer : Local → Input → Output × Local} {m : Key → Local}
    (h : SameOrder key l l') :
    SameOrder (fun xy : Input × Output => key xy.1) (Interleaving.serve answer key m l).1
        (Interleaving.serve answer key m l').1 ∧
      (Interleaving.serve answer key m l).2 = (Interleaving.serve answer key m l').2 := by
  constructor
  · intro k
    rw [(serve_of answer key m l k).1, (serve_of answer key m l' k).1, h k]
  · funext k
    rw [(serve_of answer key m l k).2, (serve_of answer key m l' k).2, h k]

end Interleaving
