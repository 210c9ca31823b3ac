import Mathlib.Algebra.BigOperators.Ring.Finset
import PhalaWorld.Framework.Balances

/-! # Payments

    A list of payments settles the difference between two states of the
    balances: every account has what it had, less what it paid and plus what
    it was paid. Money that is only moved between the two parts of an account
    needs no payment, and payments that come one after the other add up.
    In a group of accounts that pays only its members the sum of all totals
    stays the same (`Settles.sum`).
-/

namespace Ledger

/-- An amount that changes hands. -/
structure Payment (A : Type) where
  payer : A
  payee : A
  amount : Nat

section payments
variable {A : Type} [DecidableEq A]

/-- What `a` paid in all. -/
def paid (ps : List (Payment A)) (a : A) : Nat :=
  (ps.map fun p => if p.payer = a then p.amount else 0).sum

/-- What `a` was paid in all. -/
def received (ps : List (Payment A)) (a : A) : Nat :=
  (ps.map fun p => if p.payee = a then p.amount else 0).sum

/-- The payments account for what every account has more or less in `b'`. -/
def Settles (ps : List (Payment A)) (b b' : Balances A) : Prop :=
  ∀ a, b'.total a + paid ps a = b.total a + received ps a

variable {ps ps' : List (Payment A)} {b b' b'' : Balances A} {a : A}

theorem paid_append : paid (ps ++ ps') a = paid ps a + paid ps' a := by
  simp [paid]

theorem received_append : received (ps ++ ps') a = received ps a + received ps' a := by
  simp [received]

theorem Settles.of_total (h : ∀ a, b'.total a = b.total a) : Settles [] b b' := h

theorem Settles.append (h : Settles ps b b') (h' : Settles ps' b' b'') :
    Settles (ps ++ ps') b b'' := by
  intro a
  have hfirst := h a
  have hsecond := h' a
  rw [paid_append, received_append]
  omega

/-- A transfer is a payment, also to oneself. -/
theorem Settles.transfer {src dst : A} {v : Nat} (h : src ≠ dst → v ≤ b.free src) :
    Settles [⟨src, dst, v⟩] b (b.transfer src dst v) := by
  intro a
  simp only [paid, received, List.map_cons, List.map_nil, List.sum_singleton]
  by_cases hne : src = dst
  · subst hne
    rw [Balances.transfer_self]
  · by_cases hsrc : src = a
    · subst hsrc
      have htotal := b.total_transfer_src v hne (h hne)
      rw [if_pos rfl, if_neg (Ne.symm hne)]
      omega
    · by_cases hdst : dst = a
      · subst hdst
        rw [b.total_transfer_dst v hne, if_neg hne, if_pos rfl]
        omega
      · rw [b.total_transfer_of_ne v (Ne.symm hsrc) (Ne.symm hdst), if_neg hsrc, if_neg hdst]

/-! ### Closed groups -/

/-- What the members of a group paid is what they were paid. -/
theorem sum_paid_eq_sum_received {F : Finset A}
    (hclosed : ∀ p ∈ ps, p.payer ∈ F ∧ p.payee ∈ F) :
    ∑ a ∈ F, paid ps a = ∑ a ∈ F, received ps a := by
  induction ps with
  | nil => rfl
  | cons p ps ih =>
    obtain ⟨hpayer, hpayee⟩ := hclosed p List.mem_cons_self
    have hrest := ih fun q hq => hclosed q (List.mem_cons_of_mem _ hq)
    simp only [paid, received, List.map_cons, List.sum_cons, Finset.sum_add_distrib] at hrest ⊢
    rw [hrest, Finset.sum_ite_eq, Finset.sum_ite_eq, if_pos hpayer, if_pos hpayee]

/-- **Conservation**: a group that pays only its members keeps its money. -/
theorem Settles.sum {F : Finset A} (h : Settles ps b b')
    (hclosed : ∀ p ∈ ps, p.payer ∈ F ∧ p.payee ∈ F) :
    ∑ a ∈ F, b'.total a = ∑ a ∈ F, b.total a := by
  have hall : ∑ a ∈ F, (b'.total a + paid ps a) = ∑ a ∈ F, (b.total a + received ps a) :=
    Finset.sum_congr rfl fun a _ => h a
  rw [Finset.sum_add_distrib, Finset.sum_add_distrib,
    sum_paid_eq_sum_received hclosed] at hall
  omega

end payments

end Ledger
