import Mathlib.Logic.Function.Basic
import Mathlib.Order.Lattice
import Mathlib.Order.Defs.LinearOrder
import Mathlib.Data.Nat.Basic

/-! # Balances with a reserved part

    Every account holds a free and a reserved amount. Reserving and
    unreserving move money between the two parts of one account, a
    transfer moves it between the free parts of two accounts. None of the
    three creates or destroys money.

    `Deposit b b' p` describes a step whose exact amount does not matter:
    only `p`'s own money may move, and only between its two parts.
-/

namespace Ledger

/-- What every account holds. -/
structure Balances (A : Type) where
  /-- What the account can spend. -/
  free : A → Nat
  /-- What is held back on the account. -/
  reserved : A → Nat

namespace Balances
variable {A : Type}

/-- Everything the account holds. -/
def total (b : Balances A) (a : A) : Nat := b.free a + b.reserved a

/-- Only `p` moved money, and only between its own free and reserved part. -/
def Deposit (b b' : Balances A) (p : A) : Prop :=
  (∀ a, a ≠ p → b'.free a = b.free a ∧ b'.reserved a = b.reserved a) ∧
  b'.total p = b.total p

variable [DecidableEq A]

/-- Moves `v` from `a`'s free to its reserved part. -/
def reserve (b : Balances A) (a : A) (v : Nat) : Balances A where
  free := Function.update b.free a (b.free a - v)
  reserved := Function.update b.reserved a (b.reserved a + v)

/-- Moves `v` back from `a`'s reserved to its free part, or all that is
    reserved where that is less. -/
def unreserve (b : Balances A) (a : A) (v : Nat) : Balances A where
  free := Function.update b.free a (b.free a + min v (b.reserved a))
  reserved := Function.update b.reserved a (b.reserved a - v)

/-- Moves `v` from `src`'s free part to `dst`'s. -/
def transfer (b : Balances A) (src dst : A) (v : Nat) : Balances A :=
  if src = dst then b
  else
    { b with free :=
        Function.update (Function.update b.free src (b.free src - v)) dst (b.free dst + v) }

/-! ### What each operation does to one account -/

@[simp] theorem reserve_free_self (b : Balances A) (a : A) (v : Nat) :
    (b.reserve a v).free a = b.free a - v := by
  simp [reserve]

@[simp] theorem reserve_reserved_self (b : Balances A) (a : A) (v : Nat) :
    (b.reserve a v).reserved a = b.reserved a + v := by
  simp [reserve]

theorem reserve_of_ne (b : Balances A) {a a' : A} (v : Nat) (h : a' ≠ a) :
    (b.reserve a v).free a' = b.free a' ∧ (b.reserve a v).reserved a' = b.reserved a' := by
  simp [reserve, h]

@[simp] theorem unreserve_free_self (b : Balances A) (a : A) (v : Nat) :
    (b.unreserve a v).free a = b.free a + min v (b.reserved a) := by
  simp [unreserve]

@[simp] theorem unreserve_reserved_self (b : Balances A) (a : A) (v : Nat) :
    (b.unreserve a v).reserved a = b.reserved a - v := by
  simp [unreserve]

theorem unreserve_of_ne (b : Balances A) {a a' : A} (v : Nat) (h : a' ≠ a) :
    (b.unreserve a v).free a' = b.free a' ∧ (b.unreserve a v).reserved a' = b.reserved a' := by
  simp [unreserve, h]

/-- What was reserved can be unreserved, and then nothing happened. -/
theorem unreserve_reserve (b : Balances A) {a : A} {v : Nat} (h : v ≤ b.free a) :
    (b.reserve a v).unreserve a v = b := by
  simp [reserve, unreserve, Nat.sub_add_cancel h]

@[simp] theorem transfer_reserved (b : Balances A) (src dst : A) (v : Nat) :
    (b.transfer src dst v).reserved = b.reserved := by
  unfold transfer; split <;> rfl

theorem transfer_self (b : Balances A) (a : A) (v : Nat) : b.transfer a a v = b := by
  simp [transfer]

theorem transfer_zero (b : Balances A) (src dst : A) : b.transfer src dst 0 = b := by
  unfold transfer; split
  · rfl
  · simp

theorem transfer_free_src (b : Balances A) {src dst : A} (v : Nat) (h : src ≠ dst) :
    (b.transfer src dst v).free src = b.free src - v := by
  simp [transfer, h]

theorem transfer_free_dst (b : Balances A) {src dst : A} (v : Nat) (h : src ≠ dst) :
    (b.transfer src dst v).free dst = b.free dst + v := by
  simp [transfer, h]

theorem transfer_free_of_ne (b : Balances A) {src dst a : A} (v : Nat) (hs : a ≠ src)
    (hd : a ≠ dst) : (b.transfer src dst v).free a = b.free a := by
  unfold transfer; split
  · rfl
  · simp [hs, hd]

/-! ### What each operation does to the totals -/

theorem total_reserve (b : Balances A) (a a' : A) (v : Nat) (h : v ≤ b.free a) :
    (b.reserve a v).total a' = b.total a' := by
  unfold total
  by_cases ha : a' = a
  · subst ha; simp; omega
  · rw [(b.reserve_of_ne v ha).1, (b.reserve_of_ne v ha).2]

theorem total_unreserve (b : Balances A) (a a' : A) (v : Nat) :
    (b.unreserve a v).total a' = b.total a' := by
  unfold total
  by_cases ha : a' = a
  · subst ha; simp; omega
  · rw [(b.unreserve_of_ne v ha).1, (b.unreserve_of_ne v ha).2]

theorem total_transfer_src (b : Balances A) {src dst : A} (v : Nat) (hne : src ≠ dst)
    (h : v ≤ b.free src) : (b.transfer src dst v).total src + v = b.total src := by
  unfold total
  rw [transfer_free_src b v hne, transfer_reserved]; omega

theorem total_transfer_dst (b : Balances A) {src dst : A} (v : Nat) (hne : src ≠ dst) :
    (b.transfer src dst v).total dst = b.total dst + v := by
  unfold total
  rw [transfer_free_dst b v hne, transfer_reserved]; omega

theorem total_transfer_of_ne (b : Balances A) {src dst a : A} (v : Nat) (hs : a ≠ src)
    (hd : a ≠ dst) : (b.transfer src dst v).total a = b.total a := by
  unfold total
  rw [transfer_free_of_ne b v hs hd, transfer_reserved]

omit [DecidableEq A] in
theorem Deposit.refl (b : Balances A) (p : A) : Deposit b b p :=
  ⟨fun _ _ => ⟨rfl, rfl⟩, rfl⟩

omit [DecidableEq A] in
theorem Deposit.trans {b b' b'' : Balances A} {p : A} (h : Deposit b b' p)
    (h' : Deposit b' b'' p) : Deposit b b'' p := by
  refine ⟨?_, h'.2.trans h.2⟩
  intro a ha
  obtain ⟨hf, hr⟩ := h.1 a ha
  obtain ⟨hf', hr'⟩ := h'.1 a ha
  exact ⟨hf'.trans hf, hr'.trans hr⟩

/-- A deposit moves nobody's total. -/
theorem Deposit.total {b b' : Balances A} {p : A} (h : Deposit b b' p) (a : A) :
    b'.total a = b.total a := by
  by_cases ha : a = p
  · subst ha; exact h.2
  · unfold Balances.total; rw [(h.1 a ha).1, (h.1 a ha).2]

end Balances

end Ledger
