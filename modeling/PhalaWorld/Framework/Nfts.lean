import Mathlib.Logic.Function.Basic

/-! # Collections of non-fungible tokens

    A store of items that are owned, can be frozen against transfers and
    carry attributes. Each collection has an issuer and hands out item ids
    from a counter. The operations are total functions on the store: the
    permission checks of an implementation stay with the implementation,
    which refines an operation wherever it succeeds.
-/

namespace Tokens

/-- One item. -/
structure Item (A M : Type) where
  /-- The account that holds the item. -/
  owner : A
  /-- A frozen item cannot be transferred. -/
  frozen : Bool
  /-- What was recorded at the mint. -/
  metadata : M

/-- The items of all collections. `C` are the collection ids, `A` the
    accounts, `M` the metadata, `K` and `V` the attribute keys and values. -/
structure Nfts (C A M K V : Type) where
  /-- The account that may mint into the collection. -/
  issuer : C → Option A
  /-- The id the next item of the collection gets. -/
  next : C → Nat
  /-- The live items. -/
  item : C × Nat → Option (Item A M)
  /-- The attributes, also those of items that are gone. -/
  attr : (C × Nat) × K → Option V

namespace Nfts
variable {C A M K V : Type}

/-- `a` holds an item of the collection. -/
def Owns (v : Nfts C A M K V) (c : C) (a : A) : Prop :=
  ∃ n i, v.item (c, n) = some i ∧ i.owner = a

/-- In the collections that `P` selects, holders may have passed on items
    that are not frozen, and nothing else happened: no item appeared,
    disappeared, thawed or changed its attributes. -/
def Moved (P : C → Prop) (v v' : Nfts C A M K V) : Prop :=
  ∀ c, P c → v'.next c = v.next c ∧
    (∀ n k, v'.attr ((c, n), k) = v.attr ((c, n), k)) ∧
    ∀ n, v'.item (c, n) = v.item (c, n) ∨
      ∃ i a, v.item (c, n) = some i ∧ i.frozen = false ∧
        v'.item (c, n) = some { i with owner := a }

/-! ### Moves between holders -/

section moves
variable {P : C → Prop} {v v' : Nfts C A M K V}

/-- A frozen item stays with its holder. -/
theorem Moved.frozen (h : Moved P v v') {c : C} (hc : P c) {n : Nat} {i : Item A M}
    (hi : v.item (c, n) = some i) (hf : i.frozen = true) : v'.item (c, n) = some i := by
  rcases (h c hc).2.2 n with heq | ⟨j, a, hj, hjf, _⟩
  · rw [heq, hi]
  · rw [hi, Option.some.injEq] at hj
    subst hj
    rw [hf] at hjf; cases hjf

/-- Moves neither make nor remove items. -/
theorem Moved.isSome (h : Moved P v v') {c : C} (hc : P c) (n : Nat) :
    (v'.item (c, n)).isSome = (v.item (c, n)).isSome := by
  rcases (h c hc).2.2 n with heq | ⟨i, a, hi, _, hi'⟩
  · rw [heq]
  · rw [hi, hi']; rfl

end moves

/-! ### Items: minted, frozen, burned -/

section items
variable [DecidableEq C]

/-- Opens a collection. -/
def create (v : Nfts C A M K V) (c : C) (a : A) : Nfts C A M K V :=
  { v with issuer := Function.update v.issuer c (some a) }

/-- Mints the collection's next item to `a`. -/
def mint (v : Nfts C A M K V) (c : C) (a : A) (md : M) : Nfts C A M K V :=
  { v with
    next := Function.update v.next c (v.next c + 1)
    item := Function.update v.item (c, v.next c) (some ⟨a, false, md⟩) }

/-- Freezes an item. -/
def freeze (v : Nfts C A M K V) (x : C × Nat) : Nfts C A M K V :=
  { v with
    item := Function.update v.item x ((v.item x).map fun i => { i with frozen := true }) }

/-- Removes an item. -/
def burn (v : Nfts C A M K V) (x : C × Nat) : Nfts C A M K V :=
  { v with item := Function.update v.item x none }

variable (v : Nfts C A M K V) (c : C) (x y : C × Nat) (a : A) (md : M)

@[simp] theorem create_next : (v.create c a).next = v.next := rfl

@[simp] theorem create_item : (v.create c a).item = v.item := rfl

@[simp] theorem create_attr : (v.create c a).attr = v.attr := rfl

@[simp] theorem mint_issuer : (v.mint c a md).issuer = v.issuer := rfl

@[simp] theorem mint_attr : (v.mint c a md).attr = v.attr := rfl

@[simp] theorem mint_next_self : (v.mint c a md).next c = v.next c + 1 := by
  simp [mint]

theorem mint_next_of_ne {c' : C} (h : c' ≠ c) : (v.mint c a md).next c' = v.next c' := by
  simp [mint, h]

@[simp] theorem mint_item_self :
    (v.mint c a md).item (c, v.next c) = some ⟨a, false, md⟩ := by
  simp [mint]

theorem mint_item_of_ne (h : y ≠ (c, v.next c)) : (v.mint c a md).item y = v.item y := by
  simp [mint, h]

@[simp] theorem freeze_issuer : (v.freeze x).issuer = v.issuer := rfl

@[simp] theorem freeze_next : (v.freeze x).next = v.next := rfl

@[simp] theorem freeze_attr : (v.freeze x).attr = v.attr := rfl

@[simp] theorem freeze_item_self :
    (v.freeze x).item x = (v.item x).map fun i => { i with frozen := true } := by
  simp [freeze]

theorem freeze_item_of_ne (h : y ≠ x) : (v.freeze x).item y = v.item y := by
  simp [freeze, h]

@[simp] theorem burn_issuer : (v.burn x).issuer = v.issuer := rfl

@[simp] theorem burn_next : (v.burn x).next = v.next := rfl

@[simp] theorem burn_attr : (v.burn x).attr = v.attr := rfl

@[simp] theorem burn_item_self : (v.burn x).item x = none := by
  simp [burn]

theorem burn_item_of_ne (h : y ≠ x) : (v.burn x).item y = v.item y := by
  simp [burn, h]

end items

/-! ### Attributes -/

section attributes
variable [DecidableEq C] [DecidableEq K]

/-- Writes an attribute. -/
def set_attr (v : Nfts C A M K V) (x : C × Nat) (k : K) (b : V) : Nfts C A M K V :=
  { v with attr := Function.update v.attr (x, k) (some b) }

/-- Removes an attribute. -/
def clear_attr (v : Nfts C A M K V) (x : C × Nat) (k : K) : Nfts C A M K V :=
  { v with attr := Function.update v.attr (x, k) none }

variable (v : Nfts C A M K V) (x : C × Nat) (k : K) (b : V) {z : (C × Nat) × K}

@[simp] theorem set_attr_issuer : (v.set_attr x k b).issuer = v.issuer := rfl

@[simp] theorem set_attr_next : (v.set_attr x k b).next = v.next := rfl

@[simp] theorem set_attr_item : (v.set_attr x k b).item = v.item := rfl

@[simp] theorem set_attr_self : (v.set_attr x k b).attr (x, k) = some b := by
  simp [set_attr]

theorem set_attr_of_ne (h : z ≠ (x, k)) : (v.set_attr x k b).attr z = v.attr z := by
  simp [set_attr, h]

@[simp] theorem clear_attr_issuer : (v.clear_attr x k).issuer = v.issuer := rfl

@[simp] theorem clear_attr_next : (v.clear_attr x k).next = v.next := rfl

@[simp] theorem clear_attr_item : (v.clear_attr x k).item = v.item := rfl

theorem clear_attr_of_ne (h : z ≠ (x, k)) : (v.clear_attr x k).attr z = v.attr z := by
  simp [clear_attr, h]

end attributes

/-! ### Changes to one item -/

/-- Only attributes of `x` changed. -/
structure Attributed (x : C × Nat) (v v' : Nfts C A M K V) : Prop where
  issuer : v'.issuer = v.issuer
  next : v'.next = v.next
  item : v'.item = v.item
  others : ∀ y k, y ≠ x → v'.attr (y, k) = v.attr (y, k)

/-- `a` got the next item of `c`, whose id was free; besides, only
    attributes of that item changed. -/
structure Received [DecidableEq C] (a : A) (c : C) (frozen : Bool) (v v' : Nfts C A M K V) :
    Prop where
  issuer : v'.issuer = v.issuer
  free_id : v.item (c, v.next c) = none
  next : v'.next = Function.update v.next c (v.next c + 1)
  item : ∃ md, v'.item = Function.update v.item (c, v.next c) (some ⟨a, frozen, md⟩)
  others : ∀ y k, y ≠ (c, v.next c) → v'.attr (y, k) = v.attr (y, k)

section changes
variable {v v' v'' : Nfts C A M K V} {x : C × Nat} {a : A} {c : C} {frozen : Bool}

theorem Attributed.refl (x : C × Nat) (v : Nfts C A M K V) : Attributed x v v :=
  ⟨rfl, rfl, rfl, fun _ _ _ => rfl⟩

theorem Attributed.trans (h : Attributed x v v') (h' : Attributed x v' v'') :
    Attributed x v v'' :=
  ⟨h'.issuer.trans h.issuer, h'.next.trans h.next, h'.item.trans h.item,
    fun y k hy => (h'.others y k hy).trans (h.others y k hy)⟩

theorem attributed_set_attr [DecidableEq C] [DecidableEq K] (k : K) (b : V) :
    Attributed x v (v.set_attr x k b) :=
  ⟨rfl, rfl, rfl, fun y k' hy => set_attr_of_ne v x k b (by simp [hy])⟩

theorem attributed_clear_attr [DecidableEq C] [DecidableEq K] (k : K) :
    Attributed x v (v.clear_attr x k) :=
  ⟨rfl, rfl, rfl, fun y k' hy => clear_attr_of_ne v x k (by simp [hy])⟩

variable [DecidableEq C]

theorem received_mint (md : M) (h : v.item (c, v.next c) = none) :
    Received a c false v (v.mint c a md) :=
  ⟨rfl, h, rfl, ⟨md, rfl⟩, fun _ _ _ => rfl⟩

theorem Received.attributed (h : Received a c frozen v v')
    (h' : Attributed (c, v.next c) v' v'') : Received a c frozen v v'' := by
  obtain ⟨md, hitem⟩ := h.item
  exact ⟨h'.issuer.trans h.issuer, h.free_id, h'.next.trans h.next, ⟨md, h'.item.trans hitem⟩,
    fun y k hy => (h'.others y k hy).trans (h.others y k hy)⟩

/-- Freezing the item just received. -/
theorem Received.freeze (h : Received a c false v v') :
    Received a c true v (v'.freeze (c, v.next c)) := by
  obtain ⟨md, hitem⟩ := h.item
  refine ⟨h.issuer, h.free_id, h.next, ⟨md, ?_⟩, h.others⟩
  simp [Nfts.freeze, hitem]

theorem Received.item_self (h : Received a c frozen v v') :
    ∃ md, v'.item (c, v.next c) = some ⟨a, frozen, md⟩ := by
  obtain ⟨md, hitem⟩ := h.item
  exact ⟨md, by rw [hitem, Function.update_self]⟩

theorem Received.item_of_ne (h : Received a c frozen v v') {y : C × Nat}
    (hy : y ≠ (c, v.next c)) : v'.item y = v.item y := by
  obtain ⟨md, hitem⟩ := h.item
  rw [hitem, Function.update_of_ne hy]

/-- Nothing that was there is overwritten. -/
theorem Received.remains (h : Received a c frozen v v') {y : C × Nat} {i : Item A M}
    (hi : v.item y = some i) : v'.item y = some i := by
  have hy : y ≠ (c, v.next c) := by
    rintro rfl
    rw [h.free_id] at hi
    cases hi
  rw [h.item_of_ne hy, hi]

/-- The items of the others are the same as before. -/
theorem Received.item_iff (h : Received a c frozen v v') {y : C × Nat} {i : Item A M}
    (hi : i.owner ≠ a) : v'.item y = some i ↔ v.item y = some i := by
  constructor
  · intro hy
    by_cases hnew : y = (c, v.next c)
    · -- the new item is `a`'s
      obtain ⟨md, hself⟩ := h.item_self
      rw [hnew, hself, Option.some.injEq] at hy
      exact absurd (hy ▸ rfl) hi
    · rw [h.item_of_ne hnew] at hy
      exact hy
  · exact h.remains

/-- What was there keeps its attributes. -/
theorem Received.attr_of_item (h : Received a c frozen v v') {y : C × Nat} {i : Item A M}
    (hi : v.item y = some i) (k : K) : v'.attr (y, k) = v.attr (y, k) := by
  apply h.others
  rintro rfl
  rw [h.free_id] at hi
  cases hi

theorem Received.next_self (h : Received a c frozen v v') : v'.next c = v.next c + 1 := by
  rw [h.next, Function.update_self]

theorem Received.next_le (h : Received a c frozen v v') (c' : C) : v.next c' ≤ v'.next c' := by
  rw [h.next]
  by_cases hc : c' = c
  · rw [hc, Function.update_self]
    exact Nat.le_succ _
  · exact Nat.le_of_eq (Function.update_of_ne hc _ _).symm

theorem Received.next_of_ne (h : Received a c frozen v v') {c' : C} (hc : c' ≠ c) :
    v'.next c' = v.next c' := by
  rw [h.next, Function.update_of_ne hc]

end changes

/-! ### Changes to consecutive items -/

/-- The next `n` ids of `c` were handed out. Besides, no item changed. -/
structure Appended [DecidableEq C] (c : C) (n : Nat) (v v' : Nfts C A M K V) : Prop where
  issuer : v'.issuer = v.issuer
  next : v'.next = Function.update v.next c (v.next c + n)
  others : ∀ y, (∀ i, i < n → y ≠ (c, v.next c + i)) →
    v'.item y = v.item y ∧ ∀ k, v'.attr (y, k) = v.attr (y, k)

section appended
variable [DecidableEq C] {v v' v'' : Nfts C A M K V} {a : A} {c : C} {frozen : Bool} {n m : Nat}

theorem Appended.refl (c : C) (v : Nfts C A M K V) : Appended c 0 v v :=
  ⟨rfl, (Function.update_eq_self c v.next).symm, fun _ _ => ⟨rfl, fun _ => rfl⟩⟩

theorem Received.appended (h : Received a c frozen v v') : Appended c 1 v v' := by
  refine ⟨h.issuer, h.next, ?_⟩
  intro y hy
  have hne : y ≠ (c, v.next c) := hy 0 Nat.one_pos
  exact ⟨h.item_of_ne hne, fun k => h.others y k hne⟩

theorem Appended.next_self (h : Appended c n v v') : v'.next c = v.next c + n := by
  rw [h.next, Function.update_self]

theorem Appended.trans (h : Appended c n v v') (h' : Appended c m v' v'') :
    Appended c (n + m) v v'' := by
  refine ⟨h'.issuer.trans h.issuer, ?_, ?_⟩
  · rw [h'.next, h.next_self, h.next, Function.update_idem, Nat.add_assoc]
  · intro y hy
    obtain ⟨hitem, hattr⟩ := h.others y fun i hi => hy i (by omega)
    obtain ⟨hitem', hattr'⟩ := h'.others y fun i hi => by
      rw [h.next_self, Nat.add_assoc]
      exact hy (n + i) (by omega)
    exact ⟨hitem'.trans hitem, fun k => (hattr' k).trans (hattr k)⟩

/-- What was handed out before is not touched. -/
theorem Appended.of_lt (h : Appended c n v v') {i : Nat} (hi : i < v.next c) :
    v'.item (c, i) = v.item (c, i) ∧ ∀ k, v'.attr ((c, i), k) = v.attr ((c, i), k) := by
  refine h.others (c, i) ?_
  intro j _ heq
  have hsnd := (Prod.mk.inj heq).2
  omega

end appended

/-! ### Frozen items, and one item for each owner -/

/-- All items of the collection are frozen. -/
def AllFrozen (v : Nfts C A M K V) (c : C) : Prop :=
  ∀ n i, v.item (c, n) = some i → i.frozen = true

/-- Nobody holds two items of the collection. -/
def OneEach (v : Nfts C A M K V) (c : C) : Prop :=
  ∀ n m i j, v.item (c, n) = some i → v.item (c, m) = some j → i.owner = j.owner → n = m

section frozen
variable {v v' : Nfts C A M K V} {a b : A} {c d : C} {frozen : Bool}

theorem AllFrozen.congr (h : AllFrozen v c) (hitem : ∀ n, v'.item (c, n) = v.item (c, n)) :
    AllFrozen v' c := by
  intro n i hi
  rw [hitem] at hi
  exact h n i hi

theorem OneEach.congr (h : OneEach v c) (hitem : ∀ n, v'.item (c, n) = v.item (c, n)) :
    OneEach v' c := by
  intro n m i j hi hj
  rw [hitem] at hi hj
  exact h n m i j hi hj

theorem owns_congr (hitem : ∀ n, v'.item (c, n) = v.item (c, n)) : v'.Owns c a ↔ v.Owns c a := by
  unfold Owns
  simp only [hitem]

/-- In a collection of frozen items, nothing moves. -/
theorem Moved.item_eq {P : C → Prop} (h : Moved P v v') (hc : P c) (hf : AllFrozen v c) (n : Nat) :
    v'.item (c, n) = v.item (c, n) := by
  cases hi : v.item (c, n) with
  | some i => rw [h.frozen hc hi (hf n i hi)]
  | none =>
    have hsome := h.isSome hc n
    rw [hi, Option.isSome_none, Option.isSome_eq_false_iff, Option.isNone_iff_eq_none] at hsome
    exact hsome

theorem burn_item [DecidableEq C] (v : Nfts C A M K V) (x y : C × Nat) :
    (v.burn x).item y = if y = x then none else v.item y := by
  by_cases hy : y = x
  · rw [if_pos hy, hy, burn_item_self]
  · rw [if_neg hy, burn_item_of_ne v x y hy]

theorem AllFrozen.burn [DecidableEq C] (h : AllFrozen v c) (x : C × Nat) :
    AllFrozen (v.burn x) c := by
  intro n i hi
  rw [burn_item] at hi
  split at hi
  · cases hi
  · exact h n i hi

theorem OneEach.burn [DecidableEq C] (h : OneEach v c) (x : C × Nat) : OneEach (v.burn x) c := by
  intro n m i j hi hj
  rw [burn_item] at hi hj
  split at hi
  · cases hi
  · split at hj
    · cases hj
    · exact h n m i j hi hj

theorem Owns.of_burn [DecidableEq C] {x : C × Nat} (h : (v.burn x).Owns c a) : v.Owns c a := by
  obtain ⟨n, i, hi, ha⟩ := h
  rw [burn_item] at hi
  split at hi
  · cases hi
  · exact ⟨n, i, hi, ha⟩

variable [DecidableEq C]

/-- What was received in one collection is not seen in another. -/
theorem Received.item_of_collection_ne (h : Received a d frozen v v') (hne : c ≠ d) (n : Nat) :
    v'.item (c, n) = v.item (c, n) :=
  h.item_of_ne (by simp [hne])

theorem AllFrozen.received (h : AllFrozen v c) (hr : Received a d true v v') : AllFrozen v' c := by
  intro n i hi
  by_cases hx : (c, n) = (d, v.next d)
  · obtain ⟨md, hitem⟩ := hr.item_self
    rw [hx, hitem, Option.some.injEq] at hi
    rw [← hi]
  · rw [hr.item_of_ne hx] at hi
    exact h n i hi

/-- The new item is the only one its owner holds, if it held none. -/
theorem OneEach.received (h : OneEach v c) (hr : Received a d frozen v v')
    (hfree : d = c → ¬ v.Owns c a) : OneEach v' c := by
  by_cases hdc : d = c
  · subst hdc
    obtain ⟨md, hitem⟩ := hr.item_self
    have hnew (n : Nat) (i : Item A M) (hi : v'.item (d, n) = some i) :
        (n = v.next d ∧ i.owner = a) ∨ (n ≠ v.next d ∧ v.item (d, n) = some i) := by
      by_cases hn : n = v.next d
      · rw [hn, hitem, Option.some.injEq] at hi
        exact .inl ⟨hn, hi ▸ rfl⟩
      · rw [hr.item_of_ne (by simp [hn])] at hi
        exact .inr ⟨hn, hi⟩
    intro n m i j hi hj hown
    rcases hnew n i hi with ⟨hn, hia⟩ | ⟨_, hi⟩ <;> rcases hnew m j hj with ⟨hm, hja⟩ | ⟨_, hj⟩
    · rw [hn, hm]
    · exact absurd ⟨m, j, hj, hown ▸ hia⟩ (hfree rfl)
    · exact absurd ⟨n, i, hi, hown.trans hja⟩ (hfree rfl)
    · exact h n m i j hi hj hown
  · exact h.congr fun n => hr.item_of_collection_ne (Ne.symm hdc) n

/-- Whoever holds an item either held one or just received it. -/
theorem Owns.of_received (hr : Received a d frozen v v') (h : v'.Owns c b) :
    v.Owns c b ∨ (c = d ∧ b = a) := by
  obtain ⟨n, i, hi, hb⟩ := h
  by_cases hx : (c, n) = (d, v.next d)
  · obtain ⟨md, hitem⟩ := hr.item_self
    rw [hx, hitem, Option.some.injEq] at hi
    subst hi
    exact .inr ⟨(Prod.mk.inj hx).1, hb.symm⟩
  · rw [hr.item_of_ne hx] at hi
    exact .inl ⟨n, i, hi, hb⟩

end frozen

end Nfts

end Tokens
