import PhalaWorld.Specs.History

/-! # Steps that tend to shells

    Four calls write to the storage of the incubation pallet, and only the
    block hook and the timestamp move the clock. `Tended` puts all other
    steps in one case, `aside`, so that an invariant about incubation has to
    look at the rest only.

    * `Tended`: the steps, as the incubation pallet sees them.
    * `Clocked`: the time fits in 64 bits, so that an era is followed by
      the next (`Tended.era`).
-/

namespace PhalaWorld

open LTS Transaction

variable {AccountId : Type} {T : Config AccountId}

/-- The calls that write to the incubation pallet's storage. -/
def Call.tends : Call T → Bool
  | .start_incubation .. | .feed_origin_of_shell .. | .update_incubation_time ..
  | .set_can_start_incubation_status .. | .set_shell_collection_id .. => true
  | _ => false

/-- The incubation pallet's storage, the era and the time are as before. -/
structure Aside (s s' : State T) : Prop where
  incubation : s'.incubation = s.incubation
  era : s'.sale.era = s.sale.era
  now : s'.now = s.now

section aside
variable {s s' s'' : State T}

theorem Aside.refl (s : State T) : Aside s s := ⟨rfl, rfl, rfl⟩

theorem Aside.trans (h : Aside s s') (h' : Aside s' s'') : Aside s s'' :=
  ⟨h'.incubation.trans h.incubation, h'.era.trans h.era, h'.now.trans h.now⟩

theorem Mints.aside {o a : AccountId} {t : Traits} {price : Nat} {pool : NftSaleType}
    {check : Bool} {c : CollectionId} {i : NftSaleInfo}
    (h : Mints o a t price pool check c i s s') : Aside s s' := by
  obtain ⟨md, w, rc, cc, _, _, _, _, rfl⟩ := h.post
  exact ⟨rfl, rfl, rfl⟩

theorem Aside.covers [DecidableEq AccountId] : CoversRounds (T := T) Aside where
  refl := .refl
  trans _ _ _ := .trans
  release _ _ _ := ⟨rfl, rfl, rfl⟩
  close _ _ _ _ := ⟨rfl, rfl, rfl⟩

end aside

variable [DecidableEq AccountId]

/-- The steps, with those that leave incubation and the clock aside in one case. -/
inductive Tended (s : State T) : Label T → Outcome T → State T → Prop where
  | aside {l r s'} : Aside s s' → (∀ origin c, l = .call origin c → r = .ok () → c.tends = false) →
      Tended s l r s'
  | incubate {origin c s'} : Incubates s origin c s' → Tended s (.call origin c) (.ok ()) s'
  | new_era {zero_day era} : s.sale.zero_day = some zero_day → zero_day < s.now →
      s.sale.era < (s.now - zero_day) / T.SecondsPerEra.toNat →
      plain_add T 64 s.sale.era 1 = .ok era →
      Tended s .on_finalize (.ok ()) { s with
        sale := { s.sale with era := era }
        events := s.events ++ [.NewEra s.now era] }
  | timestamp {t : UInt64} : Tended s (.set_timestamp t) (.ok ()) { s with now := t.toNat }

theorem Stepped.tended {s s' : State T} {l : Label T} {r : Outcome T} (h : Stepped s l r s') :
    Tended s l r s' := by
  -- a successful call to one of the other functions
  have hcall {origin : Origin AccountId} {c : Call T} {s' : State T} (haside : Aside s s')
      (hc : c.tends = false) : Tended s (.call origin c) (.ok ()) s' := by
    apply Tended.aside haside
    intro origin' c' hl _
    cases hl
    exact hc
  cases h with
  | fails =>
    apply Tended.aside (.refl s)
    intro _ _ _ hok
    cases hok
  | idle => exact .aside (.refl s) fun _ _ hl => by cases hl
  | outside => exact .aside ⟨rfl, rfl, rfl⟩ fun _ _ hl => by cases hl
  | new_era hz hlt hera hn => exact .new_era hz hlt hera hn
  | timestamp => exact .timestamp
  | @call _ c _ hdone =>
    cases hdone with
    | configure h =>
      apply hcall ⟨h.incubation, h.era, h.now⟩
      have hconf := h.call
      cases c <;> first | rfl | cases hconf
    | spirit hc _ h =>
      obtain ⟨md, w₁, w₂, _, _, _, rfl⟩ := h.post
      rcases hc with rfl | ⟨sig, rfl⟩ <;> exact hcall ⟨rfl, rfl, rfl⟩ rfl
    | buy hc _ h => rcases hc with ⟨rfl, _⟩ | ⟨_, sig, rfl⟩ <;> exact hcall h.aside rfl
    | preorder h =>
      obtain ⟨md, w, _, _, rfl⟩ := h.post
      exact hcall ⟨rfl, rfl, rfl⟩ rfl
    | mint _ h => exact hcall (Aside.covers.mint (fun hm => hm.aside) h) rfl
    | refund _ h => exact hcall (Aside.covers.refund h) rfl
    | gift _ _ h =>
      have haside := h.aside
      exact hcall ⟨haside.incubation, haside.era, haside.now⟩ rfl
    | init => exact hcall ⟨rfl, rfl, rfl⟩ rfl
    | update => exact hcall ⟨rfl, rfl, rfl⟩ rfl
    | create => exact hcall ⟨rfl, rfl, rfl⟩ rfl
    | hatch h =>
      obtain ⟨w, _, rfl⟩ := h.post
      exact hcall ⟨rfl, rfl, rfl⟩ rfl
    | incubate h => exact .incubate h

/-! ### The clock -/

/-- The time fits in 64 bits. -/
def Clocked (s : State T) : Prop := s.now < 2 ^ 64

section clock
variable {s s' : State T} {l : Label T} {r : Outcome T}

omit [DecidableEq AccountId] in
theorem genesis_clocked (g : GenesisConfig AccountId) (w : T.World) (now : UInt64) :
    Clocked (genesis g w now) := now.toNat_lt

omit [DecidableEq AccountId] in
theorem ReducesHatchTime.clock {x : (CollectionId × NftId) × Nat} (h : ReducesHatchTime s x s') :
    s'.sale.era = s.sale.era ∧ s'.now = s.now := by
  obtain ⟨t, _, _, rfl⟩ := h
  exact ⟨rfl, rfl⟩

/-- Calls of the incubation pallet do not move the clock. -/
theorem Incubates.clock {origin : Origin AccountId} {c : Call T} (h : Incubates s origin c s') :
    s'.sale.era = s.sale.era ∧ s'.now = s.now := by
  cases h with
  | start h => obtain rfl := h.post; exact ⟨rfl, rfl⟩
  | feed h => obtain ⟨food, count, _, _, rfl⟩ := h.post; exact ⟨rfl, rfl⟩
  | reduce _ h =>
    apply h.covered (Q := fun s s' : State T => s'.sale.era = s.sale.era ∧ s'.now = s.now)
    · intro s
      exact ⟨rfl, rfl⟩
    · intro s₁ s₂ s₃ h h'
      exact ⟨h'.1.trans h.1, h'.2.trans h.2⟩
    · intro s x s' h
      exact h.clock
  | enable => exact ⟨rfl, rfl⟩
  | shell_collection => exact ⟨rfl, rfl⟩

theorem Tended.clocked (h : Tended s l r s') (hs : Clocked s) : Clocked s' := by
  unfold Clocked at hs ⊢
  cases h with
  | aside h _ => rw [h.now]; exact hs
  | incubate h => rw [h.clock.2]; exact hs
  | new_era => exact hs
  | @timestamp t => exact t.toNat_lt

/-- Only the block hook ends an era, and the next one follows. -/
theorem Tended.era (h : Tended s l r s') (hs : Clocked s) :
    s'.sale.era = s.sale.era ∨ s'.sale.era = s.sale.era + 1 := by
  cases h with
  | aside h _ => exact .inl h.era
  | incubate h => exact .inl h.clock.1
  | @new_era zero_day _ _ _ hera hn =>
    -- the number of eras is at most the time, so the sum does not wrap
    have hle := Nat.div_le_self (s.now - zero_day) T.SecondsPerEra.toNat
    have hbound : s.sale.era + 1 < 2 ^ 64 := by
      unfold Clocked at hs
      exact Nat.lt_of_le_of_lt (Nat.succ_le_of_lt hera) (by omega)
    rw [plain_add_of_lt hbound, Except.ok.injEq] at hn
    exact .inr hn.symm
  | timestamp => exact .inl rfl

theorem Tended.era_le (h : Tended s l r s') (hs : Clocked s) : s.sale.era ≤ s'.sale.era := by
  rcases h.era hs with heq | heq
  · exact Nat.le_of_eq heq.symm
  · rw [heq]
    exact Nat.le_succ _

end clock

/-- The time fits in 64 bits in every state of a run. -/
theorem Runs.clocked {ok : Entry T → Prop} {g : GenesisConfig AccountId} {w : T.World}
    {now : UInt64} {tr : List (Entry T)} {s : State T} (h : Runs ok (genesis g w now) tr s) :
    Clocked s :=
  h.invariant (genesis_clocked g w now) fun hs _ hstep => hstep.tended.clocked hs

end PhalaWorld
