import PhalaWorld.Specs.Expectations
import PhalaWorld.System.Arithmetic

/-! # Nothing panics

    The pallets `expect` the attributes they build to fit their bounds, the
    Overlord's key to be 32 bytes long and the attributes of an Origin of
    Shell to be readable when it is hatched; and they calculate with plain
    operators. The bounds are those of the runtime. What is read back was
    written by a mint or a hatch, so that it can be decoded, and the
    arithmetic is exact in every run.

    * `Legible.step`: every step leaves the attributes legible.
    * `step_careful`: a step on legible attributes fails no expectation.
    * `never_panics`: no step of a run panics, with or without overflow checks.
-/

namespace PhalaWorld

open LTS Tokens Transaction

variable {AccountId : Type} {T : Config AccountId}

/-! ### Attributes -/

/-- In `c` no id was taken back and no attribute was written. -/
def Unwritten (c : CollectionId) (w w' : T.World) : Prop :=
  (T.nfts w).next c ≤ (T.nfts w').next c ∧
    ∀ n k, (T.nfts w').attr ((c, n), k) = (T.nfts w).attr ((c, n), k) ∨
      (T.nfts w').attr ((c, n), k) = none

section legible
variable {c : CollectionId} {w w' : T.World}

/-- What the pallets write can be decoded. -/
theorem Traits.bytes_readable (t : Traits) : ∀ kv ∈ t.bytes, Readable kv.1 kv.2 := by
  intro kv hkv
  have hkeys : NftSale.rarity_key ≠ NftSale.race_key ∧ NftSale.rarity_key ≠ NftSale.career_key ∧
      NftSale.rarity_key ≠ NftSale.generation_key ∧ NftSale.race_key ≠ NftSale.career_key ∧
      NftSale.race_key ≠ NftSale.generation_key ∧
      NftSale.career_key ≠ NftSale.generation_key := by decide
  obtain ⟨h₁, h₂, h₃, h₄, h₅, h₆⟩ := hkeys
  simp only [Traits.bytes, List.mem_cons, List.not_mem_nil, or_false] at hkv
  rcases hkv with hkv | hkv | hkv | hkv <;> rw [hkv] <;> constructor <;> intro hkey <;>
    simp_all [eq_comm]

theorem Legible.unwritten (h : Legible c w) (hattr : ∀ n k,
    (T.nfts w').attr ((c, n), k) = (T.nfts w).attr ((c, n), k) ∨
      (T.nfts w').attr ((c, n), k) = none) : Legible c w' := by
  intro n key value hvalue
  apply h n
  unfold Config.attribute_bytes Config.uniques_attribute at hvalue ⊢
  obtain ⟨k, hk, hv⟩ := Option.bind_eq_some_iff.mp hvalue
  rw [hk, Option.bind_some]
  rcases hattr n k with heq | hnone
  · rw [← heq, hv]
  · rw [hnone] at hv
    cases hv

theorem Legible.same (h : Legible c w) (hattr : (T.nfts w').attr = (T.nfts w).attr) :
    Legible c w' :=
  h.unwritten fun n k => .inl (by rw [hattr])

variable {o a : AccountId} {x : CollectionId × NftId}

theorem Legible.set_attribute (hN : NftLaws T) {kv : Bytes × Bytes} (h : Legible c w)
    (hset : SetsAttribute o x w kv w') (hkv : Readable kv.1 kv.2) : Legible c w' := by
  intro n key value hvalue
  by_cases hx : (c, n) = x
  · by_cases hkey : key = kv.1
    · -- the attribute just written
      rw [hx, hkey, hset.bytes_self hN, Option.some.injEq] at hvalue
      rw [hkey, ← hvalue]
      exact hkv
    · rw [hx, hset.bytes_of_ne hN hkey, ← hx] at hvalue
      exact h n key value hvalue
  · have hothers := (hset.relabels hN).1.others (c, n)
    apply h n key value
    rw [← hvalue, Config.attribute_bytes, Config.attribute_bytes]
    simp only [Config.uniques_attribute, hothers _ hx]

theorem Legible.set_traits (hN : NftLaws T) {t : Traits} (h : Legible c w)
    (hset : SetsTraits o x t w w') : Legible c w' := by
  have hchain : ∀ l w, (∀ kv ∈ l, Readable kv.1 kv.2) → Chain (SetsAttribute o x) w l w' →
      Legible c w → Legible c w' := by
    intro l
    induction l with
    | nil =>
      intro w _ hl h
      rw [chain_nil] at hl
      rw [hl]
      exact h
    | cons kv l ih =>
      intro w hread hl h
      obtain ⟨w₁, hset, hl⟩ := chain_cons.mp hl
      have hkv := hread kv List.mem_cons_self
      exact ih w₁ (fun kv' hmem => hread kv' (List.mem_cons_of_mem _ hmem)) hl
        (h.set_attribute hN hset hkv)
  exact hchain t.bytes w t.bytes_readable hset h

/-- A removed attribute need not be read. -/
theorem Legible.clear_attribute (hN : NftLaws T) {key : Bytes} (h : Legible c w)
    (hclear : ClearsAttribute o x w key w') : Legible c w' := by
  obtain ⟨k, _, hclear⟩ := hclear
  obtain ⟨_, hview, _⟩ := hN.clear_attribute_ok hclear
  apply h.unwritten
  intro n k'
  rw [hview]
  by_cases hk : ((c, n), k') = (x, k)
  · right
    rw [hk]
    exact Function.update_self _ _ _
  · exact .inl (Nfts.clear_attr_of_ne _ _ _ hk)

theorem Legible.mint_nft (hN : NftLaws T) {d : CollectionId} {md : T.Metadata} {tr : Bool}
    (h : Legible c w) (hmint : T.mint_nft o (some a) d md tr w = .ok w') : Legible c w' := by
  obtain ⟨_, _, _, hview, _⟩ := hN.mint_ok hmint
  exact h.same (by rw [hview, Nfts.mint_attr])

theorem Legible.freeze (hN : NftLaws T) {d : CollectionId} {n : NftId} (h : Legible c w)
    (hfreeze : T.freeze o d n w = .ok w') : Legible c w' :=
  h.same (by rw [(hN.freeze_ok hfreeze).1, Nfts.freeze_attr])

end legible

/-! ### Steps -/

section steps
variable [DecidableEq AccountId] {c : CollectionId} {s s' : State T} {l : Label T} {r : Outcome T}

/-- A sale writes the attributes of the item it sells. -/
theorem Legible.mint (hC : CurrencyLaws T) (hN : NftLaws T) {o a : AccountId} {t : Traits}
    {price : Nat} {pool : NftSaleType} {check : Bool} {d : CollectionId} {i : NftSaleInfo}
    (h : Legible c s.world) (hm : Mints o a t price pool check d i s s') : Legible c s'.world := by
  obtain ⟨md, w, rc, cc, _, ⟨w₁, w₂, w₃, htransfer, hmint, hset, hfreeze⟩, _, _, rfl⟩ := hm.post
  have hpaid : Legible c w₁ := h.same (by rw [(hC.transfer_ok htransfer).2.2])
  exact ((hpaid.mint_nft hN hmint).set_traits hN hset).freeze hN hfreeze

omit [DecidableEq AccountId] in
/-- A hatch removes those of the item it hatches, and writes those of the Shell. -/
theorem Legible.hatch (hN : NftLaws T) {o owner : AccountId} {d : CollectionId} {n : NftId}
    {sc : CollectionId} {md : T.Metadata} {t : Traits} (h : Legible c s.world)
    (hh : Hatches o owner d n sc md t s s') : Legible c s'.world := by
  obtain ⟨w, ⟨w₁, w₂, w₃, hburn, hclear, hmint, hset⟩, rfl⟩ := hh.post
  have hburned : Legible c w₁ := h.same (by rw [(hN.burn_ok hburn).1, Nfts.burn_attr])
  have hcleared : Legible c w₂ :=
    hclear.invariant (I := fun w => Legible c w)
      (fun _ _ _ hI hclear => hI.clear_attribute hN hclear) hburned
  exact (hcleared.mint_nft hN hmint).set_traits hN hset

theorem Legible.step (hC : CurrencyLaws T) (hN : NftLaws T) (h : Legible c s.world)
    (hout : ∀ w, l = .outside w → Unwritten c s.world w) (hs : Traded s l r s') :
    Legible c s'.world := by
  -- the release of a preorder and its closing write no attribute
  have hcovers : CoversRounds fun s s' : State T => Legible c s.world → Legible c s'.world :=
    { refl := fun _ h => h
      trans := fun _ _ _ h h' h₀ => h' (h h₀)
      release := fun s _ owner h => h.same (by rw [State.release, (hC.unreserve_eq owner _ _).2])
      close := fun _ _ _ _ h => h }
  cases hs with
  | quiet hq _ =>
    rw [hq.world]
    exact h
  | spirit _ hm _ =>
    obtain ⟨md, w₁, w₂, _, hmint, hfreeze, rfl⟩ := hm.post
    exact (h.mint_nft hN hmint).freeze hN hfreeze
  | buy _ hm _ => exact h.mint hC hN hm
  | preorder hp =>
    obtain ⟨md, w, _, hreserve, rfl⟩ := hp.post
    exact h.same (by rw [(hC.reserve_ok hreserve).2.2])
  | mint _ hl => exact hcovers.mint (fun hm h => h.mint hC hN hm) hl h
  | refund _ hl => exact hcovers.refund hl h
  | gift _ _ hm =>
    have hminted := h.mint hC hN hm
    exact hminted
  | init => exact h
  | update => exact h
  | create _ hw =>
    obtain ⟨d, hview, _⟩ := hN.create_collection_ok hw
    exact h.same (by rw [hview, Nfts.create_attr])
  | hatch hh => exact h.hatch hN hh
  | outside => exact h.unwritten (hout _ rfl).2

/-- A step fails no expectation if the attributes of the Origin of Shells can
    be read. -/
theorem step_careful (hvalue : 4 ≤ T.ValueLimit.toNat) (hencode : ∀ a, (T.encode a).length = 32)
    (hlegible : ∀ c, s.sale.origin_of_shell_collection_id = some c → Legible c s.world)
    {e : Failure T.ModuleError} (h : step s l = (.error e, s')) : e.isExpectation = false := by
  have hcareful {x : Dispatch T Unit} (hx : CarefulAt x s) (h : x s = (.error e, s')) :
      e.isExpectation = false := Bool.eq_false_of_not_eq_true (hx e s' h)
  cases l with
  | on_finalize => exact hcareful (.of_avoids NftSale.on_finalize_careful) h
  | set_timestamp t => cases h
  | outside w => cases h
  | call origin c =>
    cases c with
    | claim_spirit => exact hcareful (.of_avoids NftSale.claim_spirit_careful) h
    | redeem_spirit => exact hcareful (.of_avoids (NftSale.redeem_spirit_careful hencode)) h
    | buy_rare_origin_of_shell =>
      exact hcareful (.of_avoids (NftSale.buy_rare_origin_of_shell_careful hvalue)) h
    | buy_prime_origin_of_shell =>
      exact hcareful (.of_avoids (NftSale.buy_prime_origin_of_shell_careful hvalue hencode)) h
    | preorder_origin_of_shell =>
      exact hcareful (.of_avoids NftSale.preorder_origin_of_shell_careful) h
    | mint_chosen_preorders =>
      exact hcareful (.of_avoids (NftSale.mint_chosen_preorders_careful hvalue)) h
    | refund_not_chosen_preorders =>
      exact hcareful (.of_avoids NftSale.refund_not_chosen_preorders_careful) h
    | mint_gift_origin_of_shell =>
      exact hcareful (.of_avoids (NftSale.mint_gift_origin_of_shell_careful hvalue)) h
    | set_overlord => exact hcareful (.of_avoids NftSale.set_overlord_careful) h
    | initialize_world_clock =>
      exact hcareful (.of_avoids NftSale.initialize_world_clock_careful) h
    | set_status_type => exact hcareful (.of_avoids NftSale.set_status_type_careful) h
    | init_rarity_type_counts =>
      exact hcareful (.of_avoids NftSale.init_rarity_type_counts_careful) h
    | update_rarity_type_counts =>
      exact hcareful (.of_avoids NftSale.update_rarity_type_counts_careful) h
    | set_spirit_collection_id =>
      exact hcareful (.of_avoids NftSale.set_spirit_collection_id_careful) h
    | set_origin_of_shell_collection_id =>
      exact hcareful (.of_avoids NftSale.set_origin_of_shell_collection_id_careful) h
    | pw_create_collection => exact hcareful (.of_avoids NftSale.pw_create_collection_careful) h
    | set_spirits_metadata => exact hcareful (.of_avoids NftSale.set_spirits_metadata_careful) h
    | set_origin_of_shells_metadata =>
      exact hcareful (.of_avoids NftSale.set_origin_of_shells_metadata_careful) h
    | start_incubation => exact hcareful (.of_avoids Incubation.start_incubation_careful) h
    | feed_origin_of_shell =>
      exact hcareful (.of_avoids Incubation.feed_origin_of_shell_careful) h
    | hatch_origin_of_shell c n md =>
      exact hcareful (Incubation.hatch_origin_of_shell_careful hvalue (hlegible c)) h
    | update_incubation_time =>
      exact hcareful (.of_avoids Incubation.update_incubation_time_careful) h
    | set_can_start_incubation_status =>
      exact hcareful (.of_avoids Incubation.set_can_start_incubation_status_careful) h
    | set_shell_collection_id =>
      exact hcareful (.of_avoids Incubation.set_shell_collection_id_careful) h

end steps

/-! ### Runs -/

section runs
variable [DecidableEq AccountId] {g : GenesisConfig AccountId} {w : T.World} {now : UInt64}
  {tr : List (Entry T)} {s : State T}

/-- Outside, nobody writes attributes of Origin of Shells or takes back an
    id; `c` is their collection, once it is set. -/
def LeavesAttributes (f : State T) (w w' : T.World) : Prop :=
  ∀ c, f.sale.origin_of_shell_collection_id = some c → Unwritten c w w'

/-- A failure that is none of the arithmetic and fails no expectation is an error. -/
theorem Failure.ne_panic {E : Type} {e : Failure E} (hexact : e.isArithmetic = false)
    (hcareful : e.isExpectation = false) (message : String) : e ≠ .panic message := by
  rintro rfl
  rw [Failure.isExpectation, decide_eq_false_iff_not, not_not] at hcareful
  rw [Failure.isArithmetic, decide_eq_false_iff_not] at hexact
  exact hexact hcareful

/-- **No panic.** In every run from genesis in which nobody outside writes to
    Origin of Shells, no step panics, in the build of the runtime or in the
    one with overflow checks: what fails, fails with an error. An incubation
    that starts ends within 64 bits, and no shell is fed 2^32 times in an era. -/
theorem never_panics (hC : CurrencyLaws T) (hN : NftLaws T) (hS : T.SecondsPerEra ≠ 0)
    (hvalue : 4 ≤ T.ValueLimit.toNat) (hencode : ∀ a, (T.encode a).length = 32)
    (hlegible : ∀ c, s.sale.origin_of_shell_collection_id = some c → Legible c w)
    (h : Runs (Within (fun e => e.label.timely = true) (LeavesAttributes s)) (genesis g w now) tr s)
    (hnow : now.toNat + T.IncubationDurationSec.toNat < 2 ^ 64)
    (hfeeds : ∀ era x, portions (history servings tr) era x < 2 ^ 32) :
    ∀ e ∈ tr, ∀ message, e.result ≠ .error (.panic message) ∧
      (step e.pre.checked e.label.checked).1 ≠ .error (.panic message) := by
  intro e he message
  obtain ⟨later, earlier, htr⟩ := List.append_of_mem he
  -- the ids of the end are those of every state before
  have hids := h.ids_kept
  have hwidths : Runs WithinWidths (genesis g w now) tr s := by
    apply h.of_entries
    intro d hd hok
    refine ⟨hok.1, fun v hv c hc => ?_⟩
    exact (hok.2 v hv c ((hids d hd).origin_of_shell c hc)).1
  obtain ⟨hsame, hexact⟩ := Runs.entry_exact hC hN hS hwidths hnow hfeeds he
  have hreadable : ∀ c, e.pre.sale.origin_of_shell_collection_id = some c →
      Legible c e.pre.world := by
    intro c hc
    have hcs := (hids e he).origin_of_shell c hc
    rw [htr] at h
    obtain ⟨hrun, _⟩ := Run.split h
    exact Runs.invariant (I := fun s => Legible c s.world) hrun (hlegible c hcs)
      fun hI hok hs => hI.step hC hN (fun v hv => hok.2 v hv c hcs) hs.traded
  have hentry : e = entry step e.pre e.label := by
    rw [htr] at h
    exact (Run.split h).2.2.1
  have hpanic : e.result ≠ .error (.panic message) := by
    intro hresult
    have hstep : step e.pre e.label = (.error (.panic message), e.post) := by
      rw [← hresult, hentry]
      rfl
    have hcareful := step_careful hvalue hencode hreadable hstep
    exact Failure.ne_panic (hexact _ hresult) hcareful message rfl
  exact ⟨hpanic, by rw [hsame]; exact hpanic⟩

open Mock in
/-- In the sample season, in which Origin of Shells are sold, fed and hatched
    and calls fail as well, nothing panics. -/
theorem never_panics_season :
    (after season).2.incubation.shell_collection_id = some 2 ∧
    ∀ e ∈ (after season).1, ∀ message, e.result ≠ .error (.panic message) ∧
      (step e.pre.checked e.label.checked).1 ≠ .error (.panic message) := by
  have hrun : Runs (Within (fun e => e.label.timely = true) (LeavesAttributes (after season).2))
      (genesis₀ 200) (after season).1 (after season).2 :=
    runs_of_labels season (by decide +kernel)
  have hone : (history servings (after season).1).length = 1 := by decide +kernel
  have hfeeds (era : EraId) (x : CollectionId × NftId) :
      portions (history servings (after season).1) era x < 2 ^ 32 := by
    have hle : portions (history servings (after season).1) era x ≤ 1 := by
      rw [← hone]
      exact List.countP_le_length
    omega
  -- there are no attributes at the start
  have hlegible : ∀ c, (after season).2.sale.origin_of_shell_collection_id = some c →
      Legible (T := runtime 200) c world₀ := by
    intro c _ n key value hvalue
    obtain ⟨k, _, hv⟩ := Option.bind_eq_some_iff.mp hvalue
    cases hv
  have hpanics := never_panics (T := runtime 200) (g := GenesisConfig.default) (w := world₀)
    (currency_laws 200) (nft_laws 200) (by decide) (by decide) (fun _ => rfl) hlegible hrun
    (by decide) hfeeds
  exact ⟨by decide +kernel, hpanics⟩

end runs

end PhalaWorld
