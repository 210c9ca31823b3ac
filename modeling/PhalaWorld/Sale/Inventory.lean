import Mathlib.Algebra.BigOperators.Group.List.Basic
import PhalaWorld.Specs.SoldOut
import PhalaWorld.Reference.Mock

/-! # The inventory of the sale

    Every rarity and race has three pools. The Overlord fills them once and
    tops them up; a sale or a gift takes one from a pool and counts it for
    its kind and its career.

    * `granted`: what a history put into a pool.
    * `mintsFrom`, `mintsOf`, `mintsIn`: what it minted from a pool, of a
      kind, of a career.
    * `Stocked`: what is left and what was minted add up to what was
      granted, or to less where a top-up saturated.
-/

namespace PhalaWorld

open LTS Ledger Tokens Transaction

variable {AccountId : Type} {T : Config AccountId}

/-! ### Counting mints -/

def Mint.kind (m : Mint AccountId) : Kind := (m.rarity_type, m.race)

/-- How many of the listed mints are of a kind. -/
def mintsOf (ms : List (Mint AccountId)) (k : Kind) : Nat :=
  ms.countP fun m => m.kind = k

/-- How many of them came from one of its pools. -/
def mintsFrom (ms : List (Mint AccountId)) (k : Kind) (pool : NftSaleType) : Nat :=
  ms.countP fun m => m.kind = k ∧ m.sale_type = pool

/-- How many of them are of a career. -/
def mintsIn (ms : List (Mint AccountId)) (ca : CareerType) : Nat :=
  ms.countP fun m => m.career = ca

section counting
variable {ms ms' : List (Mint AccountId)} {m : Mint AccountId}

theorem mintsOf_append (k : Kind) : mintsOf (ms ++ ms') k = mintsOf ms k + mintsOf ms' k :=
  List.countP_append

theorem mintsOf_singleton (k : Kind) : mintsOf [m] k = if m.kind = k then 1 else 0 := by
  simp [mintsOf, List.countP_singleton]

theorem mintsFrom_append (k : Kind) (pool : NftSaleType) :
    mintsFrom (ms ++ ms') k pool = mintsFrom ms k pool + mintsFrom ms' k pool :=
  List.countP_append

theorem mintsFrom_singleton (k : Kind) (pool : NftSaleType) :
    mintsFrom [m] k pool = if m.kind = k ∧ m.sale_type = pool then 1 else 0 := by
  simp [mintsFrom, List.countP_singleton]

theorem mintsIn_append (ca : CareerType) : mintsIn (ms ++ ms') ca = mintsIn ms ca + mintsIn ms' ca :=
  List.countP_append

theorem mintsIn_singleton (ca : CareerType) : mintsIn [m] ca = if m.career = ca then 1 else 0 := by
  simp [mintsIn, List.countP_singleton]

/-- All kinds and all careers. -/
def kinds : List Kind :=
  [.Prime, .Magic, .Legendary].flatMap fun r =>
    [.Cyborg, .AISpectre, .XGene, .Pandroid].map fun ra => (r, ra)

def careers : List CareerType :=
  [.HackerWizard, .HardwareDruid, .RoboWarrior, .TradeNegotiator, .Web3Monk]

/-- Every mint is of one kind. -/
theorem sum_mintsOf : (kinds.map (mintsOf ms)).sum = ms.length := by
  induction ms with
  | nil => rfl
  | cons m ms ih =>
    have hone : (kinds.map (mintsOf [m])).sum = 1 := by
      obtain ⟨pool, r, ra, ca, c, n, a⟩ := m
      cases r <;> cases ra <;> simp [kinds, mintsOf_singleton, Mint.kind]
    have hsplit : kinds.map (mintsOf (m :: ms)) =
        kinds.map fun k => mintsOf [m] k + mintsOf ms k :=
      List.map_congr_left fun k _ => by rw [← List.singleton_append, mintsOf_append]
    rw [hsplit, List.sum_map_add, hone, ih, List.length_cons, Nat.add_comm]

/-- Every mint is of one career. -/
theorem sum_mintsIn : (careers.map (mintsIn ms)).sum = ms.length := by
  induction ms with
  | nil => rfl
  | cons m ms ih =>
    have hone : (careers.map (mintsIn [m])).sum = 1 := by
      obtain ⟨pool, r, ra, ca, c, n, a⟩ := m
      cases ca <;> simp [careers, mintsIn_singleton]
    have hsplit : careers.map (mintsIn (m :: ms)) =
        careers.map fun ca => mintsIn [m] ca + mintsIn ms ca :=
      List.map_congr_left fun ca _ => by rw [← List.singleton_append, mintsIn_append]
    rw [hsplit, List.sum_map_add, hone, ih, List.length_cons, Nat.add_comm]

end counting

/-! ### What was granted -/

/-- Did the step fill the pools? -/
def Entry.fills (e : Entry T) : Bool :=
  match e.label with
  | .call _ .init_rarity_type_counts => succeeded e
  | _ => false

/-- Were the pools filled? -/
def filled (tr : List (Entry T)) : Bool := tr.any Entry.fills

theorem filled_cons (e : Entry T) (tr : List (Entry T)) :
    filled (e :: tr) = (e.fills || filled tr) := rfl

/-- What a top-up adds to a pool. -/
def addedTo (pool : NftSaleType) (for_sale_count giveaway_count : Nat) : Nat :=
  match pool with
  | .ForSale => for_sale_count
  | .Giveaway => giveaway_count
  | .Reserved => 0

/-- What a successful step puts into a pool. -/
def grant (k : Kind) (pool : NftSaleType) (e : Entry T) : Nat :=
  if succeeded e then
    match e.label with
    | .call _ .init_rarity_type_counts => (initial_nft_sale_info k.1).left pool
    | .call _ (.update_rarity_type_counts rarity_type for_sale_count giveaway_count) =>
        if k.1 = rarity_type then addedTo pool for_sale_count giveaway_count else 0
    | _ => 0
  else 0

/-- What a history put into a pool: its initial count, and the top-ups since. -/
def granted (k : Kind) (pool : NftSaleType) : List (Entry T) → Nat
  | [] => 0
  | e :: tr => granted k pool tr + if filled tr || e.fills then grant k pool e else 0

/-- Does a top-up of the pool exceed what a `u32` holds? -/
def Saturates (k : Kind) (pool : NftSaleType) (e : Entry T) : Prop :=
  ∃ info ∈ e.pre.sale.origin_of_shells_inventory k,
    2 ^ 32 - 1 < info.left pool + grant k pool e

instance (k : Kind) (pool : NftSaleType) (e : Entry T) : Decidable (Saturates k pool e) :=
  match h : e.pre.sale.origin_of_shells_inventory k with
  | none => .isFalse (by simp [Saturates, h])
  | some info =>
      decidable_of_iff (2 ^ 32 - 1 < info.left pool + grant k pool e) (by simp [Saturates, h])

/-! ### The invariant -/

/-- The inventory of `s` after the mints `ms`, where `given k pool` was
    granted, and `exact k pool` if no top-up of the pool saturated. -/
structure Stocked (full : Bool) (given : Kind → NftSaleType → Nat)
    (exact : Kind → NftSaleType → Prop) (ms : List (Mint AccountId)) (s : State T) : Prop where
  set : full = true → s.sale.is_origin_of_shells_inventory_set = true
  blank : full = false → ms = [] ∧ (∀ k pool, given k pool = 0) ∧
    ∀ k, s.sale.origin_of_shells_inventory k = none
  stock : full = true → ∀ k, ∃ info, s.sale.origin_of_shells_inventory k = some info ∧
    info.race_count = mintsOf ms k ∧ ∀ pool, info.left pool + mintsFrom ms k pool ≤ given k pool ∧
      (exact k pool → info.left pool + mintsFrom ms k pool = given k pool)
  careers : ∀ ca, s.sale.career_type_count ca = mintsIn ms ca
  /-- Each mint took an item id. -/
  ids : ∀ c, s.sale.origin_of_shell_collection_id = some c → ms.length ≤ (T.nfts s.world).next c
  unset : s.sale.origin_of_shell_collection_id = none → ms = []

section moves
variable {full : Bool} {given : Kind → NftSaleType → Nat} {exact : Kind → NftSaleType → Prop}
  {ms : List (Mint AccountId)} {s s' : State T}

/-- The ids of the Origin of Shell collection are not taken back. -/
def KeepsIds (s : State T) (w : T.World) : Prop :=
  ∀ c, s.sale.origin_of_shell_collection_id = some c →
    (T.nfts s.world).next c ≤ (T.nfts w).next c

theorem KeepsIds.of_eq {w : T.World} (h : T.nfts w = T.nfts s.world) : KeepsIds s w :=
  fun c _ => by rw [h]

theorem Grows.keeps_ids {w : T.World} (h : Grows s.world w) : KeepsIds s w :=
  fun c _ => h c

theorem Stocked.keep (h : Stocked full given exact ms s) (hids : IdsKept s s')
    (hset : s'.sale.is_origin_of_shells_inventory_set = s.sale.is_origin_of_shells_inventory_set)
    (hinv : s'.sale.origin_of_shells_inventory = s.sale.origin_of_shells_inventory)
    (hcareer : s'.sale.career_type_count = s.sale.career_type_count)
    (hgrows : KeepsIds s s'.world) : Stocked full given exact ms s' := by
  refine ⟨by rw [hset]; exact h.set, by rw [hinv]; exact h.blank, by rw [hinv]; exact h.stock,
    by rw [hcareer]; exact h.careers, ?_, ?_⟩
  · -- the collection may be set only in this step, and then nothing was minted before
    intro c hc
    cases hold : s.sale.origin_of_shell_collection_id with
    | none => rw [h.unset hold]; exact Nat.zero_le _
    | some d =>
      obtain rfl : d = c := Option.some.inj ((hids.origin_of_shell d hold).symm.trans hc)
      exact (h.ids d hold).trans (hgrows d hold)
  · intro hnone
    cases hold : s.sale.origin_of_shell_collection_id with
    | none => exact h.unset hold
    | some d => rw [hids.origin_of_shell d hold] at hnone; cases hnone

/-- An entry is there only after the pools were filled. -/
theorem Stocked.full_of_info (h : Stocked full given exact ms s) {k : Kind} {i : NftSaleInfo}
    (hi : s.sale.origin_of_shells_inventory k = some i) : full = true := by
  cases full with
  | true => rfl
  | false =>
    rw [(h.blank rfl).2.2 k] at hi
    cases hi

/-- There are no more mints than item ids: where an id is left, the counters
    have room for one more. -/
theorem Stocked.room (h : Stocked full given exact ms s) {c : CollectionId}
    (hc : s.sale.origin_of_shell_collection_id = some c)
    (hnext : (T.nfts s.world).next c + 1 < 2 ^ 32) {k : Kind} {i : NftSaleInfo}
    (hi : s.sale.origin_of_shells_inventory k = some i) (ca : CareerType) :
    i.race_count = mintsOf ms k ∧ i.race_count + 1 < 2 ^ 32 ∧
      s.sale.career_type_count ca + 1 < 2 ^ 32 := by
  obtain ⟨info, hinfo, hcount, _⟩ := h.stock (h.full_of_info hi) k
  obtain rfl : info = i := Option.some.inj (hinfo.symm.trans hi)
  have hids := h.ids c hc
  have hcareers := h.careers ca
  have hrace : mintsOf ms k ≤ ms.length := List.countP_le_length
  have hcareer : mintsIn ms ca ≤ ms.length := List.countP_le_length
  exact ⟨hcount, by omega, by omega⟩

/-- So the counters do not overflow. -/
theorem Stocked.counters (h : Stocked full given exact ms s) {c : CollectionId}
    (hc : s.sale.origin_of_shell_collection_id = some c)
    (hnext : (T.nfts s.world).next c + 1 < 2 ^ 32) {k : Kind} {i : NftSaleInfo}
    (hi : s.sale.origin_of_shells_inventory k = some i) (ca : CareerType) :
    plain_add T 32 i.race_count 1 = .ok (mintsOf ms k + 1) ∧
      plain_add T 32 (s.sale.career_type_count ca) 1 = .ok (mintsIn ms ca + 1) := by
  obtain ⟨hcount, hrace, hcareer⟩ := h.room hc hnext hi ca
  rw [← hcount, ← h.careers]
  exact ⟨plain_add_of_lt hrace, plain_add_of_lt hcareer⟩

/-- A sale takes one from its pool and counts it. -/
theorem Stocked.mint [DecidableEq AccountId] (hC : CurrencyLaws T) (hN : NftLaws T)
    {o a : AccountId} {t : Traits} {price : Nat} {pool : NftSaleType} {check : Bool}
    {c : CollectionId} {i : NftSaleInfo} (h : Stocked full given exact ms s)
    (hm : Mints o a t price pool check c i s s') :
    Stocked full given exact (ms ++ [mintOf pool a t c (T.NextNftId s.world c)]) s' := by
  have hfull := h.full_of_info hm.info
  have hcoll := hm.collection
  have hleft := hm.left
  obtain ⟨i', hi, _, hpools⟩ := h.stock hfull (t.rarity_type, t.race)
  obtain rfl : i' = i := Option.some.inj (hi.symm.trans hm.info)
  obtain ⟨hminted, _⟩ := hm.minted hC hN
  obtain ⟨md, w, rc, cc, _, _, hrc, hcc, rfl⟩ := hm.post
  obtain ⟨hrace, hcareer⟩ := h.counters hcoll hminted.bound hi t.career
  obtain rfl : rc = _ := Except.ok.inj (hrc.symm.trans hrace)
  obtain rfl : cc = _ := Except.ok.inj (hcc.symm.trans hcareer)
  have hkind : (mintOf pool a t c (T.NextNftId s.world c)).kind = (t.rarity_type, t.race) := rfl
  have hca' : (mintOf pool a t c (T.NextNftId s.world c)).career = t.career := rfl
  refine ⟨h.set, fun hf => (by rw [hfull] at hf; cases hf), ?_, ?_, ?_, ?_⟩
  · -- only the pool that was sold from changes
    intro _ k
    by_cases hk : k = (t.rarity_type, t.race)
    · subst hk
      refine ⟨_, Function.update_self _ _ _, ?_, ?_⟩
      · rw [mintsOf_append, mintsOf_singleton, if_pos hkind]
      · intro pool'
        obtain ⟨hle, heq⟩ := hpools pool'
        rw [mintsFrom_append, mintsFrom_singleton, NftSaleInfo.left_with_race_count]
        by_cases hp : pool' = pool
        · subst hp
          rw [if_pos ⟨hkind, rfl⟩, NftSaleInfo.left_setLeft_self]
          exact ⟨by omega, fun hexact => by have := heq hexact; omega⟩
        · rw [if_neg fun hm => hp hm.2.symm, NftSaleInfo.left_setLeft_of_ne i' _ hp]
          exact ⟨hle, heq⟩
    · obtain ⟨info, hinfo, hcount', hpools'⟩ := h.stock hfull k
      refine ⟨info, (Function.update_of_ne hk _ _).trans hinfo, ?_, ?_⟩
      · rw [mintsOf_append, mintsOf_singleton, if_neg fun hm => hk (hm.symm.trans hkind)]
        exact hcount'
      · intro pool'
        rw [mintsFrom_append, mintsFrom_singleton,
          if_neg fun hm => hk (hm.1.symm.trans hkind)]
        exact hpools' pool'
  · intro ca
    rw [mintsIn_append, mintsIn_singleton]
    by_cases hca : ca = t.career
    · subst hca
      rw [if_pos hca']
      exact Function.update_self _ _ _
    · rw [if_neg fun hm => hca (hm.symm.trans hca')]
      exact (Function.update_of_ne hca _ _).trans (h.careers ca)
  · intro d hd
    obtain rfl : c = d := Option.some.inj (hcoll.symm.trans hd)
    rw [List.length_append, List.length_singleton]
    have hnext := hminted.received.next_self
    have hlen := h.ids c hcoll
    simp only at hnext ⊢
    omega
  · intro hnone
    rw [hcoll] at hnone
    cases hnone

/-- The pools are filled. -/
theorem Stocked.init {event : Event T} (h : Stocked full given exact ms s)
    (hset : s.sale.is_origin_of_shells_inventory_set = false) :
    Stocked true (fun k pool => given k pool + (initial_nft_sale_info k.1).left pool) exact ms
      { s with
        sale := { s.sale with
          origin_of_shells_inventory := fun k => some (initial_nft_sale_info k.1)
          is_origin_of_shells_inventory_set := true }
        events := s.events ++ [event] } := by
  -- a second `init_rarity_type_counts` is refused, so nothing was granted yet
  have hfull : full = false := by
    cases full with
    | false => rfl
    | true => rw [h.set rfl] at hset; cases hset
  obtain ⟨hms, hgiven, _⟩ := h.blank hfull
  refine ⟨fun _ => rfl, fun hf => (by cases hf), fun _ k => ⟨_, rfl, ?_, ?_⟩,
    h.careers, h.ids, h.unset⟩
  · obtain ⟨r, ra⟩ := k
    rw [hms]
    cases r <;> rfl
  · intro pool
    have hzero : mintsFrom ms k pool = 0 := by rw [hms]; rfl
    rw [hgiven, hzero, Nat.zero_add, Nat.add_zero]
    exact ⟨le_rfl, fun _ => rfl⟩

theorem left_add_le (i : NftSaleInfo) (pool : NftSaleType) (fs g : Nat) :
    (i.add fs g).left pool ≤ i.left pool + addedTo pool fs g := by
  cases pool <;> simp [NftSaleInfo.add, NftSaleInfo.left, addedTo, saturating_add]

/-- A top-up that does not saturate adds what it says. -/
theorem left_add_eq {i : NftSaleInfo} {pool : NftSaleType} {fs g : Nat}
    (h : i.left pool + addedTo pool fs g ≤ 2 ^ 32 - 1) :
    (i.add fs g).left pool = i.left pool + addedTo pool fs g := by
  cases pool <;>
    simp only [NftSaleInfo.add, NftSaleInfo.left, addedTo, saturating_add, Nat.add_zero] at h ⊢ <;>
    omega

/-- The pools of the Prime kinds are topped up. -/
theorem Stocked.update {fs g : Nat} {event : Event T} (h : Stocked full given exact ms s) :
    Stocked full
      (fun k pool => given k pool + if full then if k.1 = .Prime then addedTo pool fs g else 0 else 0)
      (fun k pool => exact k pool ∧ ¬ ∃ info ∈ s.sale.origin_of_shells_inventory k,
        2 ^ 32 - 1 < info.left pool + if k.1 = .Prime then addedTo pool fs g else 0) ms
      { s with
        sale := { s.sale with
          origin_of_shells_inventory := fun k =>
            if k.1 = .Prime then (s.sale.origin_of_shells_inventory k).map fun i => i.add fs g
            else s.sale.origin_of_shells_inventory k }
        events := s.events ++ [event] } := by
  refine ⟨h.set, ?_, ?_, h.careers, h.ids, h.unset⟩
  · intro hf
    obtain ⟨hms, hgiven, hnone⟩ := h.blank hf
    exact ⟨hms, fun k pool => by simp [hf, hgiven], fun k => by simp [hnone]⟩
  · intro hf k
    obtain ⟨info, hinfo, hcount, hpools⟩ := h.stock hf k
    by_cases hk : k.1 = .Prime
    · refine ⟨info.add fs g, by simp [hk, hinfo], hcount, ?_⟩
      intro pool
      obtain ⟨hle, heq⟩ := hpools pool
      have hadd := left_add_le info pool fs g
      simp only [hf, if_true, hk]
      refine ⟨by omega, ?_⟩
      intro ⟨hexact, hfits⟩
      -- the top-up is exact where it does not saturate
      have hadd := left_add_eq (Nat.le_of_not_lt fun hlt => hfits ⟨info, hinfo, hlt⟩)
      have := heq hexact
      omega
    · refine ⟨info, by simp [hk, hinfo], hcount, ?_⟩
      intro pool
      obtain ⟨hle, heq⟩ := hpools pool
      simp only [hk, if_false, ite_self, Nat.add_zero]
      exact ⟨hle, fun hexact => heq hexact.1⟩

/-- What was granted may be said in other words. -/
theorem Stocked.congr {full' : Bool} {given' : Kind → NftSaleType → Nat}
    {exact' : Kind → NftSaleType → Prop} (h : Stocked full given exact ms s) (hfull : full' = full)
    (hgiven : ∀ k pool, given' k pool = given k pool)
    (hexact : ∀ k pool, exact' k pool → exact k pool) : Stocked full' given' exact' ms s := by
  subst hfull
  refine ⟨h.set, ?_, ?_, h.careers, h.ids, h.unset⟩
  · intro hf
    obtain ⟨hms, hzero, hnone⟩ := h.blank hf
    exact ⟨hms, fun k pool => (hgiven k pool).trans (hzero k pool), hnone⟩
  · intro hf k
    obtain ⟨info, hinfo, hcount, hpools⟩ := h.stock hf k
    refine ⟨info, hinfo, hcount, ?_⟩
    intro pool
    rw [hgiven]
    exact ⟨(hpools pool).1, fun h => (hpools pool).2 (hexact k pool h)⟩

end moves

/-! ### Batches -/

section batches
variable [DecidableEq AccountId] {full : Bool} {given : Kind → NftSaleType → Nat}
  {exact : Kind → NftSaleType → Prop} {ms : List (Mint AccountId)} {s s' : State T} {last : Bool}
  {p : PreorderId}

theorem Stocked.release (hC : CurrencyLaws T) {owner : AccountId}
    (h : Stocked full given exact ms s) : Stocked full given exact ms (s.release p owner) :=
  h.keep (.of_eq rfl rfl rfl) rfl rfl rfl (.of_eq (hC.unreserve_eq _ _ _).2)

theorem Stocked.close {owner : AccountId} {event : Event T} (h : Stocked full given exact ms s) :
    Stocked full given exact ms (s.close last owner event) :=
  h.keep (.of_eq rfl rfl rfl) rfl rfl rfl (.of_eq rfl)

/-- A round of `mint_chosen_preorders` mints what the preorder asks for. -/
theorem Stocked.mint_round (hC : CurrencyLaws T) (hN : NftLaws T) {o : AccountId}
    (h : Stocked full given exact ms s) (hm : MintsPreorder o last s p s') :
    ∃ evs, s'.events = s.events ++ evs ∧
      Stocked full given exact (ms ++ evs.filterMap (Event.mint .ForSale)) s' ∧
      ∀ k, mintsFrom (evs.filterMap (Event.mint .ForSale)) k .ForSale =
        (requested s [p]).count k := by
  obtain ⟨info, c, i, s₁, hinfo, hmint, rfl⟩ := hm
  have hsold := (h.release hC).mint hC hN hmint
  refine ⟨_, hmint.events_append _, hsold.close, ?_⟩
  intro k
  rw [requested_cons_of_some hinfo]
  refine (mintsFrom_singleton k .ForSale).trans ?_
  simp [Mint.kind, requested, List.count_singleton]

/-- So do the rounds of a batch, one after the other. -/
theorem Stocked.mint_rounds (hC : CurrencyLaws T) (hN : NftLaws T) {o : AccountId}
    {ids : List PreorderId} (h : Stocked full given exact ms s)
    (hl : Chain (MintsPreorder o last) s ids s') :
    ∃ evs, s'.events = s.events ++ evs ∧
      Stocked full given exact (ms ++ evs.filterMap (Event.mint .ForSale)) s' ∧
      ∀ k, mintsFrom (evs.filterMap (Event.mint .ForSale)) k .ForSale =
        (requested s ids).count k := by
  induction hl generalizing ms with
  | nil => exact ⟨[], (List.append_nil _).symm, (List.append_nil ms).symm ▸ h, fun _ => rfl⟩
  | @cons s s₁ s' p ids hm hl ih =>
    -- what is left pending after the first round is what was pending before it
    have hrest : requested s₁ ids = requested s ids := by
      refine List.filterMap_congr ?_
      intro q hq
      have hsome := ((mint_rounds_preorders hl).1 q hq).1
      by_cases hqp : q = p
      · rw [hm.preorders, hqp, Function.update_self] at hsome
        exact absurd rfl hsome
      · rw [hm.preorders, Function.update_of_ne hqp]
    obtain ⟨evs, hevs, h₁, hcount⟩ := h.mint_round hC hN hm
    obtain ⟨evs', hevs', h', hcount'⟩ := ih h₁
    refine ⟨evs ++ evs', by rw [hevs', hevs, List.append_assoc], ?_, ?_⟩
    · rw [List.filterMap_append, ← List.append_assoc]
      exact h'
    · intro k
      rw [List.filterMap_append, mintsFrom_append, hcount, hcount', hrest,
        show requested s (p :: ids) = requested s [p] ++ requested s ids from
          requested_append s [p] ids, List.count_append]

theorem Stocked.refund_round (hC : CurrencyLaws T) (h : Stocked full given exact ms s)
    (hr : RefundsPreorder last s p s') : Stocked full given exact ms s' := by
  obtain ⟨info, _, rfl⟩ := hr
  exact (h.release hC).close

/-- A batch of refunds mints nothing. -/
theorem refund_batch_mints {ids : List PreorderId} {l : Label T} {r : Outcome T}
    (hl : Chain (RefundsPreorder last) s ids s') : mints ⟨s, l, r, s'⟩ = [] := by
  obtain ⟨evs, hevs, hnone⟩ : ∃ evs, s'.events = s.events ++ evs ∧
      ∀ pool, evs.filterMap (Event.mint pool) = [] := by
    refine hl.invariant (I := fun s₁ => ∃ evs, s₁.events = s.events ++ evs ∧
      ∀ pool, evs.filterMap (Event.mint pool) = []) ?_ ⟨[], by simp, fun _ => rfl⟩
    rintro s₁ p s₂ ⟨evs, hevs, hnone⟩ ⟨info, _, rfl⟩
    refine ⟨evs ++ [.NotChosenPreorderRefunded p info.owner], ?_, ?_⟩
    · rw [← List.append_assoc, ← hevs]
      rfl
    · intro pool
      rw [List.filterMap_append, hnone]
      rfl
  rw [mints_of_append hevs, hnone]

end batches

/-! ### Steps -/

/-- The calls that put something into the pools. -/
def Label.restocks : Label T → Bool
  | .call _ .init_rarity_type_counts | .call _ (.update_rarity_type_counts ..) => true
  | _ => false

theorem grant_eq_zero {e : Entry T} (h : succeeded e = true → e.label.restocks = false)
    (k : Kind) (pool : NftSaleType) : grant k pool e = 0 ∧ e.fills = false := by
  unfold grant Entry.fills
  cases hgo : succeeded e with
  | false =>
    simp only [Bool.false_eq_true, if_false, true_and]
    split <;> rfl
  | true =>
    have hlabel := h hgo
    simp only [if_true]
    split <;> simp_all [Label.restocks]

theorem Label.restocks_of_isQuiet {l : Label T} (h : l.isQuiet = true) : l.restocks = false := by
  unfold Label.restocks
  split <;> first | rfl | cases h

section steps
variable [DecidableEq AccountId] {s s' : State T} {l : Label T} {r : Outcome T}

/-- What a history did to the inventory. -/
def StockedBy (tr : List (Entry T)) (s : State T) : Prop :=
  Stocked (filled tr) (fun k pool => granted k pool tr) (fun k pool => ∀ e ∈ tr, ¬ Saturates k pool e)
    (history mints tr) s

omit [DecidableEq AccountId] in
/-- A step that puts nothing into the pools. -/
theorem StockedBy.idle {tr : List (Entry T)} {e : Entry T}
    (h : Stocked (filled tr) (fun k pool => granted k pool tr)
      (fun k pool => ∀ e ∈ tr, ¬ Saturates k pool e) (history mints tr ++ mints e) s)
    (hlabel : succeeded e = true → e.label.restocks = false) : StockedBy (e :: tr) s := by
  refine h.congr ?_ ?_ fun k pool hexact e he => hexact e (List.mem_cons_of_mem _ he)
  · rw [filled_cons, (grant_eq_zero hlabel (.Prime, .Cyborg) .ForSale).2, Bool.false_or]
  · intro k pool
    rw [granted, (grant_eq_zero hlabel k pool).1, ite_self]
    rfl

omit [DecidableEq AccountId] in
/-- A step that neither puts into the pools nor takes from them. -/
theorem StockedBy.keep {tr : List (Entry T)} (h : StockedBy tr s)
    (hlabel : succeeded ⟨s, l, r, s'⟩ = true → l.restocks = false) (hmints : mints ⟨s, l, r, s'⟩ = [])
    (hids : IdsKept s s')
    (hset : s'.sale.is_origin_of_shells_inventory_set = s.sale.is_origin_of_shells_inventory_set)
    (hinv : s'.sale.origin_of_shells_inventory = s.sale.origin_of_shells_inventory)
    (hcareer : s'.sale.career_type_count = s.sale.career_type_count)
    (hgrows : KeepsIds s s'.world) : StockedBy (⟨s, l, r, s'⟩ :: tr) s' := by
  refine StockedBy.idle ?_ hlabel
  rw [hmints, List.append_nil]
  exact Stocked.keep h hids hset hinv hcareer hgrows

theorem StockedBy.step (hC : CurrencyLaws T) (hN : NftLaws T) {tr : List (Entry T)}
    (h : StockedBy tr s) (hgrows : ∀ w, l = .outside w → KeepsIds s w)
    (hs : Traded s l r s') : StockedBy (⟨s, l, r, s'⟩ :: tr) s' := by
  have hids := hs.ids_kept
  cases hs with
  | quiet hq hlabel =>
    refine h.keep ?_ hq.mints hids hq.inventory_set hq.inventory hq.career_type_count
      (.of_eq (by rw [hq.world]))
    intro hgo
    cases r with
    | ok u => exact Label.restocks_of_isQuiet (hlabel rfl)
    | error e => cases hgo
  | spirit _ hm hc =>
    have hgrows := (hm.minted hN).1.grows
    obtain ⟨md, w₁, w₂, _, _, _, rfl⟩ := hm.post
    refine h.keep ?_ hm.mints hids rfl rfl rfl hgrows.keeps_ids
    intro _
    rcases hc with rfl | ⟨sig, rfl⟩ <;> rfl
  | @buy a o r ra ca cid i c _ _ hm hc =>
    have hpool : (Label.call (.signed a) c).saleType = .ForSale := by
      rcases hc with ⟨rfl, _⟩ | ⟨_, sig, rfl⟩ <;> rfl
    refine StockedBy.idle ?_ ?_
    · rw [hm.mints hpool]
      exact Stocked.mint hC hN h hm
    · intro _
      rcases hc with ⟨rfl, _⟩ | ⟨_, sig, rfl⟩ <;> rfl
  | preorder hp =>
    have hpost := hp.post
    obtain ⟨md, w, _, hreserve, rfl⟩ := hpost
    exact h.keep (fun _ => rfl) hp.mints hids rfl rfl rfl (.of_eq (hC.reserve_ok hreserve).2.2)
  | mint _ hl =>
    refine StockedBy.idle ?_ fun _ => rfl
    obtain ⟨evs, hevs, h', _⟩ := Stocked.mint_rounds hC hN h hl
    rw [mints_of_append hevs]
    exact h'
  | refund _ hl =>
    -- what is refunded was never taken from a pool
    refine StockedBy.idle ?_ fun _ => rfl
    rw [refund_batch_mints hl, List.append_nil]
    exact hl.invariant (fun _ _ _ hJ hr => Stocked.refund_round hC hJ hr) h
  | gift _ _ hm =>
    refine StockedBy.idle ?_ fun _ => rfl
    rw [hm.mints_gift]
    exact (Stocked.mint hC hN h hm).keep (.of_eq rfl rfl rfl) rfl rfl rfl (.of_eq rfl)
  | init hset =>
    -- the first step that fills the pools is counted with the initial counts
    rw [StockedBy, history_cons, mints_sale rfl, List.append_nil]
    refine (Stocked.init h hset).congr rfl ?_ fun k pool hexact e he =>
      hexact e (List.mem_cons_of_mem _ he)
    intro k pool
    rw [granted, show Entry.fills _ = true from rfl, Bool.or_true]
    rfl
  | update =>
    rw [StockedBy, history_cons, mints_sale rfl, List.append_nil]
    refine (Stocked.update h).congr rfl ?_ ?_
    · intro k pool
      rw [granted, show Entry.fills _ = false from rfl, Bool.or_false]
      rfl
    · intro k pool hexact
      exact ⟨fun e he => hexact e (List.mem_cons_of_mem _ he), hexact _ List.mem_cons_self⟩
  | create _ hw =>
    obtain ⟨c, hview, _⟩ := hN.create_collection_ok hw
    exact h.keep (fun _ => rfl) mints_world hids rfl rfl rfl
      (fun d _ => by simp only [hview, Nfts.create_next]; exact le_rfl)
  | hatch hh =>
    have hgrows := hh.grows hN
    obtain ⟨w, _, rfl⟩ := hh.post
    exact h.keep (fun _ => rfl) hh.mints hids rfl rfl rfl hgrows.keeps_ids
  | outside => exact h.keep (fun _ => rfl) mints_world hids rfl rfl rfl (hgrows _ rfl)

end steps

/-! ### Runs -/

/-- The number of Origin of Shells minted of a kind, as the inventory counts. -/
def State.race_count (s : State T) (k : Kind) : Nat :=
  (s.sale.origin_of_shells_inventory k).elim 0 NftSaleInfo.race_count

section runs
variable [DecidableEq AccountId] {g : GenesisConfig AccountId} {w : T.World} {now : UInt64}
  {tr : List (Entry T)} {s : State T}

/-- Nobody outside takes an item id back. -/
abbrev GrowsOutside : Entry T → Prop := Within (fun _ => True) Grows

omit [DecidableEq AccountId] in
theorem stockedBy_genesis (g : GenesisConfig AccountId) (w : T.World) (now : UInt64) :
    StockedBy [] (genesis g w now) :=
  ⟨fun h => (by cases h), fun _ => ⟨rfl, fun _ _ => rfl, fun _ => rfl⟩, fun h => (by cases h),
    fun _ => rfl, fun _ _ => Nat.zero_le _, fun _ => rfl⟩

/-- The inventory of a run in which nobody outside takes back an id of the
    Origin of Shell collection. -/
theorem Runs.stocked_of {ok : Entry T → Prop} (hC : CurrencyLaws T) (hN : NftLaws T)
    (hok : ∀ e, ok e → ∀ w, e.label = .outside w → KeepsIds e.pre w)
    (h : Runs ok (genesis g w now) tr s) : StockedBy tr s :=
  Runs.induction (J := StockedBy) h (stockedBy_genesis g w now) fun _ hJ hentry hs =>
    hJ.step hC hN (hok _ hentry) hs.traded

theorem Runs.stocked (hC : CurrencyLaws T) (hN : NftLaws T)
    (h : Runs GrowsOutside (genesis g w now) tr s) : StockedBy tr s :=
  h.stocked_of hC hN fun _ hentry w hl => (hentry.2 w hl).keeps_ids

omit [DecidableEq AccountId] in
/-- The inventory counts the mints of a kind. -/
theorem StockedBy.race_count (h : StockedBy tr s) (k : Kind) :
    s.race_count k = mintsOf (history mints tr) k := by
  cases hf : filled tr with
  | true =>
    obtain ⟨info, hinfo, hcount, _⟩ := h.stock hf k
    rw [State.race_count, hinfo]
    exact hcount
  | false =>
    obtain ⟨hms, _, hnone⟩ := h.blank hf
    rw [State.race_count, hnone, hms]
    rfl

/-- When a call reports `RaceMintMaxReached`, everything granted was minted,
    counting what the call itself minted and takes back. -/
theorem StockedBy.race_mint_max (hC : CurrencyLaws T) (hN : NftLaws T) {origin : Origin AccountId}
    {c : Call T} {s' : State T} (h : StockedBy tr s)
    (hfail : dispatch origin c s = (.error (.err (.NftSale .RaceMintMaxReached)), s')) :
    ∃ done k rest, c.requests s = done ++ k :: rest ∧
      ((∀ e ∈ tr, ¬ Saturates k .ForSale e) →
        granted k .ForSale tr = mintsFrom (history mints tr) k .ForSale + done.count k) := by
  obtain ⟨o, ids, s₁, k, rest, i, hl, hrequests, hi, hleft⟩ := dispatch_race_mint_max hfail
  -- the ledger up to the round that failed, which nobody sees afterwards
  obtain ⟨evs, _, h₁, hcount⟩ := Stocked.mint_rounds hC hN h hl
  refine ⟨requested s ids, k, rest, hrequests, ?_⟩
  intro hexact
  obtain ⟨info, hinfo, _, hpools⟩ := h₁.stock (h₁.full_of_info hi) k
  obtain rfl : info = i := Option.some.inj (hinfo.symm.trans hi)
  have heq := (hpools .ForSale).2 hexact
  rw [mintsFrom_append, hcount, show info.left .ForSale = 0 from hleft, Nat.zero_add] at heq
  exact heq.symm

/-- What was granted of the rare kinds is what the inventory began with. -/
theorem Runs.granted_rare (hC : CurrencyLaws T) (hN : NftLaws T)
    (h : Runs GrowsOutside (genesis g w now) tr s) {k : Kind} (hk : k.1 ≠ .Prime)
    (pool : NftSaleType) :
    granted k pool tr = if filled tr then (initial_nft_sale_info k.1).left pool else 0 := by
  refine Runs.induction (J := fun tr _ => granted k pool tr =
    if filled tr then (initial_nft_sale_info k.1).left pool else 0) h rfl ?_
  intro tr s l r s' hrun hJ _ hs
  have hidle (hzero : grant k pool ⟨s, l, r, s'⟩ = 0 ∧ Entry.fills ⟨s, l, r, s'⟩ = false) :
      granted k pool (⟨s, l, r, s'⟩ :: tr) =
        if filled (⟨s, l, r, s'⟩ :: tr) then (initial_nft_sale_info k.1).left pool else 0 := by
    rw [granted, hzero.1, ite_self, Nat.add_zero, hJ, filled_cons, hzero.2, Bool.false_or]
  cases hs.traded with
  | quiet _ hlabel =>
    refine hidle (grant_eq_zero ?_ k pool)
    intro hgo
    cases r with
    | ok u => exact Label.restocks_of_isQuiet (hlabel rfl)
    | error e => cases hgo
  | spirit _ _ hc =>
    refine hidle (grant_eq_zero ?_ k pool)
    intro _
    rcases hc with rfl | ⟨sig, rfl⟩ <;> rfl
  | buy _ _ hc =>
    refine hidle (grant_eq_zero ?_ k pool)
    intro _
    rcases hc with ⟨rfl, _⟩ | ⟨_, sig, rfl⟩ <;> rfl
  | init hset =>
    -- the inventory can only be set once
    have hunfilled : filled tr = false := by
      cases hf : filled tr with
      | false => rfl
      | true => rw [(hrun.stocked hC hN).set hf] at hset; cases hset
    rw [granted, hJ, hunfilled]
    exact Nat.zero_add _
  | update => exact hidle ⟨by simp [grant, hk], rfl⟩
  | _ => exact hidle (grant_eq_zero (fun _ => rfl) k pool)

omit [DecidableEq AccountId] in
/-- Every mint came from one of the three pools. -/
theorem mintsOf_eq (ms : List (Mint AccountId)) (k : Kind) :
    mintsOf ms k = mintsFrom ms k .ForSale + mintsFrom ms k .Giveaway + mintsFrom ms k .Reserved := by
  induction ms with
  | nil => rfl
  | cons m ms ih =>
    rw [← List.singleton_append, mintsOf_append, mintsFrom_append, mintsFrom_append,
      mintsFrom_append, ih, mintsOf_singleton, mintsFrom_singleton, mintsFrom_singleton,
      mintsFrom_singleton]
    by_cases hk : m.kind = k
    · cases hpool : m.sale_type <;> simp [hk] <;> omega
    · simp [hk]

/-- **Inventory ledger.** In every run from genesis in which nobody outside
    takes an item id back, once the pools were filled: what is left of a
    pool and what was minted from it is at most what was granted, and
    exactly that where no top-up saturated; the kinds and the careers count
    the same mints; the rare kinds are never oversold; and a call that
    reports `RaceMintMaxReached` found everything granted minted, counting
    what it minted itself before it failed. -/
theorem inventory_ledger (hC : CurrencyLaws T) (hN : NftLaws T)
    (h : Runs GrowsOutside (genesis g w now) tr s) (hfilled : filled tr = true) :
    (∀ k, ∃ info, s.sale.origin_of_shells_inventory k = some info ∧
      info.race_count = mintsOf (history mints tr) k ∧
      ∀ pool, info.left pool + mintsFrom (history mints tr) k pool ≤ granted k pool tr ∧
        ((∀ e ∈ tr, ¬ Saturates k pool e) →
          info.left pool + mintsFrom (history mints tr) k pool = granted k pool tr)) ∧
    (kinds.map s.race_count).sum = (careers.map s.sale.career_type_count).sum ∧
    (∀ race, mintsOf (history mints tr) (.Legendary, race) ≤ 1 + 1 ∧
      mintsOf (history mints tr) (.Magic, race) ≤ 10 + 10) ∧
    ∀ later e earlier, tr = later ++ e :: earlier →
      e.result = .error (.err (.NftSale .RaceMintMaxReached)) →
      ∃ origin c done k rest, e.label = .call origin c ∧ c.requests e.pre = done ++ k :: rest ∧
        ((∀ e' ∈ earlier, ¬ Saturates k .ForSale e') →
          granted k .ForSale earlier =
            mintsFrom (history mints earlier) k .ForSale + done.count k) := by
  have hstocked := h.stocked hC hN
  have hstock := hstocked.stock hfilled
  have hrare (k : Kind) (hk : k.1 ≠ .Prime) (pool : NftSaleType) :
      mintsFrom (history mints tr) k pool ≤ (initial_nft_sale_info k.1).left pool := by
    obtain ⟨info, _, _, hpools⟩ := hstock k
    have hgranted := h.granted_rare hC hN hk pool
    rw [hfilled, if_pos rfl] at hgranted
    exact hgranted ▸ (Nat.le_add_left _ _).trans (hpools pool).1
  refine ⟨hstock, ?_, fun race => ⟨?_, ?_⟩, ?_⟩
  · -- both sums are the number of mints
    have hkind : kinds.map s.race_count = kinds.map (mintsOf (history mints tr)) :=
      List.map_congr_left fun k _ => hstocked.race_count k
    have hcareer : careers.map s.sale.career_type_count =
        careers.map (mintsIn (history mints tr)) :=
      List.map_congr_left fun ca _ => hstocked.careers ca
    rw [hkind, hcareer, sum_mintsOf, sum_mintsIn]
  · have hle := hrare (.Legendary, race) (by simp)
    rw [mintsOf_eq]
    exact Nat.add_le_add (Nat.add_le_add (hle .ForSale) (hle .Giveaway)) (hle .Reserved)
  · have hle := hrare (.Magic, race) (by simp)
    rw [mintsOf_eq]
    exact Nat.add_le_add (Nat.add_le_add (hle .ForSale) (hle .Giveaway)) (hle .Reserved)
  · rintro later e earlier rfl hfail
    obtain ⟨hrun, _, he, _⟩ := Run.split h
    have hstocked := Runs.stocked hC hN hrun
    rw [he] at hfail
    cases hl : e.label with
    | call origin c =>
      rw [hl] at hfail
      obtain ⟨done, k, rest, hrequests, hgranted⟩ :=
        hstocked.race_mint_max hC hN (Prod.ext hfail rfl)
      exact ⟨origin, c, done, k, rest, rfl, hrequests, hgranted⟩
    | on_finalize =>
      rw [hl] at hfail
      exact (NftSale.on_finalize_ne_err (Prod.ext hfail rfl)).elim
    | set_timestamp t => rw [hl] at hfail; cases hfail
    | outside w => rw [hl] at hfail; cases hfail

end runs

namespace Mock

/-- In the sample sale one of the ten Magic Cyborgs was sold. -/
theorem inventory_ledger_sale :
    (∃ info, (after (sale 200)).2.sale.origin_of_shells_inventory (.Magic, .Cyborg) = some info ∧
      info.race_count = 1 ∧ info.left .ForSale + 1 ≤ 10) ∧
    (kinds.map (after (sale 200)).2.race_count).sum =
      (careers.map (after (sale 200)).2.sale.career_type_count).sum := by
  have hrun : Runs GrowsOutside (genesis₀ 200) (after (sale 200)).1 (after (sale 200)).2 :=
    runs_of_labels (sale 200) (by decide +kernel)
  have hfilled : filled (after (sale 200)).1 = true := by decide +kernel
  obtain ⟨hstock, hsum, _⟩ := inventory_ledger (T := runtime 200) (g := GenesisConfig.default)
    (w := world₀) (currency_laws 200) (nft_laws 200) hrun hfilled
  obtain ⟨info, hinfo, hcount, hpools⟩ := hstock (.Magic, .Cyborg)
  have hminted : mintsOf (history mints (after (sale 200)).1) (.Magic, .Cyborg) = 1 := by
    decide +kernel
  have hsold : mintsFrom (history mints (after (sale 200)).1) (.Magic, .Cyborg) .ForSale = 1 := by
    decide +kernel
  have hgranted : granted (.Magic, .Cyborg) .ForSale (after (sale 200)).1 = 10 := by
    decide +kernel
  have hpool := (hpools .ForSale).1
  rw [hsold, hgranted] at hpool
  exact ⟨⟨info, hinfo, hcount.trans hminted, hpool⟩, hsum⟩

/-! ### One preorder too many -/

/-- The last day of the sale, on which `ALICE` may preorder again and again. -/
def last_day : List (Label (runtime 2000)) :=
  setup 2000 ++
  [.call (.signed ALICE) .claim_spirit,
    admin (.set_status_type true .LastDayOfSale)]

/-- She preorders `n` times. -/
def last_day_preorders (n : Nat) : List (Label (runtime 2000)) :=
  List.replicate n (.call (.signed ALICE) (.preorder_origin_of_shell .Cyborg .HackerWizard))

/-- The state when `m` of `ALICE`'s `n` preorders are minted. -/
structure Drawing (n m : Nat) (s : State (runtime 2000)) : Prop where
  overlord : s.sale.overlord = some OVERLORD
  spirit_collection : s.sale.spirit_collection_id = some 0
  collection : s.sale.origin_of_shell_collection_id = some 1
  last : s.sale.last_day_of_sale = true
  metadata : s.sale.origin_of_shells_metadata .Cyborg = some md
  stock : ∃ i, s.sale.origin_of_shells_inventory (.Prime, .Cyborg) = some i ∧
    i.race_for_sale_count = 1250 - m
  index : s.sale.preorder_index = n
  pending : ∀ id, m ≤ id → id < n →
    s.sale.preorders id = some ⟨ALICE, .Cyborg, .HackerWizard, md⟩
  spirit : s.world.nfts.Owns 0 ALICE
  issuer : s.world.nfts.issuer 1 = some OVERLORD
  next : s.world.nfts.next 1 = m
  reserved : s.world.balances.reserved ALICE = 10 * (n - m)
  total : s.world.balances.total ALICE + 10 * m = 20000000
  purse : 830 * (1250 - m) ≤ s.world.balances.free OVERLORD

theorem drawing_last_day : Drawing 0 0 (after last_day).2 where
  overlord := by decide +kernel
  spirit_collection := by decide +kernel
  collection := by decide +kernel
  last := by decide +kernel
  metadata := rfl
  stock := ⟨NftSale.prime_nft_sale_info, by decide +kernel, rfl⟩
  index := by decide +kernel
  pending := fun _ _ h => absurd h (Nat.not_lt_zero _)
  spirit := (nft_laws 2000).holds_iff.mp
    (show (runtime 2000).holds (after last_day).2.world 0 ALICE = true by decide +kernel)
  issuer := by decide +kernel
  next := by decide +kernel
  reserved := by decide +kernel
  total := by decide +kernel
  purse := by decide +kernel

/-- There is always money for another preorder. -/
theorem Drawing.preorders {n : Nat} {s : State (runtime 2000)} (h : Drawing n 0 s) (hn : n ≤ 1250) :
    ∃ s', Preorders ALICE .Cyborg .HackerWizard s s' ∧ Drawing (n + 1) 0 s' := by
  have htotal := h.total
  have hreserved := h.reserved
  have hfree : 10 ≤ s.world.balances.free ALICE := by
    rw [Balances.total] at htotal
    omega
  have hspirit : (runtime 2000).holds s.world 0 ALICE = true :=
    (nft_laws 2000).holds_iff.mpr h.spirit
  obtain ⟨i, hi, hstock⟩ := h.stock
  refine ⟨_, ⟨.inl h.last, ⟨0, h.spirit_collection, hspirit⟩, ⟨1, h.collection, .inl h.last⟩,
    ?_, md, _, h.metadata, if_pos hfree, rfl⟩, h.overlord, h.spirit_collection, h.collection, h.last,
    h.metadata, ⟨i, hi, hstock⟩, ?_, ?_, h.spirit, h.issuer, h.next, ?_, ?_, ?_⟩
  · exact Nat.ne_of_lt (Nat.lt_of_le_of_lt (h.index.le.trans hn) (by decide))
  · exact congrArg (· + 1) h.index
  · intro id _ hid
    show Function.update s.sale.preorders s.sale.preorder_index _ id = _
    rw [h.index]
    by_cases hid' : id = n
    · rw [hid', Function.update_self]
    · rw [Function.update_of_ne hid']
      exact h.pending id (Nat.zero_le _) (by omega)
  · show (s.world.balances.reserve ALICE 10).reserved ALICE = _
    rw [Balances.reserve_reserved_self, hreserved]
    omega
  · show (s.world.balances.reserve ALICE 10).total ALICE + _ = _
    rw [Balances.total_reserve _ _ _ _ hfree]
    exact htotal
  · show _ ≤ (s.world.balances.reserve ALICE 10).free OVERLORD
    rw [(Balances.reserve_of_ne _ _ (by decide)).1]
    exact h.purse

/-- What a round of the drawing mints. -/
def drawn : Traits := ⟨.Prime, .Cyborg, .HackerWizard, 0⟩

/-- `ALICE` can pay each Shell, and the Overlord its deposits. -/
theorem Drawing.issues {n m : Nat} {s : State (runtime 2000)} (h : Drawing n m s) (hn : n ≤ 1251)
    (hstock : m < 1250) :
    ∃ w', Issues (T := runtime 2000) OVERLORD ALICE 1 md drawn 10 (unreserve ALICE 10 s.world) w' ∧
      s.world.balances.free OVERLORD ≤ ((runtime 2000).balances w').free OVERLORD + 830 := by
  have htotal := h.total
  have hreserved := h.reserved
  have hpurse := h.purse
  let w₁ : World := unreserve ALICE 10 s.world
  have htotal₁ : w₁.balances.total ALICE = s.world.balances.total ALICE :=
    Balances.total_unreserve _ _ _ _
  have hreserved₁ : w₁.balances.reserved ALICE = s.world.balances.reserved ALICE - 10 :=
    Balances.unreserve_reserved_self _ _ _
  have hfree₁ : w₁.balances.free OVERLORD = s.world.balances.free OVERLORD :=
    (Balances.unreserve_of_ne _ _ (by decide)).1
  have hrich : 10 ≤ w₁.balances.free ALICE ∧ 10 + 1 ≤ w₁.balances.total ALICE := by
    have hsplit : w₁.balances.total ALICE =
      w₁.balances.free ALICE + w₁.balances.reserved ALICE := rfl
    omega
  have halive : 1 ≤ w₁.balances.total OVERLORD := by
    rw [Balances.total]
    omega
  obtain ⟨w₂, htransfer⟩ := (keep_alive_law 2000 (a := ALICE) (b := OVERLORD) (v := 10) (w := w₁)
    halive).mpr (.inr (.inr hrich))
  have hfees : fees.issue drawn = 830 := by decide
  have hroom : room w₁ 1 := by
    rw [room, show w₁.nfts.next 1 = m from h.next]
    omega
  have hdeposits : fees.issue drawn ≤ w₁.balances.free OVERLORD := by
    omega
  obtain ⟨w', hissues, hpaid⟩ := issues_of_transfer (T := runtime 2000) (currency_laws 2000)
    (nft_laws 2000) (issue_laws 2000) md drawn (a := ALICE) (o := OVERLORD) (c := 1) (w := w₁)
    h.issuer hroom hdeposits htransfer
  refine ⟨w', hissues, ?_⟩
  rw [← hfree₁, ← hfees]
  exact hpaid

/-- The runtime wraps, so that no counter is full. -/
theorem plain_add_ok (n : UInt32) (bits a b : Nat) :
    ∃ k, plain_add (runtime n) bits a b = .ok k := by
  unfold plain_add
  split
  · exact ⟨_, rfl⟩
  · exact ⟨_, rfl⟩

/-- It passes the checks of a sale. -/
theorem Drawing.forSale {n m : Nat} {s : State (runtime 2000)} (h : Drawing n m s)
    (hstock : m < 1250) :
    ∃ i, i.race_for_sale_count = 1250 - m ∧
      ForSale (T := runtime 2000) ALICE drawn .ForSale false 1 i md (s.release m ALICE) := by
  obtain ⟨i, hi, hleft⟩ := h.stock
  have hspirit : (runtime 2000).holds (unreserve ALICE 10 s.world) 0 ALICE = true :=
    (nft_laws 2000).holds_iff.mpr h.spirit
  refine ⟨i, hleft, ⟨0, h.spirit_collection, hspirit⟩, h.collection, ?_, hi, ?_,
    h.metadata, plain_add_ok _ _ _ _, plain_add_ok _ _ _ _⟩
  · intro h
    cases h
  · rw [NftSaleInfo.left, hleft]
    omega

/-- As long as there is stock, the next preorder can be minted. -/
theorem Drawing.mint {n m : Nat} {s : State (runtime 2000)} (h : Drawing n m s) (hn : n ≤ 1251)
    (hm : m < n) (hstock : m < 1250) :
    ∃ s', MintsPreorder OVERLORD true s m s' ∧ Drawing n (m + 1) s' := by
  have hpending := h.pending m le_rfl hm
  have htotal := h.total
  have hreserved := h.reserved
  have hpurse := h.purse
  obtain ⟨w', hissues, hpaid⟩ := h.issues hn hstock
  obtain ⟨i, hleft, hforSale⟩ := h.forSale hstock
  -- the checks and the issue make the round go through
  obtain ⟨s₁, hmint, hworld⟩ := hforSale.mints hissues
  refine ⟨_, ⟨_, 1, i, s₁, hpending, hmint, rfl⟩, ?_⟩
  obtain ⟨hminted, _, hfree, hdep⟩ := hissues.minted (currency_laws 2000) (nft_laws 2000)
  obtain ⟨i', hi', hleft'⟩ := hmint.stock
  obtain ⟨md', w, rc, cc, _, _, _, _, rfl⟩ := hmint.post
  obtain rfl : w = w' := hworld
  have hreceived := hminted.received
  have hne : ALICE ≠ OVERLORD := by decide
  refine ⟨h.overlord, h.spirit_collection, h.collection, h.last, h.metadata, ?_, h.index,
    ?_, ?_, ?_, ?_, ?_, ?_, ?_⟩
  · exact ⟨i', hi', hleft'.trans (congrArg (· - 1) hleft)⟩
  · intro id hid hlt
    show Function.update s.sale.preorders m none id = _
    rw [Function.update_of_ne (Nat.ne_of_gt hid)]
    exact h.pending id (Nat.le_of_succ_le hid) hlt
  · exact (Nfts.owns_congr fun k => hreceived.item_of_collection_ne (by decide) k).mpr h.spirit
  · exact hreceived.issuer ▸ h.issuer
  · exact hreceived.next_self.trans (congrArg (· + 1) h.next)
  · refine (hdep.1 ALICE hne).2.trans ?_
    rw [Balances.transfer_reserved]
    refine (Balances.unreserve_reserved_self s.world.balances ALICE 10).trans ?_
    omega
  · -- she pays what was just given back to her
    have hpaid := Balances.total_transfer_src _ _ hne (hfree hne)
    rw [← hdep.total ALICE] at hpaid
    have hkept : (unreserve ALICE 10 s.world).balances.total ALICE = s.world.balances.total ALICE :=
      Balances.total_unreserve _ _ _ _
    have hsum : (World.balances w).total ALICE + 10 = s.world.balances.total ALICE :=
      hpaid.trans hkept
    show (World.balances w).total ALICE + _ = _
    omega
  · have hpaid : s.world.balances.free OVERLORD ≤ (World.balances w).free OVERLORD + 830 := hpaid
    show _ ≤ (World.balances w).free OVERLORD
    omega

/-- `ALICE` can preorder more Shells than there are. -/
theorem drawing_preorders {n : Nat} (hn : n ≤ 1251) :
    Drawing n 0 (after (last_day ++ last_day_preorders n)).2 ∧
    history mints (after (last_day ++ last_day_preorders n)).1 = [] ∧
    granted (.Prime, .Cyborg) .ForSale (after (last_day ++ last_day_preorders n)).1 = 1250 ∧
    ∀ e ∈ (after (last_day ++ last_day_preorders n)).1,
      ¬ Saturates (.Prime, .Cyborg) .ForSale e := by
  induction n with
  | zero =>
    have hmints : (history mints (after last_day).1).length = 0 := by decide +kernel
    rw [last_day_preorders, List.replicate_zero, List.append_nil]
    exact ⟨drawing_last_day, List.length_eq_zero_iff.mp hmints, by decide +kernel,
      by decide +kernel⟩
  | succ n ih =>
    obtain ⟨hdrawing, hmints, hgranted, hfits⟩ := ih (by omega)
    rw [last_day_preorders, List.replicate_succ', ← List.append_assoc, after, exec_append]
    rw [after, last_day_preorders] at hdrawing hmints hgranted hfits
    -- what `Drawing` says of the state is enough: the run itself is not evaluated
    generalize LTS.exec step (genesis₀ 2000) [] (last_day ++ List.replicate n _) = run at *
    obtain ⟨tr, s⟩ := run
    obtain ⟨s', hpre, hdrawing'⟩ := hdrawing.preorders (by omega)
    have hstep : step s (.call (.signed ALICE) (.preorder_origin_of_shell .Cyborg .HackerWizard)) =
        (.ok (), s') := NftSale.preorder_origin_of_shell_ok.mpr ⟨ALICE, rfl, hpre⟩
    simp only [LTS.exec, entry, hstep] at *
    refine ⟨hdrawing', ?_, ?_, ?_⟩
    · rw [history_cons, hmints, hpre.mints]
      rfl
    · rw [granted, hgranted]
      exact Nat.add_eq_left.mpr (ite_self _)
    · intro e he
      rcases List.mem_cons.mp he with rfl | he
      · obtain ⟨i, hi, hstock⟩ := hdrawing.stock
        rintro ⟨info, hinfo, hlt⟩
        obtain rfl : i = info := Option.some.inj (hi.symm.trans hinfo)
        have hlt : 2 ^ 32 - 1 < i.race_for_sale_count + 0 := hlt
        omega
      · exact hfits e he

/-- The stock is drawn, one preorder after the other. -/
theorem Drawing.rounds {n m : Nat} {s : State (runtime 2000)} (h : Drawing n 0 s) (hn : n ≤ 1251)
    (hm : m ≤ n) (hstock : m ≤ 1250) :
    ∃ s', Chain (MintsPreorder OVERLORD true) s (List.range m) s' ∧ Drawing n m s' := by
  induction m with
  | zero => exact ⟨s, .nil s, h⟩
  | succ m ih =>
    obtain ⟨s₁, hl, h₁⟩ := ih (by omega) (by omega)
    obtain ⟨s', hround, h'⟩ := h₁.mint hn (by omega) (by omega)
    refine ⟨s', ?_, h'⟩
    rw [List.range_succ]
    exact hl.append (.cons hround (.nil s'))

/-- The round after the last Shell fails, and with it the batch. -/
theorem Drawing.sold_out {s : State (runtime 2000)} (h : Drawing 1251 0 s) :
    step s (admin (.mint_chosen_preorders (List.range 1251))) =
      (.error NftSale.Error.RaceMintMaxReached.into, s) := by
  -- 1250 rounds go through, and their effect is undone with the last one's failure
  obtain ⟨s₁, hl, h₁⟩ := h.rounds le_rfl (m := 1250) (by omega) le_rfl
  obtain ⟨i, hi, hleft⟩ := h₁.stock
  have hspirit : (runtime 2000).holds (unreserve ALICE 10 s₁.world) 0 ALICE = true :=
    (nft_laws 2000).holds_iff.mpr h₁.spirit
  obtain ⟨s₂, hround⟩ := NftSale.mint_chosen_preorder_sold_out OVERLORD 10 true
    (h₁.pending 1250 le_rfl (by decide)) h₁.spirit_collection hspirit h₁.collection h₁.metadata hi
    hleft
  have hids : (List.range 1251).take (runtime 2000).IterLimit.toNat = List.range 1250 ++ [1250] := by
    rw [List.take_of_length_le (by rw [List.length_range]; decide), List.range_succ]
  rw [← h.last] at hl hround
  exact NftSale.mint_chosen_preorders_fails h.overlord hids hl hround

/-- A batch with one preorder more than there are Shells reports that all
    are sold, and sells none: 1250 were granted, and none was minted. -/
theorem sold_out_unsold :
    step (after (last_day ++ last_day_preorders 1251)).2
        (admin (.mint_chosen_preorders (List.range 1251))) =
      (.error NftSale.Error.RaceMintMaxReached.into,
        (after (last_day ++ last_day_preorders 1251)).2) ∧
    (∀ e ∈ (after (last_day ++ last_day_preorders 1251)).1,
      ¬ Saturates (.Prime, .Cyborg) .ForSale e) ∧
    granted (.Prime, .Cyborg) .ForSale (after (last_day ++ last_day_preorders 1251)).1 = 1250 ∧
    mintsFrom (history mints (after (last_day ++ last_day_preorders 1251)).1) (.Prime, .Cyborg)
      .ForSale = 0 := by
  obtain ⟨hdrawing, hmints, hgranted, hfits⟩ := drawing_preorders (n := 1251) le_rfl
  exact ⟨hdrawing.sold_out, hfits, hgranted, by rw [hmints]; rfl⟩

end Mock

end PhalaWorld
