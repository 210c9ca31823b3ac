import PhalaWorld.Specs.NftSale

/-! # What the incubation pallet's functions do

    One lemma per function, in the manner of the sale pallet's:
    `StartsIncubation`, `Feeds`, `Hatches`, `ReducesHatchTime` say what a
    successful call did.
-/

namespace PhalaWorld

open LTS Transaction

variable {AccountId : Type} {T : Config AccountId}

/-- What a successful `start_incubation` did. -/
structure StartsIncubation (a : AccountId) (c : CollectionId) (n : NftId) (s s' : State T) :
    Prop where
  enabled : s.incubation.can_start_incubation = true
  collection : s.sale.origin_of_shell_collection_id = some c
  owner : T.uniques_owner s.world c n = some a
  fresh : s.incubation.hatch_times (c, n) = none
  post : s' = { s with
    incubation := { s.incubation with
      hatch_times := Function.update s.incubation.hatch_times (c, n)
        (some s.incubation.official_hatch_time) }
    events := s.events ++
      [.StartedIncubation c n a s.now s.incubation.official_hatch_time] }

/-! ### Feeding -/

abbrev Food (T : Config AccountId) : Type :=
  FoodInfo (BoundedVec (CollectionId × NftId) T.FoodPerEra)

/-- Does a feed in `era` continue the record, or begin a new one? -/
def continues (era : EraId) : Option (Food T) → Bool
  | some food => decide (era ≤ food.era)
  | none => false

/-- The feeds a record that is continued holds. -/
def fed (era : EraId) (food : Option (Food T)) : List (CollectionId × NftId) :=
  match food with
  | some food => if era ≤ food.era then food.origin_of_shells_fed.1 else []
  | none => []

/-- The record `update_food_info` makes of `food` for a feed of `x`. -/
structure UpdatesFood (era : EraId) (x : CollectionId × NftId) (food : Option (Food T))
    (food' : Food T) : Prop where
  limit : continues era food = true → (fed era food).count x < T.MaxFoodFeedSelf.toNat
  new_era : food'.era = match food with
    | some food => if era ≤ food.era then food.era else era
    | none => era
  new_fed : food'.origin_of_shells_fed.1 = fed era food ++ [x]

/-- A record that is begun holds nothing yet. -/
theorem fed_eq_nil {era : EraId} {food : Option (Food T)} (h : ¬ continues era food = true) :
    fed era food = [] := by
  unfold continues at h
  unfold fed
  split
  · next old =>
    rw [decide_eq_true_eq] at h
    exact if_neg h
  · rfl

/-- There was room for `x` in the record, where anybody may feed at all. -/
theorem UpdatesFood.room {era : EraId} {x : CollectionId × NftId} {food : Option (Food T)}
    {food' : Food T} (h : UpdatesFood era x food food') (hself : 1 ≤ T.MaxFoodFeedSelf.toNat) :
    (fed era food).count x < T.MaxFoodFeedSelf.toNat := by
  by_cases hcont : continues era food = true
  · exact h.limit hcont
  · rw [fed_eq_nil hcont, List.count_nil]
    omega

variable [DecidableEq AccountId]

/-- What a successful `feed_origin_of_shell` did. -/
structure Feeds (a : AccountId) (c : CollectionId) (n : NftId) (s s' : State T) : Prop where
  enabled : s.incubation.can_start_incubation = true
  collection : s.sale.origin_of_shell_collection_id = some c
  hatch_time : ∃ t, s.incubation.hatch_times (c, n) = some t ∧ s.now ≤ t
  holds : T.holds s.world c a = true
  post : ∃ food count,
    UpdatesFood s.sale.era (c, n) (s.incubation.food_by_owners a) food ∧
    plain_add T 32 (s.incubation.origin_of_shell_food_stats (s.sale.era, (c, n))) 1 = .ok count ∧
    s' = { s with
      incubation := { s.incubation with
        food_by_owners := Function.update s.incubation.food_by_owners a (some food)
        origin_of_shell_food_stats :=
          Function.update s.incubation.origin_of_shell_food_stats (s.sale.era, (c, n)) count }
      events := s.events ++ [.OriginOfShellReceivedFood c n a] }

/-! ### Hatching -/

omit [DecidableEq AccountId]

/-- The bytes stored for an item under a key. -/
def Config.attribute_bytes (T : Config AccountId) (w : T.World) (x : CollectionId × NftId)
    (key : Bytes) : Option Bytes :=
  (BoundedVec.try_from key).bind fun k => (T.uniques_attribute w x.1 x.2 k).map BoundedVec.val

/-- What the four attributes of an item decode to, where all are there. -/
def Config.traits (T : Config AccountId) (w : T.World) (x : CollectionId × NftId) :
    Option Traits := do
  let rarity_type ← (T.attribute_bytes w x NftSale.rarity_key).bind RarityType.decode
  let race ← (T.attribute_bytes w x NftSale.race_key).bind RaceType.decode
  let career ← (T.attribute_bytes w x NftSale.career_key).bind CareerType.decode
  let generation ← (T.attribute_bytes w x NftSale.generation_key).bind GenerationId.decode
  pure ⟨rarity_type, race, career, generation⟩

/-- Removes one attribute of the item `x`. -/
def ClearsAttribute (overlord : AccountId) (x : CollectionId × NftId) (w : T.World) (key : Bytes)
    (w' : T.World) : Prop :=
  ∃ k : T.Key, k.1 = key ∧ T.clear_attribute overlord x.1 (some x.2) k w = .ok w'

/-- The worlds a hatch passes through: the Origin of Shell is burned and
    its attributes are removed, a Shell is minted and gets them. -/
def Awakens (o owner : AccountId) (x : CollectionId × NftId) (sc : CollectionId)
    (md : T.Metadata) (t : Traits) (w w' : T.World) : Prop :=
  ∃ w₁ w₂ w₃, T.burn_nft owner x.1 x.2 w = .ok w₁ ∧
    Chain (ClearsAttribute o x) w₁
      [NftSale.race_key, NftSale.career_key, NftSale.rarity_key, NftSale.generation_key] w₂ ∧
    T.mint_nft o (some owner) sc md true w₂ = .ok w₃ ∧
    SetsTraits o (sc, T.NextNftId w sc) t w₃ w'

/-- What a successful `hatch_origin_of_shell` did. -/
structure Hatches (o owner : AccountId) (c : CollectionId) (n : NftId) (sc : CollectionId)
    (md : T.Metadata) (t : Traits) (s s' : State T) : Prop where
  overlord : s.sale.overlord = some o
  enabled : s.incubation.can_start_incubation = true
  collection : s.sale.origin_of_shell_collection_id = some c
  root_owner : ∃ root, T.lookup_root_owner c n s.world = .ok (owner, root)
  hatch_time : ∃ t, s.incubation.hatch_times (c, n) = some t ∧ t < s.now
  shell_collection : s.incubation.shell_collection_id = some sc
  traits : T.traits s.world (c, n) = some t
  post : ∃ w, Awakens o owner (c, n) sc md t s.world w ∧
    s' = { s with
      world := w
      events := s.events ++ [.ShellAwakened sc (T.NextNftId s.world sc) owner] }

/-! ### Hatch times -/

/-- What one round of `update_incubation_time` did. -/
def ReducesHatchTime (s : State T) (x : (CollectionId × NftId) × Nat) (s' : State T) : Prop :=
  ∃ t, s.sale.origin_of_shell_collection_id = some x.1.1 ∧
    s.incubation.hatch_times x.1 = some t ∧
    s' = { s with
      incubation := { s.incubation with
        hatch_times := Function.update s.incubation.hatch_times x.1 (some (t - x.2)) }
      events := s.events ++ [.HatchTimeUpdated x.1.1 x.1.2 t (t - x.2)] }

namespace Incubation
variable {s s' : State T} {u : Unit} {origin : Origin AccountId} {c : CollectionId} {n : NftId}

@[simp] theorem is_origin_of_shell_collection_id_ok {b : Bool} :
    is_origin_of_shell_collection_id c s = (.ok b, s') ↔
      b = decide (s.sale.origin_of_shell_collection_id = some c) ∧ s' = s := by
  cases h : s.sale.origin_of_shell_collection_id <;>
    simp [is_origin_of_shell_collection_id, h, eq_comm (a := c)]

@[simp] theorem get_hatch_time_ok {t : Nat} :
    get_hatch_time c n s = (.ok t, s') ↔ s.incubation.hatch_times (c, n) = some t ∧ s' = s := by
  simp [get_hatch_time, and_comm]

@[simp] theorem can_hatch_ok {t : Nat} {b : Bool} :
    can_hatch t s = (.ok b, s') ↔ b = decide (t < s.now) ∧ s' = s := by
  simp [can_hatch, and_comm]

@[simp] theorem get_shell_collection_id_ok :
    get_shell_collection_id s = (.ok c, s') ↔
      s.incubation.shell_collection_id = some c ∧ s' = s := by
  simp [get_shell_collection_id, and_comm]

@[simp] theorem insert_hatch_time_ok {t : Nat} :
    insert_hatch_time c n t s = (.ok u, s') ↔
      s' = { s with incubation := { s.incubation with
        hatch_times := Function.update s.incubation.hatch_times (c, n) (some t) } } := by
  simp [insert_hatch_time]

@[simp] theorem is_owner_ok [DecidableEq AccountId] {a : AccountId} {b : Bool} :
    is_owner a c n s = (.ok b, s') ↔
      b = decide (T.uniques_owner s.world c n = some a) ∧ s' = s := by
  cases h : T.uniques_owner s.world c n <;> simp [is_owner, h, eq_comm (a := a)]

/-! ### When the helpers fail -/

section failure
variable {e : Failure T.ModuleError}

@[simp] theorem is_origin_of_shell_collection_id_error :
    is_origin_of_shell_collection_id c s ≠ (.error e, s') := by
  cases h : s.sale.origin_of_shell_collection_id <;> simp [is_origin_of_shell_collection_id, h]

@[simp] theorem get_hatch_time_error :
    get_hatch_time c n s = (.error e, s') ↔
      s.incubation.hatch_times (c, n) = none ∧ Error.NoHatchTimeDetected.into = e ∧ s' = s := by
  simp [get_hatch_time]

@[simp] theorem can_hatch_error {t : Nat} : can_hatch t s ≠ (.error e, s') := by
  simp [can_hatch]

@[simp] theorem get_shell_collection_id_error :
    get_shell_collection_id s = (.error e, s') ↔
      s.incubation.shell_collection_id = none ∧ Error.ShellCollectionIdNotSet.into = e ∧
        s' = s := by
  simp [get_shell_collection_id]

@[simp] theorem insert_hatch_time_error {t : Nat} : insert_hatch_time c n t s ≠ (.error e, s') := by
  simp [insert_hatch_time]

@[simp] theorem is_owner_error [DecidableEq AccountId] {a : AccountId} :
    is_owner a c n s ≠ (.error e, s') := by
  cases h : T.uniques_owner s.world c n <;> simp [is_owner, h]

end failure

/-! ### The calls -/

theorem start_incubation_ok [DecidableEq AccountId]
    (h : start_incubation origin c n s = (.ok u, s')) :
    ∃ a, origin = .signed a ∧ StartsIncubation a c n s s' := by
  simp [start_incubation] at h
  obtain ⟨a, rfl, henabled, hc, howner, hfresh, rfl⟩ := h
  exact ⟨a, rfl, henabled, hc, howner, hfresh, rfl⟩

theorem length_filter_eq_count (x : CollectionId × NftId) (l : List (CollectionId × NftId)) :
    (l.filter (· = x)).length = l.count x := by
  rw [List.count_eq_length_filter]
  exact congrArg List.length (List.filter_congr fun y _ => by by_cases h : y = x <;> simp [h])

theorem update_food_info_ok {era : EraId} {x : CollectionId × NftId} {food : Option (Food T)}
    {food' : Food T} :
    update_food_info era x food s = (.ok food', s') ↔ UpdatesFood era x food food' ∧ s' = s := by
  have hpush (v : BoundedVec (CollectionId × NftId) T.FoodPerEra) (e : EraId) :
      (∃ v', (v.try_push x = some v' ∧ s' = s) ∧ food' = ⟨e, v'⟩) ↔
        (food'.era = e ∧ food'.origin_of_shells_fed.1 = v.1 ++ [x]) ∧ s' = s := by
    constructor
    · rintro ⟨v', ⟨hv, rfl⟩, rfl⟩
      exact ⟨⟨rfl, BoundedVec.try_push_eq_some.mp hv⟩, rfl⟩
    · rintro ⟨⟨rfl, hv⟩, rfl⟩
      exact ⟨_, ⟨BoundedVec.try_push_eq_some.mpr hv, rfl⟩, rfl⟩
  cases food with
  | none =>
    have h := hpush BoundedVec.empty era
    simp [update_food_info, get_new_food_info] at h ⊢
    refine h.trans ⟨fun ⟨⟨hera, hfed⟩, hs⟩ => ⟨⟨by simp [continues], hera, hfed⟩, hs⟩, ?_⟩
    rintro ⟨hup, hs⟩
    exact ⟨⟨hup.new_era, hup.new_fed⟩, hs⟩
  | some food =>
    by_cases hera : era ≤ food.era
    · simp only [update_food_info, Nat.not_lt.mpr hera, if_false]
      simp [hpush, length_filter_eq_count]
      constructor
      · rintro ⟨hlimit, ⟨hera', hfed⟩, hs⟩
        exact ⟨⟨fun _ => by simpa [fed, hera] using hlimit, by simpa [hera] using hera',
          by simpa [fed, hera] using hfed⟩, hs⟩
      · rintro ⟨⟨hlimit, hera', hfed⟩, hs⟩
        simp [continues, fed, hera] at hlimit hera' hfed
        exact ⟨hlimit, ⟨hera', hfed⟩, hs⟩
    · have h := hpush BoundedVec.empty era
      simp [update_food_info, get_new_food_info, Nat.not_le.mp hera] at h ⊢
      refine h.trans ⟨fun ⟨⟨hera', hfed⟩, hs⟩ => ⟨⟨by simp [continues, hera], by simpa [hera] using hera',
        by simpa [fed, hera] using hfed⟩, hs⟩, ?_⟩
      rintro ⟨⟨_, hera', hfed⟩, hs⟩
      simp [fed, hera] at hera' hfed
      exact ⟨⟨hera', hfed⟩, hs⟩

/-- A record refuses a feed when the sender sent `x` too often, or is full. -/
theorem update_food_info_error {era : EraId} {x : CollectionId × NftId} {food : Option (Food T)}
    {e : Failure T.ModuleError} :
    update_food_info era x food s = (.error e, s') ↔
      ((continues era food = true ∧ T.MaxFoodFeedSelf.toNat ≤ (fed era food).count x ∧
          Error.AlreadySentFoodTwice.into = e) ∨
        ((continues era food = true → (fed era food).count x < T.MaxFoodFeedSelf.toNat) ∧
          (fed era food).length = T.FoodPerEra.toNat ∧ Error.FoodInfoUpdateError.into = e)) ∧
      s' = s := by
  cases food with
  | none =>
    simp [update_food_info, get_new_food_info, continues, fed, BoundedVec.try_push_eq_none,
      and_assoc]
  | some food =>
    by_cases hera : era ≤ food.era
    · simp [update_food_info, continues, fed, hera, Nat.not_lt.mpr hera, length_filter_eq_count,
        BoundedVec.try_push_eq_none, and_assoc, or_and_right]
    · simp [update_food_info, get_new_food_info, continues, fed, hera, Nat.not_le.mp hera,
        BoundedVec.try_push_eq_none, and_assoc]

theorem feed_origin_of_shell_ok [DecidableEq AccountId]
    (h : feed_origin_of_shell origin c n s = (.ok u, s')) :
    ∃ a, origin = .signed a ∧ Feeds a c n s s' := by
  simp [feed_origin_of_shell, update_food_info_ok] at h
  obtain ⟨a, rfl, henabled, hc, t, ht, hnow, hholds, food, hfood, count, hcount, rfl⟩ := h
  exact ⟨a, rfl, henabled, hc, ⟨t, ht, hnow⟩, decide_eq_true hholds, food, count, hfood, hcount, rfl⟩

theorem read_attributes_ok {kr kc kt kg : T.Key} {t : Traits} (hr : kr.1 = NftSale.race_key)
    (hc : kc.1 = NftSale.career_key) (ht : kt.1 = NftSale.rarity_key)
    (hg : kg.1 = NftSale.generation_key) :
    read_attributes c n kr kc kt kg s = (.ok t, s') ↔
      T.traits s.world (c, n) = some t ∧ s' = s := by
  have hbytes {key : Bytes} {k : T.Key} (hk : k.1 = key) : T.attribute_bytes s.world (c, n) key =
      (T.uniques_attribute s.world c n k).map BoundedVec.val := by
    rw [Config.attribute_bytes, BoundedVec.try_from_eq_some.mpr hk]; rfl
  simp [read_attributes, expect, Config.traits, hbytes hr, hbytes hc, hbytes ht, hbytes hg,
    Option.bind_eq_some_iff]
  constructor
  · rintro ⟨vr, hvr, vc, hvc, vt, hvt, vg, hvg, ra, hra, ca, hca, r, hr, g, ⟨hg, rfl⟩, rfl⟩
    exact ⟨⟨r, ⟨vt, hvt, hr⟩, ra, ⟨vr, hvr, hra⟩, ca, ⟨vc, hvc, hca⟩, g, ⟨vg, hvg, hg⟩, rfl⟩, rfl⟩
  · rintro ⟨⟨r, ⟨vt, hvt, hr⟩, ra, ⟨vr, hvr, hra⟩, ca, ⟨vc, hvc, hca⟩, g, ⟨vg, hvg, hg⟩, rfl⟩, rfl⟩
    exact ⟨vr, hvr, vc, hvc, vt, hvt, vg, hvg, ra, hra, ca, hca, r, hr, g, ⟨hg, rfl⟩, rfl⟩

theorem hatch_origin_of_shell_ok [DecidableEq AccountId] {md : T.Metadata}
    (h : hatch_origin_of_shell origin c n md s = (.ok u, s')) :
    ∃ o owner sc t, origin = .signed o ∧ Hatches o owner c n sc md t s s' := by
  simp only [hatch_origin_of_shell, transactional_ok, ↓bind_unit_ok, bind_ok, ensure_signed_ok,
    NftSale.ensure_overlord_ok, read_ok, ensure_ok, is_origin_of_shell_collection_id_ok,
    outside_query_ok, get_hatch_time_ok, can_hatch_ok, get_shell_collection_id_ok,
    NftSale.to_boundedvec_key_ok, outside_ok, NftSale.set_nft_attributes_ok, exists_and_left,
    deposit_event_ok, ↓existsAndEq, and_true, exists_eq_left, decide_eq_true_eq, Prod.exists,
    exists_and_right] at h
  obtain ⟨o, rfl, ho, henabled, hc, owner, ⟨rc, rn, hroot⟩, t, ht, hnow, sc, hsc, kr, hkr, kc, hkc,
    kt, hkt, kg, hkg, traits, s₁, hread, w₁, hburn, w₂, h₁, w₃, h₂, w₄, h₃, w₅, h₄, w₆, hmint,
    o', w, ⟨ho', hset⟩, rfl⟩ := h
  obtain ⟨htraits, rfl⟩ := (read_attributes_ok hkr hkc hkt hkg).mp hread
  obtain rfl : o = o' := by rw [ho] at ho'; exact Option.some.inj ho'
  refine ⟨o, owner, sc, traits, rfl, ho, henabled, hc, ⟨_, hroot⟩, ⟨t, ht, hnow⟩, hsc, htraits, w,
    ⟨w₁, w₅, w₆, hburn, ?_, hmint, hset⟩, rfl⟩
  exact .cons ⟨kr, hkr, h₁⟩ (.cons ⟨kc, hkc, h₂⟩ (.cons ⟨kt, hkt, h₃⟩ (.cons ⟨kg, hkg, h₄⟩ (.nil _))))

theorem reduce_hatch_time_ok {x : (CollectionId × NftId) × Nat} :
    reduce_hatch_time x s = (.ok u, s') ↔ ReducesHatchTime s x s' := by
  obtain ⟨⟨c, n⟩, t⟩ := x
  simp [reduce_hatch_time, ReducesHatchTime]

theorem update_incubation_time_ok [DecidableEq AccountId] {l : List ((CollectionId × NftId) × Nat)}
    (h : update_incubation_time origin l s = (.ok u, s')) :
    ∃ o, origin = .signed o ∧ s.sale.overlord = some o ∧ Chain ReducesHatchTime s l s' := by
  simp [update_incubation_time, reduce_hatch_time_ok] at h
  exact h

theorem set_can_start_incubation_status_ok [DecidableEq AccountId] {status : Bool}
    (h : set_can_start_incubation_status origin status s = (.ok u, s')) :
    ∃ o t, origin = .signed o ∧ s.sale.overlord = some o ∧
      plain_add T 64 s.now T.IncubationDurationSec.toNat = .ok t ∧
      s' = { s with
        incubation := { s.incubation with
          official_hatch_time := t
          can_start_incubation := status }
        events := s.events ++ [.CanStartIncubationStatusChanged status s.now t] } := by
  simp [set_can_start_incubation_status] at h
  obtain ⟨o, rfl, ho, t, ht, rfl⟩ := h
  exact ⟨o, t, rfl, ho, ht, rfl⟩

theorem set_shell_collection_id_ok [DecidableEq AccountId]
    (h : set_shell_collection_id origin c s = (.ok u, s')) :
    ∃ o, origin = .signed o ∧ s.sale.overlord = some o ∧
      s.incubation.shell_collection_id = none ∧
      s' = { s with
        incubation := { s.incubation with shell_collection_id := some c }
        events := s.events ++ [.ShellCollectionIdSet c] } := by
  simp [set_shell_collection_id] at h
  obtain ⟨o, rfl, ho, hnone, rfl⟩ := h
  exact ⟨o, rfl, ho, hnone, rfl⟩

end Incubation

end PhalaWorld
