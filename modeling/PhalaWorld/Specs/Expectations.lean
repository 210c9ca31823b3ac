import PhalaWorld.Framework.Failures
import PhalaWorld.Specs.Checked
import PhalaWorld.Specs.System

/-! # Where an expectation can fail

    Apart from the arithmetic the pallets panic in two ways: an `expect` of
    something that is not there, and the Overlord's key if it is not 32
    bytes long. `Careful` functions do neither, whatever state they run in.

    * Most functions are careful as they stand.
    * Setting attributes is, if four bytes fit into a value; checking a
      ticket is, if accounts are encoded in 32 bytes.
    * A hatch is, if the attributes it reads back are those of four keys
      that can be decoded, where they are there at all (`Legible`).
-/

namespace PhalaWorld

open Transaction

variable {AccountId : Type} {T : Config AccountId}

/-- Is it a panic other than one of the arithmetic? -/
def Failure.isExpectation {E : Type} : Failure E → Bool
  | .err _ => false
  | .panic message => message ∉ arithmetic_panics

theorem Failure.isExpectation_of_mem {E : Type} {message : String} (h : message ∈ arithmetic_panics) :
    (Failure.panic message : Failure E).isExpectation = false :=
  decide_eq_false (not_not.mpr h)

/-- No expectation fails in `x`. -/
abbrev Careful {α : Type} (x : Dispatch T α) : Prop :=
  Avoids (fun e => e.isExpectation = true) x

/-- The same where it is started in `s`. -/
abbrev CarefulAt {α : Type} (x : Dispatch T α) (s : State T) : Prop :=
  AvoidsAt (fun e => e.isExpectation = true) x s

/-! ### Primitives -/

section primitives
variable {α : Type}

theorem fail_careful {e : DispatchError T.ModuleError} :
    Careful (fail (.err e) : Dispatch T α) :=
  .fail Bool.false_ne_true

theorem ensure_careful {p : Prop} [Decidable p] {e : DispatchError T.ModuleError} :
    Careful (T := T) (ensure p (.err e)) :=
  .ensure fun _ => Bool.false_ne_true

theorem ok_or_careful {o : Option α} {e : DispatchError T.ModuleError} :
    Careful (T := T) (ok_or o (.err e)) :=
  .ok_or fun _ => Bool.false_ne_true

theorem ensure_signed_careful {origin : Origin AccountId} :
    Careful (T := T) (ensure_signed origin) := by
  cases origin with
  | signed who => exact .pure who
  | _ => exact fail_careful

theorem outside_careful (f : T.World → Except T.ModuleError T.World) :
    Careful (T := T) (outside f) := by
  intro s e s' h
  obtain ⟨m, _, rfl, _⟩ := outside_error.mp h
  exact Bool.false_ne_true

theorem outside_query_careful (f : T.World → Except T.ModuleError α) :
    Careful (T := T) (outside_query f) := by
  intro s e s' h
  obtain ⟨m, _, rfl, _⟩ := outside_query_error.mp h
  exact Bool.false_ne_true

/-- The operations panic in the ways of the arithmetic only. -/
theorem arith_careful {r : Except (Failure T.ModuleError) α}
    (h : ∀ e, r = .error e → e.isExpectation = false) : Careful (T := T) (arith r) := by
  intro s e s' hr hbad
  rw [h e (arith_error.mp hr).1] at hbad
  exact Bool.false_ne_true hbad

theorem plain_add_careful {bits a b : Nat} : Careful (T := T) (arith (plain_add T bits a b)) := by
  apply arith_careful
  intro e he
  unfold plain_add at he
  split at he
  · cases he
  · split at he
    · cases he
      exact Failure.isExpectation_of_mem (by decide)
    · cases he

theorem plain_sub_careful {bits a b : Nat} : Careful (T := T) (arith (plain_sub T bits a b)) := by
  apply arith_careful
  intro e he
  unfold plain_sub at he
  split at he
  · cases he
  · split at he
    · cases he
      exact Failure.isExpectation_of_mem (by decide)
    · cases he

theorem plain_div_careful {a b : Nat} : Careful (T := T) (arith (plain_div T a b)) := by
  apply arith_careful
  intro e he
  unfold plain_div at he
  split at he
  · cases he
    exact Failure.isExpectation_of_mem (by decide)
  · cases he

theorem plain_rem_careful {a b : Nat} : Careful (T := T) (arith (plain_rem T a b)) := by
  apply arith_careful
  intro e he
  unfold plain_rem at he
  split at he
  · cases he
    exact Failure.isExpectation_of_mem (by decide)
  · cases he

theorem expect_careful {o : Option α} {message : String} (h : o ≠ none) :
    Careful (T := T) (expect o message) :=
  .ok_or fun hnone => absurd hnone h

end primitives

/-! ### The sale pallet -/

namespace NftSale
variable {origin : Origin AccountId}

theorem get_origin_of_shell_collection_id_careful :
    Careful (T := T) get_origin_of_shell_collection_id :=
  .read fun _ => ok_or_careful

theorem get_spirit_collection_id_careful : Careful (T := T) get_spirit_collection_id :=
  .read fun _ => ok_or_careful

theorem owns_nft_in_collection_careful {a : AccountId} {c : CollectionId} :
    Careful (T := T) (owns_nft_in_collection a c) :=
  .read fun _ => .pure _

theorem overlord_careful : Careful (T := T) overlord := .read fun _ => ok_or_careful

theorem ensure_overlord_careful [DecidableEq AccountId] {a : AccountId} :
    Careful (T := T) (ensure_overlord a) :=
  .read fun _ => ensure_careful

/-- A ticket can be checked if the Overlord's key has 32 bytes. -/
theorem verify_claim_careful (hencode : ∀ a, (T.encode a).length = 32) {o a : AccountId}
    {signature : T.Signature} {purpose : Purpose} :
    Careful (verify_claim o a signature purpose) :=
  .bind (.ensure fun h => absurd (hencode o) h) fun _ => .pure _

/-- The attributes can be stored if a value has room for the four bytes of
    a generation. -/
theorem set_nft_attributes_careful (hvalue : 4 ≤ T.ValueLimit.toNat) {c : CollectionId}
    {n : NftId} {r : RarityType} {ra : RaceType} {ca : CareerType} {g : GenerationId} :
    Careful (T := T) (set_nft_attributes c n r ra ca g) := by
  have hfits (l : Bytes) (hl : l.length ≤ 4) :
      (BoundedVec.try_from l : Option T.Value) ≠ none := by
    rw [Ne, BoundedVec.try_from_eq_none]
    omega
  refine .bind overlord_careful fun o => .bind ok_or_careful fun _ => ?_
  refine .bind (expect_careful (hfits _ (by rw [RarityType.encode_length]; decide))) fun _ =>
    .bind ok_or_careful fun _ => ?_
  refine .bind (expect_careful (hfits _ (by rw [RaceType.encode_length]; decide))) fun _ =>
    .bind ok_or_careful fun _ => ?_
  refine .bind (expect_careful (hfits _ (by rw [CareerType.encode_length]; decide))) fun _ =>
    .bind ok_or_careful fun _ => ?_
  exact .bind (expect_careful (hfits (GenerationId.encode g) le_rfl)) fun _ =>
    .bind (outside_careful _) fun _ => .bind (outside_careful _) fun _ =>
    .bind (outside_careful _) fun _ => outside_careful _

theorem has_race_type_left_careful {r : RarityType} {ra : RaceType} {pool : NftSaleType} :
    Careful (T := T) (has_race_type_left r ra pool) := by
  apply Avoids.read
  intro s
  split
  · cases pool <;> exact ensure_careful
  · exact fail_careful

theorem decrement_race_type_left_careful {r : RarityType} {ra : RaceType} {pool : NftSaleType} :
    Careful (T := T) (decrement_race_type_left r ra pool) := by
  apply Avoids.read
  intro s
  split
  · cases pool <;> exact .bind plain_sub_careful fun _ => .write _
  · exact .pure ()

theorem increment_race_type_careful {r : RarityType} {ra : RaceType} :
    Careful (T := T) (increment_race_type r ra) := by
  apply Avoids.read
  intro s
  split
  · exact .bind plain_add_careful fun _ => .write _
  · exact .pure ()

theorem increment_career_type_careful {ca : CareerType} :
    Careful (T := T) (increment_career_type ca) :=
  .read fun _ => .bind plain_add_careful fun _ => .write _

theorem do_mint_spirit_nft_careful {o a : AccountId} :
    Careful (T := T) (do_mint_spirit_nft o a) :=
  .bind get_spirit_collection_id_careful fun _ =>
  .bind owns_nft_in_collection_careful fun _ =>
  .bind ensure_careful fun _ =>
  .read fun _ => .bind ok_or_careful fun _ =>
  .bind (outside_careful _) fun _ => .bind (outside_careful _) fun _ => .write _

section calls
variable (hvalue : 4 ≤ T.ValueLimit.toNat) (hencode : ∀ a, (T.encode a).length = 32)

theorem claim_spirit_careful : Careful (T := T) (claim_spirit origin) :=
  .transactional <| .bind ensure_signed_careful fun _ => .read fun _ =>
  .bind ensure_careful fun _ => .bind overlord_careful fun _ =>
  .bind ensure_careful fun _ => do_mint_spirit_nft_careful

include hencode in
theorem redeem_spirit_careful {signature : T.Signature} :
    Careful (redeem_spirit origin signature) :=
  .transactional <| .bind ensure_signed_careful fun _ => .read fun _ =>
  .bind ensure_careful fun _ => .bind overlord_careful fun _ =>
  .bind (verify_claim_careful hencode) fun _ =>
  .bind ensure_careful fun _ => do_mint_spirit_nft_careful

include hvalue in
theorem do_mint_origin_of_shell_nft_careful {o a : AccountId} {r : RarityType} {ra : RaceType}
    {ca : CareerType} {g : GenerationId} {price : Nat} {pool : NftSaleType} {check : Bool} :
    Careful (T := T) (do_mint_origin_of_shell_nft o a r ra ca g price pool check) := by
  refine .bind get_spirit_collection_id_careful fun _ =>
    .bind owns_nft_in_collection_careful fun _ => .bind ensure_careful fun _ =>
    .bind get_origin_of_shell_collection_id_careful fun _ => .bind ?_ fun _ => ?_
  · exact .when fun _ => .bind owns_nft_in_collection_careful fun _ => ensure_careful
  · exact .read fun _ => .bind (.read fun _ => ok_or_careful) fun _ =>
      .bind has_race_type_left_careful fun _ =>
      .bind (outside_careful _) fun _ => .bind (outside_careful _) fun _ =>
      .bind (set_nft_attributes_careful hvalue) fun _ =>
      .bind decrement_race_type_left_careful fun _ => .bind increment_race_type_careful fun _ =>
      .bind increment_career_type_careful fun _ => .bind (outside_careful _) fun _ => .write _

include hvalue in
theorem buy_rare_origin_of_shell_careful {r : RarityType} {ra : RaceType} {ca : CareerType} :
    Careful (T := T) (buy_rare_origin_of_shell origin r ra ca) := by
  refine .transactional <| .bind ensure_signed_careful fun _ => .read fun _ =>
    .bind ensure_careful fun _ => .bind overlord_careful fun _ => ?_
  cases r with
  | Prime => exact .bind fail_careful fun _ => do_mint_origin_of_shell_nft_careful hvalue
  | _ => exact do_mint_origin_of_shell_nft_careful hvalue

include hvalue hencode in
theorem buy_prime_origin_of_shell_careful {signature : T.Signature} {ra : RaceType}
    {ca : CareerType} : Careful (buy_prime_origin_of_shell origin signature ra ca) :=
  .transactional <| .bind ensure_signed_careful fun _ => .read fun _ =>
  .bind ensure_careful fun _ => .bind overlord_careful fun _ =>
  .bind (verify_claim_careful hencode) fun _ => .bind ensure_careful fun _ =>
  do_mint_origin_of_shell_nft_careful hvalue

end calls

/-! #### Preorders -/

theorem take_preorder_careful {id : PreorderId} : Careful (T := T) (take_preorder id) :=
  .read fun _ => .bind (.write _) fun _ => ok_or_careful

theorem for_preorders_careful {body : PreorderId → Dispatch T Unit}
    (hbody : ∀ id, Careful (body id)) (limit index : Nat) (l : List PreorderId) :
    Careful (for_preorders body limit index l) := by
  induction l generalizing index with
  | nil => exact .pure ()
  | cons id l ih =>
    unfold for_preorders
    split
    · exact .bind (hbody id) fun _ => .bind plain_add_careful fun index => ih index
    · exact .pure ()

section preorders
variable [DecidableEq AccountId]

theorem preorder_origin_of_shell_careful {ra : RaceType} {ca : CareerType} :
    Careful (T := T) (preorder_origin_of_shell origin ra ca) :=
  .transactional <| .bind ensure_signed_careful fun _ => .read fun _ =>
  .bind ensure_careful fun _ => .bind get_spirit_collection_id_careful fun _ =>
  .bind owns_nft_in_collection_careful fun _ => .bind ensure_careful fun _ =>
  .bind get_origin_of_shell_collection_id_careful fun _ =>
  .bind owns_nft_in_collection_careful fun _ => .bind ensure_careful fun _ =>
  .bind ensure_careful fun _ => .bind (.write _) fun _ =>
  .bind (.read fun _ => ok_or_careful) fun _ => .bind (outside_careful _) fun _ =>
  .bind (.write _) fun _ => .bind (.when fun _ => .write _) fun _ => .write _

theorem mint_chosen_preorders_careful (hvalue : 4 ≤ T.ValueLimit.toNat) {l : List PreorderId} :
    Careful (T := T) (mint_chosen_preorders origin l) := by
  refine .transactional <| .bind ensure_signed_careful fun _ =>
    .bind ensure_overlord_careful fun _ => .read fun _ => for_preorders_careful ?_ _ _ _
  intro id
  exact .bind take_preorder_careful fun _ => .bind (.write _) fun _ =>
    .bind (do_mint_origin_of_shell_nft_careful hvalue) fun _ =>
    .bind (.when fun _ => .write _) fun _ => .write _

theorem refund_not_chosen_preorders_careful {l : List PreorderId} :
    Careful (T := T) (refund_not_chosen_preorders origin l) := by
  refine .transactional <| .bind ensure_signed_careful fun _ =>
    .bind ensure_overlord_careful fun _ => .read fun _ => for_preorders_careful ?_ _ _ _
  intro id
  exact .bind take_preorder_careful fun _ => .bind (.write _) fun _ =>
    .bind (.when fun _ => .write _) fun _ => .write _

theorem mint_gift_origin_of_shell_careful (hvalue : 4 ≤ T.ValueLimit.toNat) {a : AccountId}
    {r : RarityType} {ra : RaceType} {ca : CareerType} {pool : NftSaleType} :
    Careful (T := T) (mint_gift_origin_of_shell origin a r ra ca pool) :=
  .transactional <| .bind ensure_signed_careful fun _ => .bind ensure_overlord_careful fun _ =>
  .bind ensure_careful fun _ => .bind (do_mint_origin_of_shell_nft_careful hvalue) fun _ =>
  .write _

/-! #### Administration -/

omit [DecidableEq AccountId] in
theorem set_overlord_careful {o : AccountId} : Careful (T := T) (set_overlord origin o) :=
  .bind ensure_careful fun _ => .read fun _ => .bind (.write _) fun _ => .write _

theorem initialize_world_clock_careful : Careful (T := T) (initialize_world_clock origin) :=
  .bind ensure_signed_careful fun _ => .bind ensure_overlord_careful fun _ => .read fun _ =>
  .bind ensure_careful fun _ => .bind plain_rem_careful fun _ =>
  .bind plain_sub_careful fun _ => .bind (.write _) fun _ => .write _

theorem set_status_type_careful {status : Bool} {status_type : StatusType} :
    Careful (T := T) (set_status_type origin status status_type) := by
  refine .bind ensure_signed_careful fun _ => .bind ensure_overlord_careful fun _ => ?_
  cases status_type <;> exact .bind (.write _) fun _ => .write _

theorem init_rarity_type_counts_careful : Careful (T := T) (init_rarity_type_counts origin) := by
  refine .bind ensure_signed_careful fun _ => .bind ensure_overlord_careful fun _ =>
    .bind ?_ fun _ => .write _
  exact .read fun _ => .bind ensure_careful fun _ =>
    .bind (.write _) fun _ => .bind (.write _) fun _ => .bind (.write _) fun _ =>
    .bind (.write _) fun _ => .bind (.write _) fun _ => .bind (.write _) fun _ =>
    .bind (.write _) fun _ => .bind (.write _) fun _ => .bind (.write _) fun _ =>
    .bind (.write _) fun _ => .bind (.write _) fun _ => .bind (.write _) fun _ => .write _

theorem update_rarity_type_counts_careful {r : RarityType} {fs g : Nat} :
    Careful (T := T) (update_rarity_type_counts origin r fs g) :=
  .bind ensure_signed_careful fun _ => .bind ensure_overlord_careful fun _ =>
  .bind ensure_careful fun _ => .bind (.write _) fun _ => .bind (.write _) fun _ =>
  .bind (.write _) fun _ => .bind (.write _) fun _ => .write _

theorem set_spirit_collection_id_careful {c : CollectionId} :
    Careful (T := T) (set_spirit_collection_id origin c) :=
  .bind ensure_signed_careful fun _ => .bind ensure_overlord_careful fun _ => .read fun _ =>
  .bind ensure_careful fun _ => .bind (.write _) fun _ => .write _

theorem set_origin_of_shell_collection_id_careful {c : CollectionId} :
    Careful (T := T) (set_origin_of_shell_collection_id origin c) :=
  .bind ensure_signed_careful fun _ => .bind ensure_overlord_careful fun _ => .read fun _ =>
  .bind ensure_careful fun _ => .bind (.write _) fun _ => .write _

theorem pw_create_collection_careful {md : T.Metadata} {max : Option Nat} {symbol : Bytes} :
    Careful (T := T) (pw_create_collection origin md max symbol) :=
  .transactional <| .bind ensure_signed_careful fun _ => .bind ensure_overlord_careful fun _ =>
  outside_careful _

theorem set_spirits_metadata_careful {md : T.Metadata} :
    Careful (T := T) (set_spirits_metadata origin md) :=
  .bind ensure_signed_careful fun _ => .bind ensure_overlord_careful fun _ =>
  .bind (.write _) fun _ => .write _

theorem set_origin_of_shells_metadata_careful {l : List (RaceType × T.Metadata)} :
    Careful (T := T) (set_origin_of_shells_metadata origin l) :=
  .bind ensure_signed_careful fun _ => .bind ensure_overlord_careful fun _ =>
  .bind (.forEach (fun _ => .write _) l) fun _ => .write _

end preorders

theorem on_finalize_careful : Careful (T := T) on_finalize := by
  apply Avoids.read
  intro s
  split
  · exact .pure ()
  · exact .when fun _ => .bind plain_sub_careful fun _ => .bind plain_div_careful fun _ =>
      .when fun _ => .bind plain_add_careful fun _ => .bind (.write _) fun _ => .write _

end NftSale

/-! ### The incubation pallet -/

/-- If `key` is one of the four, `value` can be decoded. -/
structure Readable (key value : Bytes) : Prop where
  rarity_type : key = NftSale.rarity_key → RarityType.decode value ≠ none
  race : key = NftSale.race_key → RaceType.decode value ≠ none
  career : key = NftSale.career_key → CareerType.decode value ≠ none
  generation : key = NftSale.generation_key → GenerationId.decode value ≠ none

/-- The attributes of the items of `c` can be decoded. -/
def Legible (c : CollectionId) (w : T.World) : Prop :=
  ∀ n key value, T.attribute_bytes w (c, n) key = some value → Readable key value

namespace Incubation
variable {origin : Origin AccountId} {c : CollectionId} {n : NftId}

theorem is_origin_of_shell_collection_id_careful :
    Careful (T := T) (is_origin_of_shell_collection_id c) := by
  apply Avoids.read
  intro s
  split <;> exact .pure _

theorem get_hatch_time_careful : Careful (T := T) (get_hatch_time c n) :=
  .read fun _ => ok_or_careful

theorem can_hatch_careful {t : Nat} : Careful (T := T) (can_hatch t) :=
  .read fun _ => .pure _

theorem get_shell_collection_id_careful : Careful (T := T) get_shell_collection_id :=
  .read fun _ => ok_or_careful

theorem update_food_info_careful {era : EraId} {x : CollectionId × NftId} {food : Option (Food T)} :
    Careful (T := T) (update_food_info era x food) := by
  have hpush {food : Food T} : Careful (T := T) (do
      let fed ← ok_or (food.origin_of_shells_fed.try_push x) Error.FoodInfoUpdateError.into
      pure { food with origin_of_shells_fed := fed }) :=
    .bind ok_or_careful fun _ => .pure _
  unfold update_food_info
  split
  · exact hpush
  · split
    · exact hpush
    · exact .bind ensure_careful fun _ => hpush

variable [DecidableEq AccountId]

theorem start_incubation_careful : Careful (T := T) (start_incubation origin c n) := by
  refine .transactional <| .bind ensure_signed_careful fun _ => .read fun _ =>
    .bind ensure_careful fun _ => .bind is_origin_of_shell_collection_id_careful fun _ =>
    .bind ensure_careful fun _ => .bind ?_ fun _ => .bind ensure_careful fun _ =>
    .bind ensure_careful fun _ => .bind (.write _) fun _ => .write _
  apply Avoids.read
  intro s
  split <;> exact .pure _

theorem feed_origin_of_shell_careful : Careful (T := T) (feed_origin_of_shell origin c n) :=
  .transactional <| .bind ensure_signed_careful fun _ => .read fun _ =>
  .bind ensure_careful fun _ => .bind is_origin_of_shell_collection_id_careful fun _ =>
  .bind ensure_careful fun _ => .bind get_hatch_time_careful fun _ =>
  .bind can_hatch_careful fun _ => .bind ensure_careful fun _ => .bind ensure_careful fun _ =>
  .bind update_food_info_careful fun _ => .bind (.write _) fun _ =>
  .bind plain_add_careful fun _ => .bind (.write _) fun _ => .write _

omit [DecidableEq AccountId] in
/-- Keys that are built fit, or the call fails. -/
theorem to_boundedvec_key_careful {key : Bytes} :
    Careful (T := T) (NftSale.to_boundedvec_key key) := ok_or_careful

omit [DecidableEq AccountId] in
/-- An attribute that is there is decoded. -/
theorem expect_decoded_careful {α : Type} {decode : Bytes → Option α} {message : String}
    {key : Bytes} {k : T.Key} {v : T.Value} {s : State T} (hk : k.1 = key)
    (hv : T.uniques_attribute s.world c n k = some v)
    (hdecode : ∀ value, T.attribute_bytes s.world (c, n) key = some value → decode value ≠ none) :
    Careful (T := T) (expect (decode v.1) message) := by
  apply expect_careful
  apply hdecode
  rw [Config.attribute_bytes, BoundedVec.try_from_eq_some.mpr hk, Option.bind_some, hv]
  rfl

omit [DecidableEq AccountId] in
theorem read_attributes_careful {s : State T} (hlegible : Legible c s.world) {kr kc kt kg : T.Key}
    (hr : kr.1 = NftSale.race_key) (hc : kc.1 = NftSale.career_key)
    (ht : kt.1 = NftSale.rarity_key) (hg : kg.1 = NftSale.generation_key) :
    CarefulAt (read_attributes c n kr kc kt kg) s := by
  apply AvoidsAt.read
  apply AvoidsAt.look (.of_avoids ok_or_careful) (by simp)
  intro race hrace
  apply AvoidsAt.look (.of_avoids ok_or_careful) (by simp)
  intro career hcareer
  apply AvoidsAt.look (.of_avoids ok_or_careful) (by simp)
  intro rarity_type hrarity
  apply AvoidsAt.look (.of_avoids ok_or_careful) (by simp)
  intro generation hgeneration
  rw [ok_or_ok] at hrace hcareer hrarity hgeneration
  apply AvoidsAt.bind (.of_avoids (expect_decoded_careful hr hrace.1 ?_))
  · refine fun _ => .bind (expect_decoded_careful hc hcareer.1 ?_) fun _ =>
      .bind (expect_decoded_careful ht hrarity.1 ?_) fun _ =>
      .bind (expect_decoded_careful hg hgeneration.1 ?_) fun _ => .pure _
    · exact fun value hvalue => (hlegible n _ value hvalue).career rfl
    · exact fun value hvalue => (hlegible n _ value hvalue).rarity_type rfl
    · exact fun value hvalue => (hlegible n _ value hvalue).generation rfl
  · exact fun value hvalue => (hlegible n _ value hvalue).race rfl

/-- A hatch looks around in the state it was called in until it has read the
    attributes. -/
theorem hatch_origin_of_shell_careful (hvalue : 4 ≤ T.ValueLimit.toNat) {md : T.Metadata}
    {s : State T}
    (hlegible : s.sale.origin_of_shell_collection_id = some c → Legible c s.world) :
    CarefulAt (T := T) (hatch_origin_of_shell origin c n md) s := by
  apply AvoidsAt.transactional
  apply AvoidsAt.look (.of_avoids ensure_signed_careful) (by simp)
  intro o _
  apply AvoidsAt.look (.of_avoids NftSale.ensure_overlord_careful) (by simp)
  intro _ _
  apply AvoidsAt.read
  apply AvoidsAt.look (.of_avoids ensure_careful) (by simp)
  intro _ _
  apply AvoidsAt.look (.of_avoids is_origin_of_shell_collection_id_careful) (by simp)
  intro right hright
  apply AvoidsAt.look (.of_avoids ensure_careful) (by simp)
  intro _ hensured
  rw [is_origin_of_shell_collection_id_ok] at hright
  rw [ensure_ok, hright.1, decide_eq_true_iff] at hensured
  apply AvoidsAt.look (.of_avoids (outside_query_careful _)) (by simp)
  intro owner _
  apply AvoidsAt.look (.of_avoids get_hatch_time_careful) (by simp)
  intro hatch_time _
  apply AvoidsAt.look (.of_avoids can_hatch_careful) (by simp)
  intro hatched _
  apply AvoidsAt.look (.of_avoids ensure_careful) (by simp)
  intro _ _
  apply AvoidsAt.look (.of_avoids get_shell_collection_id_careful) (by simp)
  intro sc _
  apply AvoidsAt.look (.of_avoids to_boundedvec_key_careful) (by simp)
  intro kr hr
  apply AvoidsAt.look (.of_avoids to_boundedvec_key_careful) (by simp)
  intro kc hc
  apply AvoidsAt.look (.of_avoids to_boundedvec_key_careful) (by simp)
  intro kt ht
  apply AvoidsAt.look (.of_avoids to_boundedvec_key_careful) (by simp)
  intro kg hg
  rw [NftSale.to_boundedvec_key_ok] at hr hc ht hg
  apply AvoidsAt.bind (read_attributes_careful (hlegible hensured.1) hr.1 hc.1 ht.1 hg.1)
  exact fun t => .bind (outside_careful _) fun _ => .bind (outside_careful _) fun _ =>
    .bind (outside_careful _) fun _ => .bind (outside_careful _) fun _ =>
    .bind (outside_careful _) fun _ => .bind (outside_careful _) fun _ =>
    .bind (NftSale.set_nft_attributes_careful hvalue) fun _ => .write _

theorem update_incubation_time_careful {l : List ((CollectionId × NftId) × Nat)} :
    Careful (T := T) (update_incubation_time origin l) := by
  refine .transactional <| .bind ensure_signed_careful fun _ =>
    .bind NftSale.ensure_overlord_careful fun _ => .forEach ?_ l
  intro x
  exact .bind is_origin_of_shell_collection_id_careful fun _ => .bind ensure_careful fun _ =>
    .bind get_hatch_time_careful fun _ => .bind (.write _) fun _ => .write _

theorem set_can_start_incubation_status_careful {status : Bool} :
    Careful (T := T) (set_can_start_incubation_status origin status) :=
  .bind ensure_signed_careful fun _ => .bind NftSale.ensure_overlord_careful fun _ =>
  .read fun _ => .bind plain_add_careful fun _ => .bind (.write _) fun _ =>
  .bind (.write _) fun _ => .write _

theorem set_shell_collection_id_careful :
    Careful (T := T) (set_shell_collection_id origin c) :=
  .bind ensure_signed_careful fun _ => .bind NftSale.ensure_overlord_careful fun _ =>
  .read fun _ => .bind ensure_careful fun _ => .bind (.write _) fun _ => .write _

end Incubation

end PhalaWorld
