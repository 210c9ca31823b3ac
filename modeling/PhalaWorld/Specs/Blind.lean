import PhalaWorld.Framework.Lockstep
import PhalaWorld.Specs.System

/-! # What the pallets do not look at

    Neither pallet reads the events, and the sale pallet reads nothing of
    the incubation. So a function does the same in a state with other events
    before its own, and a function of the sale does the same whatever the
    storage of the incubation is.

    * `State.beside`: the state with other events and another incubation.
    * `Blind`: a function does the same in both.
    * `step_blind`: so does every step that is not a call of the incubation.
    * `step_unread`: every step does the same whatever the events are.
-/

namespace PhalaWorld

open LTS Transaction

variable {AccountId : Type} {T : Config AccountId}

/-- The state with `evs` before its events, and the incubation changed. -/
def State.beside (f : IncubationStorage T → IncubationStorage T) (evs : List (Event T))
    (s : State T) : State T :=
  { s with incubation := f s.incubation, events := evs ++ s.events }

/-- Any incubation and any events may stand beside a state without events. -/
theorem State.beside_bare (s : State T) (i : IncubationStorage T) (evs : List (Event T)) :
    State.beside (fun _ => i) evs { s with events := [] } =
      { s with incubation := i, events := evs } := by
  unfold State.beside
  dsimp only
  rw [List.append_nil]

/-- `x` does the same beside `f` and `evs`. -/
abbrev Blind {α : Type} (f : IncubationStorage T → IncubationStorage T) (evs : List (Event T))
    (x : Dispatch T α) (s : State T) : Prop :=
  Lockstep (State.beside f evs) (fun _ => False) x x s

variable {f : IncubationStorage T → IncubationStorage T} {evs : List (Event T)}

/-! ### Primitives -/

section primitives
variable {α : Type} {s : State T}

theorem fail_blind {e : Failure T.ModuleError} : Blind f evs (fail e : Dispatch T α) s :=
  .fail not_false

theorem ensure_blind {p : Prop} [Decidable p] {e : Failure T.ModuleError} :
    Blind f evs (ensure p e) s :=
  .ensure not_false

theorem ok_or_blind {o : Option α} {e : Failure T.ModuleError} : Blind f evs (ok_or o e) s :=
  .ok_or not_false

theorem ensure_signed_blind {origin : Origin AccountId} :
    Blind (T := T) f evs (ensure_signed origin) s := by
  cases origin with
  | signed who => exact .pure who
  | _ => exact fail_blind

theorem put_sale_blind {g : NftSaleStorage T → NftSaleStorage T} : Blind f evs (put_sale g) s :=
  .write rfl

theorem put_incubation_unread {g : IncubationStorage T → IncubationStorage T} :
    Blind id evs (put_incubation g) s :=
  .write rfl

theorem deposit_event_blind {event : Event T} : Blind f evs (deposit_event event) s :=
  .write (by simp only [State.beside, List.append_assoc])

theorem outside_blind {g : T.World → Except T.ModuleError T.World} :
    Blind f evs (outside g) s := by
  have hworld : (s.beside f evs).world = s.world := rfl
  apply Lockstep.attempt
  · rw [hworld]
    cases g s.world <;> rfl
  · exact fun _ _ => not_false

theorem outside_infallible_blind {g : T.World → T.World} :
    Blind f evs (outside_infallible g) s :=
  .write rfl

theorem outside_query_blind {g : T.World → Except T.ModuleError α} :
    Blind f evs (outside_query g) s := by
  have hworld : (s.beside f evs).world = s.world := rfl
  refine ⟨?_, fun _ _ => not_false⟩
  unfold outside_query
  rw [hworld]
  cases g s.world <;> rfl

theorem arith_blind {r : Except (Failure T.ModuleError) α} : Blind f evs (arith r) s :=
  ⟨rfl, fun _ _ => not_false⟩

theorem forEach_blind {β : Type} {x : β → Dispatch T Unit} (h : ∀ b s, Blind f evs (x b) s)
    (l : List β) : Blind f evs (forEach x l) s :=
  .forEach (I := fun _ => True) (fun _ _ _ _ _ => trivial) (fun b s _ => h b s) l trivial

end primitives

/-! ### The sale pallet -/

namespace NftSale
variable {s : State T} {origin : Origin AccountId}

theorem get_origin_of_shell_collection_id_blind :
    Blind (T := T) f evs get_origin_of_shell_collection_id s :=
  .read ok_or_blind

theorem get_spirit_collection_id_blind : Blind (T := T) f evs get_spirit_collection_id s :=
  .read ok_or_blind

theorem owns_nft_in_collection_blind {a : AccountId} {c : CollectionId} :
    Blind (T := T) f evs (owns_nft_in_collection a c) s :=
  .read (.pure _)

theorem to_boundedvec_key_blind {name : Bytes} :
    Blind (T := T) f evs (to_boundedvec_key name) s :=
  ok_or_blind

theorem get_origin_of_shell_metadata_blind {race : RaceType} :
    Blind (T := T) f evs (get_origin_of_shell_metadata race) s :=
  .read ok_or_blind

theorem overlord_blind : Blind (T := T) f evs overlord s := .read ok_or_blind

theorem ensure_overlord_blind [DecidableEq AccountId] {a : AccountId} :
    Blind (T := T) f evs (ensure_overlord a) s :=
  .read ensure_blind

theorem verify_claim_blind {o a : AccountId} {signature : T.Signature} {purpose : Purpose} :
    Blind f evs (verify_claim o a signature purpose) s :=
  .seq ensure_blind fun _ _ => .pure _

theorem set_nft_attributes_blind {c : CollectionId} {n : NftId} {r : RarityType} {ra : RaceType}
    {ca : CareerType} {g : GenerationId} :
    Blind (T := T) f evs (set_nft_attributes c n r ra ca g) s :=
  .seq overlord_blind fun _ _ =>
  .seq to_boundedvec_key_blind fun _ _ => .seq ok_or_blind fun _ _ =>
  .seq to_boundedvec_key_blind fun _ _ => .seq ok_or_blind fun _ _ =>
  .seq to_boundedvec_key_blind fun _ _ => .seq ok_or_blind fun _ _ =>
  .seq to_boundedvec_key_blind fun _ _ => .seq ok_or_blind fun _ _ =>
  .seq outside_blind fun _ _ => .seq outside_blind fun _ _ =>
  .seq outside_blind fun _ _ => outside_blind

/-! ### Inventory and minting -/

theorem set_initial_origin_of_shell_inventory_blind :
    Blind (T := T) f evs set_initial_origin_of_shell_inventory s :=
  .read <| .seq ensure_blind fun _ _ =>
  .seq put_sale_blind fun _ _ => .seq put_sale_blind fun _ _ => .seq put_sale_blind fun _ _ =>
  .seq put_sale_blind fun _ _ => .seq put_sale_blind fun _ _ => .seq put_sale_blind fun _ _ =>
  .seq put_sale_blind fun _ _ => .seq put_sale_blind fun _ _ => .seq put_sale_blind fun _ _ =>
  .seq put_sale_blind fun _ _ => .seq put_sale_blind fun _ _ => .seq put_sale_blind fun _ _ =>
  put_sale_blind

theorem has_race_type_left_blind {r : RarityType} {ra : RaceType} {pool : NftSaleType} :
    Blind (T := T) f evs (has_race_type_left r ra pool) s := by
  have hsale : (s.beside f evs).sale = s.sale := rfl
  apply Lockstep.read
  rw [hsale]
  cases s.sale.origin_of_shells_inventory (r, ra) with
  | none => exact fail_blind
  | some i => cases pool <;> exact ensure_blind

theorem decrement_race_type_left_blind {r : RarityType} {ra : RaceType} {pool : NftSaleType} :
    Blind (T := T) f evs (decrement_race_type_left r ra pool) s := by
  have hsale : (s.beside f evs).sale = s.sale := rfl
  apply Lockstep.read
  rw [hsale]
  cases s.sale.origin_of_shells_inventory (r, ra) with
  | none => exact .pure ()
  | some i => cases pool <;> exact .seq arith_blind fun _ _ => put_sale_blind

theorem increment_race_type_blind {r : RarityType} {ra : RaceType} :
    Blind (T := T) f evs (increment_race_type r ra) s := by
  have hsale : (s.beside f evs).sale = s.sale := rfl
  apply Lockstep.read
  rw [hsale]
  cases s.sale.origin_of_shells_inventory (r, ra) with
  | none => exact .pure ()
  | some i => exact .seq arith_blind fun _ _ => put_sale_blind

theorem increment_career_type_blind {ca : CareerType} :
    Blind (T := T) f evs (increment_career_type ca) s :=
  .read <| .seq arith_blind fun _ _ => put_sale_blind

theorem do_mint_spirit_nft_blind {o a : AccountId} :
    Blind (T := T) f evs (do_mint_spirit_nft o a) s :=
  .seq get_spirit_collection_id_blind fun _ _ =>
  .seq owns_nft_in_collection_blind fun _ _ =>
  .seq ensure_blind fun _ _ =>
  .read <| .seq ok_or_blind fun _ _ =>
  .seq outside_blind fun _ _ =>
  .seq outside_blind fun _ _ => deposit_event_blind

theorem do_mint_origin_of_shell_nft_blind {o a : AccountId} {r : RarityType} {ra : RaceType}
    {ca : CareerType} {g : GenerationId} {price : Nat} {pool : NftSaleType} {check : Bool} :
    Blind (T := T) f evs (do_mint_origin_of_shell_nft o a r ra ca g price pool check) s :=
  .seq get_spirit_collection_id_blind fun _ _ =>
  .seq owns_nft_in_collection_blind fun _ _ =>
  .seq ensure_blind fun _ _ =>
  .seq get_origin_of_shell_collection_id_blind fun _ _ =>
  .seq (.when fun _ => .seq owns_nft_in_collection_blind fun _ _ => ensure_blind) fun _ _ =>
  .read <| .seq get_origin_of_shell_metadata_blind fun _ _ =>
  .seq has_race_type_left_blind fun _ _ =>
  .seq outside_blind fun _ _ =>
  .seq outside_blind fun _ _ =>
  .seq set_nft_attributes_blind fun _ _ =>
  .seq decrement_race_type_left_blind fun _ _ =>
  .seq increment_race_type_blind fun _ _ =>
  .seq increment_career_type_blind fun _ _ =>
  .seq outside_blind fun _ _ => deposit_event_blind

/-! ### Spirits and purchases -/

theorem claim_spirit_blind : Blind (T := T) f evs (claim_spirit origin) s :=
  .transactional <| .seq ensure_signed_blind fun _ _ =>
  .read <| .seq ensure_blind fun _ _ =>
  .seq overlord_blind fun _ _ =>
  .seq ensure_blind fun _ _ => do_mint_spirit_nft_blind

theorem redeem_spirit_blind {signature : T.Signature} :
    Blind f evs (redeem_spirit origin signature) s :=
  .transactional <| .seq ensure_signed_blind fun _ _ =>
  .read <| .seq ensure_blind fun _ _ =>
  .seq overlord_blind fun _ _ =>
  .seq verify_claim_blind fun _ _ =>
  .seq ensure_blind fun _ _ => do_mint_spirit_nft_blind

theorem buy_rare_origin_of_shell_blind {r : RarityType} {ra : RaceType} {ca : CareerType} :
    Blind (T := T) f evs (buy_rare_origin_of_shell origin r ra ca) s := by
  refine .transactional <| .seq ensure_signed_blind fun _ _ =>
    .read <| .seq ensure_blind fun _ _ => .seq overlord_blind fun _ _ => ?_
  cases r with
  | Prime => exact .seq fail_blind fun _ _ => do_mint_origin_of_shell_nft_blind
  | _ => exact .seq (.pure _) fun _ _ => do_mint_origin_of_shell_nft_blind

theorem buy_prime_origin_of_shell_blind {signature : T.Signature} {ra : RaceType}
    {ca : CareerType} : Blind f evs (buy_prime_origin_of_shell origin signature ra ca) s :=
  .transactional <| .seq ensure_signed_blind fun _ _ =>
  .read <| .seq ensure_blind fun _ _ =>
  .seq overlord_blind fun _ _ =>
  .seq verify_claim_blind fun _ _ =>
  .seq ensure_blind fun _ _ => do_mint_origin_of_shell_nft_blind

/-! ### Preorders and gifts -/

section preorders
variable [DecidableEq AccountId]

theorem preorder_origin_of_shell_blind {ra : RaceType} {ca : CareerType} :
    Blind (T := T) f evs (preorder_origin_of_shell origin ra ca) s :=
  .transactional <| .seq ensure_signed_blind fun _ _ =>
  .read <| .seq ensure_blind fun _ _ =>
  .seq get_spirit_collection_id_blind fun _ _ =>
  .seq owns_nft_in_collection_blind fun _ _ =>
  .seq ensure_blind fun _ _ =>
  .seq get_origin_of_shell_collection_id_blind fun _ _ =>
  .seq owns_nft_in_collection_blind fun _ _ =>
  .seq ensure_blind fun _ _ =>
  .seq ensure_blind fun _ _ =>
  .seq put_sale_blind fun _ _ =>
  .seq get_origin_of_shell_metadata_blind fun _ _ =>
  .seq outside_blind fun _ _ =>
  .seq put_sale_blind fun _ _ =>
  .seq (.when fun _ => put_sale_blind) fun _ _ => deposit_event_blind

omit [DecidableEq AccountId] in
theorem take_preorder_blind {p : PreorderId} : Blind (T := T) f evs (take_preorder p) s :=
  .read <| .seq put_sale_blind fun _ _ => ok_or_blind

omit [DecidableEq AccountId] in
theorem for_preorders_blind {body : PreorderId → Dispatch T Unit} {iter_limit index : Nat}
    {l : List PreorderId} (h : ∀ p s, Blind f evs (body p) s) :
    Blind f evs (for_preorders body iter_limit index l) s := by
  induction l generalizing index s with
  | nil => exact .pure ()
  | cons p l ih =>
    unfold for_preorders
    split
    · exact .seq (h p s) fun _ _ => .seq arith_blind fun _ _ => ih
    · exact .pure ()

theorem mint_chosen_preorder_blind {a : AccountId} {price : Nat} {last : Bool} {p : PreorderId} :
    Blind (T := T) f evs (mint_chosen_preorder a price last p) s :=
  .seq take_preorder_blind fun _ _ =>
  .seq outside_infallible_blind fun _ _ =>
  .seq do_mint_origin_of_shell_nft_blind fun _ _ =>
  .seq (.when fun _ => put_sale_blind) fun _ _ => deposit_event_blind

theorem mint_chosen_preorders_blind {l : List PreorderId} :
    Blind (T := T) f evs (mint_chosen_preorders origin l) s :=
  .transactional <| .seq ensure_signed_blind fun _ _ =>
  .seq ensure_overlord_blind fun _ _ =>
  .read <| for_preorders_blind fun _ _ => mint_chosen_preorder_blind

theorem refund_not_chosen_preorder_blind {price : Nat} {last : Bool} {p : PreorderId} :
    Blind (T := T) f evs (refund_not_chosen_preorder price last p) s :=
  .seq take_preorder_blind fun _ _ =>
  .seq outside_infallible_blind fun _ _ =>
  .seq (.when fun _ => put_sale_blind) fun _ _ => deposit_event_blind

theorem refund_not_chosen_preorders_blind {l : List PreorderId} :
    Blind (T := T) f evs (refund_not_chosen_preorders origin l) s :=
  .transactional <| .seq ensure_signed_blind fun _ _ =>
  .seq ensure_overlord_blind fun _ _ =>
  .read <| for_preorders_blind fun _ _ => refund_not_chosen_preorder_blind

theorem mint_gift_origin_of_shell_blind {a : AccountId} {r : RarityType} {ra : RaceType}
    {ca : CareerType} {pool : NftSaleType} :
    Blind (T := T) f evs (mint_gift_origin_of_shell origin a r ra ca pool) s :=
  .transactional <| .seq ensure_signed_blind fun _ _ =>
  .seq ensure_overlord_blind fun _ _ =>
  .seq ensure_blind fun _ _ =>
  .seq do_mint_origin_of_shell_nft_blind fun _ _ => deposit_event_blind

/-! ### Administration -/

omit [DecidableEq AccountId] in
theorem set_overlord_blind {o : AccountId} : Blind (T := T) f evs (set_overlord origin o) s :=
  .seq ensure_blind fun _ _ =>
  .read <| .seq put_sale_blind fun _ _ => deposit_event_blind

theorem initialize_world_clock_blind : Blind (T := T) f evs (initialize_world_clock origin) s :=
  .seq ensure_signed_blind fun _ _ =>
  .seq ensure_overlord_blind fun _ _ =>
  .read <| .seq ensure_blind fun _ _ =>
  .seq arith_blind fun _ _ =>
  .seq arith_blind fun _ _ =>
  .seq put_sale_blind fun _ _ => deposit_event_blind

theorem set_status_type_blind {status : Bool} {status_type : StatusType} :
    Blind (T := T) f evs (set_status_type origin status status_type) s := by
  refine .seq ensure_signed_blind fun _ _ => .seq ensure_overlord_blind fun _ _ => ?_
  cases status_type <;> exact .seq put_sale_blind fun _ _ => deposit_event_blind

theorem init_rarity_type_counts_blind : Blind (T := T) f evs (init_rarity_type_counts origin) s :=
  .seq ensure_signed_blind fun _ _ =>
  .seq ensure_overlord_blind fun _ _ =>
  .seq set_initial_origin_of_shell_inventory_blind fun _ _ => deposit_event_blind

theorem update_rarity_type_counts_blind {r : RarityType} {fs g : Nat} :
    Blind (T := T) f evs (update_rarity_type_counts origin r fs g) s :=
  .seq ensure_signed_blind fun _ _ =>
  .seq ensure_overlord_blind fun _ _ =>
  .seq ensure_blind fun _ _ =>
  .seq put_sale_blind fun _ _ => .seq put_sale_blind fun _ _ =>
  .seq put_sale_blind fun _ _ => .seq put_sale_blind fun _ _ => deposit_event_blind

theorem set_spirit_collection_id_blind {c : CollectionId} :
    Blind (T := T) f evs (set_spirit_collection_id origin c) s :=
  .seq ensure_signed_blind fun _ _ =>
  .seq ensure_overlord_blind fun _ _ =>
  .read <| .seq ensure_blind fun _ _ =>
  .seq put_sale_blind fun _ _ => deposit_event_blind

theorem set_origin_of_shell_collection_id_blind {c : CollectionId} :
    Blind (T := T) f evs (set_origin_of_shell_collection_id origin c) s :=
  .seq ensure_signed_blind fun _ _ =>
  .seq ensure_overlord_blind fun _ _ =>
  .read <| .seq ensure_blind fun _ _ =>
  .seq put_sale_blind fun _ _ => deposit_event_blind

theorem pw_create_collection_blind {md : T.Metadata} {max : Option Nat} {symbol : Bytes} :
    Blind f evs (pw_create_collection origin md max symbol) s :=
  .transactional <| .seq ensure_signed_blind fun _ _ =>
  .seq ensure_overlord_blind fun _ _ => outside_blind

theorem set_spirits_metadata_blind {md : T.Metadata} :
    Blind f evs (set_spirits_metadata origin md) s :=
  .seq ensure_signed_blind fun _ _ =>
  .seq ensure_overlord_blind fun _ _ =>
  .seq put_sale_blind fun _ _ => deposit_event_blind

theorem set_origin_of_shells_metadata_blind {l : List (RaceType × T.Metadata)} :
    Blind f evs (set_origin_of_shells_metadata origin l) s :=
  .seq ensure_signed_blind fun _ _ =>
  .seq ensure_overlord_blind fun _ _ =>
  .seq (forEach_blind (fun _ _ => put_sale_blind) _) fun _ _ => deposit_event_blind

omit [DecidableEq AccountId] in
theorem on_finalize_blind : Blind (T := T) f evs on_finalize s := by
  have hsale : (s.beside f evs).sale = s.sale := rfl
  apply Lockstep.read
  rw [hsale]
  cases s.sale.zero_day with
  | none => exact .pure ()
  | some zero_day =>
    exact .when fun _ => .seq arith_blind fun _ _ => .seq arith_blind fun _ _ =>
      .when fun _ => .seq arith_blind fun _ _ => .seq put_sale_blind fun _ _ =>
        deposit_event_blind

end preorders

end NftSale

/-! ### The incubation pallet -/

namespace Incubation
variable {s : State T} {origin : Origin AccountId} {c : CollectionId} {n : NftId}

theorem is_origin_of_shell_collection_id_unread :
    Blind (T := T) id evs (is_origin_of_shell_collection_id c) s := by
  have hsale : (s.beside id evs).sale = s.sale := rfl
  apply Lockstep.read
  rw [hsale]
  cases s.sale.origin_of_shell_collection_id <;> exact .pure _

theorem get_hatch_time_unread : Blind (T := T) id evs (get_hatch_time c n) s :=
  .read ok_or_blind

theorem can_hatch_unread {t : Nat} : Blind (T := T) id evs (can_hatch t) s :=
  .read (.pure _)

theorem update_food_info_unread {era : EraId} {x : CollectionId × NftId}
    {food : Option (FoodInfo (BoundedVec (CollectionId × NftId) T.FoodPerEra))} :
    Blind id evs (update_food_info era x food) s := by
  -- what is left to do once the record is there
  have hpush (record : FoodInfo (BoundedVec (CollectionId × NftId) T.FoodPerEra)) (s : State T) :
      Blind id evs (ok_or (record.origin_of_shells_fed.try_push x) Error.FoodInfoUpdateError.into >>=
          fun fed => pure { record with origin_of_shells_fed := fed }) s :=
    .seq ok_or_blind fun _ _ => .pure _
  cases food with
  | none => exact .seq (.pure _) hpush
  | some food =>
    unfold update_food_info
    dsimp only
    split
    · exact .seq (.pure _) hpush
    · exact .seq ensure_blind fun _ _ => .seq (.pure _) hpush

theorem read_attributes_unread {race_key career_key rarity_type_key generation_key : T.Key} :
    Blind id evs (read_attributes c n race_key career_key rarity_type_key generation_key) s :=
  .read <| .seq ok_or_blind fun _ _ => .seq ok_or_blind fun _ _ =>
  .seq ok_or_blind fun _ _ => .seq ok_or_blind fun _ _ =>
  .seq ok_or_blind fun _ _ => .seq ok_or_blind fun _ _ =>
  .seq ok_or_blind fun _ _ => .seq ok_or_blind fun _ _ => .pure _

theorem reduce_hatch_time_unread {x : (CollectionId × NftId) × Nat} :
    Blind (T := T) id evs (reduce_hatch_time x) s :=
  .seq is_origin_of_shell_collection_id_unread fun _ _ =>
  .seq ensure_blind fun _ _ =>
  .seq get_hatch_time_unread fun _ _ =>
  .seq put_incubation_unread fun _ _ => deposit_event_blind

variable [DecidableEq AccountId]

theorem is_owner_unread {a : AccountId} : Blind (T := T) id evs (is_owner a c n) s := by
  have hworld : (s.beside id evs).world = s.world := rfl
  apply Lockstep.read
  rw [hworld]
  cases T.uniques_owner s.world c n <;> exact .pure _

theorem start_incubation_unread : Blind (T := T) id evs (start_incubation origin c n) s :=
  .transactional <| .seq ensure_signed_blind fun _ _ =>
  .read <| .seq ensure_blind fun _ _ =>
  .seq is_origin_of_shell_collection_id_unread fun _ _ =>
  .seq ensure_blind fun _ _ =>
  .seq is_owner_unread fun _ _ =>
  .seq ensure_blind fun _ _ =>
  .seq ensure_blind fun _ _ =>
  .seq put_incubation_unread fun _ _ => deposit_event_blind

theorem feed_origin_of_shell_unread :
    Blind (T := T) id evs (feed_origin_of_shell origin c n) s :=
  .transactional <| .seq ensure_signed_blind fun _ _ =>
  .read <| .seq ensure_blind fun _ _ =>
  .seq is_origin_of_shell_collection_id_unread fun _ _ =>
  .seq ensure_blind fun _ _ =>
  .seq get_hatch_time_unread fun _ _ =>
  .seq can_hatch_unread fun _ _ =>
  .seq ensure_blind fun _ _ =>
  .seq ensure_blind fun _ _ =>
  .seq update_food_info_unread fun _ _ =>
  .seq put_incubation_unread fun _ _ =>
  .seq arith_blind fun _ _ =>
  .seq put_incubation_unread fun _ _ => deposit_event_blind

theorem hatch_origin_of_shell_unread {md : T.Metadata} :
    Blind id evs (hatch_origin_of_shell origin c n md) s :=
  .transactional <| .seq ensure_signed_blind fun _ _ =>
  .seq NftSale.ensure_overlord_blind fun _ _ =>
  .read <| .seq ensure_blind fun _ _ =>
  .seq is_origin_of_shell_collection_id_unread fun _ _ =>
  .seq ensure_blind fun _ _ =>
  .seq outside_query_blind fun _ _ =>
  .seq get_hatch_time_unread fun _ _ =>
  .seq can_hatch_unread fun _ _ =>
  .seq ensure_blind fun _ _ =>
  .seq (.read ok_or_blind) fun _ _ =>
  .seq NftSale.to_boundedvec_key_blind fun _ _ =>
  .seq NftSale.to_boundedvec_key_blind fun _ _ =>
  .seq NftSale.to_boundedvec_key_blind fun _ _ =>
  .seq NftSale.to_boundedvec_key_blind fun _ _ =>
  .seq read_attributes_unread fun _ _ =>
  .seq outside_blind fun _ _ => .seq outside_blind fun _ _ =>
  .seq outside_blind fun _ _ => .seq outside_blind fun _ _ =>
  .seq outside_blind fun _ _ => .seq outside_blind fun _ _ =>
  .seq NftSale.set_nft_attributes_blind fun _ _ => deposit_event_blind

theorem update_incubation_time_unread {l : List ((CollectionId × NftId) × Nat)} :
    Blind (T := T) id evs (update_incubation_time origin l) s :=
  .transactional <| .seq ensure_signed_blind fun _ _ =>
  .seq NftSale.ensure_overlord_blind fun _ _ =>
  forEach_blind (fun _ _ => reduce_hatch_time_unread) _

theorem set_can_start_incubation_status_unread {status : Bool} :
    Blind (T := T) id evs (set_can_start_incubation_status origin status) s :=
  .seq ensure_signed_blind fun _ _ =>
  .seq NftSale.ensure_overlord_blind fun _ _ =>
  .read <| .seq arith_blind fun _ _ =>
  .seq put_incubation_unread fun _ _ =>
  .seq put_incubation_unread fun _ _ => deposit_event_blind

theorem set_shell_collection_id_unread :
    Blind (T := T) id evs (set_shell_collection_id origin c) s :=
  .seq ensure_signed_blind fun _ _ =>
  .seq NftSale.ensure_overlord_blind fun _ _ =>
  .read <| .seq ensure_blind fun _ _ =>
  .seq put_incubation_unread fun _ _ => deposit_event_blind

end Incubation

/-! ### Steps -/

/-- Is it a call of the incubation pallet? -/
def Label.incubates : Label T → Bool
  | .call _ c =>
    match c with
    | .start_incubation .. | .feed_origin_of_shell .. | .hatch_origin_of_shell ..
    | .update_incubation_time .. | .set_can_start_incubation_status ..
    | .set_shell_collection_id .. => true
    | _ => false
  | _ => false

section steps
variable [DecidableEq AccountId] {s : State T}

/-- A step that is not a call of the incubation is blind to it. -/
theorem step_blind (f : IncubationStorage T → IncubationStorage T) (evs : List (Event T))
    {l : Label T} (h : l.incubates = false) (s : State T) :
    step (s.beside f evs) l = ((step s l).1, (step s l).2.beside f evs) := by
  cases l with
  | on_finalize => exact NftSale.on_finalize_blind.1
  | set_timestamp now => rfl
  | outside w => rfl
  | call origin c =>
    cases c with
    | claim_spirit => exact NftSale.claim_spirit_blind.1
    | redeem_spirit signature => exact NftSale.redeem_spirit_blind.1
    | buy_rare_origin_of_shell r ra ca => exact NftSale.buy_rare_origin_of_shell_blind.1
    | buy_prime_origin_of_shell signature ra ca =>
      exact NftSale.buy_prime_origin_of_shell_blind.1
    | preorder_origin_of_shell ra ca => exact NftSale.preorder_origin_of_shell_blind.1
    | mint_chosen_preorders l => exact NftSale.mint_chosen_preorders_blind.1
    | refund_not_chosen_preorders l => exact NftSale.refund_not_chosen_preorders_blind.1
    | mint_gift_origin_of_shell a r ra ca pool => exact NftSale.mint_gift_origin_of_shell_blind.1
    | set_overlord o => exact NftSale.set_overlord_blind.1
    | initialize_world_clock => exact NftSale.initialize_world_clock_blind.1
    | set_status_type status status_type => exact NftSale.set_status_type_blind.1
    | init_rarity_type_counts => exact NftSale.init_rarity_type_counts_blind.1
    | update_rarity_type_counts r fs g => exact NftSale.update_rarity_type_counts_blind.1
    | set_spirit_collection_id c => exact NftSale.set_spirit_collection_id_blind.1
    | set_origin_of_shell_collection_id c =>
      exact NftSale.set_origin_of_shell_collection_id_blind.1
    | pw_create_collection md max symbol => exact NftSale.pw_create_collection_blind.1
    | set_spirits_metadata md => exact NftSale.set_spirits_metadata_blind.1
    | set_origin_of_shells_metadata l => exact NftSale.set_origin_of_shells_metadata_blind.1
    | _ => cases h

/-- No step reads the events. -/
theorem step_unread (evs : List (Event T)) (l : Label T) (s : State T) :
    step (s.beside id evs) l = ((step s l).1, (step s l).2.beside id evs) := by
  by_cases h : l.incubates = false
  · exact step_blind id evs h s
  cases l with
  | call origin c =>
    cases c with
    | start_incubation c n => exact Incubation.start_incubation_unread.1
    | feed_origin_of_shell c n => exact Incubation.feed_origin_of_shell_unread.1
    | hatch_origin_of_shell c n md => exact Incubation.hatch_origin_of_shell_unread.1
    | update_incubation_time l => exact Incubation.update_incubation_time_unread.1
    | set_can_start_incubation_status status =>
      exact Incubation.set_can_start_incubation_status_unread.1
    | set_shell_collection_id c => exact Incubation.set_shell_collection_id_unread.1
    | _ => exact absurd rfl h
  | _ => exact absurd rfl h

end steps

end PhalaWorld
