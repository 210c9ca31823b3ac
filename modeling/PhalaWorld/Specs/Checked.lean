import PhalaWorld.Framework.Lockstep
import PhalaWorld.Specs.System

/-! # The build with overflow checks

    A runtime can be built to panic where `+` and `-` overflow, or to wrap.
    The build with checks is a configuration of its own; a state, an event
    or a call of one build is one of the other, field by field.

    `Exact` compares the two builds on one function: the build with checks
    does the same, and no arithmetic panics in it. So no operation that the
    function executes overflows or divides by zero, in either build.

    * Functions that compute nothing are exact in every state.
    * The others are exact where their operands fit: one lemma for each of
      the plain operations, and with it one for each function.
-/

namespace PhalaWorld

open Transaction

variable {AccountId : Type} {T : Config AccountId}

/-- The same runtime, built with overflow checks. -/
abbrev Config.checked (T : Config AccountId) : Config AccountId := { T with overflow_checks := true }

def Event.checked : Event T → Event T.checked
  | .WorldClockStarted start_time => .WorldClockStarted start_time
  | .NewEra time era => .NewEra time era
  | .SpiritClaimed owner collection_id nft_id => .SpiritClaimed owner collection_id nft_id
  | .OriginOfShellPreordered owner preorder_id => .OriginOfShellPreordered owner preorder_id
  | .OriginOfShellMinted rarity_type collection_id nft_id owner race career =>
      .OriginOfShellMinted rarity_type collection_id nft_id owner race career
  | .SpiritCollectionIdSet collection_id => .SpiritCollectionIdSet collection_id
  | .OriginOfShellCollectionIdSet collection_id => .OriginOfShellCollectionIdSet collection_id
  | .OriginOfShellInventoryUpdated rarity_type => .OriginOfShellInventoryUpdated rarity_type
  | .ClaimSpiritStatusChanged status => .ClaimSpiritStatusChanged status
  | .PurchaseRareOriginOfShellsStatusChanged status =>
      .PurchaseRareOriginOfShellsStatusChanged status
  | .PurchasePrimeOriginOfShellsStatusChanged status =>
      .PurchasePrimeOriginOfShellsStatusChanged status
  | .PreorderOriginOfShellsStatusChanged status => .PreorderOriginOfShellsStatusChanged status
  | .ChosenPreorderMinted preorder_id owner => .ChosenPreorderMinted preorder_id owner
  | .NotChosenPreorderRefunded preorder_id owner => .NotChosenPreorderRefunded preorder_id owner
  | .LastDayOfSaleStatusChanged status => .LastDayOfSaleStatusChanged status
  | .OverlordChanged old_overlord new_overlord => .OverlordChanged old_overlord new_overlord
  | .OriginOfShellsInventoryWasSet status => .OriginOfShellsInventoryWasSet status
  | .OriginOfShellGiftedToOwner owner nft_sale_type =>
      .OriginOfShellGiftedToOwner owner nft_sale_type
  | .SpiritsMetadataSet spirits_metadata => .SpiritsMetadataSet spirits_metadata
  | .OriginOfShellsMetadataSet origin_of_shells_metadata =>
      .OriginOfShellsMetadataSet origin_of_shells_metadata
  | .CanStartIncubationStatusChanged status start_time official_hatch_time =>
      .CanStartIncubationStatusChanged status start_time official_hatch_time
  | .StartedIncubation collection_id nft_id owner start_time hatch_time =>
      .StartedIncubation collection_id nft_id owner start_time hatch_time
  | .OriginOfShellReceivedFood collection_id nft_id sender =>
      .OriginOfShellReceivedFood collection_id nft_id sender
  | .HatchTimeUpdated collection_id nft_id old_hatch_time new_hatch_time =>
      .HatchTimeUpdated collection_id nft_id old_hatch_time new_hatch_time
  | .ShellCollectionIdSet collection_id => .ShellCollectionIdSet collection_id
  | .ShellAwakened collection_id nft_id owner => .ShellAwakened collection_id nft_id owner

def NftSaleStorage.checked (st : NftSaleStorage T) : NftSaleStorage T.checked where
  preorder_index := st.preorder_index
  preorders := st.preorders
  owner_has_preorder := st.owner_has_preorder
  origin_of_shells_inventory := st.origin_of_shells_inventory
  zero_day := st.zero_day
  era := st.era
  can_claim_spirits := st.can_claim_spirits
  can_purchase_rare_origin_of_shells := st.can_purchase_rare_origin_of_shells
  can_purchase_prime_origin_of_shells := st.can_purchase_prime_origin_of_shells
  can_preorder_origin_of_shells := st.can_preorder_origin_of_shells
  last_day_of_sale := st.last_day_of_sale
  spirit_collection_id := st.spirit_collection_id
  origin_of_shell_collection_id := st.origin_of_shell_collection_id
  career_type_count := st.career_type_count
  is_origin_of_shells_inventory_set := st.is_origin_of_shells_inventory_set
  spirits_metadata := st.spirits_metadata
  origin_of_shells_metadata := st.origin_of_shells_metadata
  overlord := st.overlord

def IncubationStorage.checked (st : IncubationStorage T) : IncubationStorage T.checked where
  food_by_owners := st.food_by_owners
  origin_of_shell_food_stats := st.origin_of_shell_food_stats
  official_hatch_time := st.official_hatch_time
  hatch_times := st.hatch_times
  can_start_incubation := st.can_start_incubation
  shell_collection_id := st.shell_collection_id

def State.checked (s : State T) : State T.checked where
  sale := s.sale.checked
  incubation := s.incubation.checked
  world := s.world
  now := s.now
  events := s.events.map Event.checked

def Call.checked : Call T → Call T.checked
  | .claim_spirit => .claim_spirit
  | .redeem_spirit signature => .redeem_spirit signature
  | .buy_rare_origin_of_shell rarity_type race career =>
      .buy_rare_origin_of_shell rarity_type race career
  | .buy_prime_origin_of_shell signature race career =>
      .buy_prime_origin_of_shell signature race career
  | .preorder_origin_of_shell race career => .preorder_origin_of_shell race career
  | .mint_chosen_preorders preorders => .mint_chosen_preorders preorders
  | .refund_not_chosen_preorders preorders => .refund_not_chosen_preorders preorders
  | .mint_gift_origin_of_shell owner rarity_type race career nft_sale_type =>
      .mint_gift_origin_of_shell owner rarity_type race career nft_sale_type
  | .set_overlord new_overlord => .set_overlord new_overlord
  | .initialize_world_clock => .initialize_world_clock
  | .set_status_type status status_type => .set_status_type status status_type
  | .init_rarity_type_counts => .init_rarity_type_counts
  | .update_rarity_type_counts rarity_type for_sale_count giveaway_count =>
      .update_rarity_type_counts rarity_type for_sale_count giveaway_count
  | .set_spirit_collection_id collection_id => .set_spirit_collection_id collection_id
  | .set_origin_of_shell_collection_id collection_id =>
      .set_origin_of_shell_collection_id collection_id
  | .pw_create_collection metadata max symbol => .pw_create_collection metadata max symbol
  | .set_spirits_metadata spirits_metadata => .set_spirits_metadata spirits_metadata
  | .set_origin_of_shells_metadata origin_of_shells_metadata =>
      .set_origin_of_shells_metadata origin_of_shells_metadata
  | .start_incubation collection_id nft_id => .start_incubation collection_id nft_id
  | .feed_origin_of_shell collection_id nft_id => .feed_origin_of_shell collection_id nft_id
  | .hatch_origin_of_shell collection_id nft_id metadata =>
      .hatch_origin_of_shell collection_id nft_id metadata
  | .update_incubation_time origin_of_shells => .update_incubation_time origin_of_shells
  | .set_can_start_incubation_status status => .set_can_start_incubation_status status
  | .set_shell_collection_id collection_id => .set_shell_collection_id collection_id

def Label.checked : Label T → Label T.checked
  | .call origin c => .call origin c.checked
  | .on_finalize => .on_finalize
  | .set_timestamp now => .set_timestamp now
  | .outside w => .outside w

/-- What arithmetic says when it panics. -/
def arithmetic_panics : List String :=
  ["attempt to add with overflow", "attempt to subtract with overflow",
    "attempt to divide by zero", "attempt to calculate the remainder with a divisor of zero"]

/-- Is it a panic of the arithmetic? -/
def Failure.isArithmetic {E : Type} : Failure E → Bool
  | .err _ => false
  | .panic message => message ∈ arithmetic_panics

theorem Failure.panic_isArithmetic {E : Type} {message : String}
    (h : message ∉ arithmetic_panics) : ¬ (Failure.panic message : Failure E).isArithmetic = true :=
  fun hpanic => h (of_decide_eq_true hpanic)

/-- The build with checks does the same as `x` in `s`, and no arithmetic
    panics. -/
abbrev Exact {α : Type} (x : Dispatch T α) (y : Dispatch T.checked α) (s : State T) : Prop :=
  Lockstep State.checked (fun e => e.isArithmetic = true) x y s

/-! ### Primitives -/

section primitives
variable {α : Type} {s : State T}

theorem fail_exact {e : DispatchError T.ModuleError} :
    Exact (fail (.err e) : Dispatch T α) (fail (.err e)) s :=
  .fail Bool.false_ne_true

theorem ensure_exact {p : Prop} [Decidable p] {e : DispatchError T.ModuleError} :
    Exact (ensure p (.err e)) (ensure p (.err e)) s :=
  .ensure Bool.false_ne_true

theorem ok_or_exact {o : Option α} {e : DispatchError T.ModuleError} :
    Exact (ok_or o (.err e)) (ok_or o (.err e)) s :=
  .ok_or Bool.false_ne_true

theorem ensure_signed_exact {origin : Origin AccountId} :
    Exact (T := T) (ensure_signed origin) (ensure_signed origin) s := by
  cases origin with
  | signed who => exact .pure who
  | _ => exact fail_exact

theorem put_sale_exact {f : NftSaleStorage T → NftSaleStorage T}
    {g : NftSaleStorage T.checked → NftSaleStorage T.checked}
    (h : g s.sale.checked = (f s.sale).checked) : Exact (put_sale f) (put_sale g) s :=
  .write (by simp only [State.checked, h])

theorem put_incubation_exact {f : IncubationStorage T → IncubationStorage T}
    {g : IncubationStorage T.checked → IncubationStorage T.checked}
    (h : g s.incubation.checked = (f s.incubation).checked) :
    Exact (put_incubation f) (put_incubation g) s :=
  .write (by simp only [State.checked, h])

theorem deposit_event_exact (event : Event T) :
    Exact (deposit_event event) (deposit_event event.checked) s :=
  .write (by simp only [State.checked, List.map_append, List.map_cons, List.map_nil])

theorem outside_exact (f : T.World → Except T.ModuleError T.World) :
    Exact (outside f) (outside (T := T.checked) f) s := by
  -- both builds hand over the same world
  have hworld : s.checked.world = s.world := rfl
  unfold outside
  apply Lockstep.attempt
  · rw [hworld]
    cases f s.world <;> rfl
  · intro e he
    cases hf : f s.world with
    | ok w => rw [hf] at he; cases he
    | error m => rw [hf] at he; cases he; exact Bool.false_ne_true

theorem outside_infallible_exact (f : T.World → T.World) :
    Exact (outside_infallible f) (outside_infallible (T := T.checked) f) s :=
  .write rfl

theorem outside_query_exact (f : T.World → Except T.ModuleError α) :
    Exact (outside_query f) (outside_query (T := T.checked) f) s := by
  have hworld : s.checked.world = s.world := rfl
  unfold Exact Lockstep outside_query
  rw [hworld]
  cases f s.world with
  | ok a => exact ⟨rfl, fun _ he => by cases he⟩
  | error m =>
    refine ⟨rfl, ?_⟩
    intro e he
    cases he
    exact Bool.false_ne_true

/-! ### The plain operations -/

theorem arith_exact {r : Except (Failure T.ModuleError) α}
    {r' : Except (Failure T.checked.ModuleError) α} {a : α} (h : r = .ok a) (h' : r' = .ok a) :
    Exact (arith r) (arith r') s := by
  rw [h, h']
  exact .pure a

theorem plain_add_exact {bits a b : Nat} (h : a + b < 2 ^ bits) :
    Exact (arith (plain_add T bits a b)) (arith (plain_add T.checked bits a b)) s :=
  arith_exact (plain_add_of_lt h) (plain_add_of_lt h)

theorem plain_sub_exact {bits a b : Nat} (h : b ≤ a) :
    Exact (arith (plain_sub T bits a b)) (arith (plain_sub T.checked bits a b)) s :=
  arith_exact (plain_sub_of_le h) (plain_sub_of_le h)

theorem plain_div_exact {a b : Nat} (h : b ≠ 0) :
    Exact (arith (plain_div T a b)) (arith (plain_div T.checked a b)) s :=
  arith_exact (if_neg h) (if_neg h)

theorem plain_rem_exact {a b : Nat} (h : b ≠ 0) :
    Exact (arith (plain_rem T a b)) (arith (plain_rem T.checked a b)) s :=
  arith_exact (if_neg h) (if_neg h)

end primitives

/-! ### The sale pallet -/

namespace NftSale
variable {s : State T} {origin : Origin AccountId}

theorem get_origin_of_shell_collection_id_exact :
    Exact (T := T) get_origin_of_shell_collection_id get_origin_of_shell_collection_id s :=
  .read ok_or_exact

theorem get_spirit_collection_id_exact :
    Exact (T := T) get_spirit_collection_id get_spirit_collection_id s :=
  .read ok_or_exact

theorem owns_nft_in_collection_exact {a : AccountId} {c : CollectionId} :
    Exact (T := T) (owns_nft_in_collection a c) (owns_nft_in_collection a c) s :=
  .read (.pure _)

theorem to_boundedvec_key_exact {name : Bytes} :
    Exact (T := T) (to_boundedvec_key name) (to_boundedvec_key name) s :=
  ok_or_exact

theorem get_origin_of_shell_metadata_exact {race : RaceType} :
    Exact (T := T) (get_origin_of_shell_metadata race) (get_origin_of_shell_metadata race) s :=
  .read ok_or_exact

theorem overlord_exact : Exact (T := T) overlord overlord s := .read ok_or_exact

theorem ensure_overlord_exact [DecidableEq AccountId] {a : AccountId} :
    Exact (T := T) (ensure_overlord a) (ensure_overlord a) s :=
  .read ensure_exact

theorem verify_claim_exact {o a : AccountId} {signature : T.Signature} {purpose : Purpose} :
    Exact (verify_claim o a signature purpose) (verify_claim o a signature purpose) s :=
  .seq (.ensure (Failure.panic_isArithmetic (by decide))) fun _ _ => .pure _

theorem expect_exact {α : Type} {o : Option α} {message : String}
    (h : message ∉ arithmetic_panics) : Exact (expect o message) (expect o message) s :=
  .ok_or (Failure.panic_isArithmetic h)

theorem set_nft_attributes_exact {c : CollectionId} {n : NftId} {r : RarityType} {ra : RaceType}
    {ca : CareerType} {g : GenerationId} :
    Exact (T := T) (set_nft_attributes c n r ra ca g) (set_nft_attributes c n r ra ca g) s :=
  .seq overlord_exact fun _ _ =>
  .seq to_boundedvec_key_exact fun _ _ =>
  .seq (expect_exact (by decide)) fun _ _ =>
  .seq to_boundedvec_key_exact fun _ _ =>
  .seq (expect_exact (by decide)) fun _ _ =>
  .seq to_boundedvec_key_exact fun _ _ =>
  .seq (expect_exact (by decide)) fun _ _ =>
  .seq to_boundedvec_key_exact fun _ _ =>
  .seq (expect_exact (by decide)) fun _ _ =>
  .seq (outside_exact _) fun _ _ =>
  .seq (outside_exact _) fun _ _ =>
  .seq (outside_exact _) fun _ _ => outside_exact _

/-! ### Inventory -/

theorem insert_inventory_exact {r : RarityType} {ra : RaceType} {i : NftSaleInfo} :
    Exact (T := T) (insert_inventory r ra i) (insert_inventory r ra i) s :=
  put_sale_exact rfl

theorem set_initial_origin_of_shell_inventory_exact :
    Exact (T := T) set_initial_origin_of_shell_inventory set_initial_origin_of_shell_inventory s :=
  .read <| .seq ensure_exact fun _ _ =>
  .seq insert_inventory_exact fun _ _ => .seq insert_inventory_exact fun _ _ =>
  .seq insert_inventory_exact fun _ _ => .seq insert_inventory_exact fun _ _ =>
  .seq insert_inventory_exact fun _ _ => .seq insert_inventory_exact fun _ _ =>
  .seq insert_inventory_exact fun _ _ => .seq insert_inventory_exact fun _ _ =>
  .seq insert_inventory_exact fun _ _ => .seq insert_inventory_exact fun _ _ =>
  .seq insert_inventory_exact fun _ _ => .seq insert_inventory_exact fun _ _ =>
  put_sale_exact rfl

theorem update_nft_sale_info_exact {r : RarityType} {ra : RaceType} {fs g : Nat} :
    Exact (T := T) (update_nft_sale_info r ra fs g) (update_nft_sale_info r ra fs g) s := by
  have hinv : s.sale.checked.origin_of_shells_inventory = s.sale.origin_of_shells_inventory := rfl
  apply put_sale_exact
  rw [hinv]
  cases s.sale.origin_of_shells_inventory (r, ra) <;> rfl

theorem has_race_type_left_exact {r : RarityType} {ra : RaceType} {pool : NftSaleType} :
    Exact (T := T) (has_race_type_left r ra pool) (has_race_type_left r ra pool) s := by
  have hinv : s.checked.sale.origin_of_shells_inventory = s.sale.origin_of_shells_inventory := rfl
  apply Lockstep.read
  rw [hinv]
  cases s.sale.origin_of_shells_inventory (r, ra) with
  | none => exact fail_exact
  | some i => cases pool <;> exact ensure_exact

/-- A pool that is not empty can give one. -/
theorem decrement_race_type_left_exact {r : RarityType} {ra : RaceType} {pool : NftSaleType}
    (h : ∀ i, s.sale.origin_of_shells_inventory (r, ra) = some i → 0 < i.left pool) :
    Exact (T := T) (decrement_race_type_left r ra pool) (decrement_race_type_left r ra pool) s := by
  have hinv : s.checked.sale.origin_of_shells_inventory = s.sale.origin_of_shells_inventory := rfl
  apply Lockstep.read
  rw [hinv]
  cases hi : s.sale.origin_of_shells_inventory (r, ra) with
  | none => exact .pure ()
  | some i =>
    have hleft := h i hi
    cases pool <;>
      exact .seq (plain_sub_exact hleft) fun _ _ => insert_inventory_exact

theorem increment_race_type_exact {r : RarityType} {ra : RaceType}
    (h : ∀ i, s.sale.origin_of_shells_inventory (r, ra) = some i → i.race_count + 1 < 2 ^ 32) :
    Exact (T := T) (increment_race_type r ra) (increment_race_type r ra) s := by
  have hinv : s.checked.sale.origin_of_shells_inventory = s.sale.origin_of_shells_inventory := rfl
  apply Lockstep.read
  rw [hinv]
  cases hi : s.sale.origin_of_shells_inventory (r, ra) with
  | none => exact .pure ()
  | some i => exact .seq (plain_add_exact (h i hi)) fun _ _ => insert_inventory_exact

theorem increment_career_type_exact {ca : CareerType}
    (h : s.sale.career_type_count ca + 1 < 2 ^ 32) :
    Exact (T := T) (increment_career_type ca) (increment_career_type ca) s :=
  .read <| .seq (plain_add_exact h) fun _ _ => put_sale_exact rfl

/-! ### Minting -/

theorem do_mint_spirit_nft_exact {o a : AccountId} :
    Exact (T := T) (do_mint_spirit_nft o a) (do_mint_spirit_nft o a) s :=
  .seq get_spirit_collection_id_exact fun _ _ =>
  .seq owns_nft_in_collection_exact fun _ _ =>
  .seq ensure_exact fun _ _ =>
  .read <| .seq ok_or_exact fun _ _ =>
  .seq (outside_exact _) fun _ _ =>
  .seq (outside_exact _) fun _ _ => deposit_event_exact _

/-- `do_mint_origin_of_shell_nft` up to where it moves the counters: the
    collection and the id of the item that was minted. -/
def issue_origin_of_shell_nft (overlord sender : AccountId) (rarity_type : RarityType)
    (race : RaceType) (career : CareerType) (generation : GenerationId) (price : Nat)
    (nft_sale_type : NftSaleType) (check_owned_origin_of_shell : Bool) :
    Dispatch T (CollectionId × NftId) := do
  let spirit_collection_id ← get_spirit_collection_id
  let owns_spirit ← owns_nft_in_collection sender spirit_collection_id
  ensure owns_spirit Error.MustOwnSpiritToPurchase.into
  let origin_of_shell_collection_id ← get_origin_of_shell_collection_id
  when check_owned_origin_of_shell do
    let owns ← owns_nft_in_collection sender origin_of_shell_collection_id
    ensure (!owns) Error.OriginOfShellAlreadyPurchased.into
  let s ← read
  let nft_id := T.NextNftId s.world origin_of_shell_collection_id
  let metadata ← get_origin_of_shell_metadata race
  has_race_type_left rarity_type race nft_sale_type
  outside (T.transfer sender overlord price .KeepAlive)
  outside (T.mint_nft overlord (some sender) origin_of_shell_collection_id metadata true)
  set_nft_attributes origin_of_shell_collection_id nft_id rarity_type race career generation
  pure (origin_of_shell_collection_id, nft_id)

section minting
variable {o a : AccountId} {r : RarityType} {ra : RaceType} {ca : CareerType} {g : GenerationId}
  {price : Nat} {pool : NftSaleType} {check : Bool}

/-- The mint is the issue, the three counters, the freeze and the event. -/
theorem do_mint_origin_of_shell_nft_eq :
    (do_mint_origin_of_shell_nft o a r ra ca g price pool check : Dispatch T Unit) = (do
      let (collection_id, nft_id) ← issue_origin_of_shell_nft o a r ra ca g price pool check
      decrement_race_type_left r ra pool
      increment_race_type r ra
      increment_career_type ca
      outside (T.freeze o collection_id nft_id)
      deposit_event (.OriginOfShellMinted r collection_id nft_id a ra ca)) := by
  simp only [issue_origin_of_shell_nft, bind_bind]
  rfl

theorem issue_origin_of_shell_nft_exact :
    Exact (T := T) (issue_origin_of_shell_nft o a r ra ca g price pool check)
      (issue_origin_of_shell_nft o a r ra ca g price pool check) s :=
  .seq get_spirit_collection_id_exact fun _ _ =>
  .seq owns_nft_in_collection_exact fun _ _ =>
  .seq ensure_exact fun _ _ =>
  .seq get_origin_of_shell_collection_id_exact fun _ _ =>
  .seq (.when fun _ => .seq owns_nft_in_collection_exact fun _ _ => ensure_exact) fun _ _ =>
  .read <| .seq get_origin_of_shell_metadata_exact fun _ _ =>
  .seq has_race_type_left_exact fun _ _ =>
  .seq (outside_exact _) fun _ _ =>
  .seq (outside_exact _) fun _ _ =>
  .seq set_nft_attributes_exact fun _ _ => .pure _

/-- What a mint has done, and what it has checked, when it comes to the
    counters. -/
theorem issue_origin_of_shell_nft_ok {s' : State T} {x : CollectionId × NftId}
    (h : issue_origin_of_shell_nft o a r ra ca g price pool check s = (.ok x, s')) :
    s.sale.origin_of_shell_collection_id = some x.1 ∧
    (∃ i, s.sale.origin_of_shells_inventory (r, ra) = some i ∧ 0 < i.left pool) ∧
    (∃ md w₁ w₂, T.transfer a o price .KeepAlive s.world = .ok w₁ ∧
      T.mint_nft o (some a) x.1 md true w₁ = .ok w₂) ∧
    ∃ w, s' = { s with world := w } := by
  simp [issue_origin_of_shell_nft, has_race_type_left_ok, set_nft_attributes_ok] at h
  obtain ⟨sp, hsp, hholds, c, hc, s₁, hfresh, md, hmd, hinfo, w₁, h₁, w₂, h₂,
    ⟨o', ho', w₃, _, rfl⟩, rfl⟩ := h
  -- whether the buyer may have another Origin of Shell does not matter here
  obtain rfl : s₁ = s := by rcases hfresh with ⟨_, _, heq⟩ | ⟨_, heq⟩ <;> exact heq
  exact ⟨hc, hinfo, ⟨md, w₁, w₂, h₁, h₂⟩, w₃, rfl⟩

end minting

/-! ### Spirits and preorders -/

theorem claim_spirit_exact : Exact (T := T) (claim_spirit origin) (claim_spirit origin) s :=
  .transactional <| .seq ensure_signed_exact fun _ _ =>
  .read <| .seq ensure_exact fun _ _ =>
  .seq overlord_exact fun _ _ =>
  .seq ensure_exact fun _ _ => do_mint_spirit_nft_exact

theorem redeem_spirit_exact {signature : T.Signature} :
    Exact (redeem_spirit origin signature) (redeem_spirit origin signature) s :=
  .transactional <| .seq ensure_signed_exact fun _ _ =>
  .read <| .seq ensure_exact fun _ _ =>
  .seq overlord_exact fun _ _ =>
  .seq verify_claim_exact fun _ _ =>
  .seq ensure_exact fun _ _ => do_mint_spirit_nft_exact

section preorders
variable [DecidableEq AccountId]

theorem preorder_origin_of_shell_exact {ra : RaceType} {ca : CareerType} :
    Exact (T := T) (preorder_origin_of_shell origin ra ca)
      (preorder_origin_of_shell origin ra ca) s :=
  .transactional <| .seq ensure_signed_exact fun _ _ =>
  .read <| .seq ensure_exact fun _ _ =>
  .seq get_spirit_collection_id_exact fun _ _ =>
  .seq owns_nft_in_collection_exact fun _ _ =>
  .seq ensure_exact fun _ _ =>
  .seq get_origin_of_shell_collection_id_exact fun _ _ =>
  .seq owns_nft_in_collection_exact fun _ _ =>
  .seq ensure_exact fun _ _ =>
  .seq ensure_exact fun _ _ =>
  .seq (put_sale_exact rfl) fun _ _ =>
  .seq get_origin_of_shell_metadata_exact fun _ _ =>
  .seq (outside_exact _) fun _ _ =>
  .seq (put_sale_exact rfl) fun _ _ =>
  .seq (.when fun _ => put_sale_exact rfl) fun _ _ => deposit_event_exact _

omit [DecidableEq AccountId] in
theorem take_preorder_exact {p : PreorderId} :
    Exact (T := T) (take_preorder p) (take_preorder p) s :=
  .read <| .seq (put_sale_exact rfl) fun _ _ => ok_or_exact

theorem remove_owner_has_preorder_exact {a : AccountId} :
    Exact (T := T) (remove_owner_has_preorder a) (remove_owner_has_preorder a) s :=
  put_sale_exact rfl

theorem refund_not_chosen_preorder_exact {price : Nat} {last : Bool} {p : PreorderId} :
    Exact (T := T) (refund_not_chosen_preorder price last p)
      (refund_not_chosen_preorder price last p) s :=
  .seq take_preorder_exact fun _ _ =>
  .seq (outside_infallible_exact _) fun _ _ =>
  .seq (.when fun _ => remove_owner_has_preorder_exact) fun _ _ => deposit_event_exact _

omit [DecidableEq AccountId] in
/-- The index of a batch counts up to the limit, which is a `u32`, so that
    the batch is a loop over the ids up to the limit in both builds. -/
theorem for_preorders_exact {body : PreorderId → Dispatch T Unit}
    {body' : PreorderId → Dispatch T.checked Unit} {iter_limit : Nat} {l : List PreorderId}
    (hlimit : iter_limit < 2 ^ 32)
    (h : Exact (forEach body (l.take iter_limit)) (forEach body' (l.take iter_limit)) s) :
    Exact (for_preorders body iter_limit 0 l) (for_preorders body' iter_limit 0 l) s := by
  rw [for_preorders_eq hlimit, for_preorders_eq hlimit, Nat.sub_zero]
  exact h

theorem refund_not_chosen_preorders_exact {l : List PreorderId} :
    Exact (T := T) (refund_not_chosen_preorders origin l) (refund_not_chosen_preorders origin l) s :=
  .transactional <| .seq ensure_signed_exact fun _ _ =>
  .seq ensure_overlord_exact fun _ _ =>
  .read <| for_preorders_exact T.IterLimit.toNat_lt <|
    .forEach (I := fun _ => True) (fun _ _ _ _ _ => trivial)
      (fun _ _ _ => refund_not_chosen_preorder_exact) _ trivial

end preorders

/-! ### Administration -/

section administration
variable [DecidableEq AccountId]

omit [DecidableEq AccountId] in
theorem set_overlord_exact {o : AccountId} :
    Exact (T := T) (set_overlord origin o) (set_overlord origin o) s :=
  .seq ensure_exact fun _ _ =>
  .read <| .seq (put_sale_exact rfl) fun _ _ => deposit_event_exact _

/-- The day the clock starts from is the present, rounded down. -/
theorem initialize_world_clock_exact (hS : T.SecondsPerEra.toNat ≠ 0) :
    Exact (T := T) (initialize_world_clock origin) (initialize_world_clock origin) s :=
  .seq ensure_signed_exact fun _ _ =>
  .seq ensure_overlord_exact fun _ _ =>
  .read <| .seq ensure_exact fun _ _ =>
  .bind (plain_rem_exact hS) fun rem _ hrem =>
    have hle : rem ≤ _ := by
      obtain ⟨hrem, _⟩ := arith_ok.mp hrem
      rw [plain_rem, if_neg hS, Except.ok.injEq] at hrem
      rw [← hrem]
      exact Nat.mod_le _ _
  .seq (plain_sub_exact hle) fun _ _ =>
  .seq (put_sale_exact rfl) fun _ _ => deposit_event_exact _

theorem set_status_type_exact {status : Bool} {status_type : StatusType} :
    Exact (T := T) (set_status_type origin status status_type)
      (set_status_type origin status status_type) s := by
  apply Lockstep.seq ensure_signed_exact
  intro a s
  apply Lockstep.seq ensure_overlord_exact
  intro _ s
  cases status_type <;> exact .seq (put_sale_exact rfl) fun _ _ => deposit_event_exact _

theorem init_rarity_type_counts_exact :
    Exact (T := T) (init_rarity_type_counts origin) (init_rarity_type_counts origin) s :=
  .seq ensure_signed_exact fun _ _ =>
  .seq ensure_overlord_exact fun _ _ =>
  .seq set_initial_origin_of_shell_inventory_exact fun _ _ => deposit_event_exact _

theorem update_rarity_type_counts_exact {r : RarityType} {fs g : Nat} :
    Exact (T := T) (update_rarity_type_counts origin r fs g)
      (update_rarity_type_counts origin r fs g) s :=
  .seq ensure_signed_exact fun _ _ =>
  .seq ensure_overlord_exact fun _ _ =>
  .seq ensure_exact fun _ _ =>
  .seq update_nft_sale_info_exact fun _ _ =>
  .seq update_nft_sale_info_exact fun _ _ =>
  .seq update_nft_sale_info_exact fun _ _ =>
  .seq update_nft_sale_info_exact fun _ _ => deposit_event_exact _

theorem set_spirit_collection_id_exact {c : CollectionId} :
    Exact (T := T) (set_spirit_collection_id origin c) (set_spirit_collection_id origin c) s :=
  .seq ensure_signed_exact fun _ _ =>
  .seq ensure_overlord_exact fun _ _ =>
  .read <| .seq ensure_exact fun _ _ =>
  .seq (put_sale_exact rfl) fun _ _ => deposit_event_exact _

theorem set_origin_of_shell_collection_id_exact {c : CollectionId} :
    Exact (T := T) (set_origin_of_shell_collection_id origin c)
      (set_origin_of_shell_collection_id origin c) s :=
  .seq ensure_signed_exact fun _ _ =>
  .seq ensure_overlord_exact fun _ _ =>
  .read <| .seq ensure_exact fun _ _ =>
  .seq (put_sale_exact rfl) fun _ _ => deposit_event_exact _

theorem pw_create_collection_exact {md : T.Metadata} {max : Option Nat} {symbol : Bytes} :
    Exact (pw_create_collection origin md max symbol)
      (pw_create_collection origin md max symbol) s :=
  .transactional <| .seq ensure_signed_exact fun _ _ =>
  .seq ensure_overlord_exact fun _ _ => outside_exact _

theorem set_spirits_metadata_exact {md : T.Metadata} :
    Exact (set_spirits_metadata origin md) (set_spirits_metadata origin md) s :=
  .seq ensure_signed_exact fun _ _ =>
  .seq ensure_overlord_exact fun _ _ =>
  .seq (put_sale_exact rfl) fun _ _ => deposit_event_exact _

theorem set_origin_of_shells_metadata_exact {l : List (RaceType × T.Metadata)} :
    Exact (set_origin_of_shells_metadata origin l) (set_origin_of_shells_metadata origin l) s :=
  .seq ensure_signed_exact fun _ _ =>
  .seq ensure_overlord_exact fun _ _ =>
  .seq (.forEach (I := fun _ => True) (fun _ _ _ _ _ => trivial)
    (fun _ _ _ => put_sale_exact rfl) _ trivial) fun _ _ => deposit_event_exact _

omit [DecidableEq AccountId] in
/-- The block hook adds one to an era that is behind the clock, and the
    clock fits in 64 bits. -/
theorem on_finalize_exact (hS : T.SecondsPerEra.toNat ≠ 0) (hnow : s.now < 2 ^ 64) :
    Exact (T := T) on_finalize on_finalize s := by
  have hzero : s.checked.sale.zero_day = s.sale.zero_day := rfl
  apply Lockstep.read
  rw [hzero]
  cases s.sale.zero_day with
  | none => exact .pure ()
  | some zero_day =>
    apply Lockstep.when
    intro hlater
    apply Lockstep.look (plain_sub_exact (Nat.le_of_lt hlater)) fun _ _ h => (arith_ok.mp h).2
    intro secs hsub
    obtain ⟨hsecs, -⟩ := arith_ok.mp hsub
    rw [plain_sub_of_le (Nat.le_of_lt hlater), Except.ok.injEq] at hsecs
    apply Lockstep.look (plain_div_exact hS) fun _ _ h => (arith_ok.mp h).2
    intro eras hdiv
    obtain ⟨heras, -⟩ := arith_ok.mp hdiv
    apply Lockstep.when
    intro hbehind
    -- an era that is behind the clock is at most the time
    have hle : eras ≤ secs := plain_div_ok heras ▸ Nat.div_le_self _ _
    exact .seq (plain_add_exact (by omega)) fun _ _ =>
      .seq (put_sale_exact rfl) fun _ _ => deposit_event_exact _

end administration

end NftSale

/-! ### The incubation pallet -/

namespace Incubation
variable {s : State T} {origin : Origin AccountId} {c : CollectionId} {n : NftId}

theorem is_origin_of_shell_collection_id_exact :
    Exact (T := T) (is_origin_of_shell_collection_id c) (is_origin_of_shell_collection_id c) s := by
  have hids : s.checked.sale.origin_of_shell_collection_id =
    s.sale.origin_of_shell_collection_id := rfl
  apply Lockstep.read
  rw [hids]
  cases s.sale.origin_of_shell_collection_id <;> exact .pure _

theorem get_hatch_time_exact :
    Exact (T := T) (get_hatch_time c n) (get_hatch_time c n) s :=
  .read ok_or_exact

theorem can_hatch_exact {t : Nat} : Exact (T := T) (can_hatch t) (can_hatch t) s :=
  .read (.pure _)

theorem get_shell_collection_id_exact :
    Exact (T := T) get_shell_collection_id get_shell_collection_id s :=
  .read ok_or_exact

theorem insert_hatch_time_exact {t : Nat} :
    Exact (T := T) (insert_hatch_time c n t) (insert_hatch_time c n t) s :=
  put_incubation_exact rfl

theorem update_food_info_exact {era : EraId} {x : CollectionId × NftId}
    {food : Option (FoodInfo (BoundedVec (CollectionId × NftId) T.FoodPerEra))} :
    Exact (update_food_info era x food) (update_food_info era x food) s := by
  -- what is left to do once the record is there
  have hpush (record : FoodInfo (BoundedVec (CollectionId × NftId) T.FoodPerEra)) (s : State T) :
      Exact (ok_or (record.origin_of_shells_fed.try_push x) Error.FoodInfoUpdateError.into >>=
          fun fed => pure { record with origin_of_shells_fed := fed })
        (ok_or (record.origin_of_shells_fed.try_push x) Error.FoodInfoUpdateError.into >>=
          fun fed => pure { record with origin_of_shells_fed := fed }) s :=
    .seq ok_or_exact fun _ _ => .pure _
  cases food with
  | none => exact .seq (.pure _) hpush
  | some food =>
    unfold update_food_info
    dsimp only
    split
    · exact .seq (.pure _) hpush
    · exact .seq ensure_exact fun _ _ => .seq (.pure _) hpush

theorem read_attributes_exact {race_key career_key rarity_type_key generation_key : T.Key} :
    Exact (read_attributes c n race_key career_key rarity_type_key generation_key)
      (read_attributes c n race_key career_key rarity_type_key generation_key) s :=
  .read <| .seq ok_or_exact fun _ _ =>
  .seq ok_or_exact fun _ _ =>
  .seq ok_or_exact fun _ _ =>
  .seq ok_or_exact fun _ _ =>
  .seq (NftSale.expect_exact (by decide)) fun _ _ =>
  .seq (NftSale.expect_exact (by decide)) fun _ _ =>
  .seq (NftSale.expect_exact (by decide)) fun _ _ =>
  .seq (NftSale.expect_exact (by decide)) fun _ _ => .pure _

theorem reduce_hatch_time_exact {x : (CollectionId × NftId) × Nat} :
    Exact (T := T) (reduce_hatch_time x) (reduce_hatch_time x) s :=
  .seq is_origin_of_shell_collection_id_exact fun _ _ =>
  .seq ensure_exact fun _ _ =>
  .seq get_hatch_time_exact fun _ _ =>
  .seq insert_hatch_time_exact fun _ _ => deposit_event_exact _

variable [DecidableEq AccountId]

theorem is_owner_exact {a : AccountId} :
    Exact (T := T) (is_owner a c n) (is_owner a c n) s := by
  have howner : T.checked.uniques_owner s.checked.world c n = T.uniques_owner s.world c n := rfl
  apply Lockstep.read
  rw [howner]
  cases T.uniques_owner s.world c n <;> exact .pure _

theorem start_incubation_exact :
    Exact (T := T) (start_incubation origin c n) (start_incubation origin c n) s :=
  .transactional <| .seq ensure_signed_exact fun _ _ =>
  .read <| .seq ensure_exact fun _ _ =>
  .seq is_origin_of_shell_collection_id_exact fun _ _ =>
  .seq ensure_exact fun _ _ =>
  .seq is_owner_exact fun _ _ =>
  .seq ensure_exact fun _ _ =>
  .seq ensure_exact fun _ _ =>
  .seq insert_hatch_time_exact fun _ _ => deposit_event_exact _

theorem hatch_origin_of_shell_exact {md : T.Metadata} :
    Exact (hatch_origin_of_shell origin c n md) (hatch_origin_of_shell origin c n md) s :=
  .transactional <| .seq ensure_signed_exact fun _ _ =>
  .seq NftSale.ensure_overlord_exact fun _ _ =>
  .read <| .seq ensure_exact fun _ _ =>
  .seq is_origin_of_shell_collection_id_exact fun _ _ =>
  .seq ensure_exact fun _ _ =>
  .seq (outside_query_exact _) fun _ _ =>
  .seq get_hatch_time_exact fun _ _ =>
  .seq can_hatch_exact fun _ _ =>
  .seq ensure_exact fun _ _ =>
  .seq get_shell_collection_id_exact fun _ _ =>
  .seq NftSale.to_boundedvec_key_exact fun _ _ =>
  .seq NftSale.to_boundedvec_key_exact fun _ _ =>
  .seq NftSale.to_boundedvec_key_exact fun _ _ =>
  .seq NftSale.to_boundedvec_key_exact fun _ _ =>
  .seq read_attributes_exact fun _ _ =>
  .seq (outside_exact _) fun _ _ =>
  .seq (outside_exact _) fun _ _ =>
  .seq (outside_exact _) fun _ _ =>
  .seq (outside_exact _) fun _ _ =>
  .seq (outside_exact _) fun _ _ =>
  .seq (outside_exact _) fun _ _ =>
  .seq NftSale.set_nft_attributes_exact fun _ _ => deposit_event_exact _

theorem update_incubation_time_exact {l : List ((CollectionId × NftId) × Nat)} :
    Exact (T := T) (update_incubation_time origin l) (update_incubation_time origin l) s :=
  .transactional <| .seq ensure_signed_exact fun _ _ =>
  .seq NftSale.ensure_overlord_exact fun _ _ =>
  .forEach (I := fun _ => True) (fun _ _ _ _ _ => trivial)
    (fun _ _ _ => reduce_hatch_time_exact) _ trivial

theorem set_can_start_incubation_status_exact {status : Bool}
    (h : s.now + T.IncubationDurationSec.toNat < 2 ^ 64) :
    Exact (T := T) (set_can_start_incubation_status origin status)
      (set_can_start_incubation_status origin status) s := by
  apply Lockstep.look ensure_signed_exact fun _ _ h => (ensure_signed_ok.mp h).2
  intro a _
  apply Lockstep.look NftSale.ensure_overlord_exact fun _ _ h => (NftSale.ensure_overlord_ok.mp h).2
  intro _ _
  exact .read <| .seq (plain_add_exact h) fun _ _ =>
    .seq (put_incubation_exact rfl) fun _ _ =>
    .seq (put_incubation_exact rfl) fun _ _ => deposit_event_exact _

theorem set_shell_collection_id_exact :
    Exact (T := T) (set_shell_collection_id origin c) (set_shell_collection_id origin c) s :=
  .seq ensure_signed_exact fun _ _ =>
  .seq NftSale.ensure_overlord_exact fun _ _ =>
  .read <| .seq ensure_exact fun _ _ =>
  .seq (put_incubation_exact rfl) fun _ _ => deposit_event_exact _

end Incubation

end PhalaWorld
