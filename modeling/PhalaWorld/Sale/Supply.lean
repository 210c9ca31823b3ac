import PhalaWorld.Sale.Inventory

/-! # The supply that was granted

    The Overlord fills the pools once and tops the Prime ones up at will. A
    top-up of a pool that is not there yet changes nothing, though it
    succeeds and announces an update; and filling the pools overwrites what
    is there. So a top-up counts from the filling on only.

    * `topups`: what an entry announced to have added.
    * `supply`: the pools as filled first and topped up then.
    * `Supplied`: the inventory is such a supply, before anything is minted.
    * `supply_kept_iff`: when no top-up is lost.
-/

namespace PhalaWorld

open LTS

variable {AccountId : Type} {T : Config AccountId}

/-- The counts for sale and for giveaways of a successful top-up. -/
def topups (e : Entry T) : List (Nat × Nat) :=
  match e.label, e.result with
  | .call _ (.update_rarity_type_counts _ for_sale_count giveaway_count), .ok () =>
      [(for_sale_count, giveaway_count)]
  | _, _ => []

/-- The inventory that is filled first and topped up then. -/
def supply (tops : List (Nat × Nat)) (k : Kind) : NftSaleInfo :=
  if k.1 = .Prime then tops.foldl (fun i top => i.add top.1 top.2) (initial_nft_sale_info k.1)
  else initial_nft_sale_info k.1

/-- What was added too early adds nothing, or the pool is full without it. -/
def Covers (initial : Nat) (early late : List Nat) : Prop :=
  (∀ n ∈ early, n = 0) ∨ 2 ^ 32 - 1 ≤ initial + late.sum

/-! ### Adding up -/

section sums
variable {tops early late : List (Nat × Nat)} {i : NftSaleInfo}

/-- Only the two counts of the top-ups change, and they stop at what a `u32`
    holds. -/
theorem foldl_add (hsale : i.race_for_sale_count ≤ 2 ^ 32 - 1)
    (hgive : i.race_giveaway_count ≤ 2 ^ 32 - 1) :
    tops.foldl (fun i top => i.add top.1 top.2) i =
      { i with
        race_for_sale_count := saturating_add i.race_for_sale_count (tops.map Prod.fst).sum
        race_giveaway_count := saturating_add i.race_giveaway_count (tops.map Prod.snd).sum } := by
  induction tops generalizing i with
  | nil =>
    simp only [List.foldl_nil, List.map_nil, List.sum_nil, saturating_add, Nat.add_zero]
    rw [Nat.min_eq_left hsale, Nat.min_eq_left hgive]
  | cons top tops ih =>
    obtain ⟨f, g⟩ := top
    have hadd (a b c : Nat) : saturating_add (saturating_add a b) c = saturating_add a (b + c) := by
      unfold saturating_add
      omega
    rw [List.foldl_cons, ih (Nat.min_le_right _ _) (Nat.min_le_right _ _)]
    simp only [NftSaleInfo.add, hadd, List.map_cons, List.sum_cons]

/-- A count is the same without the early top-ups exactly where the late ones
    cover them. -/
theorem saturating_add_sum_iff {initial : Nat} {early late : List Nat} :
    saturating_add initial late.sum = saturating_add initial (early ++ late).sum ↔
      Covers initial early late := by
  have hzero : (∀ n ∈ early, n = 0) ↔ early.sum = 0 := List.sum_eq_zero_iff_forall_eq_nat.symm
  unfold Covers saturating_add
  rw [hzero, List.sum_append]
  omega

theorem supply_append_iff :
    (∀ k, supply late k = supply (early ++ late) k) ↔
      Covers 1250 (early.map Prod.fst) (late.map Prod.fst) ∧
        Covers 0 (early.map Prod.snd) (late.map Prod.snd) := by
  have hprime (tops : List (Nat × Nat)) (race : RaceType) : supply tops (.Prime, race) =
      { race_count := 0
        race_for_sale_count := saturating_add 1250 (tops.map Prod.fst).sum
        race_giveaway_count := saturating_add 0 (tops.map Prod.snd).sum
        race_reserved_count := 0 } :=
    foldl_add (i := NftSale.prime_nft_sale_info) (by decide) (by decide)
  rw [← saturating_add_sum_iff, ← saturating_add_sum_iff, ← List.map_append,
    ← List.map_append]
  constructor
  · intro h
    have heq := h (.Prime, .Cyborg)
    rw [hprime, hprime, NftSaleInfo.mk.injEq] at heq
    exact ⟨heq.2.1, heq.2.2.1⟩
  · intro ⟨hsale, hgive⟩ k
    obtain ⟨rarity_type, race⟩ := k
    cases rarity_type with
    | Prime => rw [hprime, hprime, hsale, hgive]
    | _ => rfl

end sums

/-! ### Steps -/

/-- The pools were filled, and topped up by `tops` since. -/
structure Supplied (tops : List (Nat × Nat)) (s : State T) : Prop where
  set : s.sale.is_origin_of_shells_inventory_set = true
  stock : ∀ k, s.sale.origin_of_shells_inventory k = some (supply tops k)

section steps
variable [DecidableEq AccountId] {s s' : State T} {l : Label T} {r : Outcome T}
  {tops : List (Nat × Nat)}

omit [DecidableEq AccountId] in
theorem topups_eq_nil (h : r = .ok () → l.restocks = false) : topups ⟨s, l, r, s'⟩ = [] := by
  unfold topups
  split
  · next hl hr =>
    have hrestocks := h hr
    rw [show l = _ from hl] at hrestocks
    cases hrestocks
  · rfl

omit [DecidableEq AccountId] in
theorem Supplied.keep (h : Supplied tops s) (hlabel : r = .ok () → l.restocks = false)
    (hset : s'.sale.is_origin_of_shells_inventory_set = s.sale.is_origin_of_shells_inventory_set)
    (hinv : s'.sale.origin_of_shells_inventory = s.sale.origin_of_shells_inventory) :
    Supplied (tops ++ topups ⟨s, l, r, s'⟩) s' := by
  rw [topups_eq_nil hlabel, List.append_nil]
  exact ⟨hset.trans h.set, fun k => (congrFun hinv k).trans (h.stock k)⟩

/-- A batch that mints nothing has no rounds. -/
theorem mint_rounds_idle {o : AccountId} {last : Bool} {ids : List PreorderId}
    (hl : Chain (MintsPreorder o last) s ids s') (hlabel : l.saleType = .ForSale)
    (hmints : mints ⟨s, l, r, s'⟩ = []) : s' = s := by
  cases hl with
  | nil => rfl
  | @cons _ s₁ _ p ids hr hrest =>
    exfalso
    obtain ⟨info, c, i, s₂, _, hmint, rfl⟩ := hr
    -- the first round's mint is among the events of the batch
    obtain ⟨evs, hevs⟩ : ∃ evs, s'.events = (s₂.close last info.owner
        (.ChosenPreorderMinted p info.owner)).events ++ evs := by
      refine hrest.covered (Q := fun s s' => ∃ evs, s'.events = s.events ++ evs)
        (fun s => ⟨[], (List.append_nil _).symm⟩) ?_ ?_
      · rintro _ _ _ ⟨evs, hevs⟩ ⟨evs', hevs'⟩
        exact ⟨evs ++ evs', by rw [hevs', hevs, List.append_assoc]⟩
      · rintro s p s' ⟨info, c, i, s₁, _, hmint, rfl⟩
        exact ⟨_, hmint.events_append _⟩
    have hfirst : (s₂.close last info.owner (.ChosenPreorderMinted p info.owner)).events =
        s.events ++ [.OriginOfShellMinted .Prime c (T.NextNftId (s.release p info.owner).world c)
          info.owner info.race info.career, .ChosenPreorderMinted p info.owner] :=
      hmint.events_append _
    rw [hfirst, List.append_assoc] at hevs
    rw [mints_of_append hevs, hlabel] at hmints
    cases hmints

/-- **Before any mint** a step adds to the supply what it announces. -/
theorem Supplied.step (h : Supplied tops s) (hs : Traded s l r s')
    (hmints : mints ⟨s, l, r, s'⟩ = []) : Supplied (tops ++ topups ⟨s, l, r, s'⟩) s' := by
  cases hs with
  | quiet hq hlabel =>
    exact h.keep (fun hok => Label.restocks_of_isQuiet (hlabel hok)) hq.inventory_set hq.inventory
  | spirit _ hm hc =>
    obtain ⟨md, w₁, w₂, _, _, _, rfl⟩ := hm.post
    refine h.keep ?_ rfl rfl
    intro _
    rcases hc with rfl | ⟨sig, rfl⟩ <;> rfl
  | @buy a o r ra ca cid i c _ _ hm hc =>
    have hpool : (Label.call (.signed a) c).saleType = .ForSale := by
      rcases hc with ⟨rfl, _⟩ | ⟨_, sig, rfl⟩ <;> rfl
    rw [hm.mints hpool] at hmints
    cases hmints
  | preorder hp =>
    obtain ⟨md, w, _, _, rfl⟩ := hp.post
    exact h.keep (fun _ => rfl) rfl rfl
  | mint _ hl =>
    obtain rfl := mint_rounds_idle hl rfl hmints
    exact h.keep (fun _ => rfl) rfl rfl
  | refund _ hl =>
    rw [topups_eq_nil fun _ => rfl, List.append_nil]
    refine hl.invariant ?_ h
    rintro s p s' ⟨hset, hstock⟩ ⟨info, _, rfl⟩
    exact ⟨hset, hstock⟩
  | gift _ _ hm =>
    rw [hm.mints_gift] at hmints
    cases hmints
  | init hset =>
    -- the pools are filled once only
    rw [h.set] at hset
    cases hset
  | @update o f g =>
    refine ⟨h.set, ?_⟩
    intro k
    show (if k.1 = .Prime then (s.sale.origin_of_shells_inventory k).map fun i => i.add f g
      else s.sale.origin_of_shells_inventory k) = some (supply (tops ++ [(f, g)]) k)
    unfold supply
    rw [h.stock k, List.foldl_append]
    by_cases hk : k.1 = .Prime
    · rw [if_pos hk, if_pos hk, supply, if_pos hk]
      rfl
    · rw [if_neg hk, if_neg hk, supply, if_neg hk]
  | create => exact h.keep (fun _ => rfl) rfl rfl
  | hatch hh =>
    obtain ⟨w, _, rfl⟩ := hh.post
    exact h.keep (fun _ => rfl) rfl rfl
  | outside => exact h.keep (fun _ => rfl) rfl rfl

/-- Filling the pools discards what may have been added before. -/
theorem Traded.fills (h : Traded s l r s') (hfills : Entry.fills ⟨s, l, r, s'⟩ = true) :
    Supplied [] s' := by
  unfold Entry.fills at hfills
  split at hfills
  · next hl =>
    dsimp only at hl
    subst hl
    unfold succeeded at hfills
    split at hfills
    · next hr =>
      dsimp only at hr
      subst hr
      cases h with
      | quiet _ hlabel => cases hlabel rfl
      | spirit _ _ hc => rcases hc with hc | ⟨sig, hc⟩ <;> cases hc
      | buy _ _ hc => rcases hc with ⟨hc, _⟩ | ⟨_, sig, hc⟩ <;> cases hc
      | init =>
        refine ⟨rfl, ?_⟩
        intro k
        unfold supply
        rw [List.foldl_nil, ite_self]
    · cases hfills
  · cases hfills

end steps

/-! ### Runs -/

section runs
variable [DecidableEq AccountId] {ok : Entry T → Prop} {s₀ s : State T}
  {later earlier : List (Entry T)} {e : Entry T}

/-- From the filling on the top-ups add up, as long as nothing is minted. -/
theorem Runs.supplied {tops : List (Nat × Nat)} (h : Runs ok s₀ later s) (hs₀ : Supplied tops s₀)
    (hmints : history mints later = []) : Supplied (tops ++ history topups later) s := by
  induction h with
  | nil =>
    rw [history_nil, List.append_nil]
    exact hs₀
  | @cons tr s l _ _ ih =>
    rw [history_cons, List.append_eq_nil_iff] at hmints
    rw [history_cons, ← List.append_assoc]
    exact (ih hmints.1).step (stepped s l).traded hmints.2

/-- **Granted supply.** After the filling `e` and before any mint the
    inventory holds the top-ups since. It is that of filling first and
    topping up then, with all top-ups of the run, if and only if those before
    the filling are covered, for sale and for giveaways. -/
theorem supply_kept_iff (h : Runs ok s₀ (later ++ e :: earlier) s) (hfills : e.fills = true)
    (hmints : history mints later = []) :
    (∀ k, s.sale.origin_of_shells_inventory k = some (supply (history topups later) k)) ∧
    ((∀ k, s.sale.origin_of_shells_inventory k =
        some (supply (history topups (later ++ e :: earlier)) k)) ↔
      Covers 1250 ((history topups earlier).map Prod.fst) ((history topups later).map Prod.fst) ∧
        Covers 0 ((history topups earlier).map Prod.snd)
          ((history topups later).map Prod.snd)) := by
  obtain ⟨_, _, heq, hlater⟩ := Run.split h
  have hnone : topups e = [] := by
    unfold Entry.fills at hfills
    unfold topups
    split at hfills
    · next hl => rw [hl]
    · cases hfills
  have hempty : Supplied [] e.post := by
    rw [heq] at hfills ⊢
    exact (stepped e.pre e.label).traded.fills hfills
  have hstock := (Runs.supplied hlater hempty hmints).stock
  rw [List.nil_append] at hstock
  refine ⟨hstock, ?_⟩
  rw [history_append, history_cons, hnone, List.append_nil, ← supply_append_iff]
  refine forall_congr' ?_
  intro k
  rw [hstock k, Option.some.injEq]

open Mock in
/-- The Overlord tops up the Prime pools before they are filled. -/
def early_topup : List (Label (runtime 200)) :=
  [.call .root (.set_overlord OVERLORD), admin (.update_rarity_type_counts .Prime 100 5),
    admin .init_rarity_type_counts]

open Mock in
/-- The call succeeds, and what it granted is lost. -/
theorem early_topup_lost : ∃ tr s, Runs (fun _ => True) (genesis₀ 200) tr s ∧
    history topups tr = [(100, 5)] ∧ filled tr = true ∧ (history mints tr).length = 0 ∧
    s.sale.origin_of_shells_inventory (.Prime, .Cyborg) = some NftSale.prime_nft_sale_info ∧
    some NftSale.prime_nft_sale_info ≠ some (supply (history topups tr) (.Prime, .Cyborg)) :=
  ⟨(after early_topup).1, (after early_topup).2, Run.exec (p := fun _ => True) .nil (by simp),
    by decide +kernel⟩

open Mock in
/-- The same top-up after the filling. -/
def late_topup : List (Label (runtime 200)) :=
  [.call .root (.set_overlord OVERLORD), admin .init_rarity_type_counts,
    admin (.update_rarity_type_counts .Prime 100 5)]

open Mock in
/-- It counts. -/
theorem supply_kept_late : (after late_topup).2.sale.origin_of_shells_inventory =
    fun k => some (supply [(100, 5)] k) := by
  have hrun : Runs (fun _ => True) (genesis₀ 200) (after late_topup).1 (after late_topup).2 :=
    Run.exec (p := fun _ => True) .nil (by simp)
  obtain ⟨later, e, earlier, htr, hfills, hlater, hearlier⟩ : ∃ later e earlier,
      (after late_topup).1 = later ++ e :: earlier ∧ e.fills = true ∧
        later = (after late_topup).1.take 1 ∧ earlier = (after late_topup).1.drop 2 :=
    ⟨(after late_topup).1.take 1, _, (after late_topup).1.drop 2, rfl, by decide +kernel, rfl, rfl⟩
  rw [htr] at hrun
  have hmints : (history mints later).length = 0 := by
    rw [hlater]
    decide +kernel
  have htops : history topups later = [(100, 5)] := by
    rw [hlater]
    decide +kernel
  have hstock := (supply_kept_iff hrun hfills (List.length_eq_zero_iff.mp hmints)).1
  rw [htops] at hstock
  exact funext hstock

end runs

end PhalaWorld
