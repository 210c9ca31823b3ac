import PhalaWorld.Framework.BoundedMap
import PhalaWorld.Reference.Mock

/-! # The life of a preorder

    A preorder gets the next id, is pending until a batch takes it out of
    storage, and is then minted or refunded. The trace of a run records
    each of the three: `placements` and `resolutions`.

    `Tracked` ties the storage to what was recorded. A placement extends it
    (`Tracked.place`), a round of a batch resolves one id
    (`Tracked.resolve`), and no other step touches it (`Tracked.idle`).
    Nothing is assumed of the other pallets.
-/

namespace PhalaWorld

open LTS BoundedMap

variable {AccountId : Type} {T : Config AccountId}

/-! ### What a trace records of preorders -/

/-- A preorder as it was placed. -/
structure Placement (AccountId : Type) where
  preorder_id : PreorderId
  owner : AccountId
  race : RaceType
  career : CareerType

/-- How a preorder ended. -/
inductive Resolution where
  | minted
  | refunded
  deriving DecidableEq

/-- The placement an event reports; race and career are the call's. -/
def Event.placement (l : Label T) : Event T → Option (Placement AccountId)
  | .OriginOfShellPreordered owner preorder_id =>
    match l with
    | .call _ (.preorder_origin_of_shell race career) => some ⟨preorder_id, owner, race, career⟩
    | _ => none
  | _ => none

/-- The end of a preorder an event reports. -/
def Event.resolution : Event T → Option (PreorderId × Resolution)
  | .ChosenPreorderMinted preorder_id _ => some (preorder_id, .minted)
  | .NotChosenPreorderRefunded preorder_id _ => some (preorder_id, .refunded)
  | _ => none

/-- The preorders an entry placed. -/
def placements (e : Entry T) : List (Placement AccountId) :=
  (emitted e).filterMap (Event.placement e.label)

/-- The preorders an entry resolved. -/
def resolutions (e : Entry T) : List (PreorderId × Resolution) :=
  (emitted e).filterMap Event.resolution

/-- Does the event report on a preorder? -/
def Event.isPreorder : Event T → Bool
  | .OriginOfShellPreordered .. | .ChosenPreorderMinted .. | .NotChosenPreorderRefunded .. => true
  | _ => false

section readings
variable {s s' : State T} {l : Label T} {r : Outcome T} {evs : List (Event T)}

theorem placements_of_append (h : s'.events = s.events ++ evs) :
    placements ⟨s, l, r, s'⟩ = evs.filterMap (Event.placement l) := by
  rw [placements, emitted_of_append h]

theorem resolutions_of_append (h : s'.events = s.events ++ evs) :
    resolutions ⟨s, l, r, s'⟩ = evs.filterMap Event.resolution := by
  rw [resolutions, emitted_of_append h]

theorem Event.placement_of_not {event : Event T} (h : event.isPreorder = false) (l : Label T) :
    event.placement l = none := by
  cases event <;> first | rfl | cases h

theorem Event.resolution_of_not {event : Event T} (h : event.isPreorder = false) :
    event.resolution = none := by
  cases event <;> first | rfl | cases h

theorem Event.isPreorder_of_isQuiet {event : Event T} (h : event.isQuiet = true) :
    event.isPreorder = false := by
  cases event <;> first | rfl | cases h

end readings

/-! ### The invariant -/

/-- The storage of `s`, after the placements `pls` and the resolutions `rs`. -/
structure Tracked (pls : List (Placement AccountId)) (rs : List (PreorderId × Resolution))
    (s : State T) : Prop where
  accounted : Accounted s.sale.preorders s.sale.preorder_index (rs.map Prod.fst)
  bound : s.sale.preorder_index < 2 ^ 32
  placed : pls.map Placement.preorder_id = List.range s.sale.preorder_index
  pending : ∀ pl ∈ pls, ∀ info, s.sale.preorders pl.preorder_id = some info →
    info.owner = pl.owner ∧ info.race = pl.race ∧ info.career = pl.career

/-- The mint of a preorder that was resolved: a Prime Origin of Shell, with
    the owner, race and career the preorder was placed with. -/
def MintedAs (pls : List (Placement AccountId)) (x : PreorderId × Resolution)
    (m : Mint AccountId) : Prop :=
  x.2 = .minted ∧ ∃ pl ∈ pls, pl.preorder_id = x.1 ∧ m.sale_type = .ForSale ∧
    m.rarity_type = .Prime ∧ m.owner = pl.owner ∧ m.race = pl.race ∧ m.career = pl.career

section moves
variable {pls : List (Placement AccountId)} {rs : List (PreorderId × Resolution)}
  {s s' : State T}

theorem Tracked.keep (h : Tracked pls rs s)
    (hindex : s'.sale.preorder_index = s.sale.preorder_index)
    (hpre : s'.sale.preorders = s.sale.preorders) : Tracked pls rs s' := by
  refine ⟨by rw [hpre, hindex]; exact h.accounted, by rw [hindex]; exact h.bound,
    by rw [hindex]; exact h.placed, ?_⟩
  rw [hpre]
  exact h.pending

theorem Tracked.id_lt (h : Tracked pls rs s) {pl : Placement AccountId} (hpl : pl ∈ pls) :
    pl.preorder_id < s.sale.preorder_index := by
  rw [← List.mem_range, ← h.placed]
  exact List.mem_map_of_mem hpl

/-- A pending preorder was placed, with the data it still has. -/
theorem Tracked.placement (h : Tracked pls rs s) {p : PreorderId}
    {info : PreorderInfo AccountId T.Metadata} (hp : s.sale.preorders p = some info) :
    ∃ pl ∈ pls, pl.preorder_id = p ∧ info.owner = pl.owner ∧ info.race = pl.race ∧
      info.career = pl.career := by
  have hlt := h.accounted.below.lt hp
  rw [← List.mem_range, ← h.placed] at hlt
  obtain ⟨pl, hpl, rfl⟩ := List.mem_map.mp hlt
  exact ⟨pl, hpl, rfl, h.pending pl hpl info hp⟩

/-- The next id is handed out. -/
theorem Tracked.place {a : AccountId} {ra : RaceType} {ca : CareerType} {md : T.Metadata}
    (h : Tracked pls rs s)
    (hmax : s.sale.preorder_index ≠ 2 ^ 32 - 1)
    (hindex : s'.sale.preorder_index = s.sale.preorder_index + 1)
    (hpre : s'.sale.preorders =
      Function.update s.sale.preorders s.sale.preorder_index (some ⟨a, ra, ca, md⟩)) :
    Tracked (pls ++ [⟨s.sale.preorder_index, a, ra, ca⟩]) rs s' := by
  -- `PreorderId::max_value` is never handed out, so the index does not overflow
  have hbound : s.sale.preorder_index + 1 < 2 ^ 32 :=
    Nat.lt_of_le_of_ne h.bound fun heq => hmax (Nat.add_right_cancel heq)
  refine ⟨by rw [hpre, hindex]; exact h.accounted.insert, by rw [hindex]; exact hbound, ?_, ?_⟩
  · rw [List.map_append, h.placed, hindex, List.range_succ]
    rfl
  · intro pl hpl info hinfo
    rw [hpre] at hinfo
    rcases List.mem_append.mp hpl with hold | hnew
    · rw [Function.update_of_ne (Nat.ne_of_lt (h.id_lt hold))] at hinfo
      exact h.pending pl hold info hinfo
    · rw [List.mem_singleton.mp hnew, Function.update_self, Option.some.injEq] at hinfo
      rw [List.mem_singleton.mp hnew, ← hinfo]
      exact ⟨rfl, rfl, rfl⟩

/-- A pending preorder is taken out of storage. -/
theorem Tracked.resolve {p : PreorderId} {info : PreorderInfo AccountId T.Metadata}
    {how : Resolution} (h : Tracked pls rs s) (hp : s.sale.preorders p = some info)
    (hindex : s'.sale.preorder_index = s.sale.preorder_index)
    (hpre : s'.sale.preorders = Function.update s.sale.preorders p none) :
    Tracked pls (rs ++ [(p, how)]) s' := by
  refine ⟨?_, by rw [hindex]; exact h.bound, by rw [hindex]; exact h.placed, ?_⟩
  · rw [hpre, hindex, List.map_append]
    exact h.accounted.erase hp
  · -- the other preorders keep their data
    intro pl hpl i hi
    rw [hpre] at hi
    by_cases hpl' : pl.preorder_id = p
    · rw [hpl', Function.update_self] at hi
      cases hi
    · rw [Function.update_of_ne hpl'] at hi
      exact h.pending pl hpl i hi

end moves

/-! ### Steps -/

/-- What an entry did to preorders, given the placements `pls` so far. -/
structure Orderly [DecidableEq AccountId] (pls : List (Placement AccountId)) (e : Entry T) :
    Prop where
  /-- A placement is a successful call, and overwrites nothing. -/
  placed : ∀ pl ∈ placements e, e.label =
      .call (.signed pl.owner) (.preorder_origin_of_shell pl.race pl.career) ∧
    succeeded e = true ∧ e.pre.sale.preorders pl.preorder_id = none
  /-- Preorders are minted by a successful batch. -/
  minted : ∀ p, (p, .minted) ∈ resolutions e →
    (∃ o l, e.label = .call (.signed o) (.mint_chosen_preorders l)) ∧ succeeded e = true
  /-- Preorders are refunded by a successful batch. -/
  refunded : ∀ p, (p, .refunded) ∈ resolutions e →
    (∃ o l, e.label = .call (.signed o) (.refund_not_chosen_preorders l)) ∧ succeeded e = true
  /-- A batch mints one Origin of Shell for each preorder, and no other. -/
  shells : ∀ o l, e.label = .call (.signed o) (.mint_chosen_preorders l) →
    List.Forall₂ (MintedAs pls) (resolutions e) (mints e)
  /-- A failed step changes nothing. -/
  failed : succeeded e = false → e.post = e.pre

section steps
variable [DecidableEq AccountId] {pls : List (Placement AccountId)}
  {rs : List (PreorderId × Resolution)} {s s' : State T} {l : Label T} {r : Outcome T}

/-- A step that leaves the preorders aside and reports on none. -/
theorem Tracked.idle {evs : List (Event T)} (h : Tracked pls rs s) (hs : Stepped s l r s')
    (hindex : s'.sale.preorder_index = s.sale.preorder_index)
    (hpre : s'.sale.preorders = s.sale.preorders) (hevs : s'.events = s.events ++ evs)
    (hnone : ∀ event ∈ evs, event.isPreorder = false)
    (hbatch : ∀ o ids, l = .call (.signed o) (.mint_chosen_preorders ids) →
      mints ⟨s, l, r, s'⟩ = []) :
    Tracked (pls ++ placements ⟨s, l, r, s'⟩) (rs ++ resolutions ⟨s, l, r, s'⟩) s' ∧
      Orderly (pls ++ placements ⟨s, l, r, s'⟩) ⟨s, l, r, s'⟩ := by
  have hplaced : placements ⟨s, l, r, s'⟩ = [] := by
    rw [placements_of_append hevs, List.filterMap_eq_nil_iff]
    exact fun event hmem => Event.placement_of_not (hnone event hmem) l
  have hresolved : resolutions ⟨s, l, r, s'⟩ = [] := by
    rw [resolutions_of_append hevs, List.filterMap_eq_nil_iff]
    exact fun event hmem => Event.resolution_of_not (hnone event hmem)
  refine ⟨?_, ?_, ?_, ?_, ?_, ?_⟩
  · rw [hplaced, hresolved, List.append_nil, List.append_nil]
    exact h.keep hindex hpre
  · rw [hplaced]
    exact fun _ h => absurd h List.not_mem_nil
  · rw [hresolved]
    exact fun _ h => absurd h List.not_mem_nil
  · rw [hresolved]
    exact fun _ h => absurd h List.not_mem_nil
  · intro o ids hl
    rw [hresolved, hbatch o ids hl]
    exact .nil
  · intro hf
    cases r with
    | ok u => cases hf
    | error err => exact hs.error

theorem Tracked.quiet (h : Tracked pls rs s) (hq : Quiet s s') (hs : Stepped s l r s') :
    Tracked (pls ++ placements ⟨s, l, r, s'⟩) (rs ++ resolutions ⟨s, l, r, s'⟩) s' ∧
      Orderly (pls ++ placements ⟨s, l, r, s'⟩) ⟨s, l, r, s'⟩ := by
  obtain ⟨evs, hevs, hquiet⟩ := hq.events
  exact h.idle hs hq.preorder_index hq.preorders hevs
    (fun event hmem => Event.isPreorder_of_isQuiet (hquiet event hmem)) (fun _ _ _ => hq.mints)

theorem Tracked.placed_step {a : AccountId} {ra : RaceType} {ca : CareerType}
    (h : Tracked pls rs s) (hp : Preorders a ra ca s s') :
    let e : Entry T := ⟨s, .call (.signed a) (.preorder_origin_of_shell ra ca), .ok (), s'⟩
    Tracked (pls ++ placements e) (rs ++ resolutions e) s' ∧ Orderly (pls ++ placements e) e := by
  intro e
  obtain ⟨md, w, _, _, hpost⟩ := hp.post
  have hevs : s'.events = s.events ++ [.OriginOfShellPreordered a s.sale.preorder_index] := by
    rw [hpost]
  have hplaced : placements e = [⟨s.sale.preorder_index, a, ra, ca⟩] := placements_of_append hevs
  have hresolved : resolutions e = [] := resolutions_of_append hevs
  refine ⟨?_, ?_, ?_, ?_, ?_, ?_⟩
  · rw [hplaced, hresolved, List.append_nil]
    exact h.place hp.index (by rw [hpost]) (by rw [hpost])
  · rw [hplaced]
    intro pl hpl
    rw [List.mem_singleton.mp hpl]
    exact ⟨rfl, rfl, h.accounted.below _ le_rfl⟩
  · rw [hresolved]
    exact fun _ h => absurd h List.not_mem_nil
  · rw [hresolved]
    exact fun _ h => absurd h List.not_mem_nil
  · intro o ids hl
    cases hl
  · intro hf
    cases hf

/-- A round of `mint_chosen_preorders` resolves its id and mints for it. -/
theorem Tracked.mint_round {o : AccountId} {last : Bool} {p : PreorderId} (h : Tracked pls rs s)
    (hm : MintsPreorder o last s p s') :
    ∃ evs m, s'.events = s.events ++ evs ∧ evs.filterMap Event.resolution = [(p, .minted)] ∧
      evs.filterMap (Event.placement l) = [] ∧ evs.filterMap (Event.mint .ForSale) = [m] ∧
      Tracked pls (rs ++ [(p, .minted)]) s' ∧ MintedAs pls (p, .minted) m := by
  obtain ⟨info, c, i, s₁, hinfo, hmint, rfl⟩ := hm
  obtain ⟨pl, hpl, hid, howner, hrace, hcareer⟩ := h.placement hinfo
  refine ⟨_, _, hmint.events_append _, rfl, rfl, rfl, ?_, rfl, pl, hpl, hid, rfl, rfl, howner,
    hrace, hcareer⟩
  obtain ⟨md, w, rc, cc, _, _, _, _, rfl⟩ := hmint.post
  exact h.resolve hinfo rfl rfl

omit [DecidableEq AccountId] in
theorem MintedAs.minted {xs : List (PreorderId × Resolution)} {ms : List (Mint AccountId)}
    (h : List.Forall₂ (MintedAs pls) xs ms) : ∀ x ∈ xs, x.2 = .minted := by
  induction h with
  | nil => exact fun _ h => absurd h List.not_mem_nil
  | cons hx _ ih =>
    intro y hy
    rcases List.mem_cons.mp hy with rfl | hy
    · exact hx.1
    · exact ih y hy

theorem Tracked.minted_step {o : AccountId} {last : Bool} {ids ids' : List PreorderId}
    (h : Tracked pls rs s) (hl : Chain (MintsPreorder o last) s ids s') :
    let e : Entry T := ⟨s, .call (.signed o) (.mint_chosen_preorders ids'), .ok (), s'⟩
    Tracked (pls ++ placements e) (rs ++ resolutions e) s' ∧ Orderly (pls ++ placements e) e := by
  intro e
  -- along the rounds, the mints stand next to the resolutions
  obtain ⟨evs, hevs, htracked, hplaced, hshells⟩ := hl.recorded (L := State.events)
    (f := some) (h := []) (J := fun evs s =>
      Tracked pls (rs ++ evs.filterMap Event.resolution) s ∧
      evs.filterMap (Event.placement e.label) = [] ∧
      List.Forall₂ (MintedAs pls) (evs.filterMap Event.resolution)
        (evs.filterMap (Event.mint .ForSale))) (by
    rintro done s p s' ⟨htracked, hplaced, hshells⟩ hm
    obtain ⟨evs, m, hevs, hres, hpl, hmints, htracked', hminted⟩ :=
      htracked.mint_round (l := e.label) hm
    refine ⟨evs, hevs, ?_⟩
    simp only [List.filterMap_some, List.filterMap_append, hres, hpl, hmints, hplaced,
      List.append_nil, ← List.append_assoc]
    exact ⟨htracked', trivial, List.rel_append hshells (.cons hminted .nil)⟩)
    ⟨by simpa using h, rfl, .nil⟩
  simp only [List.nil_append, List.filterMap_some] at htracked hplaced hshells
  have hplaced' : placements e = [] := (placements_of_append hevs).trans hplaced
  have hresolved : resolutions e = evs.filterMap Event.resolution := resolutions_of_append hevs
  refine ⟨?_, ?_, ?_, ?_, ?_, ?_⟩
  · rw [hplaced', hresolved, List.append_nil]
    exact htracked
  · rw [hplaced']
    exact fun _ h => absurd h List.not_mem_nil
  · exact fun p _ => ⟨⟨o, ids', rfl⟩, rfl⟩
  · intro p hp
    rw [hresolved] at hp
    cases MintedAs.minted hshells _ hp
  · intro _ _ _
    rw [hplaced', hresolved, List.append_nil, mints_of_append hevs]
    exact hshells
  · intro hf
    cases hf

theorem Tracked.refunded_step {o : AccountId} {last : Bool} {ids ids' : List PreorderId}
    (h : Tracked pls rs s) (hl : Chain (RefundsPreorder last) s ids s') :
    let e : Entry T := ⟨s, .call (.signed o) (.refund_not_chosen_preorders ids'), .ok (), s'⟩
    Tracked (pls ++ placements e) (rs ++ resolutions e) s' ∧ Orderly (pls ++ placements e) e := by
  intro e
  -- the rounds report refunds only
  obtain ⟨evs, hevs, htracked, hplaced, hhow⟩ := hl.recorded (L := State.events)
    (f := some) (h := []) (J := fun evs s =>
      Tracked pls (rs ++ evs.filterMap Event.resolution) s ∧
      evs.filterMap (Event.placement e.label) = [] ∧
      ∀ x ∈ evs.filterMap Event.resolution, x.2 = .refunded) (by
    rintro done s p s' ⟨htracked, hplaced, hhow⟩ ⟨info, hinfo, rfl⟩
    refine ⟨[.NotChosenPreorderRefunded p info.owner], rfl, ?_⟩
    simp only [List.filterMap_append, List.filterMap_cons, Event.resolution, Event.placement,
      List.filterMap_nil, hplaced, List.append_nil, ← List.append_assoc]
    refine ⟨htracked.resolve hinfo rfl rfl, trivial, ?_⟩
    intro x hx
    rcases List.mem_append.mp hx with hx | hx
    · exact hhow x hx
    · rw [List.mem_singleton.mp hx])
    ⟨by simpa using h, rfl, by simp⟩
  simp only [List.nil_append, List.filterMap_some] at htracked hplaced hhow
  have hplaced' : placements e = [] := (placements_of_append hevs).trans hplaced
  have hresolved : resolutions e = evs.filterMap Event.resolution := resolutions_of_append hevs
  refine ⟨?_, ?_, ?_, ?_, ?_, ?_⟩
  · rw [hplaced', hresolved, List.append_nil]
    exact htracked
  · rw [hplaced']
    exact fun _ h => absurd h List.not_mem_nil
  · intro p hp
    rw [hresolved] at hp
    cases hhow _ hp
  · exact fun p _ => ⟨⟨o, ids', rfl⟩, rfl⟩
  · intro _ _ hlabel
    cases hlabel
  · intro hf
    cases hf

theorem Tracked.step (h : Tracked pls rs s) (hs : Stepped s l r s') :
    Tracked (pls ++ placements ⟨s, l, r, s'⟩) (rs ++ resolutions ⟨s, l, r, s'⟩) s' ∧
      Orderly (pls ++ placements ⟨s, l, r, s'⟩) ⟨s, l, r, s'⟩ := by
  cases hs.traded with
  | quiet hq _ => exact h.quiet hq hs
  | preorder hp => exact h.placed_step hp
  | mint _ hl => exact h.minted_step hl
  | refund _ hl => exact h.refunded_step hl
  | spirit _ hm hc =>
    obtain ⟨md, w₁, w₂, _, _, _, rfl⟩ := hm.post
    refine h.idle hs rfl rfl rfl (by simp [Event.isPreorder]) ?_
    rcases hc with rfl | ⟨sig, rfl⟩ <;> exact fun _ _ hl => (by cases hl)
  | buy _ hm hc =>
    obtain ⟨md, w, rc, cc, _, _, _, _, rfl⟩ := hm.post
    refine h.idle hs rfl rfl rfl (by simp [Event.isPreorder]) ?_
    rcases hc with ⟨rfl, _⟩ | ⟨_, sig, rfl⟩ <;> exact fun _ _ hl => (by cases hl)
  | gift _ _ hm =>
    obtain ⟨md, w, rc, cc, _, _, _, _, rfl⟩ := hm.post
    exact h.idle hs rfl rfl (List.append_assoc _ _ _) (by simp [Event.isPreorder])
      (fun _ _ hl => (by cases hl))
  | init hset =>
    exact h.idle hs rfl rfl rfl (by simp [Event.isPreorder]) (fun _ _ hl => (by cases hl))
  | update =>
    exact h.idle hs rfl rfl rfl (by simp [Event.isPreorder]) (fun _ _ hl => (by cases hl))
  | create _ hw =>
    exact h.idle hs rfl rfl (List.append_nil _).symm (by simp) (fun _ _ hl => (by cases hl))
  | hatch hh =>
    obtain ⟨w, _, rfl⟩ := hh.post
    exact h.idle hs rfl rfl rfl (by simp [Event.isPreorder]) (fun _ _ hl => (by cases hl))
  | outside =>
    exact h.idle hs rfl rfl (List.append_nil _).symm (by simp) (fun _ _ hl => (by cases hl))

end steps

/-! ### Runs -/

theorem Orderly.mono [DecidableEq AccountId] {pls pls' : List (Placement AccountId)}
    {e : Entry T} (h : Orderly pls e) : Orderly (pls ++ pls') e := by
  refine ⟨h.placed, h.minted, h.refunded, ?_, h.failed⟩
  intro o l hl
  refine (h.shells o l hl).imp ?_
  intro x m hm
  obtain ⟨hx, pl, hpl, hdata⟩ := hm
  exact ⟨hx, pl, List.mem_append_left _ hpl, hdata⟩

/-- The preorder is in storage, as it was placed. -/
def Pends (s : State T) (pl : Placement AccountId) : Prop :=
  ∃ md, s.sale.preorders pl.preorder_id = some ⟨pl.owner, pl.race, pl.career, md⟩

/-- The number of pending preorders of `a`. -/
def pending [DecidableEq AccountId] (s : State T) (a : AccountId) : Nat :=
  entries s.sale.preorders s.sale.preorder_index fun info => info.owner = a

/-- How often an id was resolved in a way. -/
def times (rs : List (PreorderId × Resolution)) (p : PreorderId) (how : Resolution) : Nat :=
  rs.count (p, how)

/-- How many ids were resolved in a way. -/
def ended (rs : List (PreorderId × Resolution)) (how : Resolution) : Nat :=
  rs.countP fun x => x.2 = how

theorem length_eq_ended (rs : List (PreorderId × Resolution)) :
    rs.length = ended rs .minted + ended rs .refunded := by
  unfold ended
  rw [List.length_eq_countP_add_countP fun x : PreorderId × Resolution => x.2 = .minted]
  congr 1
  refine List.countP_congr ?_
  intro x _
  cases x.2 <;> decide

/-- An id listed once was resolved once, in one way. -/
theorem times_of_mem {rs : List (PreorderId × Resolution)} (h : (rs.map Prod.fst).Nodup)
    {p : PreorderId} {how how' : Resolution} (hmem : (p, how) ∈ rs) :
    times rs p how' = if how' = how then 1 else 0 := by
  unfold times
  by_cases hhow : how' = how
  · subst hhow
    rw [if_pos rfl, List.count_eq_one_of_mem h.of_map hmem]
  · rw [if_neg hhow, List.count_eq_zero]
    intro hmem'
    have := List.inj_on_of_nodup_map h hmem' hmem rfl
    exact hhow (congrArg Prod.snd this)

/-- A placed preorder is pending, was minted or was refunded: one of the
    three, and once. -/
theorem Tracked.condition {pls : List (Placement AccountId)}
    {rs : List (PreorderId × Resolution)} {s : State T} (h : Tracked pls rs s)
    {pl : Placement AccountId} (hpl : pl ∈ pls) :
    (Pends s pl ∧ times rs pl.preorder_id .minted = 0 ∧ times rs pl.preorder_id .refunded = 0) ∨
    (s.sale.preorders pl.preorder_id = none ∧
      times rs pl.preorder_id .minted = 1 ∧ times rs pl.preorder_id .refunded = 0) ∨
    (s.sale.preorders pl.preorder_id = none ∧
      times rs pl.preorder_id .minted = 0 ∧ times rs pl.preorder_id .refunded = 1) := by
  have hlt := h.id_lt hpl
  cases hp : s.sale.preorders pl.preorder_id with
  | some info =>
    -- what is pending was not resolved
    obtain ⟨owner, race, career, md⟩ := info
    obtain ⟨rfl, rfl, rfl⟩ := h.pending pl hpl _ hp
    have hnot (how : Resolution) : times rs pl.preorder_id how = 0 := by
      rw [times, List.count_eq_zero]
      intro hmem
      have hnone := ((h.accounted.removed_iff _).mp (List.mem_map_of_mem hmem)).2
      rw [hp] at hnone
      cases hnone
    exact .inl ⟨⟨md, hp⟩, hnot _, hnot _⟩
  | none =>
    -- what is gone was resolved, and its id is listed once
    obtain ⟨⟨p, how⟩, hmem, hpeq⟩ := List.mem_map.mp ((h.accounted.removed_iff _).mpr ⟨hlt, hp⟩)
    obtain rfl : p = pl.preorder_id := hpeq
    have htimes (how' : Resolution) : times rs pl.preorder_id how' = if how' = how then 1 else 0 :=
      times_of_mem h.accounted.nodup hmem
    cases how with
    | minted => exact .inr (.inl ⟨rfl, htimes .minted, htimes .refunded⟩)
    | refunded => exact .inr (.inr ⟨rfl, htimes .minted, htimes .refunded⟩)

/-- What the storage holds after a run, and that its steps were orderly. -/
theorem Runs.tracked [DecidableEq AccountId] {ok : Entry T → Prop} {g : GenesisConfig AccountId}
    {w : T.World} {now : UInt64} {tr : List (Entry T)} {s : State T}
    (h : Runs ok (genesis g w now) tr s) :
    Tracked (history placements tr) (history resolutions tr) s ∧
      ∀ e ∈ tr, Orderly (history placements tr) e := by
  refine Runs.induction (J := fun tr s => Tracked (history placements tr)
    (history resolutions tr) s ∧ ∀ e ∈ tr, Orderly (history placements tr) e) h ?_ ?_
  · refine ⟨⟨accounted_empty, Nat.two_pow_pos 32, rfl, ?_⟩, ?_⟩
    · exact fun _ h => absurd h List.not_mem_nil
    · exact fun _ h => absurd h List.not_mem_nil
  · intro tr s l r s' _ ⟨hJ, horderly⟩ _ hs
    obtain ⟨hJ', hentry⟩ := hJ.step hs
    refine ⟨hJ', ?_⟩
    intro e he
    rcases List.mem_cons.mp he with rfl | he
    · exact hentry
    · exact (horderly e he).mono

/-- **Exactly-once preorders.** In every run from genesis: the keys in
    storage are below the index, the ids below the index were handed out
    one by one, each by one placement, each is in one of the three
    conditions, and the index counts all three. Every step of the run was
    orderly. -/
theorem preorder_lifecycle [DecidableEq AccountId] {ok : Entry T → Prop}
    {g : GenesisConfig AccountId} {w : T.World} {now : UInt64} {tr : List (Entry T)} {s : State T}
    (h : Runs ok (genesis g w now) tr s) :
    Below s.sale.preorders s.sale.preorder_index ∧ s.sale.preorder_index < 2 ^ 32 ∧
    (history placements tr).map Placement.preorder_id = List.range s.sale.preorder_index ∧
    (∀ pl ∈ history placements tr,
      (Pends s pl ∧ times (history resolutions tr) pl.preorder_id .minted = 0 ∧
        times (history resolutions tr) pl.preorder_id .refunded = 0) ∨
      (s.sale.preorders pl.preorder_id = none ∧
        times (history resolutions tr) pl.preorder_id .minted = 1 ∧
        times (history resolutions tr) pl.preorder_id .refunded = 0) ∨
      (s.sale.preorders pl.preorder_id = none ∧
        times (history resolutions tr) pl.preorder_id .minted = 0 ∧
        times (history resolutions tr) pl.preorder_id .refunded = 1)) ∧
    s.sale.preorder_index =
      entries s.sale.preorders s.sale.preorder_index (fun _ => true) +
        ended (history resolutions tr) .minted + ended (history resolutions tr) .refunded ∧
    ∀ e ∈ tr, Orderly (history placements tr) e := by
  obtain ⟨htracked, horderly⟩ := h.tracked
  refine ⟨htracked.accounted.below, htracked.bound, htracked.placed,
    fun pl hpl => htracked.condition hpl, ?_, horderly⟩
  have hsize := htracked.accounted.size
  rw [List.length_map, length_eq_ended, ← Nat.add_assoc] at hsize
  exact hsize

open Mock in
/-- In the sample sale one of the two preorders was minted, one refunded. -/
theorem preorder_lifecycle_sale :
    ended (history resolutions (after (sale 200)).1) .minted = 1 ∧
    ended (history resolutions (after (sale 200)).1) .refunded = 1 ∧
    (history placements (after (sale 200)).1).map Placement.preorder_id =
      List.range (after (sale 200)).2.sale.preorder_index ∧
    ∀ e ∈ (after (sale 200)).1, Orderly (history placements (after (sale 200)).1) e := by
  have hrun : Runs (Within (fun _ => True) fun _ _ => True) (genesis₀ 200) (after (sale 200)).1
      (after (sale 200)).2 := runs_of_labels (sale 200) (by decide +kernel)
  obtain ⟨_, _, hplaced, _, _, horderly⟩ :=
    preorder_lifecycle (T := runtime 200) (g := GenesisConfig.default) (w := world₀) hrun
  exact ⟨by decide +kernel, by decide +kernel, hplaced, horderly⟩

end PhalaWorld
