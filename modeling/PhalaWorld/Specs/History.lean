import PhalaWorld.Specs.System

/-! # Runs of the system and what their traces record

    The results below are about every run: any number of steps in any
    order. A trace keeps each step with its outcome and the states around
    it, so that what a run minted, sold, granted or fed is read off its
    trace.

    * `Runs`: the runs whose entries all satisfy a condition.
    * `Runs.induction`: what one step keeps, a run keeps, with the cases
      of a step given by `Stepped`.
    * `mints`: the Origin of Shells an entry minted.
-/

namespace PhalaWorld

open LTS

variable {AccountId : Type} [DecidableEq AccountId] {T : Config AccountId}

/-- The runs from `s₀` whose entries all satisfy `ok`. -/
abbrev Runs (ok : Entry T → Prop) (s₀ : State T) (tr : List (Entry T)) (s : State T) : Prop :=
  Run step (fun s l => ok (entry step s l)) s₀ tr s

section runs
variable {ok : Entry T → Prop} {s₀ s : State T} {tr : List (Entry T)}

/-- Induction over a run: `J` holds of no history and the start, and every
    allowed step of the run keeps it. -/
theorem Runs.induction {J : List (Entry T) → State T → Prop} (h : Runs ok s₀ tr s)
    (hinit : J [] s₀)
    (hstep : ∀ {tr s l r s'}, Runs ok s₀ tr s → J tr s → ok ⟨s, l, r, s'⟩ → Stepped s l r s' →
      J (⟨s, l, r, s'⟩ :: tr) s') : J tr s := by
  induction h with
  | nil => exact hinit
  | cons l hrun hok ih => exact hstep hrun ih hok (stepped _ l)

/-- The same for a property of the state alone. -/
theorem Runs.invariant {I : State T → Prop} (h : Runs ok s₀ tr s) (hinit : I s₀)
    (hstep : ∀ {s l r s'}, I s → ok ⟨s, l, r, s'⟩ → Stepped s l r s' → I s') : I s :=
  Runs.induction (J := fun _ s => I s) h hinit fun _ hI hok hs => hstep hI hok hs

/-- Every entry of a run is a step from a state the run reaches. -/
theorem Runs.mem (h : Runs ok s₀ tr s) {e : Entry T} (he : e ∈ tr) :
    ∃ tr', Runs ok s₀ tr' e.pre ∧ ok e ∧ Stepped e.pre e.label e.result e.post := by
  obtain ⟨tr', hrun, hok, heq⟩ := Run.mem h he
  refine ⟨tr', hrun, heq ▸ hok, ?_⟩
  rw [heq]
  exact stepped _ _

/-- Did the step go through? -/
def succeeded (e : Entry T) : Bool :=
  match e.result with
  | .ok () => true
  | .error _ => false

theorem step_of_succeeded {l : Label T} (h : succeeded (entry step s l) = true) :
    step s l = (.ok (), (step s l).2) := by
  unfold succeeded entry at h
  split at h
  · next hr => exact Prod.ext hr rfl
  · cases h

/-- A step of a run that did not go through changed nothing. -/
theorem Runs.failed (h : Runs ok s₀ tr s) {e : Entry T} (he : e ∈ tr)
    (hfail : succeeded e = false) : e.post = e.pre := by
  obtain ⟨_, _, _, hs⟩ := h.mem he
  obtain ⟨pre, l, r, post⟩ := e
  cases r with
  | ok u => cases hfail
  | error err => exact hs.error

/-- A collection id that was set in a run is the same at its end. -/
theorem Runs.ids_kept (h : Runs ok s₀ tr s) : ∀ e ∈ tr, IdsKept e.pre s := by
  refine Runs.induction (J := fun tr s => ∀ e ∈ tr, IdsKept e.pre s) h ?_ ?_
  · exact fun e he => absurd he List.not_mem_nil
  · intro tr s l r s' _ hJ _ hs e he
    rcases List.mem_cons.mp he with rfl | he
    · exact hs.traded.ids_kept
    · exact (hJ e he).trans hs.traded.ids_kept

end runs

/-! ### The outside of a run -/

/-- A condition on the entries of a run in two parts: `P` on every entry,
    `Q` on the worlds around what happens outside the two pallets. -/
def Within (P : Entry T → Prop) (Q : T.World → T.World → Prop) (e : Entry T) : Prop :=
  P e ∧ ∀ w, e.label = .outside w → Q e.pre.world w

/-- Does something happen outside? -/
def Label.isOutside : Label T → Bool
  | .outside _ => true
  | _ => false

/-- Trying labels in a row is a run, where nothing happens outside and `P`
    holds of what the steps did. -/
theorem runs_of_labels {P : Entry T → Prop} {Q : T.World → T.World → Prop} {s₀ : State T}
    (ls : List (Label T))
    (h : ∀ e ∈ (exec step s₀ [] ls).1, P e ∧ e.label.isOutside = false) :
    Runs (Within P Q) s₀ (exec step s₀ [] ls).1 (exec step s₀ [] ls).2 := by
  refine Run.exec .nil fun e he => ⟨(h e he).1, ?_⟩
  intro w hw
  have hinside := (h e he).2
  rw [hw] at hinside
  cases hinside

/-! ### Events and mints -/

omit [DecidableEq AccountId]

/-- The events of one step. -/
def emitted (e : Entry T) : List (Event T) :=
  e.post.events.drop e.pre.events.length

/-- An Origin of Shell that was minted. -/
structure Mint (AccountId : Type) where
  sale_type : NftSaleType
  rarity_type : RarityType
  race : RaceType
  career : CareerType
  collection_id : CollectionId
  nft_id : NftId
  owner : AccountId

/-- The sale type a call mints with: a gift names its own. -/
def Label.saleType : Label T → NftSaleType
  | .call _ (.mint_gift_origin_of_shell _ _ _ _ nft_sale_type) => nft_sale_type
  | _ => .ForSale

/-- The mint an event reports. -/
def Event.mint (nft_sale_type : NftSaleType) : Event T → Option (Mint AccountId)
  | .OriginOfShellMinted rarity_type collection_id nft_id owner race career =>
      some ⟨nft_sale_type, rarity_type, race, career, collection_id, nft_id, owner⟩
  | _ => none

/-- What an entry minted. -/
def mints (e : Entry T) : List (Mint AccountId) :=
  (emitted e).filterMap (Event.mint e.label.saleType)

/-- The record of a mint of the item `n` of `c` to `a`. -/
def mintOf (pool : NftSaleType) (a : AccountId) (t : Traits) (c : CollectionId) (n : NftId) :
    Mint AccountId :=
  ⟨pool, t.rarity_type, t.race, t.career, c, n, a⟩

section readings
variable {s s' : State T} {l : Label T} {r : Outcome T}

/-- The step's states with the events between them. -/
theorem emitted_of_append {evs : List (Event T)} (h : s'.events = s.events ++ evs) :
    emitted ⟨s, l, r, s'⟩ = evs := by
  simp [emitted, h]

theorem mints_of_append {evs : List (Event T)} (h : s'.events = s.events ++ evs) :
    mints ⟨s, l, r, s'⟩ = evs.filterMap (Event.mint l.saleType) := by
  rw [mints, emitted_of_append h]

theorem mints_of_eq (h : s'.events = s.events) : mints ⟨s, l, r, s'⟩ = [] := by
  simp [mints, emitted, h]

theorem Event.mint_of_isQuiet {event : Event T} (h : event.isQuiet = true) (t : NftSaleType) :
    event.mint t = none := by
  cases event <;> first | rfl | cases h

/-- A step that trades nothing mints nothing. -/
theorem Quiet.mints (h : Quiet s s') : mints ⟨s, l, r, s'⟩ = [] := by
  obtain ⟨evs, hevs, hq⟩ := h.events
  rw [mints_of_append hevs, List.filterMap_eq_nil_iff]
  exact fun event hmem => Event.mint_of_isQuiet (hq event hmem) _

theorem Mints.events {o a : AccountId} {t : Traits} {price : Nat} {pool : NftSaleType}
    {check : Bool} {c : CollectionId} {i : NftSaleInfo} (h : Mints o a t price pool check c i s s') :
    s'.events = s.events ++ [.OriginOfShellMinted t.rarity_type c (T.NextNftId s.world c) a
      t.race t.career] := by
  obtain ⟨md, w, rc, cc, _, _, _, _, rfl⟩ := h.post
  rfl

/-- The events of a sale that the call goes on to report on: a gift, a chosen preorder. -/
theorem Mints.events_append {o a : AccountId} {t : Traits} {price : Nat} {pool : NftSaleType}
    {check : Bool} {c : CollectionId} {i : NftSaleInfo} (h : Mints o a t price pool check c i s s')
    (event : Event T) :
    s'.events ++ [event] = s.events ++
      [.OriginOfShellMinted t.rarity_type c (T.NextNftId s.world c) a t.race t.career, event] := by
  rw [h.events, List.append_assoc]
  rfl

/-- A sale mints one Origin of Shell, with the sale type of the call. -/
theorem Mints.mints {o a : AccountId} {t : Traits} {price : Nat} {pool : NftSaleType}
    {check : Bool} {c : CollectionId} {i : NftSaleInfo}
    (h : Mints o a t price pool check c i s s') (hpool : l.saleType = pool) :
    mints ⟨s, l, r, s'⟩ = [mintOf pool a t c (T.NextNftId s.world c)] := by
  rw [mints_of_append h.events, hpool]
  rfl

/-- A gift mints one, from the pool it names. -/
theorem Mints.mints_gift {o o' a a' : AccountId} {t : Traits} {ra : RarityType} {race : RaceType}
    {ca : CareerType} {price : Nat} {pool : NftSaleType} {check : Bool} {c : CollectionId}
    {i : NftSaleInfo} (h : Mints o a t price pool check c i s s') :
    PhalaWorld.mints ⟨s, .call (.signed o') (.mint_gift_origin_of_shell a' ra race ca pool), r,
      { s' with events := s'.events ++ [.OriginOfShellGiftedToOwner a pool] }⟩ =
      [mintOf pool a t c (T.NextNftId s.world c)] := by
  rw [mints_of_append (h.events_append _)]
  rfl

@[simp] theorem mints_world {w : T.World} : mints ⟨s, l, r, { s with world := w }⟩ = [] :=
  mints_of_eq rfl

/-- A change of the storage with an event that reports no mint. -/
theorem mints_sale {st : NftSaleStorage T} {event : Event T} (h : event.mint l.saleType = none) :
    mints ⟨s, l, r, { s with sale := st, events := s.events ++ [event] }⟩ = [] := by
  rw [mints_of_append rfl]
  simp [h]

theorem MintsSpirit.mints {o a : AccountId} {c : CollectionId} (h : MintsSpirit o a c s s') :
    mints ⟨s, l, r, s'⟩ = [] := by
  obtain ⟨md, w₁, w₂, _, _, _, rfl⟩ := h.post
  rw [mints_of_append rfl]
  rfl

theorem Preorders.mints [DecidableEq AccountId] {a : AccountId} {ra : RaceType} {ca : CareerType}
    (h : Preorders a ra ca s s') : mints ⟨s, l, r, s'⟩ = [] := by
  obtain ⟨md, w, _, _, rfl⟩ := h.post
  rw [mints_of_append rfl]
  rfl

theorem Hatches.mints {o owner : AccountId} {c : CollectionId} {n : NftId} {sc : CollectionId}
    {md : T.Metadata} {t : Traits} (h : Hatches o owner c n sc md t s s') :
    mints ⟨s, l, r, s'⟩ = [] := by
  obtain ⟨w, _, rfl⟩ := h.post
  rw [mints_of_append rfl]
  rfl

end readings

end PhalaWorld
