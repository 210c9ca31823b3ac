import PhalaWorld.Framework.Exchange
import PhalaWorld.Sale.Inventory
import PhalaWorld.Shells.Soulbound

/-! # Hatching conserves shells

    A hatch burns an Origin of Shell and mints a Shell with the same
    attributes, under an id that was predicted before the mint. Seen from
    outside, the entry of one collection is exchanged for an entry of the
    other with the same traits.

    * `hatches`: the exchanges an entry made.
    * `Exchanging`: the invariant, an instance of `Exchanged`.
    * `hatching_conserves`: what becomes of every Origin of Shell.
-/

namespace PhalaWorld

open LTS Tokens BoundedMap Transaction

variable {AccountId : Type} {T : Config AccountId}

/-! ### Mints and hatches -/

/-- An Origin of Shell that was exchanged for a Shell. -/
structure Hatch (AccountId : Type) where
  origin_of_shell : CollectionId × NftId
  shell : CollectionId × NftId
  owner : AccountId
  deriving DecidableEq

/-- The Origin of Shell a call tries to hatch. -/
def Label.hatching : Label T → Option (CollectionId × NftId)
  | .call _ (.hatch_origin_of_shell collection_id nft_id _) => some (collection_id, nft_id)
  | _ => none

/-- The hatch an event reports. -/
def Event.hatch (l : Label T) : Event T → Option (Hatch AccountId)
  | .ShellAwakened collection_id nft_id owner =>
      l.hatching.map fun x => ⟨x, (collection_id, nft_id), owner⟩
  | _ => none

/-- What an entry hatched. -/
def hatches (e : Entry T) : List (Hatch AccountId) :=
  (emitted e).filterMap (Event.hatch e.label)

/-- The item a mint made, and what it was minted with. -/
def Mint.nft (m : Mint AccountId) : CollectionId × NftId := (m.collection_id, m.nft_id)

def Mint.traits (m : Mint AccountId) : Traits := ⟨m.rarity_type, m.race, m.career, 0⟩

theorem Label.eq_of_hatching {l : Label T} {x : CollectionId × NftId} (h : l.hatching = some x) :
    ∃ origin md, l = .call origin (.hatch_origin_of_shell x.1 x.2 md) := by
  unfold Label.hatching at h
  split at h
  · cases h
    exact ⟨_, _, rfl⟩
  · cases h

theorem Event.hatch_of_isQuiet {event : Event T} (h : event.isQuiet = true) (l : Label T) :
    event.hatch l = none := by
  cases event <;> first | rfl | cases h

/-- Other calls hatch nothing. -/
theorem Event.hatch_of_not {l : Label T} (h : l.hatching = none) (event : Event T) :
    event.hatch l = none := by
  cases event <;> first | rfl | (rw [Event.hatch, h]; rfl)

section readings
variable {s s' : State T} {l : Label T} {r : Outcome T}

/-- A call that is no hatch hatches nothing. -/
theorem hatches_eq_nil (h : l.hatching = none) : hatches ⟨s, l, r, s'⟩ = [] :=
  List.filterMap_eq_nil_iff.mpr fun event _ => Event.hatch_of_not h event

theorem Quiet.hatches (hq : Quiet s s') : hatches ⟨s, l, r, s'⟩ = [] := by
  obtain ⟨evs, hevs, hquiet⟩ := hq.events
  rw [PhalaWorld.hatches, emitted_of_append hevs]
  exact List.filterMap_eq_nil_iff.mpr fun event hmem => Event.hatch_of_isQuiet (hquiet event hmem) l

theorem Hatches.hatches {o owner : AccountId} {c : CollectionId} {n : NftId} {sc : CollectionId}
    {md : T.Metadata} {t : Traits} (hh : Hatches o owner c n sc md t s s')
    (hl : l.hatching = some (c, n)) :
    hatches ⟨s, l, r, s'⟩ = [⟨(c, n), (sc, T.NextNftId s.world sc), owner⟩] := by
  obtain ⟨w, _, rfl⟩ := hh.post
  rw [PhalaWorld.hatches, emitted_of_append rfl]
  simp [Event.hatch, hl]

end readings

/-! ### The two collections -/

/-- The items of a collection, as their traits. -/
def Config.labelled (T : Config AccountId) (w : T.World) (c : CollectionId) :
    NftId → Option (Option Traits) :=
  Option.map Prod.snd ∘ T.listed w c

/-- The same for a collection that may not be set yet. -/
def tokens (w : T.World) (c : Option CollectionId) : NftId → Option (Option Traits) :=
  c.elim (fun _ => none) (T.labelled w)

/-- The id its next item gets. -/
def index (w : T.World) (c : Option CollectionId) : Nat :=
  c.elim 0 (T.nfts w).next

/-- How many of its items have traits that satisfy `p`. -/
def population (w : T.World) (c : Option CollectionId) (p : Traits → Bool) : Nat :=
  entries (tokens w c) (index w c) fun t => t.any p

/-- Is `d` one of the two collections between which shells are exchanged? -/
def Shelled (s : State T) (d : CollectionId) : Prop :=
  s.sale.origin_of_shell_collection_id = some d ∨ s.incubation.shell_collection_id = some d

/-- After the mints `ms` and the hatches `hs`, in the two collections that
    are set at the end `f` of the run. -/
structure Exchanging (f : State T) (ms : List (Mint AccountId)) (hs : List (Hatch AccountId))
    (s : State T) : Prop where
  ids : IdsKept s f
  minted_in : ∀ m ∈ ms, f.sale.origin_of_shell_collection_id = some m.collection_id
  hatched_in : ∀ h ∈ hs, f.sale.origin_of_shell_collection_id = some h.origin_of_shell.1 ∧
    f.incubation.shell_collection_id = some h.shell.1
  exchanged : Exchanged
    (tokens s.world f.sale.origin_of_shell_collection_id)
    (index s.world f.sale.origin_of_shell_collection_id)
    (tokens s.world f.incubation.shell_collection_id)
    (index s.world f.incubation.shell_collection_id)
    (ms.map fun m => (m.nft_id, some m.traits))
    (hs.map fun h => (h.origin_of_shell.2, h.shell.2))

section moves
variable {f s s' : State T} {ms : List (Mint AccountId)} {hs : List (Hatch AccountId)}
  {w w' : T.World}

theorem tokens_congr {c : Option CollectionId} (h : ∀ d, c = some d →
    (T.nfts w').next d = (T.nfts w).next d ∧ T.labelled w' d = T.labelled w d) :
    tokens w' c = tokens w c ∧ index w' c = index w c := by
  cases c with
  | none => exact ⟨rfl, rfl⟩
  | some d => exact ⟨(h d rfl).2, (h d rfl).1⟩

/-- A step that mints and burns nothing in the two collections. -/
theorem Exchanging.keep (h : Exchanging f ms hs s) (hids : IdsKept s' f)
    (hsame : ∀ d, Shelled f d → (T.nfts s'.world).next d = (T.nfts s.world).next d ∧
      T.labelled s'.world d = T.labelled s.world d) : Exchanging f ms hs s' := by
  obtain ⟨htokens, hindex⟩ := tokens_congr fun d hd => hsame d (.inl hd)
  obtain ⟨htokens', hindex'⟩ := tokens_congr fun d hd => hsame d (.inr hd)
  refine ⟨hids, h.minted_in, h.hatched_in, ?_⟩
  rw [htokens, hindex, htokens', hindex']
  exact h.exchanged

theorem Exchanging.keep_nfts (h : Exchanging f ms hs s) (hids : IdsKept s' f)
    (hnfts : T.nfts s'.world = T.nfts s.world) : Exchanging f ms hs s' := by
  refine h.keep hids fun d _ => ⟨by rw [hnfts], congrArg (Option.map Prod.snd ∘ ·) ?_⟩
  exact funext fun n => listed_congr (by rw [hnfts]) fun k => by rw [hnfts]

/-- A Spirit is minted into a collection of its own. -/
theorem Exchanging.claim (hN : NftLaws T) (hf : DistinctIds f) {o a : AccountId} {c : CollectionId}
    (h : Exchanging f ms hs s) (hm : MintsSpirit o a c s s') : Exchanging f ms hs s' := by
  have hspirit := h.ids.spirit c hm.collection
  have hrec := (hm.minted hN).1.received
  obtain ⟨md, w₁, w₂, _, _, _, rfl⟩ := hm.post
  refine h.keep (h.ids.of_same rfl rfl rfl) ?_
  intro d hd
  -- neither collection is the one of the Spirits
  have hdc : d ≠ c := by
    rintro rfl
    rcases hd with hd | hd
    · exact hf.spirit_origin_of_shell d hspirit hd
    · exact hf.spirit_shell d hspirit hd
  exact ⟨hrec.next_of_ne hdc, congrArg (Option.map Prod.snd ∘ ·) (listed_received_of_ne hrec hdc)⟩

/-- An Origin of Shell is put into the first collection. -/
theorem Exchanging.mint [DecidableEq AccountId] (hC : CurrencyLaws T) (hN : NftLaws T)
    (hf : DistinctIds f) {o a : AccountId} {t : Traits} {price : Nat} {pool : NftSaleType}
    {check : Bool} {c : CollectionId} {i : NftSaleInfo} (h : Exchanging f ms hs s)
    (hm : Mints o a t price pool check c i s s') (hg : t.generation = 0) :
    Exchanging f (ms ++ [mintOf pool a t c (T.NextNftId s.world c)]) hs s' := by
  have hcoll := h.ids.origin_of_shell c hm.collection
  have hshell (d : CollectionId) (hd : f.incubation.shell_collection_id = some d) : d ≠ c := by
    rintro rfl
    exact hf.origin_of_shell_shell d hcoll hd
  obtain ⟨⟨_, _, hrec⟩, htraits, _⟩ := hm.minted hC hN
  obtain ⟨md, w, rc, cc, _, _, _, _, rfl⟩ := hm.post
  obtain ⟨htokens', hindex'⟩ :
      tokens w f.incubation.shell_collection_id = tokens s.world f.incubation.shell_collection_id ∧
        index w f.incubation.shell_collection_id = index s.world f.incubation.shell_collection_id :=
    tokens_congr fun d hd => ⟨hrec.next_of_ne (hshell d hd),
      congrArg (Option.map Prod.snd ∘ ·) (listed_received_of_ne hrec (hshell d hd))⟩
  -- an event does not tell the generation, which is 0 for every Origin of Shell
  have hmint : (mintOf pool a t c (T.NextNftId s.world c)).traits = t := by
    obtain ⟨r, ra, ca, g⟩ := t
    exact congrArg (Traits.mk r ra ca) hg.symm
  refine ⟨h.ids.of_same rfl rfl rfl, ?_, h.hatched_in, ?_⟩
  · intro m hm
    rcases List.mem_append.mp hm with hm | hm
    · exact h.minted_in m hm
    · rw [List.mem_singleton.mp hm]
      exact hcoll
  · -- in the library's terms an entry is put into the source
    have hput := h.exchanged.put (some t)
    obtain ⟨md', hlisted⟩ := listed_received_self hrec
    have hlabelled : T.labelled w c =
        Function.update (T.labelled s.world c) ((T.nfts s.world).next c) (some (some t)) := by
      rw [Config.labelled, hlisted, Function.comp_update, htraits]
      rfl
    rw [List.map_append, List.map_singleton, hmint, htokens', hindex']
    rw [hcoll] at hput ⊢
    rw [show tokens w (some c) = _ from hlabelled, show index w (some c) = _ from hrec.next_self]
    exact hput

/-- A hatch exchanges it. -/
theorem Exchanging.hatch (hN : NftLaws T) (hf : DistinctIds f) {o a : AccountId} {c : CollectionId}
    {n : NftId} {sc : CollectionId} {md : T.Metadata} {t : Traits} (h : Exchanging f ms hs s)
    (hh : Hatches o a c n sc md t s s') :
    Exchanging f ms (hs ++ [⟨(c, n), (sc, T.NextNftId s.world sc), a⟩]) s' := by
  have hcoll := h.ids.origin_of_shell c hh.collection
  have hshell := h.ids.shell sc hh.shell_collection
  have hne : c ≠ sc := by
    rintro rfl
    exact hf.origin_of_shell_shell c hcoll hshell
  obtain ⟨root, hroot⟩ := hh.root_owner
  obtain ⟨i, hi, _⟩ := hN.lookup_root_owner_ok hroot
  -- the entry that is exchanged carries the traits that were looked up
  have hlive : tokens s.world (some c) n = some (some t) := by
    show (T.listed s.world c n).map Prod.snd = _
    rw [Config.listed, hi, hh.traits]
    rfl
  obtain ⟨w, hawakens, rfl⟩ := hh.post
  obtain ⟨hnext, hburned⟩ := hawakens.listed_burned hN hne
  obtain ⟨hnext', md', hminted⟩ := hawakens.listed_minted hN hne
  refine ⟨h.ids.of_same rfl rfl rfl, h.minted_in, ?_, ?_⟩
  · intro h' hh'
    rcases List.mem_append.mp hh' with hh' | hh'
    · exact h.hatched_in h' hh'
    · rw [List.mem_singleton.mp hh']
      exact ⟨hcoll, hshell⟩
  · have hexchanged := h.exchanged
    rw [hcoll, hshell] at hexchanged ⊢
    have hafter := hexchanged.exchange hlive
    have hlabelled : T.labelled w c = Function.update (T.labelled s.world c) n none := by
      rw [Config.labelled, hburned, if_pos rfl, Function.comp_update]
      rfl
    have hlabelled' : T.labelled w sc =
        Function.update (T.labelled s.world sc) ((T.nfts s.world).next sc) (some (some t)) := by
      rw [Config.labelled, hminted, Function.comp_update]
      rfl
    rw [List.map_append, List.map_singleton, show tokens w (some c) = _ from hlabelled,
      show index w (some c) = _ from hnext, show tokens w (some sc) = _ from hlabelled',
      show index w (some sc) = _ from hnext']
    exact hafter

/-- Holders pass on items with their traits. -/
theorem Exchanging.move (h : Exchanging f ms hs s)
    (hmoved : Nfts.Moved (Shelled f) (T.nfts s.world) (T.nfts w)) :
    Exchanging f ms hs { s with world := w } := by
  refine h.keep (h.ids.of_same rfl rfl rfl) ?_
  intro d hd
  obtain ⟨hnext, hattr, hitem⟩ := hmoved d hd
  refine ⟨hnext, funext ?_⟩
  intro n
  -- a transfer changes the owner, which `labelled` forgets
  have htraits := Config.traits_congr (hattr n)
  show (T.listed w d n).map Prod.snd = (T.listed s.world d n).map Prod.snd
  rw [Config.listed, Config.listed, htraits]
  rcases hitem n with heq | ⟨i, b, hi, _, hi'⟩
  · rw [heq]
  · rw [hi, hi']
    rfl

end moves

/-! ### Steps -/

section steps
variable [DecidableEq AccountId] {f s s' : State T} {ms : List (Mint AccountId)}
  {hs : List (Hatch AccountId)} {l : Label T} {r : Outcome T}

/-- A round of `mint_chosen_preorders` puts one in. -/
theorem Exchanging.mint_round (hC : CurrencyLaws T) (hN : NftLaws T) (hf : DistinctIds f)
    {o : AccountId} {last : Bool} {p : PreorderId} (h : Exchanging f ms hs s)
    (hm : MintsPreorder o last s p s') :
    ∃ evs, s'.events = s.events ++ evs ∧
      Exchanging f (ms ++ evs.filterMap (Event.mint .ForSale)) hs s' := by
  obtain ⟨info, c, i, s₁, _, hmint, rfl⟩ := hm
  have hrelease : Exchanging f ms hs (s.release p info.owner) :=
    h.keep_nfts (h.ids.of_same rfl rfl rfl) (hC.unreserve_eq _ _ _).2
  have hminted := hrelease.mint hC hN hf hmint rfl
  exact ⟨_, hmint.events_append _, hminted.keep_nfts (hminted.ids.of_same rfl rfl rfl) rfl⟩

theorem Exchanging.refund_round (hC : CurrencyLaws T) {last : Bool} {p : PreorderId}
    (h : Exchanging f ms hs s) (hr : RefundsPreorder last s p s') : Exchanging f ms hs s' := by
  obtain ⟨info, _, rfl⟩ := hr
  exact h.keep_nfts (h.ids.of_same rfl rfl rfl) (hC.unreserve_eq _ _ _).2

/-- Every step keeps the invariant, with what it minted and hatched. -/
theorem Exchanging.step (hC : CurrencyLaws T) (hN : NftLaws T) (hf : DistinctIds f)
    (h : Exchanging f ms hs s) (hids : IdsKept s' f)
    (hout : ∀ w, l = .outside w → Nfts.Moved (Shelled f) (T.nfts s.world) (T.nfts w))
    (hs' : Traded s l r s') :
    Exchanging f (ms ++ mints ⟨s, l, r, s'⟩) (hs ++ hatches ⟨s, l, r, s'⟩) s' := by
  -- a step that neither mints nor hatches
  have hidle (hmints : mints ⟨s, l, r, s'⟩ = []) (hhatches : hatches ⟨s, l, r, s'⟩ = [])
      (h : Exchanging f ms hs s') :
      Exchanging f (ms ++ mints ⟨s, l, r, s'⟩) (hs ++ hatches ⟨s, l, r, s'⟩) s' := by
    rw [hmints, hhatches, List.append_nil, List.append_nil]
    exact h
  cases hs' with
  | quiet hq _ => exact hidle hq.mints hq.hatches (h.keep_nfts hids (by rw [hq.world]))
  | spirit _ hm hc =>
    refine hidle hm.mints (hatches_eq_nil ?_) (h.claim hN hf hm)
    rcases hc with rfl | ⟨sig, rfl⟩ <;> rfl
  | @buy a _ _ _ _ _ _ c _ _ hm hc =>
    have hlabel : (Label.call (.signed a) c).saleType = .ForSale ∧
        (Label.call (.signed a) c).hatching = none := by
      rcases hc with ⟨rfl, _⟩ | ⟨_, sig, rfl⟩ <;> exact ⟨rfl, rfl⟩
    rw [hm.mints hlabel.1, hatches_eq_nil hlabel.2, List.append_nil]
    exact h.mint hC hN hf hm rfl
  | preorder hp =>
    obtain ⟨md, w, _, hreserve, rfl⟩ := hp.post
    exact hidle hp.mints (hatches_eq_nil rfl) (h.keep_nfts hids (hC.reserve_ok hreserve).2.2)
  | mint _ hl =>
    obtain ⟨evs, hevs, h'⟩ := hl.recorded (L := State.events)
      (J := fun ms s => Exchanging f ms hs s) (fun _ _ _ _ hJ hm => hJ.mint_round hC hN hf hm) h
    rw [mints_of_append hevs, hatches_eq_nil rfl, List.append_nil]
    exact h'
  | refund _ hl =>
    exact hidle (refund_batch_mints hl) (hatches_eq_nil rfl)
      (hl.invariant (fun _ _ _ hJ hr => hJ.refund_round hC hr) h)
  | gift _ _ hm =>
    rw [hm.mints_gift, hatches_eq_nil rfl, List.append_nil]
    exact (h.mint hC hN hf hm rfl).keep_nfts hids rfl
  | init => exact hidle (mints_sale rfl) (hatches_eq_nil rfl) (h.keep_nfts hids rfl)
  | update => exact hidle (mints_sale rfl) (hatches_eq_nil rfl) (h.keep_nfts hids rfl)
  | create _ hw =>
    obtain ⟨c, hview, _⟩ := hN.create_collection_ok hw
    refine hidle mints_world (hatches_eq_nil rfl) (h.keep hids fun d _ => ⟨?_, ?_⟩)
    · rw [hview, Nfts.create_next]
    · exact congrArg (Option.map Prod.snd ∘ ·) (funext fun n =>
        listed_congr (by rw [hview, Nfts.create_item]) fun k => by rw [hview, Nfts.create_attr])
  | hatch hh =>
    rw [hh.mints, hh.hatches rfl, List.append_nil]
    exact h.hatch hN hf hh
  | outside => exact hidle mints_world (hatches_eq_nil rfl) (h.move (hout _ rfl))

end steps

/-! ### What a hatch did -/

/-- The Origin of Shell of `h` is gone, and its owner got a new Shell with
    the same traits. -/
def Awakened (e : Entry T) (h : Hatch AccountId) : Prop :=
  ∃ i j, (T.nfts e.pre.world).item h.origin_of_shell = some i ∧ i.owner = h.owner ∧
    (T.nfts e.pre.world).item h.shell = none ∧
    (T.nfts e.post.world).item h.origin_of_shell = none ∧
    (T.nfts e.post.world).item h.shell = some j ∧ j.owner = h.owner ∧
    T.traits e.post.world h.shell = T.traits e.pre.world h.origin_of_shell

/-- A hatch that goes through is one exchange; nothing else is one, and a
    hatch that fails changes nothing. -/
def HatchesOrFails (e : Entry T) : Prop :=
  (∃ h, hatches e = [h] ∧ e.label.hatching = some h.origin_of_shell ∧ succeeded e = true ∧
    Awakened e h) ∨
  hatches e = [] ∧ (e.label.hatching.isSome → succeeded e = false ∧ e.post = e.pre)

section entries
variable {s s' : State T} {l : Label T} {r : Outcome T}

theorem Hatches.awakened (hN : NftLaws T) {o owner : AccountId} {c : CollectionId} {n : NftId}
    {sc : CollectionId} {md : T.Metadata} {t : Traits} (hh : Hatches o owner c n sc md t s s')
    (hne : c ≠ sc) :
    Awakened ⟨s, l, r, s'⟩ ⟨(c, n), (sc, T.NextNftId s.world sc), owner⟩ := by
  obtain ⟨root, hroot⟩ := hh.root_owner
  obtain ⟨i, hi, hio⟩ := hN.lookup_root_owner_ok hroot
  have htraits := hh.traits
  obtain ⟨w, hawakens, rfl⟩ := hh.post
  obtain ⟨w₂, hattr, hminted, hsame, _⟩ := hawakens.minted hN
  have hnext : (T.nfts w₂).next sc = T.NextNftId s.world sc := by
    rw [hattr.next]
    rfl
  have hfree := hminted.received.free_id
  obtain ⟨md', hitem⟩ := hminted.received.item_self
  -- the burned item stays gone, as the Shell is minted in the other collection
  have hgone := hminted.received.item_of_collection_ne hne n
  rw [hattr.item, Nfts.burn_item_self] at hgone
  rw [hnext] at hfree hitem
  rw [hattr.item, Nfts.burn_item_of_ne _ _ _ fun heq => hne (Prod.mk.inj heq).1.symm] at hfree
  exact ⟨i, _, hi, hio, hfree, hgone, hitem, rfl, hsame.trans htraits.symm⟩

variable [DecidableEq AccountId]

theorem Stepped.hatched {origin : Origin AccountId} {c : CollectionId} {n : NftId} {md : T.Metadata}
    (h : Stepped s (.call origin (.hatch_origin_of_shell c n md)) (.ok ()) s') :
    ∃ o owner sc t, Hatches o owner c n sc md t s s' := by
  cases h with
  | call hdone =>
    cases hdone with
    | hatch hh => exact ⟨_, _, _, _, hh⟩
    | configure h => cases h.call
    | incubate h => cases h
    | spirit hc => rcases hc with hc | ⟨_, hc⟩ <;> cases hc
    | buy hc => rcases hc with ⟨hc, _⟩ | ⟨_, _, hc⟩ <;> cases hc

theorem Stepped.hatches_or_fails (hN : NftLaws T) (hdistinct : DistinctIds s)
    (hs : Stepped s l r s') : HatchesOrFails ⟨s, l, r, s'⟩ := by
  cases r with
  | error e =>
    obtain rfl := hs.error
    exact .inr ⟨by simp [hatches, emitted], fun _ => ⟨rfl, rfl⟩⟩
  | ok u =>
    cases hl : l.hatching with
    | none => exact .inr ⟨hatches_eq_nil hl, fun hsome => by rw [hl] at hsome; cases hsome⟩
    | some x =>
      obtain ⟨origin, md, rfl⟩ := Label.eq_of_hatching hl
      obtain ⟨o, owner, sc, t, hh⟩ := hs.hatched
      have hne : x.1 ≠ sc := by
        rintro rfl
        exact hdistinct.origin_of_shell_shell _ hh.collection hh.shell_collection
      exact .inl ⟨_, hh.hatches rfl, rfl, rfl, hh.awakened hN hne⟩

end entries

/-! ### Runs -/

/-- What became of the mints `ms` by the hatches `hs`. Every Origin of Shell
    is still in its collection, or was hatched once, into a Shell of its own
    with the same traits; and the counters count both. -/
structure Conserved (ms : List (Mint AccountId)) (hs : List (Hatch AccountId)) (s : State T) :
    Prop where
  minted_once : (ms.map Mint.nft).Nodup
  hatched_once : (hs.map Hatch.origin_of_shell).Nodup
  shells_once : (hs.map Hatch.shell).Nodup
  minted : ∀ m ∈ ms, s.sale.origin_of_shell_collection_id = some m.collection_id ∧
    (((T.nfts s.world).item m.nft).isSome ∧ T.traits s.world m.nft = some m.traits ∧
        (∀ h ∈ hs, h.origin_of_shell ≠ m.nft) ∨
      (T.nfts s.world).item m.nft = none ∧ ∃ h ∈ hs, h.origin_of_shell = m.nft ∧
        ((T.nfts s.world).item h.shell).isSome ∧ T.traits s.world h.shell = some m.traits)
  hatched : ∀ h ∈ hs, s.incubation.shell_collection_id = some h.shell.1 ∧
    ∃ m ∈ ms, m.nft = h.origin_of_shell
  origin_of_shells : ∀ c n i, s.sale.origin_of_shell_collection_id = some c →
    (T.nfts s.world).item (c, n) = some i → ∃ m ∈ ms, m.nft = (c, n)
  shells : ∀ c n i, s.incubation.shell_collection_id = some c →
    (T.nfts s.world).item (c, n) = some i → ∃ h ∈ hs, h.shell = (c, n)
  races : ∀ k, s.race_count k =
    population s.world s.sale.origin_of_shell_collection_id
      (fun t => (t.rarity_type, t.race) = k) +
    population s.world s.incubation.shell_collection_id (fun t => (t.rarity_type, t.race) = k)
  careers : ∀ ca, s.sale.career_type_count ca =
    population s.world s.sale.origin_of_shell_collection_id (fun t => t.career = ca) +
    population s.world s.incubation.shell_collection_id (fun t => t.career = ca)

section conserved
variable {s : State T} {ms : List (Mint AccountId)} {hs : List (Hatch AccountId)} {w : T.World}
  {c : CollectionId} {n : NftId}

theorem tokens_of_some {i : Item AccountId T.Metadata} (h : (T.nfts w).item (c, n) = some i) :
    tokens w (some c) n = some (T.traits w (c, n)) := by
  show (T.listed w c n).map Prod.snd = _
  rw [Config.listed, h]
  rfl

theorem tokens_eq_some {t : Option Traits} (h : tokens w (some c) n = some t) :
    ((T.nfts w).item (c, n)).isSome ∧ T.traits w (c, n) = t := by
  cases hi : (T.nfts w).item (c, n) with
  | some i => exact ⟨rfl, Option.some.inj ((tokens_of_some hi).symm.trans h)⟩
  | none =>
    have hnone : (T.listed w c n).map Prod.snd = some t := h
    rw [listed_of_none hi] at hnone
    cases hnone

theorem tokens_eq_none (h : tokens w (some c) n = none) : (T.nfts w).item (c, n) = none := by
  cases hi : (T.nfts w).item (c, n) with
  | none => rfl
  | some i => rw [tokens_of_some hi] at h; cases h

/-- The mints of a kind are the entries of both collections with its traits. -/
theorem Exchanging.population (h : Exchanging s ms hs s) (p : Traits → Bool) :
    ms.countP (fun m => p m.traits) =
      population s.world s.sale.origin_of_shell_collection_id p +
      population s.world s.incubation.shell_collection_id p := by
  rw [PhalaWorld.population, PhalaWorld.population, ← h.exchanged.count, List.countP_map]
  rfl

/-- The invariant, in terms of items. -/
theorem Exchanging.conserved (h : Exchanging s ms hs s)
    (hraces : ∀ k, s.race_count k = mintsOf ms k)
    (hcareers : ∀ ca, s.sale.career_type_count ca = mintsIn ms ca) : Conserved ms hs s where
  minted_once := by
    refine List.Nodup.of_map Prod.snd ?_
    have hnodup := h.exchanged.recorded.nodup
    rw [List.map_map] at hnodup ⊢
    exact hnodup
  hatched_once := by
    refine List.Nodup.of_map Prod.snd ?_
    have hnodup := h.exchanged.source_nodup
    rw [List.map_map] at hnodup ⊢
    exact hnodup
  shells_once := by
    refine List.Nodup.of_map Prod.snd ?_
    have hnodup := h.exchanged.target_nodup
    rw [List.map_map] at hnodup ⊢
    exact hnodup
  minted m hm := by
    have hc := h.minted_in m hm
    have hkept := h.exchanged.kept m.nft_id (some m.traits) (List.mem_map.mpr ⟨m, hm, rfl⟩)
    rw [hc] at hkept
    refine ⟨hc, hkept.imp ?_ ?_⟩
    · -- still there
      intro ⟨hlive, hnot⟩
      obtain ⟨hitem, htraits⟩ := tokens_eq_some hlive
      exact ⟨hitem, htraits, fun h' hh' heq =>
        hnot _ (List.mem_map.mpr ⟨h', hh', rfl⟩) (congrArg Prod.snd heq)⟩
    · -- exchanged for the entry with id `k`
      intro ⟨hgone, k, hk, hshell⟩
      obtain ⟨h', hh', heq⟩ := List.mem_map.mp hk
      obtain ⟨hn, rfl⟩ := Prod.mk.inj heq
      obtain ⟨hoos, hsc⟩ := h.hatched_in h' hh'
      rw [hsc] at hshell
      rw [hc, Option.some.injEq] at hoos
      exact ⟨tokens_eq_none hgone, h', hh', Prod.ext hoos.symm hn, tokens_eq_some hshell⟩
  hatched h' hh' := by
    obtain ⟨hoos, hsc⟩ := h.hatched_in h' hh'
    obtain ⟨v, hv⟩ := h.exchanged.source _ (List.mem_map.mpr ⟨h', hh', rfl⟩)
    obtain ⟨m, hm, heq⟩ := List.mem_map.mp hv
    rw [h.minted_in m hm, Option.some.injEq] at hoos
    exact ⟨hsc, m, hm, Prod.ext hoos (Prod.mk.inj heq).1⟩
  origin_of_shells c n i hc hi := by
    have hmem := h.exchanged.recorded.mem n (T.traits s.world (c, n)) (by
      rw [hc]
      exact tokens_of_some hi)
    obtain ⟨m, hm, heq⟩ := List.mem_map.mp hmem
    have hmc := h.minted_in m hm
    rw [hc, Option.some.injEq] at hmc
    exact ⟨m, hm, Prod.ext hmc.symm (Prod.mk.inj heq).1⟩
  shells c n i hc hi := by
    obtain ⟨k, hk⟩ := h.exchanged.target n (T.traits s.world (c, n)) (by
      rw [hc]
      exact tokens_of_some hi)
    obtain ⟨h', hh', heq⟩ := List.mem_map.mp hk
    have hsc := (h.hatched_in h' hh').2
    rw [hc, Option.some.injEq] at hsc
    exact ⟨h', hh', Prod.ext hsc.symm (Prod.mk.inj heq).2⟩
  races k := by
    rw [hraces, ← h.population]
    rfl
  careers ca := by
    rw [hcareers, ← h.population]
    rfl

end conserved

section runs
variable [DecidableEq AccountId] {g : GenesisConfig AccountId} {w : T.World} {now : UInt64}
  {tr : List (Entry T)} {s : State T}

omit [DecidableEq AccountId] in
theorem DistinctIds.of_kept {f : State T} (hf : DistinctIds f) (h : IdsKept s f) :
    DistinctIds s where
  spirit_origin_of_shell d hd hc :=
    hf.spirit_origin_of_shell d (h.spirit d hd) (h.origin_of_shell d hc)
  spirit_shell d hd hc := hf.spirit_shell d (h.spirit d hd) (h.shell d hc)
  origin_of_shell_shell d hd hc :=
    hf.origin_of_shell_shell d (h.origin_of_shell d hd) (h.shell d hc)

omit [DecidableEq AccountId] in
theorem exchanging_genesis {f : State T} (hids : IdsKept (genesis g w now) f)
    (hempty : ∀ d n, Shelled f d → (T.nfts w).item (d, n) = none) :
    Exchanging f [] [] (genesis g w now) := by
  have hnone (c : Option CollectionId) (hc : ∀ d, c = some d → Shelled f d) :
      tokens w c = fun _ => none := by
    cases c with
    | none => rfl
    | some d =>
      exact funext fun n => congrArg (Option.map Prod.snd) (listed_of_none (hempty d n (hc d rfl)))
  refine ⟨hids, fun _ h => absurd h List.not_mem_nil, fun _ h => absurd h List.not_mem_nil, ?_⟩
  show Exchanged (tokens w _) _ (tokens w _) _ [] []
  rw [hnone _ fun d hd => .inl hd, hnone _ fun d hd => .inr hd]
  exact exchanged_empty _ _

/-- A run keeps the two collections and the inventory in step. -/
theorem Runs.exchanging (hC : CurrencyLaws T) (hN : NftLaws T) {f : State T} (hf : DistinctIds f)
    (hempty : ∀ d n, Shelled f d → (T.nfts w).item (d, n) = none)
    (h : Runs (Within (fun _ => True) (MovesWithin (Shelled f))) (genesis g w now) tr s)
    (hids : IdsKept s f) :
    Exchanging f (history mints tr) (history hatches tr) s ∧ StockedBy tr s ∧
      ∀ e ∈ tr, HatchesOrFails e := by
  refine Runs.induction (J := fun tr s => IdsKept s f →
    Exchanging f (history mints tr) (history hatches tr) s ∧ StockedBy tr s ∧
      ∀ e ∈ tr, HatchesOrFails e) h ?_ ?_ hids
  · exact fun hids => ⟨exchanging_genesis hids hempty, stockedBy_genesis g w now,
      fun _ he => absurd he List.not_mem_nil⟩
  · intro tr s l r s' _ hJ hok hs hids
    have hpre := hs.traded.ids_kept.trans hids
    obtain ⟨hexchanging, hstocked, hentries⟩ := hJ hpre
    refine ⟨hexchanging.step hC hN hf hids hok.2 hs.traded,
      hstocked.step hC hN ?_ hs.traded, ?_⟩
    · intro w hl c hc
      exact (hok.2 w hl c (.inl (hpre.origin_of_shell c hc))).1.ge
    · intro e he
      rcases List.mem_cons.mp he with rfl | he
      · exact hs.hatches_or_fails hN (hf.of_kept hpre)
      · exact hentries e he

/-- **Hatching conserves shells.** In every reachable state, every Origin of
    Shell ever minted is still there or was hatched once into one Shell with
    its traits, for the account that owned it, and the counters count both;
    what was hatched is not hatched again, and a failed hatch changes nothing. -/
theorem hatching_conserves (hC : CurrencyLaws T) (hN : NftLaws T) (hdistinct : DistinctIds s)
    (hempty : ∀ d n, Shelled s d → (T.nfts w).item (d, n) = none)
    (h : Runs (Within (fun _ => True) (MovesWithin (Shelled s))) (genesis g w now) tr s) :
    Conserved (history mints tr) (history hatches tr) s ∧
    (∀ e ∈ tr, HatchesOrFails e) ∧
    (∀ x ∈ history hatches tr, ∀ origin md s', step s (.call origin
      (.hatch_origin_of_shell x.origin_of_shell.1 x.origin_of_shell.2 md)) ≠ (.ok (), s')) ∧
    ∀ origin c n md e s',
      step s (.call origin (.hatch_origin_of_shell c n md)) = (.error e, s') → s' = s := by
  obtain ⟨hexchanging, hstocked, hentries⟩ := Runs.exchanging hC hN hdistinct hempty h (.refl s)
  have hconserved := hexchanging.conserved hstocked.race_count hstocked.careers
  refine ⟨hconserved, hentries, ?_, ?_⟩
  · -- the item is gone
    intro x hx origin md s' hs
    obtain ⟨o, owner, sc, t, _, hh⟩ := Incubation.hatch_origin_of_shell_ok hs
    obtain ⟨root, hroot⟩ := hh.root_owner
    obtain ⟨i, hi, _⟩ := hN.lookup_root_owner_ok hroot
    obtain ⟨_, m, hm, hmx⟩ := hconserved.hatched x hx
    rcases (hconserved.minted m hm).2 with ⟨_, _, hnot⟩ | ⟨hnone, _⟩
    · exact hnot x hx hmx.symm
    · rw [hmx] at hnone
      cases hnone.symm.trans hi
  · intro origin c n md e s' hs
    have hfails : dispatch origin (.hatch_origin_of_shell c n md) s = (.error e, s') := hs
    exact dispatch_error hfails

open Mock in
/-- `CHARLIE`'s Origin of Shell became a Shell, and cannot be hatched again. -/
theorem hatching_conserves_charlie :
    Conserved (history mints (after (hatching 200)).1) (history hatches (after (hatching 200)).1)
      (after (hatching 200)).2 ∧
    history hatches (after (hatching 200)).1 = [⟨(1, 0), (2, 0), CHARLIE⟩] ∧
    ∀ origin md s', step (after (hatching 200)).2
      (.call origin (.hatch_origin_of_shell 1 0 md)) ≠ (.ok (), s') := by
  have hrun : Runs (Within (fun _ => True) (MovesWithin (Shelled (after (hatching 200)).2)))
      (genesis₀ 200) (after (hatching 200)).1 (after (hatching 200)).2 :=
    runs_of_labels (hatching 200) (by decide +kernel)
  have hids : (after (hatching 200)).2.sale.spirit_collection_id = some 0 ∧
      (after (hatching 200)).2.sale.origin_of_shell_collection_id = some 1 ∧
      (after (hatching 200)).2.incubation.shell_collection_id = some 2 := by decide +kernel
  obtain ⟨hsp, hc, hsc⟩ := hids
  have hdistinct : DistinctIds (after (hatching 200)).2 := by
    constructor <;> intro d hd <;> simp_all
  have hhatched : history hatches (after (hatching 200)).1 = [⟨(1, 0), (2, 0), CHARLIE⟩] := by
    decide +kernel
  obtain ⟨hconserved, _, hagain, _⟩ := hatching_conserves (T := runtime 200)
    (g := GenesisConfig.default) (w := world₀) (currency_laws 200) (nft_laws 200) hdistinct
    (fun _ _ _ => rfl) hrun
  refine ⟨hconserved, hhatched, hagain ⟨(1, 0), (2, 0), CHARLIE⟩ ?_⟩
  rw [hhatched]
  exact List.mem_cons_self

end runs

end PhalaWorld
