import PhalaWorld.Sale.Reigns

/-! # One issuer

    Governance may name any account the Overlord, and the pallets never check
    who issued a collection. RMRK does: only the issuer mints into it. No
    call of the two pallets hands a collection over, so that all of its items
    are minted, and paid for, under the one Overlord that created it; another
    one can refund, but not sell or hatch.

    * `Rightful`: an event of a mint names a collection of the Overlord's.
    * `Traded.rightful`: every step deposits such events only.
    * `one_issuer`: along every run it is one and the same account.
-/

namespace PhalaWorld

open LTS Tokens Ledger

variable {AccountId : Type} {T : Config AccountId}

/-- The collection of the item an event says was minted. -/
def Event.issued : Event T → Option CollectionId
  | .SpiritClaimed _ collection_id _ => some collection_id
  | .OriginOfShellMinted _ collection_id _ _ _ _ => some collection_id
  | .ShellAwakened collection_id _ _ => some collection_id
  | _ => none

/-- The collections a step minted into. -/
def issued (e : Entry T) : List CollectionId :=
  (emitted e).filterMap Event.issued

/-- If the event is of a mint, the Overlord is the collection's issuer, and an
    Origin of Shell is minted in the collection that is set. -/
structure Rightful (s : State T) (event : Event T) : Prop where
  issuer : ∀ c, event.issued = some c →
    ∃ o, s.sale.overlord = some o ∧ (T.nfts s.world).issuer c = some o
  collection : ∀ pool m, event.mint pool = some m →
    s.sale.origin_of_shell_collection_id = some m.collection_id

/-- The label creates a collection. -/
def Label.creates : Label T → Bool
  | .call _ (.pw_create_collection ..) => true
  | _ => false

/-- The collection `c`, if there is one, keeps its issuer. -/
def KeepsIssuer (c : CollectionId) (w w' : T.World) : Prop :=
  (T.nfts w).issuer c ≠ none → (T.nfts w').issuer c = (T.nfts w).issuer c

/-- A collection is not created again. -/
def CreatesNew (c : CollectionId) (e : Entry T) : Prop :=
  e.label.creates = true → KeepsIssuer c e.pre.world e.post.world

section events
variable {s s' : State T} {event : Event T}

theorem Rightful.of_none (hissued : event.issued = none) (hmint : ∀ pool, event.mint pool = none) :
    Rightful s event := by
  constructor
  · intro c hc
    rw [hissued] at hc
    cases hc
  · intro pool m hm
    rw [hmint] at hm
    cases hm

/-- An event of a step that trades nothing. -/
theorem Rightful.of_isQuiet (h : event.isQuiet = true) : Rightful s event := by
  refine .of_none ?_ (Event.mint_of_isQuiet h)
  cases event <;> first | rfl | cases h

/-- Events that name a collection of the Overlord's. -/
theorem Rightful.spirit {a o : AccountId} {c : CollectionId} {n : NftId}
    (ho : s.sale.overlord = some o) (hissuer : (T.nfts s.world).issuer c = some o) :
    Rightful s (.SpiritClaimed a c n : Event T) := by
  refine ⟨fun d hd => ?_, fun _ _ hm => by cases hm⟩
  obtain rfl : c = d := Option.some.inj hd
  exact ⟨o, ho, hissuer⟩

theorem Rightful.shell {a o : AccountId} {c : CollectionId} {n : NftId}
    (ho : s.sale.overlord = some o) (hissuer : (T.nfts s.world).issuer c = some o) :
    Rightful s (.ShellAwakened c n a : Event T) := by
  refine ⟨fun d hd => ?_, fun _ _ hm => by cases hm⟩
  obtain rfl : c = d := Option.some.inj hd
  exact ⟨o, ho, hissuer⟩

theorem Rightful.minted {a o : AccountId} {r : RarityType} {ra : RaceType} {ca : CareerType}
    {c : CollectionId} {n : NftId} (ho : s.sale.overlord = some o)
    (hissuer : (T.nfts s.world).issuer c = some o)
    (hc : s.sale.origin_of_shell_collection_id = some c) :
    Rightful s (.OriginOfShellMinted r c n a ra ca : Event T) := by
  refine ⟨fun d hd => ?_, fun pool m hm => ?_⟩
  · obtain rfl : c = d := Option.some.inj hd
    exact ⟨o, ho, hissuer⟩
  · obtain rfl := Option.some.inj hm
    exact hc

end events

/-! ### Steps -/

section steps
variable [DecidableEq AccountId] {s s' : State T} {l : Label T} {r : Outcome T} {o : AccountId}

/-- No issuer changes while a batch releases and closes. -/
theorem issuer_covers (hC : CurrencyLaws T) :
    CoversRounds fun s s' : State T => (T.nfts s'.world).issuer = (T.nfts s.world).issuer where
  refl _ := rfl
  trans _ _ _ h h' := h'.trans h
  release _ _ _ := congrArg Nfts.issuer (hC.unreserve_eq _ _ _).2
  close _ _ _ _ := rfl

/-- A step that creates no collection changes no issuer. -/
theorem Traded.issuer (hC : CurrencyLaws T) (hN : NftLaws T) (hs : Traded s l r s')
    (hcreate : l.creates = false) (hinside : l.isOutside = false) :
    (T.nfts s'.world).issuer = (T.nfts s.world).issuer := by
  cases hs with
  | quiet hq _ => rw [hq.world]
  | spirit _ hm _ => exact (hm.minted hN).1.received.issuer
  | buy _ hm _ => exact (hm.minted hC hN).1.received.issuer
  | preorder hp =>
    obtain ⟨md, w, _, hreserve, rfl⟩ := hp.post
    exact congrArg Nfts.issuer (hC.reserve_ok hreserve).2.2
  | mint _ hl => exact (issuer_covers hC).mint (fun hm => (hm.minted hC hN).1.received.issuer) hl
  | refund _ hl => exact (issuer_covers hC).refund hl
  | gift _ _ hm =>
    have hissuer := (hm.minted hC hN).1.received.issuer
    exact hissuer
  | init => rfl
  | update => rfl
  | create => cases hcreate
  | hatch hh =>
    obtain ⟨w, hawakens, rfl⟩ := hh.post
    obtain ⟨w₂, hattr, hminted, _⟩ := hawakens.minted hN
    have hburned : (T.nfts w₂).issuer = (T.nfts s.world).issuer := hattr.issuer
    rw [← hburned]
    exact hminted.received.issuer
  | outside => cases hinside

/-- Every step deposits rightful events only. -/
theorem Traded.rightful (hC : CurrencyLaws T) (hN : NftLaws T) (hs : Traded s l r s') :
    ∃ evs, s'.events = s.events ++ evs ∧ ∀ event ∈ evs, Rightful s event := by
  -- a step with one event
  have hone {event : Event T} (hevent : s'.events = s.events ++ [event])
      (hrightful : Rightful s event) :
      ∃ evs, s'.events = s.events ++ evs ∧ ∀ event ∈ evs, Rightful s event := by
    refine ⟨[event], hevent, fun d hd => ?_⟩
    rw [List.mem_singleton.mp hd]
    exact hrightful
  have hsilent (hsame : s'.events = s.events) :
      ∃ evs, s'.events = s.events ++ evs ∧ ∀ event ∈ evs, Rightful s event :=
    ⟨[], by rw [hsame, List.append_nil], fun event hmem => absurd hmem List.not_mem_nil⟩
  cases hs with
  | quiet hq _ =>
    obtain ⟨evs, hevs, hquiet⟩ := hq.events
    exact ⟨evs, hevs, fun event hmem => .of_isQuiet (hquiet event hmem)⟩
  | spirit ho hm _ =>
    have hissuer := (hm.minted hN).1.issuer
    obtain ⟨md, w₁, w₂, _, _, _, rfl⟩ := hm.post
    exact hone rfl (.spirit ho hissuer)
  | buy ho hm _ => exact hone hm.events (.minted ho (hm.minted hC hN).1.issuer hm.collection)
  | preorder hp =>
    obtain ⟨md, w, _, _, rfl⟩ := hp.post
    exact hone rfl (.of_none rfl fun _ => rfl)
  | @mint o _ _ ho hl =>
    -- along the batch neither the issuers nor the collection change
    have hrun := hl.recorded (L := State.events) (f := some)
      (J := fun evs s₁ => ((T.nfts s₁.world).issuer = (T.nfts s.world).issuer ∧
        s₁.sale.origin_of_shell_collection_id = s.sale.origin_of_shell_collection_id) ∧
        ∀ event ∈ evs, Rightful s event) (h := []) ?_
        ⟨⟨rfl, rfl⟩, fun event hmem => absurd hmem List.not_mem_nil⟩
    · obtain ⟨evs, hevs, _, hall⟩ := hrun
      rw [List.nil_append, List.filterMap_some] at hall
      exact ⟨evs, hevs, hall⟩
    · intro evs s₁ p s₂ ⟨⟨hissuer, hcoll⟩, hall⟩ hm
      obtain ⟨info, c, i, s₃, _, hmint, rfl⟩ := hm
      have hminted := (hmint.minted hC hN).1
      have hreleased : (T.nfts (s₁.release p info.owner).world).issuer =
          (T.nfts s.world).issuer :=
        (congrArg Nfts.issuer (hC.unreserve_eq _ _ _).2).trans hissuer
      have hby : (T.nfts s.world).issuer c = some o := by
        rw [← hreleased]
        exact hminted.issuer
      have hin : s.sale.origin_of_shell_collection_id = some c := by
        rw [← hcoll]
        exact hmint.collection
      refine ⟨_, hmint.events_append _, ⟨?_, ?_⟩, ?_⟩
      · exact hminted.received.issuer.trans hreleased
      · obtain ⟨md, w, rc, cc, _, _, _, _, rfl⟩ := hmint.post
        exact hcoll
      · intro event hmem
        rw [List.filterMap_some] at hmem
        rcases List.mem_append.mp hmem with hmem | hmem
        · exact hall event hmem
        · rcases List.mem_cons.mp hmem with rfl | hmem
          · exact .minted ho hby hin
          · rw [List.mem_singleton.mp hmem]
            exact .of_none rfl fun _ => rfl
  | refund _ hl =>
    have hrun := hl.recorded (L := State.events) (f := some)
      (J := fun evs _ => ∀ event ∈ evs, Rightful s event) (h := []) ?_
      (fun event hmem => absurd hmem List.not_mem_nil)
    · obtain ⟨evs, hevs, hall⟩ := hrun
      rw [List.nil_append, List.filterMap_some] at hall
      exact ⟨evs, hevs, hall⟩
    · intro evs s₁ p s₂ hall hr
      obtain ⟨info, _, rfl⟩ := hr
      refine ⟨[.NotChosenPreorderRefunded p info.owner], rfl, fun event hmem => ?_⟩
      rcases List.mem_append.mp hmem with hmem | hmem
      · exact hall event hmem
      · obtain rfl : event = .NotChosenPreorderRefunded p info.owner := by simpa using hmem
        exact .of_none rfl fun _ => rfl
  | gift ho _ hm =>
    refine ⟨_, hm.events_append _, fun event hmem => ?_⟩
    rcases List.mem_cons.mp hmem with rfl | hmem
    · exact .minted ho (hm.minted hC hN).1.issuer hm.collection
    · rw [List.mem_singleton.mp hmem]
      exact .of_none rfl fun _ => rfl
  | init => exact hone rfl (.of_none rfl fun _ => rfl)
  | update => exact hone rfl (.of_none rfl fun _ => rfl)
  | create => exact hsilent rfl
  | hatch hh =>
    obtain ⟨w, hawakens, hpost⟩ := hh.post
    obtain ⟨w₂, hattr, hminted, _⟩ := hawakens.minted hN
    have hburned : (T.nfts w₂).issuer = (T.nfts s.world).issuer := hattr.issuer
    have hissuer := hminted.issuer
    rw [hburned] at hissuer
    exact hone (by rw [hpost]) (.shell hh.overlord hissuer)
  | outside => exact hsilent rfl

end steps

/-! ### Runs -/

section runs
variable [DecidableEq AccountId] {tr : List (Entry T)} {s₀ s : State T} {c : CollectionId}

/-- **One issuer.** In every run in which neither RMRK's other users nor a
    creation change the issuer of `c`, with any number of rotations: every
    step that mints into `c`, be it a claim, a sale, a gift, a batch or a
    hatch, is taken while the Overlord is that one issuer. So while it is not,
    nothing is sold or hatched, and no other Overlord ever earns anything. -/
theorem one_issuer (hC : CurrencyLaws T) (hN : NftLaws T)
    (h : Runs (Within (CreatesNew c) (KeepsIssuer c)) s₀ tr s) :
    (∀ e ∈ tr, c ∈ issued e → ∃ o, e.pre.sale.overlord = some o ∧
      (T.nfts s.world).issuer c = some o) ∧
    (s.sale.origin_of_shell_collection_id = some c →
      ∀ a, (T.nfts s.world).issuer c ≠ some a → earned T tr a = 0) := by
  have hids := h.ids_kept
  have hrun : (∀ e ∈ tr, c ∈ issued e → ∃ o, e.pre.sale.overlord = some o ∧
        (T.nfts s.world).issuer c = some o) ∧
      ∀ e ∈ tr, ∀ m ∈ mints e,
        e.pre.sale.origin_of_shell_collection_id = some m.collection_id ∧
        m.collection_id ∈ issued e := by
    refine Runs.induction (J := fun tr s =>
      (∀ e ∈ tr, c ∈ issued e → ∃ o, e.pre.sale.overlord = some o ∧
        (T.nfts s.world).issuer c = some o) ∧
      ∀ e ∈ tr, ∀ m ∈ mints e,
        e.pre.sale.origin_of_shell_collection_id = some m.collection_id ∧
        m.collection_id ∈ issued e) h ?_ ?_
    · exact ⟨fun e he => absurd he List.not_mem_nil, fun e he => absurd he List.not_mem_nil⟩
    · intro tr s l r s' _ ⟨hissuers, hmints⟩ ⟨hcreate, hout⟩ hs
      obtain ⟨evs, hevs, hrightful⟩ := hs.traded.rightful hC hN
      have hemitted : emitted ⟨s, l, r, s'⟩ = evs := emitted_of_append hevs
      -- `c` keeps its issuer in this step
      have hkept : KeepsIssuer c s.world s'.world := by
        cases hl : l.creates with
        | true => exact hcreate hl
        | false =>
          cases l with
          | outside w =>
            cases hs with
            | fails => exact fun _ => rfl
            | outside => exact hout w rfl
          | _ =>
            have hissuer := hs.traded.issuer hC hN hl rfl
            exact fun _ => by rw [hissuer]
      constructor
      · intro e he hc
        rcases List.mem_cons.mp he with rfl | he
        · rw [issued, hemitted] at hc
          obtain ⟨event, hevent, hissued⟩ := List.mem_filterMap.mp hc
          obtain ⟨o, ho, hissuer⟩ := (hrightful event hevent).issuer c hissued
          refine ⟨o, ho, ?_⟩
          rw [hkept (by rw [hissuer]; exact Option.some_ne_none o), hissuer]
        · obtain ⟨o, ho, hissuer⟩ := hissuers e he hc
          refine ⟨o, ho, ?_⟩
          rw [hkept (by rw [hissuer]; exact Option.some_ne_none o), hissuer]
      · intro e he m hm
        rcases List.mem_cons.mp he with rfl | he
        · rw [mints, hemitted] at hm
          rw [issued, hemitted]
          obtain ⟨event, hevent, hmint⟩ := List.mem_filterMap.mp hm
          refine ⟨(hrightful event hevent).collection _ m hmint, ?_⟩
          refine List.mem_filterMap.mpr ⟨event, hevent, ?_⟩
          unfold Event.mint at hmint
          split at hmint
          · obtain rfl := Option.some.inj hmint
            rfl
          · cases hmint
        · exact hmints e he m hm
  refine ⟨hrun.1, fun hc a ha => ?_⟩
  -- what is minted in a reign of `a` is minted into `c`, so that `a` is the issuer
  have hnone : history (reign a) tr = [] := by
    rw [List.eq_nil_iff_forall_not_mem]
    intro m hm
    obtain ⟨e, he, hm⟩ := mem_history.mp hm
    unfold reign at hm
    split at hm
    · next ho =>
      obtain ⟨hcoll, hissued⟩ := hrun.2 e he m hm
      have hmc : m.collection_id = c := by
        have hend := (hids e he).origin_of_shell _ hcoll
        rw [hc] at hend
        exact (Option.some.inj hend).symm
      rw [hmc] at hissued
      obtain ⟨o, ho', hissuer⟩ := hrun.1 e he hissued
      rw [ho, Option.some.injEq] at ho'
      exact ha (by rw [hissuer, ho'])
    · cases hm
  rw [earned, hnone]
  rfl

open Mock in
/-- After the sample sale `BOB` is named the Overlord, and `ALICE` tries to
    buy another Origin of Shell. -/
def rotated : List (Label (runtime 200)) :=
  sale 200 ++ [.call .root (.set_overlord BOB),
    .call (.signed BOB) (.set_status_type true .LastDayOfSale),
    .call (.signed ALICE) (.buy_rare_origin_of_shell .Magic .Cyborg .HackerWizard)]

open Mock in
/-- `BOB` earns nothing. -/
theorem one_issuer_rotated :
    (after rotated).2.sale.overlord = some BOB ∧ earned (runtime 200) (after rotated).1 BOB = 0 := by
  have hrun : Runs (Within (CreatesNew 1) (KeepsIssuer 1)) (genesis₀ 200) (after rotated).1
      (after rotated).2 := by
    apply runs_of_labels rotated
    unfold CreatesNew KeepsIssuer
    decide +kernel
  have hissuer : ((runtime 200).nfts (after rotated).2.world).issuer 1 ≠ some BOB := by
    decide +kernel
  exact ⟨by decide +kernel, (one_issuer (currency_laws 200) (nft_laws 200) hrun).2
    (by decide +kernel) BOB hissuer⟩

end runs

end PhalaWorld
