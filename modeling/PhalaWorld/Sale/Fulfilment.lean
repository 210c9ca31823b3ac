import PhalaWorld.Specs.Settings
import PhalaWorld.Sale.Equivalence

/-! # A preorder is fulfilled

    A preorder is stored with its race, its career and the metadata its race
    had. When it is minted, race and career are read from the record. The
    metadata is not: the mint looks up what the race has by then.

    * `retitled`: the metadata a race was last given.
    * `OnRecord`: what was stored of a preorder does not change.
    * `fulfilled_iff`: the item has the stored metadata exactly if the race
      was not given another in the meantime.
-/

namespace PhalaWorld

open LTS Ledger Tokens Transaction

variable {AccountId : Type} {T : Config AccountId}

/-! ### The metadata of a race -/

/-- The last value of a key wins. -/
theorem replay_put {Key Val : Type} [DecidableEq Key] (m : Key → Val) (l : List (Key × Val))
    (k : Key) : replay put m l k =
      ((l.reverse.find? fun x => x.1 = k).map Prod.snd).getD (m k) := by
  induction l generalizing m with
  | nil => rfl
  | cons x l ih =>
    rw [replay_cons, ih, List.reverse_cons, List.find?_append]
    cases l.reverse.find? fun x => x.1 = k with
    | some y => rfl
    | none =>
      by_cases hx : x.1 = k
      · simp [put, hx]
      · simp [put, hx, Function.update_of_ne (Ne.symm hx)]

/-- The metadata a race was last given in the trace. -/
def retitled (race : RaceType) (tr : List (Entry T)) : Option (Option T.Metadata) :=
  ((history retitles tr).reverse.find? fun x => x.1 = race).map Prod.snd

section runs
variable [DecidableEq AccountId] {ok : Entry T → Prop} {s₀ s : State T} {tr : List (Entry T)}

theorem Runs.metadata (h : Runs ok s₀ tr s) :
    s.sale.origin_of_shells_metadata =
      replay put s₀.sale.origin_of_shells_metadata (history retitles tr) := by
  induction h with
  | nil => rfl
  | cons l _ _ ih =>
    rw [(configured _ l).metadata, ih, history_cons, replay_append]
    rfl

/-- A race has the metadata it was last given, or what it had before. -/
theorem Runs.retitled (h : Runs ok s₀ tr s) (race : RaceType) :
    s.sale.origin_of_shells_metadata race =
      (retitled race tr).getD (s₀.sale.origin_of_shells_metadata race) := by
  rw [Runs.metadata h, replay_put]
  rfl

end runs

/-! ### The record of a preorder -/

/-- The preorder `p` was placed, and is pending as `info` or not at all. -/
structure OnRecord (p : PreorderId) (info : PreorderInfo AccountId T.Metadata) (s : State T) :
    Prop where
  placed : p < s.sale.preorder_index
  kept : ∀ info', s.sale.preorders p = some info' → info' = info

section record
variable [DecidableEq AccountId] {p : PreorderId} {info : PreorderInfo AccountId T.Metadata}
  {s s' : State T}

omit [DecidableEq AccountId] in
theorem OnRecord.keep (h : OnRecord p info s)
    (hindex : s'.sale.preorder_index = s.sale.preorder_index)
    (hpre : s'.sale.preorders = s.sale.preorders) : OnRecord p info s' :=
  ⟨by rw [hindex]; exact h.placed, by rw [hpre]; exact h.kept⟩

omit [DecidableEq AccountId] in
/-- Resolving preorders changes no record. -/
theorem OnRecord.resolved {how : Resolution} {last : Bool} {ids : List PreorderId}
    (h : OnRecord p info s) (hres : Resolves how last s ids s') : OnRecord p info s' := by
  refine ⟨by rw [hres.preorder_index]; exact h.placed, ?_⟩
  intro info' hp
  exact h.kept info' ((hres.untouched (Option.isSome_of_mem hp)).2.symm.trans hp)

theorem OnRecord.step {l : Label T} {r : Outcome T} (h : OnRecord p info s)
    (hs : Traded s l r s') : OnRecord p info s' := by
  cases hs with
  | quiet hq _ => exact h.keep hq.preorder_index hq.preorders
  | spirit _ hm _ =>
    obtain ⟨md, w₁, w₂, _, _, _, rfl⟩ := hm.post
    exact h.keep rfl rfl
  | buy _ hm _ =>
    obtain ⟨md, w, rc, cc, _, _, _, _, rfl⟩ := hm.post
    exact h.keep rfl rfl
  | preorder hp =>
    -- the index is a new id
    obtain ⟨md, w, _, _, rfl⟩ := hp.post
    refine ⟨Nat.lt_succ_of_lt h.placed, ?_⟩
    intro info' hinfo
    refine h.kept info' ?_
    rw [← hinfo]
    exact (Function.update_of_ne (Nat.ne_of_lt h.placed) _ _).symm
  | mint _ hl => exact h.resolved (mints_resolve hl)
  | refund _ hl => exact h.resolved (.of_chain (fun _ _ _ hr => RefundsPreorder.resolves hr) hl)
  | gift _ _ hm =>
    obtain ⟨md, w, rc, cc, _, _, _, _, rfl⟩ := hm.post
    exact h.keep rfl rfl
  | init => exact h.keep rfl rfl
  | update => exact h.keep rfl rfl
  | create => exact h.keep rfl rfl
  | hatch hh =>
    obtain ⟨w, _, rfl⟩ := hh.post
    exact h.keep rfl rfl
  | outside => exact h.keep rfl rfl

/-- An accepted preorder is on record, with the metadata of its race. -/
theorem Preorders.on_record {a : AccountId} {race : RaceType} {career : CareerType}
    (h : Preorders a race career s s') :
    ∃ md, s'.sale.origin_of_shells_metadata race = some md ∧
      s'.sale.preorders s.sale.preorder_index = some ⟨a, race, career, md⟩ ∧
      OnRecord s.sale.preorder_index ⟨a, race, career, md⟩ s' := by
  obtain ⟨md, w, hmd, _, rfl⟩ := h.post
  refine ⟨md, hmd, Function.update_self _ _ _, Nat.lt_succ_self _, ?_⟩
  intro info' hinfo
  exact Option.some.inj (hinfo.symm.trans (Function.update_self _ _ _))

end record

/-! ### The mint -/

section mint
variable [DecidableEq AccountId] {ok : Entry T → Prop} {s₀ s s' : State T}
  {later earlier : List (Entry T)} {e : Entry T} {o a : AccountId} {race : RaceType}
  {career : CareerType}

/-- **A preorder is fulfilled.** When a preorder that was accepted in a run is
    minted at its end, as the `j`-th of a batch, the item is its owner's and
    has the recorded race and career. It has the recorded metadata if and
    only if its race was not given another since, or was last given the same
    again. -/
theorem fulfilled_iff (hC : CurrencyLaws T) (hN : NftLaws T)
    (h : Runs ok s₀ (later ++ e :: earlier) s)
    (hlabel : e.label = .call (.signed a) (.preorder_origin_of_shell race career))
    (haccepted : succeeded e = true) {l : List PreorderId}
    (hmint : step s (.call (.signed o) (.mint_chosen_preorders l)) = (.ok (), s')) {j : Nat}
    (hj : (l.take T.IterLimit.toNat)[j]? = some e.pre.sale.preorder_index) :
    ∃ recorded c md,
      e.post.sale.preorders e.pre.sale.preorder_index = some ⟨a, race, career, recorded⟩ ∧
      s.sale.origin_of_shell_collection_id = some c ∧
      (T.nfts s'.world).item (c, (T.nfts s.world).next c + j) = some ⟨a, true, md⟩ ∧
      T.traits s'.world (c, (T.nfts s.world).next c + j) = some ⟨.Prime, race, career, 0⟩ ∧
      (md = recorded ↔ ∀ x ∈ retitled race later, x = some recorded) := by
  obtain ⟨_, _, he, hlater⟩ := Run.split h
  -- what the acceptance stored
  have hpre : Preorders a race career e.pre e.post := by
    rw [he, hlabel] at haccepted ⊢
    obtain ⟨a', horigin, hpre⟩ :=
      NftSale.preorder_origin_of_shell_ok.mp (step_of_succeeded haccepted)
    cases horigin
    exact hpre
  obtain ⟨recorded, hmeta, hstored, hrecord⟩ := hpre.on_record
  -- it is on record still when it is minted
  have hnow : OnRecord e.pre.sale.preorder_index ⟨a, race, career, recorded⟩ s :=
    Run.invariant hrecord (fun s l hI _ => hI.step (stepped s l).traded) hlater
  obtain ⟨o', horigin, _, hrounds⟩ := NftSale.mint_chosen_preorders_ok.mp hmint
  cases horigin
  obtain ⟨c, hc⟩ := mints_collection hrounds
  have hmem := List.mem_of_getElem? hj
  obtain ⟨info, hinfo⟩ := Option.isSome_iff_exists.mp ((mints_resolve hrounds).pending _ hmem)
  obtain rfl := hnow.kept info hinfo
  obtain ⟨md, hmd, hitem, htraits⟩ := (mints_items hC hN hc hrounds).2 j _ _ hj hinfo
  refine ⟨recorded, c, md, hstored, hc.resolve_left (List.ne_nil_of_mem hmem), hitem, htraits, ?_⟩
  -- the metadata is what the race has now
  have hfound : (retitled race later).getD (some recorded) = some md := by
    rw [← hmeta, ← Runs.retitled hlater race]
    exact hmd
  cases hlast : retitled race later with
  | none =>
    rw [hlast] at hfound
    exact iff_of_true (Option.some.inj hfound).symm (by simp)
  | some x =>
    rw [hlast, Option.getD_some] at hfound
    simp [hfound]

end mint

open Mock in
/-- Other metadata than the sample sale has. -/
def other_md : Metadata := ⟨[1], by decide⟩

open Mock in
/-- The state in which `ALICE` has preordered a Cyborg. -/
def alice_placed : State (runtime 200) :=
  (step (after (alice_claims 200)).2 (alice_preorders 200)).2

open Mock in
/-- A race gets other metadata. -/
def retitle (race : RaceType) : Label (runtime 200) :=
  admin (.set_origin_of_shells_metadata [(race, other_md)])

open Mock in
theorem runs_retitle (race : RaceType) :
    Runs (fun _ => True) (genesis₀ 200)
      ([entry step alice_placed (retitle race)] ++
        entry step (after (alice_claims 200)).2 (alice_preorders 200) ::
          (after (alice_claims 200)).1)
      (step alice_placed (retitle race)).2 := by
  have hrun : Runs (Within (fun _ => True) fun _ _ => True) (genesis₀ 200)
      (after (alice_claims 200)).1 (after (alice_claims 200)).2 :=
    runs_of_labels (alice_claims 200) (by decide +kernel)
  exact ((hrun.mono fun _ _ _ => trivial).cons (alice_preorders 200) trivial).cons
    (retitle race) trivial

open Mock in
/-- Another race gets other metadata, and `ALICE`'s preorder is fulfilled. -/
theorem fulfilled_alice : ∃ recorded,
    alice_placed.sale.preorders 0 = some ⟨ALICE, .Cyborg, .HackerWizard, recorded⟩ ∧
    (step (step alice_placed (retitle .XGene)).2
      (admin (.mint_chosen_preorders [0]))).2.world.nfts.item (1, 0) =
        some ⟨ALICE, true, recorded⟩ := by
  have hdone : succeeded (entry step (step alice_placed (retitle .XGene)).2
      (admin (.mint_chosen_preorders [0]))) = true := by decide +kernel
  -- the state after the mint is kept from being computed
  obtain ⟨s', hs'⟩ : ∃ s', step (step alice_placed (retitle .XGene)).2
      (admin (.mint_chosen_preorders [0])) = (.ok (), s') := ⟨_, step_of_succeeded hdone⟩
  obtain ⟨recorded, c, md, hstored, hc, hitem, _, hiff⟩ := fulfilled_iff (T := runtime 200)
    (currency_laws 200) (nft_laws 200) (runs_retitle .XGene) (a := ALICE) (o := OVERLORD) rfl
    (by decide +kernel) (l := [0]) hs' (j := 0) (by decide +kernel)
  have hcoll : (step alice_placed (retitle .XGene)).2.sale.origin_of_shell_collection_id =
      some 1 := by decide +kernel
  have hnext : ((runtime 200).nfts (step alice_placed (retitle .XGene)).2.world).next 1 = 0 := by
    decide +kernel
  have hnone : (retitled .Cyborg [entry step alice_placed (retitle .XGene)]).isNone = true := by
    decide +kernel
  obtain rfl : 1 = c := Option.some.inj (hcoll.symm.trans hc)
  obtain rfl := hiff.mpr (by rw [Option.isNone_iff_eq_none.mp hnone]; simp)
  rw [hnext] at hitem
  rw [hs']
  exact ⟨md, hstored, hitem⟩

open Mock in
/-- A Cyborg gets other metadata: `ALICE`'s preorder has the old on record, and
    her Origin of Shell the new. -/
theorem retitled_unfulfilled : ∃ later e earlier s,
    Runs (fun _ => True) (genesis₀ 200) (later ++ e :: earlier) s ∧
    e.label = alice_preorders 200 ∧ succeeded e = true ∧
    e.post.sale.preorders e.pre.sale.preorder_index =
      some ⟨ALICE, .Cyborg, .HackerWizard, md⟩ ∧
    succeeded (entry step s (admin (.mint_chosen_preorders [e.pre.sale.preorder_index]))) =
      true ∧
    ((step s (admin (.mint_chosen_preorders [e.pre.sale.preorder_index]))).2.world.nfts.item
      (1, s.world.nfts.next 1)).map Item.metadata = some other_md ∧ other_md ≠ md :=
  ⟨_, _, _, _, runs_retitle .Cyborg, rfl, by decide +kernel, rfl, by decide +kernel,
    by decide +kernel, by decide⟩

end PhalaWorld
