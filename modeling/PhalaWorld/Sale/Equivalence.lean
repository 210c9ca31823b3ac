import PhalaWorld.Sale.Chosen
import PhalaWorld.Sale.Whitelist

/-! # Being chosen is buying

    A preorder that is minted right after it was placed leaves the storage
    as if its owner had bought the Origin of Shell, but for the index of the
    preorders: what was reserved is unreserved, the preorder is taken out
    again, and so is the flag.

    * `Mints.congr`: the same sale in two states.
    * `bought_or_chosen`: the two ways to a Prime Origin of Shell.
-/

namespace PhalaWorld

open LTS Ledger Transaction BoundedMap

variable {AccountId : Type} {T : Config AccountId} {same : T.World → T.World → Prop}

/-! ### Worlds with the same storage -/

section worlds
variable {o a : AccountId} {c : CollectionId} {w v w' v' : T.World}

/-- The key and the value of an attribute are given by their bytes. -/
theorem SetsAttribute.congr (hS : StorageLaws T same) {x : CollectionId × NftId}
    {kv : Bytes × Bytes} (h : same w v) (hw : SetsAttribute o x w kv w')
    (hv : SetsAttribute o x v kv v') : same w' v' := by
  obtain ⟨k, b, hk, hb, hw⟩ := hw
  obtain ⟨k', b', hk', hb', hv⟩ := hv
  obtain rfl : k = k' := Option.some.inj
    ((BoundedVec.try_from_eq_some.mpr hk).symm.trans (BoundedVec.try_from_eq_some.mpr hk'))
  obtain rfl : b = b' := Option.some.inj
    ((BoundedVec.try_from_eq_some.mpr hb).symm.trans (BoundedVec.try_from_eq_some.mpr hb'))
  exact hS.set_attribute h hw hv

theorem Issues.congr (hS : StorageLaws T same) {md : T.Metadata} {t : Traits} {price : Nat}
    (h : same w v) (hw : Issues o a c md t price w w') (hv : Issues o a c md t price v v') :
    same w' v' := by
  obtain ⟨w₁, w₂, w₃, htransfer, hmint, hset, hfreeze⟩ := hw
  obtain ⟨v₁, v₂, v₃, htransfer', hmint', hset', hfreeze'⟩ := hv
  -- the same item is minted
  have hid : T.NextNftId w c = T.NextNftId v c := by
    unfold Config.NextNftId
    rw [hS.nfts_eq h]
  rw [← hid] at hset' hfreeze'
  have h₁ := hS.transfer h htransfer htransfer'
  have h₂ := hS.mint_nft h₁ hmint hmint'
  have h₃ := Chain.related (R := SetsAttribute o (c, T.NextNftId w c))
    (fun _ _ _ _ _ => SetsAttribute.congr hS) h₂ hset hset'
  exact hS.freeze h₃ hfreeze hfreeze'

end worlds

/-! ### The two ways -/

section ways
variable [DecidableEq AccountId] {s s₁ s₂ s₃ : State T} {o a : AccountId} {ra : RaceType}
  {ca : CareerType}

omit [DecidableEq AccountId] in
/-- The same is sold in two states that agree in what a sale reads. -/
theorem Mints.congr (hS : StorageLaws T same) {v s' v' : State T} {t : Traits} {price : Nat}
    {pool : NftSaleType} {check check' : Bool} {c c' : CollectionId} {i i' : NftSaleInfo}
    (hm : Mints o a t price pool check c i s s') (hm' : Mints o a t price pool check' c' i' v v')
    (hworld : same s.world v.world)
    (hcoll : v.sale.origin_of_shell_collection_id = s.sale.origin_of_shell_collection_id)
    (hmeta : v.sale.origin_of_shells_metadata = s.sale.origin_of_shells_metadata)
    (hinv : v.sale.origin_of_shells_inventory = s.sale.origin_of_shells_inventory)
    (hcareer : v.sale.career_type_count = s.sale.career_type_count) :
    ∃ inventory careers w w', same w w' ∧
      s' = { s with
        sale := { s.sale with
          origin_of_shells_inventory := inventory
          career_type_count := careers }
        world := w
        events := s'.events } ∧
      v' = { v with
        sale := { v.sale with
          origin_of_shells_inventory := inventory
          career_type_count := careers }
        world := w'
        events := v'.events } := by
  obtain rfl : c = c' := Option.some.inj
    (hm.collection.symm.trans (hcoll.symm.trans hm'.collection))
  have hi := hm'.info
  rw [hinv] at hi
  obtain rfl : i = i' := Option.some.inj (hm.info.symm.trans hi)
  obtain ⟨md, w, rc, cc, hmd, hissues, hrc, hcc, rfl⟩ := hm.post
  obtain ⟨md', w', rc', cc', hmd', hissues', hrc', hcc', rfl⟩ := hm'.post
  rw [hmeta] at hmd'
  rw [hcareer] at hcc'
  obtain rfl : md = md' := Option.some.inj (hmd.symm.trans hmd')
  obtain rfl : rc = rc' := Except.ok.inj (hrc.symm.trans hrc')
  obtain rfl : cc = cc' := Except.ok.inj (hcc.symm.trans hcc')
  refine ⟨_, _, w, w', hissues.congr hS hworld hissues', rfl, ?_⟩
  rw [hinv, hcareer]

/-- The chosen preorder is the one that was just placed. -/
theorem Preorders.chosen {c : CollectionId} {i : NftSaleInfo}
    (hS : StorageLaws T same) (hbelow : Below s.sale.preorders s.sale.preorder_index)
    (hbuy : Mints o a ⟨.Prime, ra, ca, 0⟩ T.PrimeOriginOfShellPrice .ForSale
      (!s.sale.last_day_of_sale) c i s s₁)
    (hpre : Preorders a ra ca s s₂)
    (hmint : MintsPreorder o s.sale.last_day_of_sale s₂ s.sale.preorder_index s₃) :
    SameStorage { s₁ with sale := { s₁.sale with
      preorder_index := s₁.sale.preorder_index + 1 } } s₃ := by
  have hallowed := hpre.allowed
  obtain ⟨md, w, _, hreserve, rfl⟩ := hpre.post
  obtain ⟨info, c', i', s₃, hinfo, hmint, rfl⟩ := hmint
  obtain rfl : ⟨a, ra, ca, md⟩ = info := Option.some.inj
    ((Function.update_self s.sale.preorder_index _ _).symm.trans hinfo)
  obtain ⟨inventory, careers, w₁, w₃, hsame, hs₁, hs₃⟩ :=
    hbuy.congr hS hmint (hS.unreserve_reserve hreserve) rfl rfl rfl rfl
  -- the preorder came and went, and so did the flag
  have hpreorders : Function.update (Function.update s.sale.preorders s.sale.preorder_index
      (some ⟨a, ra, ca, md⟩)) s.sale.preorder_index none = s.sale.preorders := by
    rw [Function.update_idem, ← hbelow _ le_rfl, Function.update_eq_self]
  have hflags (hlast : s.sale.last_day_of_sale = false) :
      Function.update (Function.update s.sale.owner_has_preorder a true) a false =
        s.sale.owner_has_preorder := by
    have hfalse := (hallowed.resolve_left (by rw [hlast]; exact Bool.false_ne_true)).2
    rw [Function.update_idem, ← hfalse, Function.update_eq_self]
  rw [hs₁, hs₃]
  refine ⟨?_, rfl, rfl, (hS.balances_eq hsame).symm, (hS.nfts_eq hsame).symm⟩
  cases hlast : s.sale.last_day_of_sale with
  | true => simp only [State.close, State.release, hpreorders, if_true]
  | false => simp [State.close, State.release, hpreorders, hflags hlast]

/-- **Being chosen is buying.** In every run, where an account can buy a Prime
    Origin of Shell, and can also preorder one that the Overlord then mints,
    both leave the same storage but for the index of the preorders. Whether
    it is the last day does not matter, and neither does the signature. -/
theorem bought_or_chosen (hS : StorageLaws T same) (hlimit : T.IterLimit ≠ 0)
    {ok : Entry T → Prop} {g : GenesisConfig AccountId} {w : T.World} {now : UInt64}
    {tr : List (Entry T)} (h : Runs ok (genesis g w now) tr s) {signature : T.Signature}
    (ho : s.sale.overlord = some o)
    (hbuy : step s (.call (.signed a) (.buy_prime_origin_of_shell signature ra ca)) = (.ok (), s₁))
    (hpre : step s (.call (.signed a) (.preorder_origin_of_shell ra ca)) = (.ok (), s₂))
    (hmint : step s₂ (.call (.signed o) (.mint_chosen_preorders [s.sale.preorder_index])) =
      (.ok (), s₃)) :
    SameStorage { s₁ with sale := { s₁.sale with
      preorder_index := s₁.sale.preorder_index + 1 } } s₃ := by
  obtain ⟨a', o', c, i, horigin, _, ho', _, hbuy⟩ := NftSale.buy_prime_origin_of_shell_ok hbuy
  cases horigin
  obtain rfl : o = o' := Option.some.inj (ho.symm.trans ho')
  obtain ⟨a', horigin, hpre⟩ := NftSale.preorder_origin_of_shell_ok.mp hpre
  cases horigin
  have hkeeps : s₂.sale.overlord = s.sale.overlord ∧
      s₂.sale.last_day_of_sale = s.sale.last_day_of_sale := by
    obtain ⟨md, w, _, _, rfl⟩ := hpre.post
    exact ⟨rfl, rfl⟩
  have hrounds := (mint_call_iff (hkeeps.1.trans ho)).mp hmint
  rw [take_singleton hlimit, hkeeps.2] at hrounds
  obtain ⟨s', hround, hnil⟩ := chain_cons.mp hrounds
  obtain rfl := chain_nil.mp hnil
  exact hpre.chosen hS h.tracked.1.accounted.below hbuy hround

end ways

open Mock in
/-- `ALICE` has a Spirit, and a ticket. -/
def alice_claims (n : UInt32) : List (Label (runtime n)) :=
  setup n ++ [.call (.signed ALICE) .claim_spirit]

open Mock in
/-- She buys. -/
def alice_buys (n : UInt32) : Label (runtime n) :=
  .call (.signed ALICE) (.buy_prime_origin_of_shell ticket .Cyborg .HackerWizard)

open Mock in
/-- She preorders the same. -/
def alice_preorders (n : UInt32) : Label (runtime n) :=
  .call (.signed ALICE) (.preorder_origin_of_shell .Cyborg .HackerWizard)

open Mock in
/-- In the sample sale both ways are open to her. -/
theorem alice_bought_or_chosen :
    SameStorage { (step (after (alice_claims 200)).2 (alice_buys 200)).2 with
        sale := { (step (after (alice_claims 200)).2 (alice_buys 200)).2.sale with
          preorder_index :=
            (step (after (alice_claims 200)).2 (alice_buys 200)).2.sale.preorder_index + 1 } }
      (step (step (after (alice_claims 200)).2 (alice_preorders 200)).2
        (admin (.mint_chosen_preorders [0]))).2 := by
  have hrun : Runs (Within (fun _ => True) fun _ _ => True) (genesis₀ 200)
      (after (alice_claims 200)).1 (after (alice_claims 200)).2 :=
    runs_of_labels (alice_claims 200) (by decide +kernel)
  exact bought_or_chosen (T := runtime 200) (storage_laws 200) (by decide) hrun (o := OVERLORD)
    (by decide +kernel) (step_of_succeeded (by decide +kernel))
    (step_of_succeeded (by decide +kernel)) (step_of_succeeded (by decide +kernel))

open Mock in
/-- With a limit of zero the mint goes through and does nothing: the preorder
    stays. -/
theorem chosen_limit_zero : ∃ tr s,
    Runs (Within (fun _ => True) fun _ _ => True) (genesis₀ 0) tr s ∧
    s.sale.overlord = some OVERLORD ∧ succeeded (entry step s (alice_buys 0)) = true ∧
    succeeded (entry step s (alice_preorders 0)) = true ∧
    succeeded (entry step (step s (alice_preorders 0)).2
      (admin (.mint_chosen_preorders [s.sale.preorder_index]))) = true ∧
    ((step s (alice_buys 0)).2.sale.preorders 0).isSome = false ∧
    ((step (step s (alice_preorders 0)).2
      (admin (.mint_chosen_preorders [s.sale.preorder_index]))).2.sale.preorders 0).isSome =
        true :=
  ⟨(after (alice_claims 0)).1, (after (alice_claims 0)).2,
    runs_of_labels (alice_claims 0) (by decide +kernel), by decide +kernel⟩

end PhalaWorld
