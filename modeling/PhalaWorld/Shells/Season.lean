import PhalaWorld.Framework.Schedules
import PhalaWorld.Shells.HatchTimes
import PhalaWorld.Specs.Items
import PhalaWorld.Specs.Progress

/-! # No shell is stuck

    Once its time has come an Origin of Shell can be hatched. Nothing that
    anybody did before can prevent it: every shell that is there has its
    attributes, and a hatch disturbs no other one. What the Overlord needs is
    to have issued the two collections, and room and money for the Shells.

    * `Due`: the shell is there, and its hatch time is past.
    * `Due.step`: it stays due until it is hatched.
    * `Ready`: the Overlord is set up to hatch.
    * `Ready.hatch_iff`: a hatch succeeds exactly if its shell is due.
    * `hatch_season`: so do the hatches of a whole list, one after another.
-/

namespace PhalaWorld

open LTS Tokens Transaction

variable {AccountId : Type} {T : Config AccountId}

/-- The shell is there, and its hatch time is past. -/
def Due (c : CollectionId) (s : State T) (n : NftId) : Prop :=
  ((T.nfts s.world).item (c, n)).isSome ∧ Hatchable s (c, n)

/-- The Overlord `o` is set up to hatch shells of `c` into Shells of `sc`. -/
structure Ready (o : AccountId) (c sc : CollectionId) (s : State T) : Prop where
  overlord : s.sale.overlord = some o
  enabled : s.incubation.can_start_incubation = true
  collection : s.sale.origin_of_shell_collection_id = some c
  shell_collection : s.incubation.shell_collection_id = some sc
  issuer : (T.nfts s.world).issuer c = some o
  issuer_shell : (T.nfts s.world).issuer sc = some o

/-- Every item of `c` has the four attributes. -/
def Labelled (c : CollectionId) (s : State T) : Prop :=
  ∀ n, ((T.nfts s.world).item (c, n)).isSome → (T.traits s.world (c, n)).isSome

/-- What the Overlord has to mint `k` Shells with, each for `price` at most. -/
structure Funded (capacity : T.World → CollectionId → Nat) (price : Nat) (o : AccountId)
    (sc : CollectionId) (k : Nat) (s : State T) : Prop where
  room : k ≤ capacity s.world sc
  money : k * price ≤ (T.balances s.world).free o

/-- The hatch of a shell, with the metadata of the Shell. -/
def hatch_call (o : AccountId) (c : CollectionId) (x : NftId × T.Metadata) : Label T :=
  .call (.signed o) (.hatch_origin_of_shell c x.1 x.2)

/-! ### One hatch -/

section hatch
variable [DecidableEq AccountId] {s s' : State T} {o : AccountId} {c sc : CollectionId} {n : NftId}
  {md : T.Metadata}

/-- Where everything is in place, the call goes through. -/
theorem Incubation.hatch_origin_of_shell_of {owner : AccountId} {t : Traits}
    (h : Hatches o owner c n sc md t s s') :
    hatch_origin_of_shell (.signed o) c n md s = (.ok (), s') := by
  obtain ⟨ho, henabled, hc, ⟨⟨rc, rn⟩, hroot⟩, ⟨time, htime, hnow⟩, hsc, htraits, w, hawakens, rfl⟩ := h
  obtain ⟨w₁, w₅, w₆, hburn, hclear, hmint, hset⟩ := hawakens
  simp only [chain_cons, chain_nil] at hclear
  obtain ⟨w₂, ⟨kr, hkr, h₁⟩, w₃, ⟨kc, hkc, h₂⟩, w₄, ⟨kt, hkt, h₃⟩, _, ⟨kg, hkg, h₄⟩, rfl⟩ := hclear
  simp only [hatch_origin_of_shell, transactional_ok, ↓bind_unit_ok, bind_ok, ensure_signed_ok,
    NftSale.ensure_overlord_ok, read_ok, ensure_ok, is_origin_of_shell_collection_id_ok,
    outside_query_ok, get_hatch_time_ok, can_hatch_ok, get_shell_collection_id_ok,
    NftSale.to_boundedvec_key_ok, outside_ok, NftSale.set_nft_attributes_ok, exists_and_left,
    deposit_event_ok, ↓existsAndEq, and_true, exists_eq_left, decide_eq_true_eq, Prod.exists,
    exists_and_right]
  refine ⟨o, rfl, ho, henabled, hc, owner, ⟨rc, rn, hroot⟩, time, htime, hnow, sc, hsc, kr, hkr, kc,
    hkc, kt, hkt, kg, hkg, t, s, (read_attributes_ok hkr hkc hkt hkg).mpr ⟨htraits, rfl⟩, w₁, hburn,
    w₂, h₁, w₃, h₂, w₄, h₃, _, h₄, w₆, hmint, o, w, ⟨ho, hset⟩, rfl⟩

omit [DecidableEq AccountId] in
/-- What was hatched was due. -/
theorem Hatches.due (hN : NftLaws T) {owner : AccountId} {t : Traits}
    (h : Hatches o owner c n sc md t s s') : Due c s n := by
  obtain ⟨i, hi, _⟩ := h.found hN
  exact ⟨by rw [hi]; rfl, h.hatch_time⟩

/-- What is due stays due until it is hatched. -/
theorem Due.step {P : CollectionId → Prop} (hC : CurrencyLaws T) (hN : NftLaws T) {l : Label T}
    {r : Outcome T} (h : Due c s n) (hs : Stepped s l r s')
    (htimely : Timely (⟨s, l, r, s'⟩ : Entry T))
    (hout : ∀ w, l = .outside w → Nfts.Moved P (T.nfts s.world) (T.nfts w)) (hc : P c)
    (hnot : r = .ok () → ¬ l.hatches c n) : Due c s' n := by
  obtain ⟨i, hi⟩ := Option.isSome_iff_exists.mp h.1
  obtain ⟨i', hi', _⟩ := hs.traded.remains hC hN hout hc hi hnot
  exact ⟨by rw [hi']; rfl, h.2.step hs.tended htimely⟩

omit [DecidableEq AccountId] in
/-- A hatch takes its shell off the list, and no other one. -/
theorem Hatches.listed (hN : NftLaws T) (hne : c ≠ sc) {owner : AccountId} {t : Traits}
    (h : Hatches o owner c n sc md t s s') :
    T.listed s'.world c = Function.update (T.listed s.world c) n none := by
  obtain ⟨w, hawakens, rfl⟩ := h.post
  obtain ⟨_, hlisted⟩ := hawakens.listed_burned hN hne
  rw [hlisted, if_pos rfl]

omit [DecidableEq AccountId] in
theorem isSome_listed (w : T.World) (c : CollectionId) (n : NftId) :
    (T.listed w c n).isSome = ((T.nfts w).item (c, n)).isSome :=
  Option.isSome_map

omit [DecidableEq AccountId] in
theorem Hatches.due_iff (hN : NftLaws T) (hne : c ≠ sc) {owner : AccountId} {t : Traits}
    (h : Hatches o owner c n sc md t s s') (m : NftId) : Due c s' m ↔ Due c s m ∧ m ≠ n := by
  have hlisted := h.listed hN hne
  have htimes : Hatchable s' (c, m) ↔ Hatchable s (c, m) := by
    obtain ⟨w, _, rfl⟩ := h.post
    exact Iff.rfl
  rw [Due, Due, htimes, ← isSome_listed, ← isSome_listed, hlisted]
  by_cases hm : m = n
  · rw [hm, Function.update_self]
    simp
  · rw [Function.update_of_ne hm]
    simp [hm]

omit [DecidableEq AccountId] in
theorem Hatches.all_labelled (hN : NftLaws T) (hne : c ≠ sc) {owner : AccountId} {t : Traits}
    (h : Hatches o owner c n sc md t s s') (hread : Labelled c s) : Labelled c s' := by
  have hlisted := h.listed hN hne
  intro m hm
  rw [← isSome_listed, hlisted] at hm
  have hne' : m ≠ n := by
    rintro rfl
    rw [Function.update_self] at hm
    cases hm
  rw [Function.update_of_ne hne', isSome_listed] at hm
  -- the traits are those on the list
  obtain ⟨i, hi⟩ := Option.isSome_iff_exists.mp hm
  have hsame := congrFun hlisted m
  rw [Function.update_of_ne hne', Config.listed, Config.listed, hi, Option.map_some,
    Option.map_eq_some_iff] at hsame
  obtain ⟨i', _, hsame⟩ := hsame
  rw [(Prod.mk.inj hsame).2]
  exact hread m hm

omit [DecidableEq AccountId] in
theorem Hatches.ready (hN : NftLaws T) {owner : AccountId} {t : Traits}
    (h : Hatches o owner c n sc md t s s') (hready : Ready o c sc s) : Ready o c sc s' := by
  obtain ⟨w, hawakens, rfl⟩ := h.post
  obtain ⟨w₂, hattr, hminted, _⟩ := hawakens.minted hN
  have hissuer : (T.nfts w).issuer = (T.nfts s.world).issuer := by
    rw [hminted.received.issuer, hattr.issuer]
    rfl
  refine ⟨hready.overlord, hready.enabled, hready.collection, hready.shell_collection, ?_, ?_⟩
  · rw [hissuer]
    exact hready.issuer
  · rw [hissuer]
    exact hready.issuer_shell

end hatch

/-! ### What the Overlord is able to -/

section ready
variable [DecidableEq AccountId] {capacity : T.World → CollectionId → Nat} {fees : Fees}
  {price k : Nat} {s : State T} {o : AccountId} {c sc : CollectionId}

omit [DecidableEq AccountId] in
theorem Funded.mono {k' : Nat} (h : Funded capacity price o sc k s) (hle : k' ≤ k) :
    Funded capacity price o sc k' s :=
  ⟨hle.trans h.room, (Nat.mul_le_mul_right price hle).trans h.money⟩

omit [DecidableEq AccountId] in
/-- What is due can be hatched, and that uses up one Shell's room and money. -/
theorem Ready.hatches (hN : NftLaws T) (hH : HatchLaws T capacity fees)
    (hprice : ∀ t, fees.issue t ≤ price) (h : Ready o c sc s) (hread : Labelled c s)
    (hfund : Funded capacity price o sc (k + 1) s) {n : NftId} (hdue : Due c s n)
    (md : T.Metadata) : ∃ owner t s', Hatches o owner c n sc md t s s' ∧
      Funded capacity price o sc k s' := by
  obtain ⟨hitem, htime⟩ := hdue
  obtain ⟨i, hi⟩ := Option.isSome_iff_exists.mp hitem
  obtain ⟨t, ht⟩ := Option.isSome_iff_exists.mp (hread n hitem)
  obtain ⟨root, hroot⟩ := hH.lookup_root_owner hi
  have hroom := hfund.room
  have hmoney := hfund.money
  rw [Nat.add_mul, Nat.one_mul] at hmoney
  have ht' := hprice t
  obtain ⟨w, hawakens, hfree, hcapacity⟩ := awakens hN hH md t hi h.issuer h.issuer_shell
    (by omega) (by omega)
  refine ⟨i.owner, t, _, ⟨h.overlord, h.enabled, h.collection, ⟨root, hroot⟩, htime,
    h.shell_collection, ht, w, hawakens, rfl⟩, ?_, ?_⟩
  · show k ≤ capacity w sc
    omega
  · show k * price ≤ (T.balances w).free o
    omega

/-- A hatch that can be paid for succeeds if and only if its shell is due. -/
theorem Ready.hatch_iff (hN : NftLaws T) (hH : HatchLaws T capacity fees)
    (hprice : ∀ t, fees.issue t ≤ price) (h : Ready o c sc s) (hread : Labelled c s)
    (hfund : Funded capacity price o sc 1 s) (x : NftId × T.Metadata) :
    succeeded (entry step s (hatch_call o c x)) = true ↔ Due c s x.1 := by
  constructor
  · intro hsucceeded
    obtain ⟨_, owner, _, t, _, hh⟩ :=
      Incubation.hatch_origin_of_shell_ok (step_of_succeeded hsucceeded)
    exact hh.due hN
  · intro hdue
    obtain ⟨owner, t, s', hh, _⟩ := h.hatches (k := 0) hN hH hprice hread hfund hdue x.2
    have hok : step s (hatch_call o c x) = (.ok (), s') := Incubation.hatch_origin_of_shell_of hh
    rw [succeeded, entry, hok]

/-- After a hatch, successful or not, the others are as due as before. -/
theorem Ready.try_hatch (hN : NftLaws T) (hH : HatchLaws T capacity fees)
    (hprice : ∀ t, fees.issue t ≤ price) (hne : c ≠ sc) (h : Ready o c sc s) (hread : Labelled c s)
    (hfund : Funded capacity price o sc (k + 1) s) (x : NftId × T.Metadata) :
    Ready o c sc (step s (hatch_call o c x)).2 ∧ Labelled c (step s (hatch_call o c x)).2 ∧
      Funded capacity price o sc k (step s (hatch_call o c x)).2 ∧
      ∀ m, Due c (step s (hatch_call o c x)).2 m ↔ Due c s m ∧ m ≠ x.1 := by
  by_cases hdue : Due c s x.1
  · obtain ⟨owner, t, s', hh, hfund'⟩ := h.hatches hN hH hprice hread hfund hdue x.2
    have hok : step s (hatch_call o c x) = (.ok (), s') := Incubation.hatch_origin_of_shell_of hh
    rw [hok]
    exact ⟨hh.ready hN h, hh.all_labelled hN hne hread, hfund', hh.due_iff hN hne⟩
  · -- what is not due fails, and changes nothing
    have hfails := mt (h.hatch_iff hN hH hprice hread (hfund.mono (by omega)) x).mp hdue
    have hsame : (step s (hatch_call o c x)).2 = s := by
      have hs := stepped s (hatch_call o c x)
      cases hr : (step s (hatch_call o c x)).1 with
      | error e =>
        rw [hr] at hs
        exact hs.error
      | ok u =>
        refine absurd ?_ hfails
        rw [succeeded, entry, hr]
    rw [hsame]
    refine ⟨h, hread, hfund.mono (by omega), fun m => ?_⟩
    refine (and_iff_left_of_imp ?_).symm
    rintro hm rfl
    exact hdue hm

/-- One hatch after another. -/
theorem Ready.season (hN : NftLaws T) (hH : HatchLaws T capacity fees)
    (hprice : ∀ t, fees.issue t ≤ price) (hne : c ≠ sc) (before : List (NftId × T.Metadata))
    (x : NftId × T.Metadata) (h : Ready o c sc s) (hread : Labelled c s)
    (hfund : Funded capacity price o sc (before.length + 1) s) :
    succeeded (entry step (exec step s [] (before.map (hatch_call o c))).2
      (hatch_call o c x)) = true ↔ Due c s x.1 ∧ x.1 ∉ before.map Prod.fst := by
  induction before generalizing s with
  | nil =>
    refine (h.hatch_iff hN hH hprice hread hfund x).trans ?_
    simp
  | cons y before ih =>
    obtain ⟨h', hread', hfund', hdue⟩ := h.try_hatch hN hH hprice hne hread hfund y
    rw [List.map_cons, exec_state_cons, ih h' hread' hfund', hdue, List.map_cons, List.mem_cons,
      not_or, and_assoc]

end ready

/-! ### Runs -/

section runs
variable [DecidableEq AccountId] {g : GenesisConfig AccountId} {w : T.World} {now : UInt64}
  {tr : List (Entry T)} {s : State T} {capacity : T.World → CollectionId → Nat} {fees : Fees}
  {price : Nat} {o : AccountId} {c sc : CollectionId}

omit [DecidableEq AccountId] in
/-- Where every item was minted, every item has its attributes. -/
theorem Exchanging.all_labelled {f : State T} {ms : List (Mint AccountId)}
    {hs : List (Hatch AccountId)} (h : Exchanging f ms hs s)
    (hc : f.sale.origin_of_shell_collection_id = some c) : Labelled c s := by
  intro n hn
  obtain ⟨i, hi⟩ := Option.isSome_iff_exists.mp hn
  have hmem := h.exchanged.recorded.mem n (T.traits s.world (c, n)) (by
    rw [hc]
    exact tokens_of_some hi)
  obtain ⟨m, _, heq⟩ := List.mem_map.mp hmem
  rw [← (Prod.mk.inj heq).2]
  rfl

/-- What was due in a run and was not hatched since is due at its end. -/
theorem Runs.due (hC : CurrencyLaws T) (hN : NftLaws T) {P : CollectionId → Prop} (hc : P c)
    {s₀ : State T} {n : NftId} (h : Runs (Within Timely (MovesWithin P)) s₀ tr s)
    (hdue : Due c s₀ n)
    (hnot : ∀ e ∈ tr, succeeded e = true → ¬ e.label.hatches c n) : Due c s n := by
  refine Runs.induction (J := fun tr s =>
    (∀ e ∈ tr, succeeded e = true → ¬ e.label.hatches c n) → Due c s n) h ?_ ?_ hnot
  · exact fun _ => hdue
  · intro tr s l r s' _ hJ hok hs hnot
    rw [List.forall_mem_cons] at hnot
    refine (hJ hnot.2).step hC hN hs hok.1 hok.2 hc ?_
    rintro rfl
    exact hnot.1 rfl

end runs

open Mock in
theorem issue_le (t : Traits) : fees.issue t ≤ 830 := by
  simp [Fees.issue, fees, Traits.bytes, NftSale.rarity_key, NftSale.race_key, NftSale.career_key,
    NftSale.generation_key, RarityType.encode_length, RaceType.encode_length,
    CareerType.encode_length, GenerationId.encode_length]

end PhalaWorld
