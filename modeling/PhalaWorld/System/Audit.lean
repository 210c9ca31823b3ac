import PhalaWorld.Framework.Audit
import PhalaWorld.Shells.Feeding
import PhalaWorld.Specs.Settings
import PhalaWorld.System.EventLog

/-! # Auditing the event log

    A reader of the events alone can do more than keep a ledger: from the
    events so far it follows which events can come next. What the reader
    keeps is a small system of its own, with the events as its labels, and
    every run of the pallets is a run of it.

    * `Books`: the ledger, the settings, the feeds of the era and the last
      event, as the reader keeps them.
    * `Admissible`: the events that can come next.
    * `step_audited`: what a step deposits is admissible, one event after
      the other, and the books stay those of the storage.
    * `audit`: the log of every run passes, up to its last event.
-/

namespace PhalaWorld

open LTS Transaction

variable {AccountId : Type} {T : Config AccountId}

/-! ### The books -/

/-- What was set and switched, and the next preorder id. -/
@[ext]
structure Settings (T : Config AccountId) where
  overlord : Option AccountId
  zero_day : Option Nat
  can_claim_spirits : Bool
  spirit_collection_id : Option CollectionId
  origin_of_shell_collection_id : Option CollectionId
  shell_collection_id : Option CollectionId
  spirits_metadata : Option T.Metadata
  origin_of_shells_metadata : RaceType → Option T.Metadata
  is_origin_of_shells_inventory_set : Bool
  preorder_index : PreorderId
  official_hatch_time : Nat
  can_start_incubation : Bool

/-- What an event sets. -/
def Settings.apply (S : Settings T) : Event T → Settings T
  | .WorldClockStarted start_time => { S with zero_day := some start_time }
  | .OriginOfShellPreordered _ preorder_id => { S with preorder_index := preorder_id + 1 }
  | .SpiritCollectionIdSet collection_id => { S with spirit_collection_id := some collection_id }
  | .OriginOfShellCollectionIdSet collection_id =>
      { S with origin_of_shell_collection_id := some collection_id }
  | .ClaimSpiritStatusChanged status => { S with can_claim_spirits := status }
  | .OverlordChanged _ new_overlord => { S with overlord := some new_overlord }
  | .OriginOfShellsInventoryWasSet status =>
      { S with is_origin_of_shells_inventory_set := status }
  | .SpiritsMetadataSet spirits_metadata => { S with spirits_metadata := some spirits_metadata }
  | .OriginOfShellsMetadataSet origin_of_shells_metadata =>
      { S with
        origin_of_shells_metadata := replay put S.origin_of_shells_metadata
          (origin_of_shells_metadata.map fun x => (x.1, some x.2)) }
  | .CanStartIncubationStatusChanged status _ official_hatch_time =>
      { S with can_start_incubation := status, official_hatch_time := official_hatch_time }
  | .ShellCollectionIdSet collection_id => { S with shell_collection_id := some collection_id }
  | _ => S

/-- The reader's books. -/
@[ext]
structure Books (T : Config AccountId) where
  ledger : EventLedger AccountId
  settings : Settings T
  /-- Whom each account fed in this era, oldest first. -/
  sent : AccountId → List (CollectionId × NftId)
  /-- The event before. -/
  last : Option (Event T)

/-- Whom an event says was fed; a new era starts over. -/
def sends [DecidableEq AccountId] (sent : AccountId → List (CollectionId × NftId)) :
    Event T → AccountId → List (CollectionId × NftId)
  | .NewEra _ _ => fun _ => []
  | .OriginOfShellReceivedFood collection_id nft_id sender =>
      Function.update sent sender (sent sender ++ [(collection_id, nft_id)])
  | _ => sent

/-- What an event adds to the books. -/
def Books.apply [DecidableEq AccountId] (B : Books T) (event : Event T) : Books T where
  ledger := B.ledger.apply event
  settings := B.settings.apply event
  sent := sends B.sent event
  last := some event

section views
variable (s : State T)

/-- The settings, as the storage of both pallets has them. -/
def State.settings : Settings T where
  overlord := s.sale.overlord
  zero_day := s.sale.zero_day
  can_claim_spirits := s.sale.can_claim_spirits
  spirit_collection_id := s.sale.spirit_collection_id
  origin_of_shell_collection_id := s.sale.origin_of_shell_collection_id
  shell_collection_id := s.incubation.shell_collection_id
  spirits_metadata := s.sale.spirits_metadata
  origin_of_shells_metadata := s.sale.origin_of_shells_metadata
  is_origin_of_shells_inventory_set := s.sale.is_origin_of_shells_inventory_set
  preorder_index := s.sale.preorder_index
  official_hatch_time := s.incubation.official_hatch_time
  can_start_incubation := s.incubation.can_start_incubation

/-- The feeds of the era, as the storage has them. -/
def State.sent (a : AccountId) : List (CollectionId × NftId) :=
  fed s.sale.era (s.incubation.food_by_owners a)

/-- The books, as the storage has them. -/
def State.books : Books T where
  ledger := s.ledger
  settings := s.settings
  sent := s.sent
  last := s.events.getLast?

end views

/-! ### What can come next -/

/-- All Origin of Shells of a kind there were and will be, if nothing is added. -/
def NftSaleInfo.total (i : NftSaleInfo) : Nat :=
  i.race_count + (i.race_for_sale_count + i.race_giveaway_count + i.race_reserved_count)

/-- The events that can come after those the books were kept of. -/
def Admissible (B : Books T) : Event T → Prop
  | .WorldClockStarted start_time =>
      B.settings.overlord ≠ none ∧ B.settings.zero_day = none ∧
        T.SecondsPerEra.toNat ∣ start_time
  | .NewEra time era =>
      era = B.ledger.era + 1 ∧ ∃ zero_day, B.settings.zero_day = some zero_day ∧
        zero_day < time ∧ B.ledger.era < (time - zero_day) / T.SecondsPerEra.toNat
  | .SpiritClaimed _ collection_id _ =>
      B.settings.can_claim_spirits = true ∧ B.settings.overlord ≠ none ∧
        B.settings.spirit_collection_id = some collection_id ∧
        B.settings.spirits_metadata ≠ none
  | .OriginOfShellPreordered _ preorder_id =>
      preorder_id = B.settings.preorder_index ∧ preorder_id ≠ 2 ^ 32 - 1 ∧
        B.settings.spirit_collection_id ≠ none ∧
        B.settings.origin_of_shell_collection_id ≠ none ∧
        ∃ race, B.settings.origin_of_shells_metadata race ≠ none
  | .OriginOfShellMinted rarity_type collection_id _ _ race _ =>
      B.settings.overlord ≠ none ∧ B.settings.spirit_collection_id ≠ none ∧
        B.settings.origin_of_shell_collection_id = some collection_id ∧
        B.settings.origin_of_shells_metadata race ≠ none ∧
        B.settings.is_origin_of_shells_inventory_set = true ∧
        -- only Prime is ever topped up
        (rarity_type ≠ .Prime → B.ledger.race_count (rarity_type, race) <
          (initial_nft_sale_info rarity_type).total)
  | .ChosenPreorderMinted preorder_id owner =>
      B.ledger.pending preorder_id = some owner ∧ ∃ collection_id nft_id race career,
        B.last = some (.OriginOfShellMinted .Prime collection_id nft_id owner race career)
  | .NotChosenPreorderRefunded preorder_id owner =>
      B.settings.overlord ≠ none ∧ B.ledger.pending preorder_id = some owner
  | .OriginOfShellGiftedToOwner owner nft_sale_type =>
      nft_sale_type ≠ .ForSale ∧ ∃ rarity_type collection_id nft_id race career,
        B.last = some (.OriginOfShellMinted rarity_type collection_id nft_id owner race career)
  | .SpiritCollectionIdSet _ =>
      B.settings.overlord ≠ none ∧ B.settings.spirit_collection_id = none
  | .OriginOfShellCollectionIdSet _ =>
      B.settings.overlord ≠ none ∧ B.settings.origin_of_shell_collection_id = none
  | .ShellCollectionIdSet _ =>
      B.settings.overlord ≠ none ∧ B.settings.shell_collection_id = none
  | .OriginOfShellInventoryUpdated rarity_type =>
      B.settings.overlord ≠ none ∧ rarity_type = .Prime
  | .OriginOfShellsInventoryWasSet status =>
      B.settings.overlord ≠ none ∧ status = true ∧
        B.settings.is_origin_of_shells_inventory_set = false
  | .OverlordChanged old_overlord _ => old_overlord = B.settings.overlord
  | .ClaimSpiritStatusChanged _ | .PurchaseRareOriginOfShellsStatusChanged _
  | .PurchasePrimeOriginOfShellsStatusChanged _ | .PreorderOriginOfShellsStatusChanged _
  | .SpiritsMetadataSet _ | .OriginOfShellsMetadataSet _ => B.settings.overlord ≠ none
  -- the last day is announced as a preorder status
  | .LastDayOfSaleStatusChanged _ => False
  | .CanStartIncubationStatusChanged _ start_time official_hatch_time =>
      B.settings.overlord ≠ none ∧
        official_hatch_time = (start_time + T.IncubationDurationSec.toNat) % 2 ^ 64
  | .StartedIncubation collection_id nft_id _ _ hatch_time =>
      B.settings.can_start_incubation = true ∧
        B.settings.origin_of_shell_collection_id = some collection_id ∧
        B.ledger.hatch_times (collection_id, nft_id) = none ∧
        hatch_time = B.settings.official_hatch_time
  | .OriginOfShellReceivedFood collection_id nft_id sender =>
      B.settings.can_start_incubation = true ∧
        B.settings.origin_of_shell_collection_id = some collection_id ∧
        B.ledger.hatch_times (collection_id, nft_id) ≠ none ∧
        (B.sent sender).length < T.FoodPerEra.toNat ∧
        -- the first feed of an era is not counted against the limit
        (B.sent sender ≠ [] →
          (B.sent sender).count (collection_id, nft_id) < T.MaxFoodFeedSelf.toNat)
  | .HatchTimeUpdated collection_id nft_id old_hatch_time new_hatch_time =>
      B.settings.overlord ≠ none ∧
        B.settings.origin_of_shell_collection_id = some collection_id ∧
        B.ledger.hatch_times (collection_id, nft_id) = some old_hatch_time ∧
        new_hatch_time ≤ old_hatch_time
  | .ShellAwakened collection_id _ _ =>
      B.settings.overlord ≠ none ∧ B.settings.can_start_incubation = true ∧
        B.settings.shell_collection_id = some collection_id ∧
        ∃ egg_collection_id nft_id,
          B.settings.origin_of_shell_collection_id = some egg_collection_id ∧
          B.ledger.hatch_times (egg_collection_id, nft_id) ≠ none

/-- What was deposited from `s` to `s'` passes the audit. -/
abbrev Audited [DecidableEq AccountId] (s s' : State T) : Prop :=
  Audits State.events State.books Admissible Books.apply s s'

section books
variable [DecidableEq AccountId] {s s' : State T}

theorem replay_last (B : Books T) (evs : List (Event T)) :
    (replay Books.apply B evs).last = evs.getLast?.or B.last := by
  induction evs generalizing B with
  | nil => rfl
  | cons event evs ih =>
    rw [replay_cons, ih, List.getLast?_cons]
    cases evs.getLast? <;> rfl

/-- The books are kept part by part. -/
theorem replay_books {evs : List (Event T)} (hledger : Explained s s')
    (hevents : s'.events = s.events ++ evs)
    (hsettings : replay Settings.apply s.settings evs = s'.settings)
    (hsent : replay sends s.sent evs = s'.sent) : replay Books.apply s.books evs = s'.books := by
  apply Books.ext
  · rw [replay_view Books.ledger EventLedger.apply fun _ _ => rfl]
    exact hledger.replayed_of hevents
  · rw [replay_view Books.settings Settings.apply fun _ _ => rfl]
    exact hsettings
  · rw [replay_view Books.sent sends fun _ _ => rfl]
    exact hsent
  · rw [replay_last]
    show evs.getLast?.or s.events.getLast? = s'.events.getLast?
    rw [hevents, List.getLast?_append]

/-- One event was deposited. -/
theorem audited_one {event : Event T} (hledger : Explained s s')
    (hevents : s'.events = s.events ++ [event]) (hok : Admissible s.books event)
    (hsettings : s.settings.apply event = s'.settings) (hsent : sends s.sent event = s'.sent) :
    Audited s s' :=
  .one hevents hok (replay_books hledger hevents hsettings hsent)

/-- Two events were deposited. -/
theorem audited_two {event event' : Event T} (hledger : Explained s s')
    (hevents : s'.events = s.events ++ [event, event']) (hok : Admissible s.books event)
    (hok' : Admissible (s.books.apply event) event')
    (hsettings : (s.settings.apply event).apply event' = s'.settings)
    (hsent : sends (sends s.sent event) event' = s'.sent) : Audited s s' :=
  .two hevents hok hok' (replay_books hledger hevents hsettings hsent)

end books

/-! ### What is rare -/

/-- What was minted and what is left of a rare kind is what there was at first. -/
def RareKept (s : State T) : Prop :=
  ∀ k i, k.1 ≠ .Prime → s.sale.origin_of_shells_inventory k = some i →
    i.total = (initial_nft_sale_info k.1).total

section rare
variable {s s' : State T}

theorem RareKept.of_eq (h : RareKept s)
    (hinv : s'.sale.origin_of_shells_inventory = s.sale.origin_of_shells_inventory) :
    RareKept s' := by
  unfold RareKept
  rw [hinv]
  exact h

theorem total_lt (r : RarityType) : (initial_nft_sale_info r).total < 2 ^ 32 := by
  cases r <;> decide

/-- One unit moves from a pool to the count. -/
theorem total_mint {i : NftSaleInfo} {pool : NftSaleType} {race_count : Nat}
    (hleft : 0 < i.left pool) (hcount : race_count = i.race_count + 1) :
    ({ i.setLeft pool (i.left pool - 1) with race_count := race_count } : NftSaleInfo).total =
      i.total := by
  unfold NftSaleInfo.total
  cases pool <;> simp only [NftSaleInfo.setLeft, NftSaleInfo.left] at hleft ⊢ <;> omega

/-- There is one left to mint. -/
theorem count_lt_total {i : NftSaleInfo} {pool : NftSaleType} (hleft : 0 < i.left pool) :
    i.race_count < i.total := by
  unfold NftSaleInfo.total
  cases pool <;> simp only [NftSaleInfo.left] at hleft <;> omega

theorem RareKept.mint {o a : AccountId} {t : Traits} {price : Nat} {pool : NftSaleType}
    {check : Bool} {c : CollectionId} {i : NftSaleInfo} (h : RareKept s)
    (hm : Mints o a t price pool check c i s s') : RareKept s' := by
  have hinfo := hm.info
  have hleft := hm.left
  obtain ⟨md, w, rc, cc, _, _, hrc, _, rfl⟩ := hm.post
  intro k j hk hj
  by_cases heq : k = (t.rarity_type, t.race)
  · subst heq
    have hold : i.total = (initial_nft_sale_info t.rarity_type).total := h _ i hk hinfo
    have hbound := total_lt t.rarity_type
    have hless := count_lt_total hleft
    rw [plain_add_of_lt (by omega), Except.ok.injEq] at hrc
    simp only [Function.update_self, Option.some.injEq] at hj
    rw [← hj, total_mint hleft hrc.symm]
    exact hold
  · simp only [Function.update_of_ne heq] at hj
    exact h k j hk hj

variable [DecidableEq AccountId]

theorem RareKept.covers : CoversRounds fun s s' : State T => RareKept s → RareKept s' where
  refl _ h := h
  trans _ _ _ h h' hs := h' (h hs)
  release _ _ _ h := h
  close _ _ _ _ h := h

theorem RareKept.step {l : Label T} {r : Outcome T} (h : RareKept s) (hs : Traded s l r s') :
    RareKept s' := by
  cases hs with
  | quiet hq _ => exact h.of_eq hq.inventory
  | spirit _ hm _ =>
    obtain ⟨md, w₁, w₂, _, _, _, rfl⟩ := hm.post
    exact h
  | buy _ hm _ => exact h.mint hm
  | preorder hp =>
    obtain ⟨md, w, _, _, rfl⟩ := hp.post
    exact h
  | mint _ hl => exact RareKept.covers.mint (fun hm hs => hs.mint hm) hl h
  | refund _ hl => exact RareKept.covers.refund hl h
  | gift _ _ hm =>
    have hminted := h.mint hm
    exact hminted
  | init _ =>
    intro k i _ hi
    cases hi
    rfl
  | update =>
    -- the top-up passes over the rare kinds
    intro k i hk hi
    simp only [hk, if_false] at hi
    exact h k i hk hi
  | create _ _ => exact h
  | hatch hh =>
    obtain ⟨w, _, rfl⟩ := hh.post
    exact h
  | outside => exact h

end rare

/-! ### What is deposited -/

section deposits
variable {s s' : State T} {o o' a : AccountId}

theorem Mints.admissible {t : Traits} {price : Nat} {pool : NftSaleType} {check : Bool}
    {c : CollectionId} {i : NftSaleInfo} (h : Mints o a t price pool check c i s s')
    (ho : s.sale.overlord = some o') (hu : Unstocked s) (hr : RareKept s) (n : NftId) :
    Admissible s.books (.OriginOfShellMinted t.rarity_type c n a t.race t.career) := by
  have hinfo := h.info
  obtain ⟨sp, hsp, _⟩ := h.spirit
  obtain ⟨md, w, rc, cc, hmd, _, _, _, _⟩ := h.post
  have hset : s.sale.is_origin_of_shells_inventory_set = true := by
    cases hset : s.sale.is_origin_of_shells_inventory_set with
    | true => rfl
    | false =>
      rw [hu hset] at hinfo
      cases hinfo
  have hcount : s.race_count (t.rarity_type, t.race) = i.race_count := by
    unfold State.race_count
    rw [hinfo]
    rfl
  refine ⟨?_, ?_, h.collection, ?_, hset, ?_⟩
  · show s.sale.overlord ≠ none
    simp [ho]
  · show s.sale.spirit_collection_id ≠ none
    simp [hsp]
  · show s.sale.origin_of_shells_metadata t.race ≠ none
    simp [hmd]
  · intro hrare
    show s.race_count (t.rarity_type, t.race) < _
    rw [hcount, ← hr (t.rarity_type, t.race) i hrare hinfo]
    exact count_lt_total h.left

/-- A sale leaves the settings and the feeds alone. -/
theorem Mints.kept {t : Traits} {price : Nat} {pool : NftSaleType} {check : Bool}
    {c : CollectionId} {i : NftSaleInfo} (h : Mints o a t price pool check c i s s') :
    s'.settings = s.settings ∧ s'.sent = s.sent := by
  obtain ⟨md, w, rc, cc, _, _, _, _, rfl⟩ := h.post
  exact ⟨rfl, rfl⟩

variable [DecidableEq AccountId]

theorem Mints.audited {t : Traits} {price : Nat} {pool : NftSaleType} {check : Bool}
    {c : CollectionId} {i : NftSaleInfo} (h : Mints o a t price pool check c i s s')
    (ho : s.sale.overlord = some o') (hu : Unstocked s) (hr : RareKept s) : Audited s s' :=
  audited_one h.explained h.events (h.admissible ho hu hr _) h.kept.1.symm h.kept.2.symm

theorem MintsSpirit.audited {c : CollectionId} (h : MintsSpirit o a c s s')
    (ho : s.sale.overlord = some o') (hflag : s.sale.can_claim_spirits = true) :
    Audited s s' := by
  have hledger := h.explained
  have hc := h.collection
  obtain ⟨md, w₁, w₂, hmd, _, _, rfl⟩ := h.post
  refine audited_one hledger rfl ⟨hflag, ?_, hc, ?_⟩ rfl rfl
  · show s.sale.overlord ≠ none
    simp [ho]
  · show s.sale.spirits_metadata ≠ none
    simp [hmd]

theorem Preorders.audited {race : RaceType} {career : CareerType}
    (h : Preorders a race career s s') : Audited s s' := by
  have hledger := h.explained
  have hindex := h.index
  obtain ⟨sp, hsp, _⟩ := h.spirit
  obtain ⟨c, hc, _⟩ := h.fresh
  obtain ⟨md, w, hmd, _, rfl⟩ := h.post
  refine audited_one hledger rfl ⟨rfl, hindex, ?_, ?_, race, ?_⟩ rfl rfl
  · show s.sale.spirit_collection_id ≠ none
    simp [hsp]
  · show s.sale.origin_of_shell_collection_id ≠ none
    simp [hc]
  · show s.sale.origin_of_shells_metadata race ≠ none
    simp [hmd]

/-- The preorder is pending until its own event, right after the sale's. -/
theorem MintsPreorder.audited {last : Bool} {p : PreorderId} (h : MintsPreorder o last s p s')
    (ho : s.sale.overlord = some o') (hu : Unstocked s) (hr : RareKept s) : Audited s s' := by
  have hledger := h.explained
  obtain ⟨info, c, i, s₁, hinfo, hmint, rfl⟩ := h
  obtain ⟨hsettings, hsent⟩ := hmint.kept
  have hadmissible := hmint.admissible ho hu hr (T.NextNftId (s.release p info.owner).world c)
  refine audited_two hledger (hmint.events_append _) hadmissible ⟨?_, ?_⟩ ?_ ?_
  · show s.owner_of p = some info.owner
    unfold State.owner_of
    rw [hinfo]
    rfl
  · exact ⟨c, T.NextNftId (s.release p info.owner).world c, info.race, info.career, rfl⟩
  · exact hsettings.symm
  · exact hsent.symm

theorem RefundsPreorder.audited {last : Bool} {p : PreorderId} (h : RefundsPreorder last s p s')
    (ho : s.sale.overlord = some o') : Audited s s' := by
  have hledger := h.explained
  obtain ⟨info, hinfo, rfl⟩ := h
  refine audited_one hledger rfl ⟨?_, ?_⟩ rfl rfl
  · show s.sale.overlord ≠ none
    simp [ho]
  · show s.owner_of p = some info.owner
    unfold State.owner_of
    rw [hinfo]
    rfl

theorem StartsIncubation.audited {c : CollectionId} {n : NftId}
    (h : StartsIncubation a c n s s') : Audited s s' := by
  have hledger := h.explained
  have hadmissible : Admissible s.books
      (.StartedIncubation c n a s.now s.incubation.official_hatch_time) :=
    ⟨h.enabled, h.collection, h.fresh, rfl⟩
  obtain rfl := h.post
  exact audited_one hledger rfl hadmissible rfl rfl

theorem ReducesHatchTime.audited {x : (CollectionId × NftId) × Nat}
    (h : ReducesHatchTime s x s') (ho : s.sale.overlord = some o') : Audited s s' := by
  have hledger := h.explained
  obtain ⟨t, hc, ht, rfl⟩ := h
  refine audited_one hledger rfl ⟨?_, hc, ht, Nat.sub_le _ _⟩ rfl rfl
  show s.sale.overlord ≠ none
  simp [ho]

theorem Hatches.audited {c : CollectionId} {n : NftId} {sc : CollectionId} {md : T.Metadata}
    {t : Traits} (h : Hatches o a c n sc md t s s') : Audited s s' := by
  have hledger := h.explained
  have ho := h.overlord
  have hc := h.collection
  have henabled := h.enabled
  have hshell := h.shell_collection
  obtain ⟨hatch_time, ht, _⟩ := h.hatch_time
  obtain ⟨w, _, rfl⟩ := h.post
  refine audited_one hledger rfl ⟨?_, henabled, hshell, c, n, hc, ?_⟩ rfl rfl
  · show s.sale.overlord ≠ none
    simp [ho]
  · show s.incubation.hatch_times (c, n) ≠ none
    simp [ht]

/-- A feed is the sender's next of the era. -/
theorem Feeds.audited {c : CollectionId} {n : NftId} {fs : List (Feed AccountId)}
    (h : Feeds a c n s s') (hfed : Fed fs s) : Audited s s' := by
  have hledger := h.explained
  have hc := h.collection
  have henabled := h.enabled
  obtain ⟨hatch_time, ht, _⟩ := h.hatch_time
  obtain ⟨food, count, hfood, _, rfl⟩ := h.post
  have hnew := hfood.new_fed
  have hera := hfood.era_eq (hfed.record_era a)
  refine audited_one hledger rfl ⟨henabled, hc, ?_, ?_, ?_⟩ rfl ?_
  · show s.incubation.hatch_times (c, n) ≠ none
    simp [ht]
  · -- the record is a bounded vector, and it grew
    show (fed s.sale.era (s.incubation.food_by_owners a)).length < _
    have hbound := food.origin_of_shells_fed.bound
    rw [hnew, List.length_append, List.length_singleton] at hbound
    omega
  · intro hsome
    apply hfood.limit
    cases hcont : continues s.sale.era (s.incubation.food_by_owners a) with
    | true => rfl
    | false => exact absurd (fed_eq_nil (by simp [hcont])) hsome
  · show Function.update s.sent a (s.sent a ++ [(c, n)]) = _
    funext b
    by_cases hba : b = a
    · subst hba
      rw [Function.update_self]
      show _ = fed s.sale.era (Function.update s.incubation.food_by_owners b (some food) b)
      rw [Function.update_self]
      show fed s.sale.era (s.incubation.food_by_owners b) ++ [(c, n)] =
        if s.sale.era ≤ food.era then food.origin_of_shells_fed.1 else []
      rw [if_pos (Nat.le_of_eq hera.symm), hnew]
    · rw [Function.update_of_ne hba]
      show _ = fed s.sale.era (Function.update s.incubation.food_by_owners a (some food) b)
      rw [Function.update_of_ne hba]
      rfl

end deposits

/-! ### Steps and runs -/

/-- What the audit rests on in the storage. -/
structure Auditable [DecidableEq AccountId] (s : State T) : Prop where
  unstocked : Unstocked s
  rare : RareKept s
  clocked : Clocked s
  fed : ∃ fs, Fed fs s

section steps
variable {s s' : State T}

/-- The first moment of an era. -/
theorem zero_day_dvd {t r z m : Nat} (hr : plain_rem T t m = .ok r)
    (hz : plain_sub T 64 t r = .ok z) : m ∣ z := by
  unfold plain_rem at hr
  split at hr
  · cases hr
  · cases hr
    rw [plain_sub_of_le (Nat.mod_le t m), Except.ok.injEq] at hz
    rw [← hz]
    exact Nat.dvd_sub_mod t

/-- The eras so far are fewer than the seconds, so the next does not wrap. -/
theorem next_era {zero_day era : Nat} (hs : Clocked s)
    (hera : s.sale.era < (s.now - zero_day) / T.SecondsPerEra.toNat)
    (hnext : plain_add T 64 s.sale.era 1 = .ok era) : era = s.sale.era + 1 := by
  have hle := Nat.div_le_self (s.now - zero_day) T.SecondsPerEra.toNat
  have hbound : s.sale.era + 1 < 2 ^ 64 := by
    unfold Clocked at hs
    exact Nat.lt_of_le_of_lt (Nat.succ_le_of_lt hera) (by omega)
  rw [plain_add_of_lt hbound, Except.ok.injEq] at hnext
  exact hnext.symm

variable [DecidableEq AccountId]

theorem Auditable.step (h : Auditable s) (l : Label T) : Auditable (step s l).2 := by
  have hs := stepped s l
  obtain ⟨fs, hfed⟩ := h.fed
  exact ⟨h.unstocked.step hs.traded, h.rare.step hs.traded, hs.tended.clocked h.clocked,
    _, hfed.step h.clocked hs.tended⟩

theorem auditable_genesis (g : GenesisConfig AccountId) (w : T.World) (now : UInt64) :
    Auditable (genesis g w now) := by
  have hstart : Runs (fun _ => True) (genesis g w now) [] (genesis g w now) := .nil
  refine ⟨fun _ _ => rfl, ?_, genesis_clocked g w now, [], hstart.fed⟩
  intro k i _ hi
  cases hi

/-- What the calls that configure the sale deposit. -/
theorem configure_audited {origin : Origin AccountId} {c : Call T} (hc : c.configures = true)
    (hu : Unstocked s) (h : dispatch origin c s = (.ok (), s')) : Audited s s' := by
  have hledger := dispatch_explained hu h
  have hsome {o : AccountId} (ho : s.sale.overlord = some o) :
      s.books.settings.overlord ≠ none := by
    show s.sale.overlord ≠ none
    simp [ho]
  cases c with
  | set_overlord o =>
    simp [dispatch, NftSale.set_overlord] at h
    obtain ⟨_, rfl⟩ := h
    exact audited_one hledger rfl rfl rfl rfl
  | initialize_world_clock =>
    simp [dispatch, NftSale.initialize_world_clock] at h
    obtain ⟨o, rfl, ho, hz, r, hr, z, hsub, rfl⟩ := h
    exact audited_one hledger rfl ⟨hsome ho, hz, zero_day_dvd hr hsub⟩ rfl rfl
  | set_status_type status status_type =>
    cases status_type <;>
      simp [dispatch, NftSale.set_status_type, NftSale.set_claim_spirits_status,
        NftSale.set_purchase_rare_origin_of_shells_status,
        NftSale.set_purchase_prime_origin_of_shells_status,
        NftSale.set_preorder_origin_of_shells_status, NftSale.set_last_day_of_sale_status] at h <;>
      obtain ⟨o, rfl, ho, rfl⟩ := h <;>
      exact audited_one hledger rfl (hsome ho) rfl rfl
  | set_spirit_collection_id cid =>
    simp [dispatch, NftSale.set_spirit_collection_id] at h
    obtain ⟨o, rfl, ho, hnone, rfl⟩ := h
    exact audited_one hledger rfl ⟨hsome ho, hnone⟩ rfl rfl
  | set_origin_of_shell_collection_id cid =>
    simp [dispatch, NftSale.set_origin_of_shell_collection_id] at h
    obtain ⟨o, rfl, ho, hnone, rfl⟩ := h
    exact audited_one hledger rfl ⟨hsome ho, hnone⟩ rfl rfl
  | set_spirits_metadata md =>
    simp [dispatch, NftSale.set_spirits_metadata] at h
    obtain ⟨o, rfl, ho, rfl⟩ := h
    exact audited_one hledger rfl (hsome ho) rfl rfl
  | set_origin_of_shells_metadata l =>
    simp [dispatch, NftSale.set_origin_of_shells_metadata] at h
    obtain ⟨o, rfl, ho, s₁, hl, rfl⟩ := h
    obtain rfl := retitled_of_chain hl
    exact audited_one hledger rfl (hsome ho) rfl rfl
  | _ => cases hc

/-- What a call of the incubation pallet deposits. -/
theorem Incubates.audited {origin : Origin AccountId} {c : Call T} (h : Incubates s origin c s')
    (hs : Auditable s) : Audited s s' := by
  have hledger := h.explained
  cases h with
  | start h => exact h.audited
  | feed h =>
    obtain ⟨fs, hfed⟩ := hs.fed
    exact h.audited hfed
  | @reduce o l _ ho h =>
    refine Chain.audited (I := fun s : State T => s.sale.overlord = some o) ?_ ?_ ho h
    · rintro s x s' ho ⟨t, _, _, rfl⟩
      exact ho
    · intro s x s' ho h
      exact h.audited ho
  | enable ho ht =>
    refine audited_one hledger rfl ⟨?_, plain_add_ok ht⟩ rfl rfl
    show s.sale.overlord ≠ none
    simp [ho]
  | shell_collection ho hnone =>
    refine audited_one hledger rfl ⟨?_, hnone⟩ rfl rfl
    show s.sale.overlord ≠ none
    simp [ho]

/-- What a call deposits. -/
theorem dispatch_audited {origin : Origin AccountId} {c : Call T} (hs : Auditable s)
    (h : dispatch origin c s = (.ok (), s')) : Audited s s' := by
  have hledger := dispatch_explained hs.unstocked h
  cases dispatch_ok h with
  | configure hconf => exact configure_audited hconf.call hs.unstocked h
  | spirit hc ho hm =>
    rcases hc with rfl | ⟨sig, rfl⟩
    · obtain ⟨_, _, hflag, _⟩ := NftSale.claim_spirit_ok.mp h
      exact hm.audited ho hflag
    · obtain ⟨_, _, hflag, _⟩ := NftSale.redeem_spirit_ok.mp h
      exact hm.audited ho hflag
  | buy _ ho hm => exact hm.audited ho hs.unstocked hs.rare
  | preorder hp => exact hp.audited
  | @mint o l _ ho hl =>
    -- the Overlord and the stock stay what the rounds rest on
    refine Chain.audited (I := fun s : State T =>
      s.sale.overlord = some o ∧ Unstocked s ∧ RareKept s) ?_ ?_ ⟨ho, hs.unstocked, hs.rare⟩ hl
    · rintro s p s' ⟨ho, hu, hr⟩ hm
      refine ⟨hm.overlord.trans ho, ?_, ?_⟩
      · exact Unstocked.covers.mint (fun hm hs => hs.mint hm) (.cons hm (.nil _)) hu
      · exact RareKept.covers.mint (fun hm hs => hs.mint hm) (.cons hm (.nil _)) hr
    · rintro s p s' ⟨ho, hu, hr⟩ hm
      exact hm.audited ho hu hr
  | @refund o l _ ho hl =>
    refine Chain.audited (I := fun s : State T => s.sale.overlord = some o) ?_ ?_ ho hl
    · rintro s p s' ho ⟨info, _, rfl⟩
      exact ho
    · intro s p s' ho hr
      exact hr.audited ho
  | gift ho hpool hm =>
    obtain ⟨hsettings, hsent⟩ := hm.kept
    exact audited_two hledger (hm.events_append _) (hm.admissible ho hs.unstocked hs.rare _)
      ⟨hpool, _, _, _, _, _, rfl⟩ hsettings.symm hsent.symm
  | init ho hset =>
    refine audited_one hledger rfl ⟨?_, rfl, hset⟩ rfl rfl
    show s.sale.overlord ≠ none
    simp [ho]
  | update ho =>
    refine audited_one hledger rfl ⟨?_, rfl⟩ rfl rfl
    show s.sale.overlord ≠ none
    simp [ho]
  | create _ _ => exact .of_eq rfl rfl
  | hatch hh => exact hh.audited
  | incubate hi => exact hi.audited hs

/-- **What a step deposits** is admissible, one event after the other. -/
theorem step_audited (hs : Auditable s) (l : Label T) : Audited s (step s l).2 := by
  cases l with
  | call origin c =>
    rcases run_cases (dispatch origin c) s with ⟨⟨⟩, s', h⟩ | ⟨e, s', h⟩
    · rw [step, h]
      exact dispatch_audited hs h
    · rw [step, h, dispatch_error h]
      exact .refl s
  | on_finalize =>
    have hstep := stepped s .on_finalize
    generalize step s .on_finalize = x at hstep ⊢
    obtain ⟨r, s'⟩ := x
    cases hstep with
    | fails => exact .refl _
    | idle => exact .refl _
    | new_era hz hlt hera hnext =>
      have heq := next_era hs.clocked hera hnext
      refine audited_one (.one rfl rfl) rfl ⟨heq, _, hz, hlt, hera⟩ rfl ?_
      -- no record is of the new era
      obtain ⟨fs, hfed⟩ := hs.fed
      funext a
      show [] = fed _ (s.incubation.food_by_owners a)
      cases ha : s.incubation.food_by_owners a with
      | none => rfl
      | some food =>
        have hold := hfed.record_era a food ha
        rw [heq]
        exact (if_neg (Nat.not_le.mpr (Nat.lt_succ_of_le hold))).symm
  | set_timestamp now => exact .of_eq rfl rfl
  | outside w => exact .of_eq rfl rfl

end steps

/-- The books before the first event, from what the chain starts with. -/
def GenesisConfig.books (g : GenesisConfig AccountId) : Books T where
  ledger := { EventLedger.empty with era := g.era.toNat }
  settings :=
    { overlord := g.overlord
      zero_day := g.zero_day.map UInt64.toNat
      can_claim_spirits := g.can_claim_spirits
      spirit_collection_id := g.spirit_collection_id
      origin_of_shell_collection_id := g.origin_of_shell_collection_id
      shell_collection_id := none
      spirits_metadata := none
      origin_of_shells_metadata := fun _ => none
      is_origin_of_shells_inventory_set := g.is_origin_of_shells_inventory_set
      preorder_index := 0
      official_hatch_time := 0
      can_start_incubation := false }
  sent := fun _ => []
  last := none

theorem genesis_books (g : GenesisConfig AccountId) (w : T.World) (now : UInt64) :
    (genesis g w now).books = g.books := by
  apply Books.ext <;> rfl

section runs
variable [DecidableEq AccountId] {ok : Entry T → Prop} {g : GenesisConfig AccountId}
  {w : T.World} {now : UInt64} {tr : List (Entry T)} {s : State T}

theorem Runs.audited (h : Runs ok (genesis g w now) tr s) :
    Audit Admissible Books.apply g.books s.events s.books := by
  have haudits : Audited (genesis g w now) s :=
    Run.audited (auditable_genesis g w now) (fun _ l hI _ => hI.step l)
      (fun _ l hI _ => step_audited hI l) h
  obtain ⟨evs, hlog, haudit⟩ := haudits
  have hevs : s.events = evs := hlog
  rw [hevs, ← genesis_books g w now]
  exact haudit

/-- **The audit.** Who knows the genesis configuration and sees the events
    of both pallets has the books of the storage at any time, and every
    event of every run is admissible after the events before it. -/
theorem audit (h : Runs ok (genesis g w now) tr s) :
    replay Books.apply g.books s.events = s.books ∧
      ∀ before event after, s.events = before ++ event :: after →
        Admissible (replay Books.apply g.books before) event := by
  have haudit := h.audited
  constructor
  · exact haudit.replayed
  · intro before event after hlog
    rw [hlog] at haudit
    exact haudit.split

open Mock in
/-- The sample hatch passes. -/
theorem audit_hatching :
    replay Books.apply GenesisConfig.default.books (after (hatching 200)).2.events =
      (after (hatching 200)).2.books ∧
    ∀ before event rest, (after (hatching 200)).2.events = before ++ event :: rest →
      Admissible (replay Books.apply GenesisConfig.default.books before) event := by
  have hrun : Runs (fun _ => True) (genesis₀ 200) (after (hatching 200)).1
      (after (hatching 200)).2 := Run.exec (p := fun _ => True) .nil (by simp)
  exact audit (g := GenesisConfig.default) (w := world₀) hrun

end runs

end PhalaWorld
