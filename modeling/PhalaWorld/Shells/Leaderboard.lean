import PhalaWorld.Model.Scripts
import PhalaWorld.Shells.Feeding
import PhalaWorld.Shells.TimeBatches

/-! # The leaderboard

    At the end of an era the Overlord's script reads how often each shell
    was fed, sorts, and sends a list of reductions by rank. The pallet checks
    none of it but that the shells have hatch times. This connects the two:
    what was fed has a hatch time, and keeps it.

    * `Runs.fed_reducible`: what has statistics can be reduced, from then on.
    * `topTenFed_eq_some`: there is a list only as long as all ids are small.
    * `leaderboard`: the list goes through, whatever happens before it is
      sent, and rewards by rank what was fed.
-/

namespace PhalaWorld

open LTS Scripts

variable {AccountId : Type} [DecidableEq AccountId] {T : Config AccountId}

section steps
variable {s s' : State T} {l : Label T} {r : Outcome T} {x : CollectionId × NftId}

/-- A shell that can be reduced stays so. -/
theorem Reducible.step (h : Reducible s x) (hs : Stepped s l r s') : Reducible s' x := by
  obtain ⟨hc, t, ht⟩ := h
  refine ⟨hs.traded.ids_kept.origin_of_shell _ hc, ?_⟩
  rcases hs.tended.hatch_time x with ⟨_, _, hnone, _⟩ | ⟨_, _, htime⟩
  · rw [ht] at hnone
    cases hnone
  · rw [ht, Option.map_some] at htime
    exact ⟨_, htime⟩

/-- A shell that is fed can be reduced. -/
theorem Feeds.reducible {a : AccountId} {c : CollectionId} {n : NftId} (h : Feeds a c n s s') :
    Reducible s (c, n) := by
  obtain ⟨t, ht, _⟩ := h.hatch_time
  exact ⟨h.collection, t, ht⟩

end steps

section runs
variable {ok ok' : Entry T → Prop} {g : GenesisConfig AccountId} {w : T.World} {now : UInt64}
  {tr tr' : List (Entry T)} {s s' : State T} {o : AccountId}
  {stats : List ((CollectionId × NftId) × Nat)}

/-- What has statistics can be reduced. -/
theorem Runs.fed_reducible (h : Runs ok (genesis g w now) tr s) :
    ∀ era x, s.incubation.origin_of_shell_food_stats (era, x) ≠ 0 → Reducible s x := by
  refine h.invariant (I := fun s => ∀ era x,
    s.incubation.origin_of_shell_food_stats (era, x) ≠ 0 → Reducible s x) ?_ ?_
  · intro era x hstats
    exact absurd rfl hstats
  · intro s l r s' hI _ hs era x hstats
    rcases hs.tended.food with ⟨_, _, hsame⟩ | ⟨a, c, n, hf, _⟩
    · rw [hsame] at hstats
      exact (hI era x hstats).step hs
    · by_cases hx : x = (c, n)
      · rw [hx]
        exact hf.reducible.step hs
      · -- the statistics of the other shells are as before
        obtain ⟨food, count, _, _, hpost⟩ := hf.post
        have hsame : s'.incubation.origin_of_shell_food_stats (era, x) =
            s.incubation.origin_of_shell_food_stats (era, x) := by
          rw [hpost]
          exact Function.update_of_ne (fun heq => hx (Prod.mk.inj heq).2) _ _
        rw [hsame] at hstats
        exact (hI era x hstats).step hs

/-- It stays so along a run. -/
theorem Runs.reducible (h : Runs ok s tr s') {x : CollectionId × NftId} (hx : Reducible s x) :
    Reducible s' x :=
  h.invariant (I := fun s => Reducible s x) hx fun hI _ hs => hI.step hs

/-- How often `x` was fed in the era that ends a run. -/
def timesFed (tr : List (Entry T)) (s : State T) (x : CollectionId × NftId) : Nat :=
  portions (history feeds tr) s.sale.era x

/-- The relief a list gives is fair: nothing for a shell that was not fed;
    for one that was, what the table says for its rank among those that were,
    up to ties; no less for one that was fed more; and something for ten at
    most. -/
structure FairRelief (fed : CollectionId × NftId → Nat)
    (stats : List ((CollectionId × NftId) × Nat)) (relief : CollectionId × NftId → Nat) : Prop where
  unfed : ∀ x, fed x = 0 → relief x = 0
  rank : ∀ x, fed x ≠ 0 → ∃ rank, Ranking.above stats (fed x) ≤ rank ∧
    rank < Ranking.atLeast stats (fed x) ∧ relief x = reduceHatchTimeSeconds.getD rank 0
  more : ∀ x y, fed y < fed x → relief y ≤ relief x
  ten : ∀ xs : List (CollectionId × NftId), xs.Nodup → (∀ x ∈ xs, relief x ≠ 0) → xs.length ≤ 10

omit [DecidableEq AccountId] in
/-- What the awards take off is fair. -/
theorem awards_fair (hstats : Entries s s.sale.era stats) :
    FairRelief (fun x => s.incubation.origin_of_shell_food_stats (s.sale.era, x)) stats
      (reduced (Ranking.awards reduceHatchTimeSeconds stats)) := by
  have hawards (x : CollectionId × NftId) :
      reduced (Ranking.awards reduceHatchTimeSeconds stats) x =
        Ranking.total (Ranking.awards reduceHatchTimeSeconds stats) x := rfl
  have hmem (x : CollectionId × NftId)
      (hfed : s.incubation.origin_of_shell_food_stats (s.sale.era, x) ≠ 0) :
      (x, s.incubation.origin_of_shell_food_stats (s.sale.era, x)) ∈ stats :=
    (hstats.mem x _).mpr ⟨hfed, rfl⟩
  have hunfed (x : CollectionId × NftId)
      (hzero : s.incubation.origin_of_shell_food_stats (s.sale.era, x) = 0) :
      reduced (Ranking.awards reduceHatchTimeSeconds stats) x = 0 := by
    rw [hawards]
    apply Ranking.award_of_not_mem reduceHatchTimeSeconds
    intro n hn
    obtain ⟨hne, heq⟩ := (hstats.mem x n).mp hn
    exact hne (heq.symm.trans hzero)
  constructor
  · exact hunfed
  · intro x hfed
    rw [hawards]
    exact Ranking.award_of_mem _ hstats.nodup (hmem x hfed)
  · intro x y hlt
    rcases Nat.eq_zero_or_pos (s.incubation.origin_of_shell_food_stats (s.sale.era, y)) with
      hzero | hpos
    · rw [hunfed y hzero]
      exact Nat.zero_le _
    · have hy := hmem y (Nat.ne_of_gt hpos)
      have hx := hmem x (Nat.ne_of_gt (Nat.lt_of_le_of_lt (Nat.zero_le _) hlt))
      rw [hawards, hawards]
      exact Ranking.award_fair (by decide) hstats.nodup hx hy hlt
  · intro xs hxs hrelief
    exact Ranking.awards_few reduceHatchTimeSeconds xs hxs hrelief hstats.nodup

/-- Reading back ids that are read as they are or not at all. -/
theorem mapM_read {K : Type} (read : K → Option K) {small : K → Prop} {l l' : List (K × Nat)}
    (hsmall : ∀ k, small k → read k = some k) (hlarge : ∀ k, ¬ small k → read k = none) :
    l.mapM (fun x => (read x.1).map fun k => (k, x.2)) = some l' ↔
      (∀ x ∈ l, small x.1) ∧ l' = l := by
  induction l generalizing l' with
  | nil => simp [eq_comm]
  | cons x l ih =>
    by_cases hx : small x.1
    · rw [List.mapM_cons, hsmall _ hx, Option.map_some, List.forall_mem_cons]
      simp only [Option.bind_eq_bind, Option.bind_some, Option.bind_eq_some_iff, ih,
        Option.pure_def, Option.some.injEq]
      constructor
      · rintro ⟨rest, ⟨hall, rfl⟩, rfl⟩
        exact ⟨⟨hx, hall⟩, rfl⟩
      · rintro ⟨⟨_, hall⟩, rfl⟩
        exact ⟨l, ⟨hall, rfl⟩, rfl⟩
    · simp [hlarge _ hx, hx]

/-- The script sends the awards, if the era and all ids are small enough. -/
theorem topTenFed_eq_some {codec : HumanCodec} (hcodec : codec.Separates) {era : EraId}
    {l : List ((CollectionId × NftId) × Nat)} :
    topTenFed codec era stats = some l ↔
      (era < 2 ^ 53 ∧ ∀ x ∈ stats, x.1.1 < 1000 ∧ x.1.2 < 1000) ∧
        l = Ranking.awards reduceHatchTimeSeconds stats := by
  have hawards : (sortedOriginOfShellStats codec stats).mapIdx (fun i nftStats =>
      (nftStats.1, reduceHatchTimeSeconds.getD i 0)) =
      (Ranking.awards reduceHatchTimeSeconds stats).map fun x => (codec.toHuman x.1, x.2) :=
    Ranking.awards_map codec.toHuman reduceHatchTimeSeconds stats
  have hread : (Ranking.awards reduceHatchTimeSeconds stats).mapM (fun x =>
      (codec.createType (codec.toHuman x.1)).map fun id => (id, x.2)) = some l ↔
      (∀ x ∈ Ranking.awards reduceHatchTimeSeconds stats, x.1.1 < 1000 ∧ x.1.2 < 1000) ∧
        l = Ranking.awards reduceHatchTimeSeconds stats :=
    mapM_read (fun x => codec.createType (codec.toHuman x))
      (fun x hx => hcodec.small hx.1 hx.2) fun x hx => hcodec.large hx
  -- the awards are for the shells that were listed
  have hnames : (∀ x ∈ Ranking.awards reduceHatchTimeSeconds stats,
      x.1.1 < 1000 ∧ x.1.2 < 1000) ↔ ∀ x ∈ stats, x.1.1 < 1000 ∧ x.1.2 < 1000 := by
    constructor
    · intro hall x hx
      obtain ⟨v, hv⟩ := (Ranking.mem_awards_fst reduceHatchTimeSeconds).mpr ⟨x.2, hx⟩
      exact hall (x.1, v) hv
    · intro hall x hx
      obtain ⟨n, hn⟩ := (Ranking.mem_awards_fst reduceHatchTimeSeconds).mp ⟨x.2, hx⟩
      exact hall (x.1, n) hn
  unfold topTenFed toNumber
  rw [hawards, List.mapM_map]
  by_cases hera : era < 2 ^ 53
  · rw [if_pos hera, ← hnames]
    refine hread.trans ?_
    rw [and_iff_right hera]
  · rw [if_neg hera]
    constructor
    · intro hsome
      cases hsome
    · intro hboth
      exact absurd hboth.1.1 hera

/-- **The leaderboard.** Let the Overlord, in a reachable state, read the
    statistics of the current era, in which no shell was fed 2^32 times, in
    whatever order they are listed, and send the script's list at any later
    time, whatever was called in between. There is a list exactly if the era
    has 53 bits and all shells that were fed have ids below 1000. Then the
    batch goes through, the relief is fair by what was really fed in the era,
    every hatch time is less by it, and nothing else changes but the log. -/
theorem leaderboard {codec : HumanCodec} (hcodec : codec.Separates)
    (h : Runs ok (genesis g w now) tr s) (hfew : ∀ x, timesFed tr s x < 2 ^ 32)
    (hstats : Entries s s.sale.era stats) (h' : Runs ok' s tr' s')
    (ho : s'.sale.overlord = some o) :
    ((topTenFed codec s.sale.era stats).isSome = true ↔ s.sale.era < 2 ^ 53 ∧
      ∀ c n, timesFed tr s (c, n) ≠ 0 → c < 1000 ∧ n < 1000) ∧
    ∀ l, topTenFed codec s.sale.era stats = some l → ∃ relief,
      FairRelief (timesFed tr s) stats relief ∧
      step s' (.call (.signed o) (.update_incubation_time l)) = (.ok (), { s' with
        incubation := { s'.incubation with
          hatch_times := fun x => (s'.incubation.hatch_times x).map fun t => t - relief x }
        events := s'.events ++ reduction_events s'.incubation.hatch_times l }) := by
  have hcount : timesFed tr s =
      fun x => s.incubation.origin_of_shell_food_stats (s.sale.era, x) := by
    funext x
    rw [h.fed.stats]
    exact (Nat.mod_eq_of_lt (hfew x)).symm
  constructor
  · -- the listed shells are those that were fed
    have hlisted : (∀ x ∈ stats, x.1.1 < 1000 ∧ x.1.2 < 1000) ↔
        ∀ c n, timesFed tr s (c, n) ≠ 0 → c < 1000 ∧ n < 1000 := by
      rw [hcount]
      constructor
      · intro hall c n hfed
        exact hall _ ((hstats.mem (c, n) _).mpr ⟨hfed, rfl⟩)
      · rintro hall ⟨⟨c, n⟩, count⟩ hx
        obtain ⟨hne, heq⟩ := (hstats.mem (c, n) count).mp hx
        apply hall c n
        show s.incubation.origin_of_shell_food_stats (s.sale.era, (c, n)) ≠ 0
        rw [heq]
        exact hne
    rw [Option.isSome_iff_exists, ← hlisted]
    constructor
    · intro ⟨l, hl⟩
      exact ((topTenFed_eq_some hcodec).mp hl).1
    · intro hsmall
      exact ⟨_, (topTenFed_eq_some hcodec).mpr ⟨hsmall, rfl⟩⟩
  · intro l hl
    obtain ⟨_, rfl⟩ := (topTenFed_eq_some hcodec).mp hl
    refine ⟨reduced (Ranking.awards reduceHatchTimeSeconds stats), ?_, ?_⟩
    · rw [hcount]
      exact awards_fair hstats
    · -- every shell on the list was fed, so that it had a hatch time, and has one still
      have hall : ∀ r ∈ Ranking.awards reduceHatchTimeSeconds stats, Reducible s' r.1 := by
        intro r hr
        obtain ⟨count, hcount⟩ := (Ranking.mem_awards_fst reduceHatchTimeSeconds).mp ⟨r.2, hr⟩
        obtain ⟨hne, heq⟩ := (hstats.mem r.1 count).mp hcount
        apply h'.reducible
        apply h.fed_reducible s.sale.era
        rw [heq]
        exact hne
      exact (update_incubation_time_iff ho).mpr ⟨hall, rfl⟩

/-! ### A run

    The API as it writes and reads the ids, for the run below.
-/

namespace Mock

/-- Digits, with a comma before each group of three but the first. -/
def withSeparators (n : Nat) : List Char :=
  if n < 1000 then Nat.toDigits 10 n
  else withSeparators (n / 1000) ++
    [',', (n / 100 % 10).digitChar, (n / 10 % 10).digitChar, (n % 10).digitChar]

/-- Digits and nothing else. -/
def fromDigits (digits : List Char) : Option Nat :=
  if digits.all Char.isDigit then
    some (digits.foldl (fun n digit => 10 * n + (digit.toNat - '0'.toNat)) 0)
  else none

def codec : HumanCodec where
  Human := List Char × List Char
  toHuman id := (withSeparators id.1, withSeparators id.2)
  createType human := do
    let collection_id ← fromDigits human.1
    let nft_id ← fromDigits human.2
    pure (collection_id, nft_id)

theorem fromDigits_small {n : Nat} (h : n < 1000) : fromDigits (withSeparators n) = some n := by
  have hall : ∀ n < 1000, fromDigits (Nat.toDigits 10 n) = some n := by decide +kernel
  rw [withSeparators, if_pos h]
  exact hall n h

theorem fromDigits_large {n : Nat} (h : ¬ n < 1000) : fromDigits (withSeparators n) = none := by
  rw [withSeparators, if_neg h, fromDigits, List.all_append]
  -- a comma is no digit
  have hcomma : ','.isDigit = false := rfl
  simp [hcomma]

theorem codec_separates : codec.Separates := by
  have hread (c : CollectionId) (n : NftId) : codec.createType (codec.toHuman (c, n)) =
      (fromDigits (withSeparators c)).bind fun collection_id =>
        (fromDigits (withSeparators n)).bind fun nft_id => some (collection_id, nft_id) := rfl
  constructor
  · intro c n hc hn
    rw [hread, fromDigits_small hc, fromDigits_small hn]
    rfl
  · intro c n hlarge
    rw [hread]
    by_cases hc : c < 1000
    · rw [fromDigits_small hc, fromDigits_large fun hn => hlarge ⟨hc, hn⟩]
      rfl
    · rw [fromDigits_large hc]
      rfl

end Mock

open Mock in
/-- `CHARLIE`'s shell is the only one that was fed, and `BOB` feeds it again
    before the list is sent. -/
theorem leaderboard_feast : (topTenFed codec 0 [((1, 0), 2)]).isSome ∧ ∃ relief,
    FairRelief (timesFed (after feast).1 (after feast).2) [((1, 0), 2)] relief ∧
    relief (1, 0) = 10800 := by
  have hrun : Runs (fun _ => True) (genesis₀ 200) (after feast).1 (after feast).2 :=
    Run.exec (p := fun _ => True) .nil (by simp)
  have hera : (after feast).2.sale.era = 0 := by decide +kernel
  have htwo : (after feast).2.incubation.origin_of_shell_food_stats (0, (1, 0)) = 2 := by
    decide +kernel
  have honly : ∀ f ∈ history feeds (after feast).1, f.nft = (1, 0) := by decide +kernel
  have hlength : (history feeds (after feast).1).length = 2 := by decide +kernel
  have hfew (x : CollectionId × NftId) : timesFed (after feast).1 (after feast).2 x < 2 ^ 32 := by
    have hle : timesFed (after feast).1 (after feast).2 x ≤ 2 := by
      rw [← hlength]
      exact List.countP_le_length
    omega
  have hstats : Entries (after feast).2 (after feast).2.sale.era [((1, 0), 2)] := by
    rw [hera]
    refine ⟨by decide, fun x count => ?_⟩
    rw [List.mem_singleton, Prod.mk.injEq]
    constructor
    · intro ⟨hx, hcount⟩
      rw [hx, hcount]
      exact ⟨by decide, htwo⟩
    · intro ⟨hne, hcount⟩
      -- only that shell was fed
      have hx : x = (1, 0) := by
        by_contra hx
        apply hne
        rw [← hcount, hrun.fed.stats, portions, List.countP_eq_zero.mpr, Nat.zero_mod]
        intro f hf
        rw [honly f hf]
        simp [Ne.symm hx]
      rw [hx, htwo] at hcount
      exact ⟨hx, hcount.symm⟩
  have hrun' : Runs (fun _ => True) (after feast).2
      (exec step (after feast).2 [] [.call (.signed BOB) (.feed_origin_of_shell 1 0)]).1
      (exec step (after feast).2 [] [.call (.signed BOB) (.feed_origin_of_shell 1 0)]).2 :=
    Run.exec (p := fun _ => True) .nil (by simp)
  obtain ⟨hsome, hlist⟩ := leaderboard (T := runtime 200) (g := GenesisConfig.default)
    (w := world₀) (o := OVERLORD) codec_separates hrun hfew hstats hrun' (by decide +kernel)
  have hsent : (topTenFed codec 0 [((1, 0), 2)]).isSome := by
    rw [hera] at hsome
    refine hsome.mpr ⟨by decide, ?_⟩
    intro c n hne
    -- only that shell was fed
    have hx : (c, n) = (1, 0) := by
      by_contra hx
      apply hne
      rw [timesFed, portions, List.countP_eq_zero]
      intro f hf
      rw [honly f hf]
      simp [Ne.symm hx]
    obtain ⟨rfl, rfl⟩ := Prod.mk.inj hx
    decide
  refine ⟨hsent, ?_⟩
  obtain ⟨l, hl⟩ := Option.isSome_iff_exists.mp hsent
  obtain ⟨relief, hfair, _⟩ := hlist l (by rw [hera]; exact hl)
  refine ⟨relief, hfair, ?_⟩
  have hfed : timesFed (after feast).1 (after feast).2 (1, 0) = 2 := by decide +kernel
  obtain ⟨rank, _, hrank, hrelief⟩ := hfair.rank (1, 0) (by rw [hfed]; decide)
  -- one entry, one rank
  have hzero : rank = 0 := by
    rw [hfed] at hrank
    exact Nat.lt_one_iff.mp hrank
  rw [hrelief, hzero]
  rfl

end runs

end PhalaWorld
