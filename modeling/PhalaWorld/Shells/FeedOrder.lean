import PhalaWorld.Framework.Interleaving
import PhalaWorld.Shells.Feeding

/-! # Feeding in any order

    Accounts feed in turn within one block. Each is limited by a record of
    its own, and the shells share a count per era, which only panics, in a
    build that checks overflows, where it is full.

    * `admits`: the checks of a feed, which read the sender's record and
      what no feed changes.
    * `step_feed`: a feed is the checks and the count.
    * `exec_feeds`: many feeds are the senders' records, served one by one,
      and a tally.
    * `feeding_order`: the order between the senders is irrelevant.
-/

namespace PhalaWorld

open LTS Transaction Interleaving

variable {AccountId : Type} [DecidableEq AccountId] {T : Config AccountId}

/-- The call of the sender `x.1` that feeds `x.2`. -/
def feed_call (x : AccountId × (CollectionId × NftId)) : Label T :=
  .call (.signed x.1) (.feed_origin_of_shell x.2.1 x.2.2)

/-- The record a feed leaves, or the error it fails with, without the count
    of the shell. -/
def admits (s : State T) (food : Option (Food T)) (x : AccountId × (CollectionId × NftId)) :
    Except (Failure T.ModuleError) (Food T) :=
  if !s.incubation.can_start_incubation then
    .error Incubation.Error.StartIncubationNotAvailable.into
  else if s.sale.origin_of_shell_collection_id ≠ some x.2.1 then
    .error Incubation.Error.WrongCollectionId.into
  else match s.incubation.hatch_times x.2 with
    | none => .error Incubation.Error.NoHatchTimeDetected.into
    | some t =>
      if s.now > t ∨ (T.owned_in_collection x.2.1 x.1 s.world).length = 0 then
        .error Incubation.Error.CannotSendFoodToOriginOfShell.into
      else (Incubation.update_food_info s.sale.era x.2 food s).1

/-- What a feed that goes through leaves. -/
def eats (s : State T) (x : AccountId × (CollectionId × NftId)) (food : Food T) (count : Nat) :
    State T :=
  { s with
    incubation := { s.incubation with
      food_by_owners := Function.update s.incubation.food_by_owners x.1 (some food)
      origin_of_shell_food_stats :=
        Function.update s.incubation.origin_of_shell_food_stats (s.sale.era, x.2) count }
    events := s.events ++ [.OriginOfShellReceivedFood x.2.1 x.2.2 x.1] }

section steps
variable {s : State T} {x y : AccountId × (CollectionId × NftId)} {food : Option (Food T)}

omit [DecidableEq AccountId] in
/-- Updating a record reads nothing but the record. -/
theorem update_food_info_run (era : EraId) (nft : CollectionId × NftId) (food : Option (Food T))
    (s s' : State T) : Incubation.update_food_info era nft food s =
      ((Incubation.update_food_info era nft food s').1, s) := by
  rcases run_cases (Incubation.update_food_info era nft food) s' with ⟨food', s'', h⟩ | ⟨e, s'', h⟩
  · rw [h]
    exact Incubation.update_food_info_ok.mpr ⟨(Incubation.update_food_info_ok.mp h).1, rfl⟩
  · rw [h]
    exact Incubation.update_food_info_error.mpr ⟨(Incubation.update_food_info_error.mp h).1, rfl⟩

omit [DecidableEq AccountId] in
theorem update_food_info_eq {era : EraId} {nft : CollectionId × NftId} {s' : State T}
    {r : Except (Failure T.ModuleError) (Food T)} :
    Incubation.update_food_info era nft food s = (r, s') ↔
      (Incubation.update_food_info era nft food s).1 = r ∧ s' = s := by
  constructor
  · intro h
    have hrun := update_food_info_run era nft food s s
    rw [h] at hrun ⊢
    exact ⟨rfl, (Prod.mk.inj hrun).2⟩
  · rintro ⟨rfl, rfl⟩
    exact update_food_info_run era nft food s' s'

/-- A feed does not touch what the checks of another read. -/
theorem admits_eats {food' : Food T} {count : Nat} :
    admits (eats s y food' count) food x = admits s food x := by
  unfold admits
  rw [update_food_info_run _ _ _ _ s]
  rfl

/-- **One feed**: the checks on the sender's record, and the count. -/
theorem step_feed : step s (feed_call x) = match admits s (s.incubation.food_by_owners x.1) x with
    | .error e => (.error e, s)
    | .ok food =>
      match plain_add T 32 (s.incubation.origin_of_shell_food_stats (s.sale.era, x.2)) 1 with
      | .error e => (.error e, s)
      | .ok count => (.ok (), eats s x food count) := by
  obtain ⟨a, c, n⟩ := x
  show Incubation.feed_origin_of_shell (.signed a) c n s = _
  rcases run_cases (Incubation.feed_origin_of_shell (.signed a) c n) s with ⟨⟨⟩, s', h⟩ | ⟨e, s', h⟩
  · rw [h]
    simp [Incubation.feed_origin_of_shell, update_food_info_eq] at h
    obtain ⟨henabled, hc, t, ht, hnow, hholds, food, hfood, count, hcount, rfl⟩ := h
    have hadmits : admits s (s.incubation.food_by_owners a) (a, c, n) = .ok food := by
      simp [admits, henabled, hc, ht, Nat.not_lt.mpr hnow, List.ne_nil_of_length_pos hholds, hfood]
    dsimp only
    rw [hadmits]
    dsimp only
    rw [hcount]
    rfl
  · rw [h]
    simp [Incubation.feed_origin_of_shell, update_food_info_eq] at h
    obtain ⟨⟨s₁, h⟩, rfl⟩ := h
    -- an error of the checks is the error of the feed
    have hrefuse (hadmits : admits s' (s'.incubation.food_by_owners a) (a, c, n) = .error e) :
        (.error e, s') = (match admits s' (s'.incubation.food_by_owners a) (a, c, n) with
          | .error e => (.error e, s')
          | .ok food =>
            match plain_add T 32
                (s'.incubation.origin_of_shell_food_stats (s'.sale.era, c, n)) 1 with
            | .error e => (.error e, s')
            | .ok count => (.ok (), eats s' (a, c, n) food count) : Outcome T × State T) := by
      rw [hadmits]
    rcases h with ⟨hclosed, rfl, _⟩ | ⟨henabled, ⟨hc, rfl, _⟩ | ⟨hc, h⟩⟩
    · exact hrefuse (by simp [admits, hclosed])
    · exact hrefuse (by simp [admits, henabled, hc])
    rcases h with ⟨hnone, rfl, _⟩ | ⟨t, ht, ⟨hlate, rfl, _⟩ | ⟨hnow, h⟩⟩
    · exact hrefuse (by simp [admits, henabled, hc, hnone])
    · exact hrefuse (by simp [admits, henabled, hc, ht, hlate])
    rcases h with ⟨hnil, rfl, _⟩ | ⟨hholds, ⟨hfood, _⟩ | ⟨food, hfood, hpanic, _⟩⟩
    · exact hrefuse (by simp [admits, henabled, hc, ht, hnil])
    · apply hrefuse
      simp [admits, henabled, hc, ht, Nat.not_lt.mpr hnow, List.ne_nil_of_length_pos hholds, hfood]
    · -- the checks pass, and the count is full
      have hadmits : admits s' (s'.incubation.food_by_owners a) (a, c, n) = .ok food := by
        simp [admits, henabled, hc, ht, Nat.not_lt.mpr hnow, List.ne_nil_of_length_pos hholds,
          hfood]
      dsimp only
      rw [hadmits]
      dsimp only
      rw [hpanic]

omit [DecidableEq AccountId] in
/-- The checks report an error. -/
theorem admits_error {e : Failure T.ModuleError} (h : admits s food x = .error e) :
    ∃ e', e = .err e' := by
  unfold admits at h
  split at h
  · exact ⟨_, (Except.error.inj h).symm⟩
  split at h
  · exact ⟨_, (Except.error.inj h).symm⟩
  split at h
  · exact ⟨_, (Except.error.inj h).symm⟩
  split at h
  · exact ⟨_, (Except.error.inj h).symm⟩
  obtain ⟨⟨_, _, he⟩ | ⟨_, _, he⟩, _⟩ :=
    Incubation.update_food_info_error.mp (update_food_info_eq.mpr ⟨h, rfl⟩)
  · exact ⟨_, he.symm⟩
  · exact ⟨_, he.symm⟩

end steps

/-! ### Feeds in a row -/

/-- Did the call come to an end? A panic stops the whole block. -/
def Returns (e : Entry T) : Prop := ∀ message, e.result ≠ .error (.panic message)

/-- What the calls of `a` returned. -/
def answers (a : AccountId) (e : Entry T) : List (Outcome T) :=
  match e.label with
  | .call (.signed b) _ => if b = a then [e.result] else []
  | _ => []

/-- How a sender's record answers a feed. -/
def answer_feed (s : State T) (food : Option (Food T)) (x : AccountId × (CollectionId × NftId)) :
    Outcome T × Option (Food T) :=
  match admits s food x with
  | .ok food' => (.ok (), some food')
  | .error e => (.error e, food)

/-- The records of the senders, served one by one. -/
def serve_feeds (s : State T) (l : List (AccountId × (CollectionId × NftId))) :
    List ((AccountId × (CollectionId × NftId)) × Outcome T) × (AccountId → Option (Food T)) :=
  serve (answer_feed s) Prod.fst s.incubation.food_by_owners l

/-- The shells that were fed. -/
def eaten (answered : List ((AccountId × (CollectionId × NftId)) × Outcome T)) :
    List (CollectionId × NftId) :=
  answered.filterMap fun p =>
    match p.2 with
    | .ok () => some p.1.2
    | .error _ => none

/-- The counts have room for the feeds of `xs`, if that is checked. -/
def Fits (s : State T) (xs : List (CollectionId × NftId)) : Prop :=
  T.overflow_checks = true → ∀ x ∈ xs,
    s.incubation.origin_of_shell_food_stats (s.sale.era, x) + xs.count x < 2 ^ 32

/-- A count of `n` after `k` more. -/
def tally (n k : Nat) : Nat := if k = 0 then n else (n + k) % 2 ^ 32

section rows
variable {s : State T} {x : AccountId × (CollectionId × NftId)} {food : Food T} {count : Nat}
  {l l' : List (AccountId × (CollectionId × NftId))} {xs : List (CollectionId × NftId)}

theorem serve_feeds_refused {e : Failure T.ModuleError}
    (h : admits s (s.incubation.food_by_owners x.1) x = .error e) :
    serve_feeds s (x :: l) = ((x, .error e) :: (serve_feeds s l).1, (serve_feeds s l).2) := by
  unfold serve_feeds
  rw [serve, answer_feed, h]
  dsimp only
  rw [Function.update_eq_self]

/-- The record of the sender is updated, and the rest served from there. -/
theorem serve_feeds_admitted (h : admits s (s.incubation.food_by_owners x.1) x = .ok food)
    (count : Nat) : serve_feeds s (x :: l) =
      ((x, .ok ()) :: (serve_feeds (eats s x food count) l).1,
        (serve_feeds (eats s x food count) l).2) := by
  have hanswer : answer_feed (eats s x food count) = answer_feed s := by
    funext food' y
    unfold answer_feed
    rw [admits_eats]
  unfold serve_feeds
  rw [hanswer, serve, answer_feed, h]
  rfl

omit [DecidableEq AccountId] in
/-- Where overflows are checked, a sum that does not panic fits. -/
theorem plain_add_checked {a b c : Nat} (hchecks : T.overflow_checks = true)
    (h : plain_add T 32 a b = .ok c) : c = a + b ∧ a + b < 2 ^ 32 := by
  unfold plain_add at h
  split at h
  · next hlt => exact ⟨(Except.ok.inj h).symm, hlt⟩
  · cases h

theorem fits_cons_iff
    (h : plain_add T 32 (s.incubation.origin_of_shell_food_stats (s.sale.era, x.2)) 1 = .ok count) :
    Fits s (x.2 :: xs) ↔ Fits (eats s x food count) xs := by
  refine forall_congr' ?_
  intro hchecks
  obtain ⟨rfl, hlt⟩ := plain_add_checked hchecks h
  have hself : (eats s x food _).incubation.origin_of_shell_food_stats (s.sale.era, x.2) =
    s.incubation.origin_of_shell_food_stats (s.sale.era, x.2) + 1 := Function.update_self _ _ _
  have hother {y : CollectionId × NftId} (hy : y ≠ x.2) :
      (eats s x food
        (s.incubation.origin_of_shell_food_stats (s.sale.era, x.2) + 1)).incubation.origin_of_shell_food_stats
          (s.sale.era, y) = s.incubation.origin_of_shell_food_stats (s.sale.era, y) :=
    Function.update_of_ne (fun heq => hy (Prod.mk.inj heq).2) _ _
  constructor
  · intro hfits y hy
    have hroom := hfits y (List.mem_cons_of_mem _ hy)
    show (eats s x food _).incubation.origin_of_shell_food_stats (s.sale.era, y) + _ < _
    by_cases hyx : y = x.2
    · subst hyx
      rw [List.count_cons_self] at hroom
      rw [hself]
      omega
    · rw [List.count_cons_of_ne (Ne.symm hyx)] at hroom
      rw [hother hyx]
      exact hroom
  · intro hfits y hy
    by_cases hyx : y = x.2
    · subst hyx
      rw [List.count_cons_self]
      by_cases hmem : x.2 ∈ xs
      · have hroom := hfits x.2 hmem
        rw [show (eats s x food _).sale.era = s.sale.era from rfl, hself] at hroom
        omega
      · -- it is fed this once, for which there is room
        rw [List.count_eq_zero.mpr hmem]
        exact hlt
    · have hroom := hfits y ((List.mem_cons.mp hy).resolve_left hyx)
      rw [show (eats s x food _).sale.era = s.sale.era from rfl, hother hyx] at hroom
      rw [List.count_cons_of_ne (Ne.symm hyx)]
      exact hroom

omit [DecidableEq AccountId] in
theorem not_fits {e : Failure T.ModuleError}
    (h : plain_add T 32 (s.incubation.origin_of_shell_food_stats (s.sale.era, x.2)) 1 = .error e) :
    ¬ Fits s (x.2 :: xs) := by
  intro hfits
  obtain ⟨hchecks, hfull⟩ := plain_add_panic h
  have hroom := hfits hchecks x.2 List.mem_cons_self
  rw [List.count_cons_self] at hroom
  omega

omit [DecidableEq AccountId] in
/-- One feed and then the rest make one more. -/
theorem tally_succ {n k c : Nat} (h : plain_add T 32 n 1 = .ok c) :
    tally c k = tally n (k + 1) := by
  unfold tally
  rw [plain_add_ok h, if_neg (Nat.succ_ne_zero k)]
  by_cases hk : k = 0
  · rw [if_pos hk, hk]
  · rw [if_neg hk, Nat.mod_add_mod, Nat.add_assoc, Nat.add_comm 1 k]

/-- What the feeds `xs` make of the statistics. -/
def tallied (s : State T) (xs : List (CollectionId × NftId)) :
    EraId × (CollectionId × NftId) → Nat :=
  fun y => if y.1 = s.sale.era then tally (s.incubation.origin_of_shell_food_stats y) (xs.count y.2)
    else s.incubation.origin_of_shell_food_stats y

theorem tallied_cons
    (h : plain_add T 32 (s.incubation.origin_of_shell_food_stats (s.sale.era, x.2)) 1 = .ok count) :
    tallied (eats s x food count) xs = tallied s (x.2 :: xs) := by
  funext ⟨era, y⟩
  unfold tallied
  show (if era = s.sale.era then tally (Function.update s.incubation.origin_of_shell_food_stats
      (s.sale.era, x.2) count (era, y)) (xs.count y)
    else
      Function.update s.incubation.origin_of_shell_food_stats (s.sale.era, x.2) count (era, y)) = _
  by_cases hera : era = s.sale.era
  · subst hera
    rw [if_pos rfl, if_pos rfl]
    by_cases hy : y = x.2
    · subst hy
      rw [Function.update_self, List.count_cons_self]
      exact tally_succ h
    · rw [Function.update_of_ne fun heq => hy (Prod.mk.inj heq).2,
        List.count_cons_of_ne (Ne.symm hy)]
  · rw [if_neg hera, if_neg hera, Function.update_of_ne fun heq => hera (Prod.mk.inj heq).1]

/-- The feeds of a list, tried one after the other. -/
abbrev feed_in_turn (s : State T) (l : List (AccountId × (CollectionId × NftId))) :
    List (Entry T) × State T :=
  exec step s [] (l.map feed_call)

theorem feed_in_turn_cons (l : List (AccountId × (CollectionId × NftId))) :
    feed_in_turn s (x :: l) =
      ((feed_in_turn (step s (feed_call x)).2 l).1 ++ [entry step s (feed_call x)],
        (feed_in_turn (step s (feed_call x)).2 l).2) :=
  exec_eq (s := (step s (feed_call x)).2) [entry step s (feed_call x)] (l.map feed_call)

omit [DecidableEq AccountId] in
theorem eaten_cons_error {out : List ((AccountId × (CollectionId × NftId)) × Outcome T)}
    {e : Failure T.ModuleError} : eaten ((x, .error e) :: out) = eaten out := rfl

omit [DecidableEq AccountId] in
theorem eaten_cons_ok {out : List ((AccountId × (CollectionId × NftId)) × Outcome T)} :
    eaten ((x, .ok ()) :: out) = x.2 :: eaten out := rfl

/-- The call of `x` returned `r` before all the others. -/
theorem answers_append {tr : List (Entry T)} {r : Outcome T} {s' : State T}
    {out : List ((AccountId × (CollectionId × NftId)) × Outcome T)} {a : AccountId}
    (h : history (answers a) tr = (inputs_of (fun p => p.1.1) a out).map Prod.snd) :
    history (answers a) (tr ++ [⟨s, feed_call x, r, s'⟩]) =
      (inputs_of (fun p => p.1.1) a ((x, r) :: out)).map Prod.snd := by
  rw [history_append, h]
  show (if x.1 = a then [r] else []) ++ _ = _
  by_cases ha : x.1 = a
  · subst ha
    rw [if_pos rfl]
    exact (congrArg (List.map Prod.snd) (inputs_of_cons_self
      (fun p : (AccountId × (CollectionId × NftId)) × Outcome T => p.1.1) (x, r))).symm
  · rw [if_neg ha]
    exact (congrArg (List.map Prod.snd) (inputs_of_cons_of_ne
      (fun p : (AccountId × (CollectionId × NftId)) × Outcome T => p.1.1) ha)).symm

/-- **Feeds in a row** come to an end exactly where the counts have room.
    What they return and leave is what the senders' records answer, and the
    tally. -/
theorem exec_feeds (s : State T) (l : List (AccountId × (CollectionId × NftId))) :
    ((∀ e ∈ (feed_in_turn s l).1, Returns e) ↔ Fits s (eaten (serve_feeds s l).1)) ∧
    (Fits s (eaten (serve_feeds s l).1) →
      (∀ a, history (answers a) (feed_in_turn s l).1 =
        (inputs_of (fun p => p.1.1) a (serve_feeds s l).1).map Prod.snd) ∧
      (feed_in_turn s l).2.incubation.food_by_owners = (serve_feeds s l).2 ∧
      (feed_in_turn s l).2.incubation.origin_of_shell_food_stats =
        tallied s (eaten (serve_feeds s l).1)) := by
  induction l generalizing s with
  | nil =>
    refine ⟨⟨fun _ _ _ h => absurd h List.not_mem_nil, fun _ _ h => absurd h List.not_mem_nil⟩,
      fun _ => ⟨fun _ => rfl, rfl, ?_⟩⟩
    funext y
    exact (ite_self _).symm
  | cons x l ih =>
    have hstep := step_feed (s := s) (x := x)
    rw [feed_in_turn_cons]
    unfold entry
    cases hadmits : admits s (s.incubation.food_by_owners x.1) x with
    | error e =>
      -- a refusal leaves everything as it was
      rw [hadmits] at hstep
      obtain ⟨hreturns, hrest⟩ := ih s
      rw [hstep, serve_feeds_refused hadmits, eaten_cons_error]
      dsimp only
      refine ⟨?_, ?_⟩
      · rw [← hreturns, List.forall_mem_append, List.forall_mem_singleton]
        refine and_iff_left ?_
        intro message hpanic
        obtain ⟨e', rfl⟩ := admits_error hadmits
        cases hpanic
      · intro hfits
        obtain ⟨hanswers, hfood, hstats⟩ := hrest hfits
        exact ⟨fun a => answers_append (hanswers a), hfood, hstats⟩
    | ok food =>
      rw [hadmits] at hstep
      dsimp only at hstep
      cases hcount : plain_add T 32
        (s.incubation.origin_of_shell_food_stats (s.sale.era, x.2)) 1 with
      | error e =>
        rw [hcount] at hstep
        rw [hstep, serve_feeds_admitted hadmits 0, eaten_cons_ok]
        refine ⟨iff_of_false ?_ (not_fits hcount), fun hfits => absurd hfits (not_fits hcount)⟩
        intro hreturns
        have hpanic := hreturns _ (List.mem_append_right _ List.mem_cons_self)
        cases e with
        | err e => exact plain_add_ne_err hcount
        | panic message => exact hpanic message rfl
      | ok count =>
        -- the rest is served from the record and the count this feed left
        rw [hcount] at hstep
        obtain ⟨hreturns, hrest⟩ := ih (eats s x food count)
        rw [hstep, serve_feeds_admitted hadmits count, eaten_cons_ok, fits_cons_iff hcount]
        dsimp only
        refine ⟨?_, ?_⟩
        · rw [← hreturns, List.forall_mem_append, List.forall_mem_singleton]
          refine and_iff_left ?_
          intro message hpanic
          cases hpanic
        · intro hfits
          obtain ⟨hanswers, hfood, hstats⟩ := hrest hfits
          exact ⟨fun a => answers_append (hanswers a), hfood, hstats.trans (tallied_cons hcount)⟩

/-- The order between the senders matters neither to the answers nor to the
    shells that are fed. -/
theorem serve_feeds_order (s : State T) (h : SameOrder Prod.fst l l') :
    (∀ a, inputs_of (fun p => p.1.1) a (serve_feeds s l).1 =
      inputs_of (fun p => p.1.1) a (serve_feeds s l').1) ∧
    (serve_feeds s l).2 = (serve_feeds s l').2 ∧
    (eaten (serve_feeds s l).1).Perm (eaten (serve_feeds s l').1) := by
  have hserve : SameOrder (fun xy => xy.1.1) (serve_feeds s l).1 (serve_feeds s l').1 ∧
      (serve_feeds s l).2 = (serve_feeds s l').2 := h.serve
  obtain ⟨hanswered, hfood⟩ := hserve
  exact ⟨hanswered, hfood, hanswered.perm.filterMap _⟩

omit [DecidableEq AccountId] in
theorem fits_perm {xs' : List (CollectionId × NftId)} (h : xs.Perm xs') :
    Fits s xs ↔ Fits s xs' := by
  unfold Fits
  simp only [h.mem_iff, h.count_eq]

/-- **Feeding in any order.** Of two interleavings of the same calls of each
    account either both come to an end or both stop at a full count, which
    takes a build that checks overflows. If they end, every call returns the
    same, and the records and the statistics are the same. -/
theorem feeding_order (s : State T) (h : SameOrder Prod.fst l l') :
    ((∀ e ∈ (feed_in_turn s l).1, Returns e) ↔ ∀ e ∈ (feed_in_turn s l').1, Returns e) ∧
    ((∀ e ∈ (feed_in_turn s l).1, Returns e) →
      (∀ a, history (answers a) (feed_in_turn s l).1 = history (answers a) (feed_in_turn s l').1) ∧
      (feed_in_turn s l).2.incubation.food_by_owners =
        (feed_in_turn s l').2.incubation.food_by_owners ∧
      (feed_in_turn s l).2.incubation.origin_of_shell_food_stats =
        (feed_in_turn s l').2.incubation.origin_of_shell_food_stats) ∧
    (T.overflow_checks = false → ∀ e ∈ (feed_in_turn s l).1, Returns e) := by
  obtain ⟨hanswered, hfood, heaten⟩ := serve_feeds_order s h
  obtain ⟨hreturns, hrun⟩ := exec_feeds s l
  obtain ⟨hreturns', hrun'⟩ := exec_feeds s l'
  have hiff := fits_perm (s := s) heaten
  refine ⟨?_, ?_, ?_⟩
  · rw [hreturns, hreturns', hiff]
  · intro hends
    have hfits := hreturns.mp hends
    obtain ⟨hanswers, hrecords, hstats⟩ := hrun hfits
    obtain ⟨hanswers', hrecords', hstats'⟩ := hrun' (hiff.mp hfits)
    refine ⟨?_, ?_, ?_⟩
    · intro a
      rw [hanswers, hanswers', hanswered]
    · rw [hrecords, hrecords', hfood]
    · rw [hstats, hstats']
      funext y
      unfold tallied
      rw [heaten.count_eq]
  · intro hchecks
    rw [hreturns]
    intro hchecks'
    rw [hchecks] at hchecks'
    cases hchecks'

open Mock in
/-- `ALICE` tries to feed `CHARLIE`'s shell once more than she may, `BOB`
    feeds it in between or before her. -/
theorem feeding_order_sample :
    let s := (after (sale 200 ++ [admin (.set_can_start_incubation_status true),
      .call (.signed CHARLIE) (.start_incubation 1 0)])).2
    let l := [(ALICE, (1, 0)), (ALICE, (1, 0)), (BOB, (1, 0)), (ALICE, (1, 0))]
    let l' := [(BOB, (1, 0)), (ALICE, (1, 0)), (ALICE, (1, 0)), (ALICE, (1, 0))]
    (feed_in_turn s l).2.incubation.origin_of_shell_food_stats (0, (1, 0)) = 3 ∧
    (feed_in_turn s l).2.incubation.origin_of_shell_food_stats =
      (feed_in_turn s l').2.incubation.origin_of_shell_food_stats ∧
    history (answers ALICE) (feed_in_turn s l).1 =
      history (answers ALICE) (feed_in_turn s l').1 := by
  intro s l l'
  have hsame : SameOrder Prod.fst l l' := by
    intro k
    by_cases halice : k = ALICE
    · subst halice
      rfl
    by_cases hbob : k = BOB
    · subst hbob
      rfl
    · simp [inputs_of, l, l', Ne.symm halice, Ne.symm hbob]
  obtain ⟨_, hends, hreturns⟩ := feeding_order (T := runtime 200) s hsame
  obtain ⟨hanswers, _, hstats⟩ := hends (hreturns rfl)
  exact ⟨by decide +kernel, hstats, hanswers ALICE⟩

end rows

end PhalaWorld
