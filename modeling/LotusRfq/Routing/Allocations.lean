import LotusRfq.Routing.Selection
import Mathlib.Algebra.BigOperators.Ring.List

/-!
# LotusRfq — what a route takes from its candidates

The loops take the amount as far as there is something to take, and the forced split fills the
candidates in two rounds. The sizes are then written by `decimal`, and a route that stays at one
venue is given up.

* **`allocate_remaining_iff`** — what remains is what all candidates together are short of;
* **`fillAll_terminates`** — two rounds of the forced split are enough;
* **`soundRoutes_iff`** — when the routes are as they should be.
-/

namespace LotusRfq.Routing

open List

variable {side : TradeSide} {policy : SmartRoutePolicy} {offers : List TradeRouteCandidate}
  {amount : ℚ}

def takenSize (fills : List Fill) : ℚ := (fills.map Fill.size).sum

def availableTotal (candidates : List TradeRouteCandidate) : ℚ :=
  (candidates.map fun candidate => (candidate.availableSize : ℚ)).sum

variable (candidate : TradeRouteCandidate)

theorem availableSize_nonneg :
    (0 : ℚ) ≤ candidate.availableSize := candidate.availableSize.2

theorem availableTotal_cons (rest : List TradeRouteCandidate) :
    availableTotal (candidate :: rest) = candidate.availableSize + availableTotal rest := rfl

/-! ## The two loops -/

/-- What is taken of an amount from candidates that offer a total: all of it while more than the
tolerance remains. -/
structure TakenOf (amount total : ℚ) (allocation : Allocation) : Prop where
  sum : takenSize allocation.fills + allocation.remaining = amount
  le : takenSize allocation.fills ≤ total
  all : routeDustTolerance < allocation.remaining → takenSize allocation.fills = total

variable {total : ℚ} {allocation : Allocation}

theorem TakenOf.take (htaken : TakenOf amount total allocation) (candidate : TradeRouteCandidate) :
    TakenOf amount (total + candidate.availableSize) (allocation.take candidate) := by
  obtain ⟨hsum, hle, hall⟩ := htaken
  have hnonneg := availableSize_nonneg candidate
  have htol : routeDustTolerance = 1 / 100000000 := rfl
  unfold Allocation.take
  simp only
  split
  · rename_i hnothing
    refine ⟨hsum, by linarith, fun hremaining => ?_⟩
    -- With an amount left, nothing is taken of what offers nothing.
    rcases min_le_iff.mp hnothing with hempty | hdone
    · rw [hall hremaining]
      linarith
    · linarith
  · have hmin := min_le_left (candidate.availableSize : ℚ) allocation.remaining
    have htake : takenSize (allocation.fills ++
        [⟨candidate, min (candidate.availableSize : ℚ) allocation.remaining⟩]) =
        takenSize allocation.fills + min (candidate.availableSize : ℚ) allocation.remaining := by
      simp [takenSize]
    refine ⟨by rw [htake]; linarith, by rw [htake]; linarith, fun hremaining => ?_⟩
    rw [htake]
    rcases min_choice (candidate.availableSize : ℚ) allocation.remaining with hfull | hrest
    · rw [hfull] at hremaining ⊢
      rw [hall (by linarith)]
    · rw [hrest] at hremaining
      linarith

theorem TakenOf.skip (htaken : TakenOf amount total allocation)
    (hdone : allocation.remaining ≤ routeDustTolerance) (candidate : TradeRouteCandidate) :
    TakenOf amount (total + candidate.availableSize) allocation where
  sum := htaken.sum
  le := htaken.le.trans (le_add_of_nonneg_right (availableSize_nonneg candidate))
  all := fun hremaining => absurd hremaining (not_lt.mpr hdone)

theorem take_skippedDust :
    (allocation.take candidate).skippedDust = allocation.skippedDust := by
  unfold Allocation.take
  simp only
  split <;> rfl

theorem foldl_takeBest {minimumLegSize : ℚ} (candidates : List TradeRouteCandidate)
    (htaken : TakenOf amount (total - availableTotal allocation.skippedDust) allocation) :
    TakenOf amount (total + availableTotal candidates -
        availableTotal (candidates.foldl (takeBest minimumLegSize) allocation).skippedDust)
      (candidates.foldl (takeBest minimumLegSize) allocation) := by
  induction candidates generalizing allocation total with
  | nil => simpa [availableTotal] using htaken
  | cons candidate rest ih =>
    rw [foldl_cons, availableTotal_cons, ← add_assoc]
    apply ih
    unfold takeBest
    simp only
    split
    · rename_i hdone
      have hskip := htaken.skip (hdone.trans (by norm_num [routeDustTolerance])) candidate
      rwa [sub_add_eq_add_sub] at hskip
    · split
      · have hdust : availableTotal (allocation.skippedDust ++ [candidate]) =
            availableTotal allocation.skippedDust + candidate.availableSize := by
          simp [availableTotal]
        simp only [hdust]
        rw [add_sub_add_right_eq_sub]
        exact ⟨htaken.sum, htaken.le, htaken.all⟩
      · rw [take_skippedDust]
        have htake := htaken.take candidate
        rwa [sub_add_eq_add_sub] at htake

theorem foldl_takeDust (candidates : List TradeRouteCandidate)
    (htaken : TakenOf amount total allocation) :
    TakenOf amount (total + availableTotal candidates) (candidates.foldl takeDust allocation) := by
  induction candidates generalizing allocation total with
  | nil => simpa [availableTotal] using htaken
  | cons candidate rest ih =>
    rw [foldl_cons, availableTotal_cons, ← add_assoc]
    apply ih
    unfold takeDust
    split
    · rename_i hdone
      exact htaken.skip hdone candidate
    · exact htaken.take candidate

theorem allocate_taken (side : TradeSide) (offers : List TradeRouteCandidate) (amount : ℚ) :
    TakenOf amount (availableTotal offers) (allocate side offers amount) := by
  have hstart : TakenOf amount (0 - availableTotal []) { remaining := amount } := by
    refine ⟨by simp [takenSize], by simp [takenSize, availableTotal], fun _ => ?_⟩
    simp [takenSize, availableTotal]
  have hsorted : availableTotal (sortCandidates side offers) = availableTotal offers :=
    ((perm_insertionSort _ offers).map _).sum_eq
  have hbest := @foldl_takeBest amount 0 { remaining := amount }
    (max (1 / 100) (amount * (5 / 100))) (sortCandidates side offers) hstart
  have hdust := foldl_takeDust ((sortCandidates side offers).foldl
    (takeBest (max (1 / 100) (amount * (5 / 100)))) { remaining := amount }).skippedDust hbest
  rw [zero_add, sub_add_cancel, hsorted] at hdust
  exact hdust

theorem allocate_remaining_iff : routeDustTolerance < (allocate side offers amount).remaining ↔
      availableTotal offers + routeDustTolerance < amount := by
  have htaken := allocate_taken side offers amount
  have hsum := htaken.sum
  have hle := htaken.le
  constructor
  · intro hremaining
    have hall := htaken.all hremaining
    linarith
  · intro hshort
    linarith

/-! ## The forced split -/

def Fill.Full (fill : Fill) : Prop :=
  max 0 ((fill.candidate.availableSize : ℚ) - fill.size) ≤ routeDustTolerance

variable {remaining : ℚ} {fills : List Fill}

theorem fillPass_candidates (remaining : ℚ) (fills : List Fill) :
    (fillPass remaining fills).2.1.map Fill.candidate = fills.map Fill.candidate := by
  induction fills generalizing remaining with
  | nil => rfl
  | cons fill rest ih =>
    unfold fillPass
    simp only
    split
    · rfl
    · split
      · simp [ih]
      · simp [ih]

theorem fillPass_le (remaining : ℚ) (fills : List Fill) :
    (fillPass remaining fills).1 ≤ remaining := by
  have htol : routeDustTolerance = 1 / 100000000 := rfl
  induction fills generalizing remaining with
  | nil => exact le_rfl
  | cons fill rest ih =>
    unfold fillPass
    simp only
    split
    · exact le_rfl
    · rename_i hremaining
      split
      · exact ih remaining
      · rename_i havailable
        refine (ih _).trans ?_
        have hsize : 0 ≤ min (max 0 ((fill.candidate.availableSize : ℚ) - fill.size)) remaining :=
          le_min (le_max_left _ _) (by linarith)
        linarith

theorem fillPass_full (hleft : routeDustTolerance < (fillPass remaining fills).1) :
    ∀ fill ∈ (fillPass remaining fills).2.1, fill.Full := by
  have htol : routeDustTolerance = 1 / 100000000 := rfl
  induction fills generalizing remaining with
  | nil => exact fun _ h => absurd h not_mem_nil
  | cons fill rest ih =>
    unfold fillPass at hleft ⊢
    simp only at hleft ⊢
    by_cases hdone : remaining ≤ routeDustTolerance
    · rw [if_pos hdone] at hleft
      exact absurd hleft (not_lt.mpr hdone)
    · rw [if_neg hdone] at hleft ⊢
      by_cases hfull : max 0 ((fill.candidate.availableSize : ℚ) - fill.size) ≤ routeDustTolerance
      · rw [if_pos hfull] at hleft ⊢
        exact forall_mem_cons.mpr ⟨hfull, ih hleft⟩
      · rw [if_neg hfull] at hleft ⊢
        refine forall_mem_cons.mpr ⟨?_, ih hleft⟩
        have hbefore := hleft.trans_le (fillPass_le _ rest)
        -- An amount is left, so the candidate is taken whole.
        have hwhole : min (max 0 ((fill.candidate.availableSize : ℚ) - fill.size)) remaining =
            (fill.candidate.availableSize : ℚ) - fill.size := by
          rcases min_choice (max 0 ((fill.candidate.availableSize : ℚ) - fill.size)) remaining with
            havailable | hrest
          · rw [havailable]
            rcases max_choice 0 ((fill.candidate.availableSize : ℚ) - fill.size) with hzero | hmax
            · rw [hzero] at hfull
              linarith
            · exact hmax
          · rw [hrest] at hbefore
            linarith
        unfold Fill.Full
        simp only
        rw [hwhole, add_sub_cancel, sub_self, max_self]
        linarith

theorem fillPass_of_full (hfull : ∀ fill ∈ fills, fill.Full) :
    (fillPass remaining fills).2.2 = false := by
  induction fills generalizing remaining with
  | nil => rfl
  | cons fill rest ih =>
    unfold fillPass
    simp only
    split
    · rfl
    · have hfill : max 0 ((fill.candidate.availableSize : ℚ) - fill.size) ≤ routeDustTolerance :=
        hfull fill mem_cons_self
      rw [if_pos hfill]
      exact ih fun other hother => hfull other (mem_cons_of_mem _ hother)

/-- After one round either the amount is placed or everything is full, and then a second round
does nothing. -/
theorem fillAll_terminates (remaining : ℚ) (fills : List Fill) :
    fillAll 2 remaining fills ≠ none := by
  unfold fillAll
  split
  · exact nofun
  · simp only
    split
    · unfold fillAll
      split
      · exact nofun
      · rename_i hleft
        have hsecond := @fillPass_of_full (fillPass remaining fills).1 _
          (fillPass_full (not_le.mp hleft))
        simp [hsecond]
    · exact nofun

theorem fillAll_candidates {fuel : ℕ} {filled : List Fill}
    (hfilled : fillAll fuel remaining fills = some (some filled)) :
    filled.map Fill.candidate = fills.map Fill.candidate := by
  induction fuel generalizing remaining fills with
  | zero =>
    unfold fillAll at hfilled
    split at hfilled
    · rw [← Option.some.inj (Option.some.inj hfilled)]
    · exact nomatch hfilled
  | succ fuel ih =>
    unfold fillAll at hfilled
    split at hfilled
    · rw [← Option.some.inj (Option.some.inj hfilled)]
    · simp only at hfilled
      split at hfilled
      · exact (ih hfilled).trans (fillPass_candidates remaining fills)
      · exact nomatch hfilled

theorem allocateForcedSplit_terminates (candidates : List TradeRouteCandidate)
    (amount minLegSize : ℚ) : allocateForcedSplit side 2 candidates amount minLegSize ≠ none := by
  unfold allocateForcedSplit
  simp only
  split
  · exact nofun
  · intro hnone
    exact fillAll_terminates _ _ (Option.map_eq_none_iff.mp hnone)

theorem mem_of_allocateForcedSplit {fuel : ℕ} {candidates : List TradeRouteCandidate}
    {minLegSize : ℚ}
    (hsplit : allocateForcedSplit side fuel candidates amount minLegSize = some (some fills)) :
    ∀ fill ∈ fills, fill.candidate ∈ candidates := by
  unfold allocateForcedSplit at hsplit
  simp only at hsplit
  split at hsplit
  · exact nomatch hsplit
  · obtain ⟨result, hresult, hmap⟩ := Option.map_eq_some_iff.mp hsplit
    obtain ⟨filled, rfl, rfl⟩ := Option.map_eq_some_iff.mp hmap
    have hcandidates := fillAll_candidates hresult
    rw [map_map] at hcandidates
    intro fill hmem
    have hfill : fill.candidate ∈ (sortCandidates side candidates).map (Fill.candidate ∘
        fun candidate => ⟨candidate, min minLegSize (amount / candidates.length)⟩) := by
      rw [← hcandidates]
      exact mem_map_of_mem (mem_of_mem_filter hmem)
    obtain ⟨candidate, hcandidate, heq⟩ := mem_map.mp hfill
    rw [← heq]
    exact (mem_insertionSort _).mp hcandidate

theorem stagingFills_covers (hfills : stagingFills side policy offers amount = some fills) :
    2 ≤ (fills.map fun fill => fill.candidate.venue).dedup.length ∧
      ∀ candidate ∈ selectedCandidates side policy offers amount,
        ∃ fill ∈ fills, fill.candidate.venue = candidate.venue := by
  unfold stagingFills at hfills
  simp only at hfills
  split at hfills
  · exact nomatch hfills
  · rename_i hstaged
    simp only [not_or, not_lt] at hstaged
    split at hfills
    · rename_i split hsplit
      split at hfills
      · exact nomatch hfills
      · rename_i hvenues
        obtain rfl := Option.some.inj hfills
        rw [not_lt] at hvenues
        have htwo : 2 ≤ desiredVenueCount side policy
            (bestExecutableCandidateByVenue side offers) amount := by
          unfold desiredVenueCount
          split
          · have hbest := hstaged.2.1
            omega
          · exact le_rfl
        refine ⟨htwo.trans hvenues, fun candidate hcandidate => ?_⟩
        -- There are as many venues in the split as are desired, and no others.
        have hsubset : (split.map fun fill => fill.candidate.venue).dedup ⊆
            (selectedCandidates side policy offers amount).map TradeRouteCandidate.venue := by
          intro venue hvenue
          obtain ⟨fill, hfill, rfl⟩ := mem_map.mp (mem_dedup.mp hvenue)
          exact mem_map_of_mem (mem_of_allocateForcedSplit hsplit fill hfill)
        have hperm := ((nodup_dedup _).subperm hsubset).perm_of_length_le (by
          rw [length_map]
          exact (length_take_le _ _).trans hvenues)
        have hmem := hperm.symm.subset (mem_map_of_mem hcandidate)
        obtain ⟨fill, hfill, heq⟩ := mem_map.mp (mem_dedup.mp hmem)
        exact ⟨fill, hfill, heq⟩
    · exact nomatch hfills

/-! ## When the routes are as they should be -/

/-- A way to fill the amount: from one candidate, or from candidates of two venues or more. -/
def Feasible (executable : List TradeRouteCandidate) (amount : ℚ) : Prop :=
  (∃ candidate ∈ executable, amount ≤ (candidate.availableSize : ℚ)) ∨
  ∃ fills : List Fill, (fills.map Fill.candidate).Subperm executable ∧
    (∀ fill ∈ fills, 0 < fill.size ∧ fill.size ≤ fill.candidate.availableSize) ∧
    |takenSize fills - amount| ≤ routeDustTolerance ∧
    2 ≤ (fills.map fun fill => fill.candidate.venue).dedup.length

structure SoundRoutes (side : TradeSide) (policy : SmartRoutePolicy)
    (executable : List TradeRouteCandidate) (amount : ℚ) : Prop where
  sizes : ∀ built, buildMultiVenueRoute side policy executable amount = some built →
    ∀ fill ∈ built.fills, 0 < fill.leg.size ∧ fill.leg.size ≤ fill.candidate.availableSize
  sum : ∀ built, buildMultiVenueRoute side policy executable amount = some built →
    |(built.route.legs.map ExecutableRouteLeg.size).sum - amount| ≤ routeDustTolerance
  venues : ∀ built, buildMultiVenueRoute side policy executable amount = some built →
    2 ≤ (built.route.legs.map ExecutableRouteLeg.venue).dedup.length
  terminates : ∀ candidates minLegSize,
    allocateForcedSplit side 2 candidates amount minLegSize ≠ none
  covers : ∀ fills, stagingFills side policy executable amount = some fills →
    ∀ candidate ∈ selectedCandidates side policy executable amount,
      ∃ fill ∈ fills, fill.candidate.venue = candidate.venue
  feasible : Feasible executable amount → selectBestRoute side policy executable amount ≠ none

/-- The sizes of a route are above the tolerance, none is rounded above what is left of its
candidate, and the roundings make up for what remains of the amount, within the tolerance. -/
def RoundsWithin (fills : List Fill) (amount : ℚ) : Prop :=
  (∀ fill ∈ fills, routeDustTolerance < fill.size ∧
    rounding fill.size ≤ fill.candidate.availableSize - fill.size) ∧
  |(fills.map fun fill => rounding fill.size).sum - (amount - takenSize fills)| ≤ routeDustTolerance

def TwoVenues (executable : List TradeRouteCandidate) : Prop :=
  ∃ first ∈ executable, ∃ second ∈ executable, 0 < first.availableSize ∧
    0 < second.availableSize ∧ first.venue ≠ second.venue

/-- Where no candidate fills the amount, but candidates of two venues together, the loops do not
stay at one venue. -/
def LeavesVenue (side : TradeSide) (policy : SmartRoutePolicy)
    (executable : List TradeRouteCandidate) (amount : ℚ) : Prop :=
  (∀ candidate ∈ executable, (candidate.availableSize : ℚ) < amount) →
    stagingFills side policy executable amount = none →
    amount ≤ availableTotal executable + routeDustTolerance → TwoVenues executable →
    2 ≤ ((allocate side executable amount).fills.map fun fill => fill.candidate.venue).dedup.length

theorem two_le_dedup_iff {venues : List String} :
    2 ≤ venues.dedup.length ↔ ∃ first ∈ venues, ∃ second ∈ venues, first ≠ second := by
  rw [← card_toFinset]
  show 1 < venues.toFinset.card ↔ _
  rw [Finset.one_lt_card]
  simp only [mem_toFinset]

theorem legs_sizes_sum (fills : List Fill) :
    ((fills.map Fill.leg).map ExecutableRouteLeg.size).sum =
      takenSize fills + (fills.map fun fill => rounding fill.size).sum := by
  unfold takenSize
  rw [← sum_map_add, map_map]
  exact congrArg List.sum (map_congr_left fun fill _ => decimal_eq fill.size)

theorem buildMultiVenueRoute_fills {built : BuiltRoute}
    (hbuilt : buildMultiVenueRoute side policy offers amount = some built) :
    built.route.legs = built.fills.map Fill.leg ∧
      2 ≤ (built.fills.map fun fill => fill.candidate.venue).dedup.length := by
  have hlegs : ∀ fills skipped,
      (buildRoute side .CROSS_VENUE fills offers skipped).route.legs = fills.map Fill.leg := by
    intro fills skipped
    simp [buildRoute, scoreRoute, scoreLegs, Function.comp_def]
  unfold buildMultiVenueRoute at hbuilt
  split at hbuilt
  · exact nomatch hbuilt
  · split at hbuilt
    · rename_i fills hfills
      obtain rfl := Option.some.inj hbuilt
      exact ⟨hlegs fills [], (stagingFills_covers hfills).1⟩
    · simp only at hbuilt
      split at hbuilt
      · exact nomatch hbuilt
      · rename_i hloops
        obtain rfl := Option.some.inj hbuilt
        simp only [not_or, not_lt] at hloops
        exact ⟨hlegs _ _, hloops.2.2⟩

/-- Without a forced split a route over two venues is built where the amount is taken from two. -/
theorem buildMultiVenueRoute_ne_none_iff (htwo : 2 ≤ offers.length) :
    buildMultiVenueRoute side policy offers amount ≠ none ↔
      stagingFills side policy offers amount ≠ none ∨
      amount ≤ availableTotal offers + routeDustTolerance ∧
        2 ≤ ((allocate side offers amount).fills.map
          fun fill => fill.candidate.venue).dedup.length := by
  have hremaining : (allocate side offers amount).remaining ≤ routeDustTolerance ↔
      amount ≤ availableTotal offers + routeDustTolerance := by
    rw [← not_lt, allocate_remaining_iff, not_lt]
  have hlength := (dedup_sublist ((allocate side offers amount).fills.map
    fun fill => fill.candidate.venue)).length_le
  rw [length_map] at hlength
  unfold buildMultiVenueRoute
  rw [if_neg (not_lt.mpr htwo)]
  cases hstaging : stagingFills side policy offers amount with
  | some fills => simp
  | none =>
    simp only [ne_eq, not_true_eq_false, false_or]
    rw [← hremaining]
    split
    · rename_i hnone
      simp only [not_true_eq_false, false_iff, not_and, not_le]
      intro hplaced
      rcases hnone with hleft | hfew | hone
      · exact absurd hleft (not_lt.mpr hplaced)
      · omega
      · exact hone
    · rename_i hloops
      simp only [not_or, not_lt] at hloops
      simp only [reduceCtorEq, not_false_eq_true, true_iff]
      exact ⟨hloops.1, hloops.2.2⟩

theorem twoVenues_of_feasible (hfeasible : Feasible offers amount)
    (hsmall : ∀ candidate ∈ offers, (candidate.availableSize : ℚ) < amount) :
    amount ≤ availableTotal offers + routeDustTolerance ∧ TwoVenues offers := by
  rcases hfeasible with ⟨candidate, hmem, hfill⟩ | ⟨fills, hsubperm, hsizes, hsum, hvenues⟩
  · exact absurd (hsmall candidate hmem) (not_lt.mpr hfill)
  · constructor
    · have hle : takenSize fills ≤ availableTotal (fills.map Fill.candidate) := by
        unfold takenSize availableTotal
        rw [map_map]
        exact sum_le_sum fun fill hmem => (hsizes fill hmem).2
      obtain ⟨chosen, hperm, hsublist⟩ := hsubperm
      have hchosen : availableTotal (fills.map Fill.candidate) ≤ availableTotal offers := by
        have hpermSum : availableTotal chosen = availableTotal (fills.map Fill.candidate) :=
          (hperm.map _).sum_eq
        rw [← hpermSum]
        refine (hsublist.map _).sum_le_sum fun size hsize => ?_
        obtain ⟨candidate, -, rfl⟩ := mem_map.mp hsize
        exact availableSize_nonneg candidate
      have hbounds := abs_le.mp hsum
      linarith
    · obtain ⟨first, hfirst, second, hsecond, hne⟩ := two_le_dedup_iff.mp hvenues
      obtain ⟨firstFill, hfirstFill, rfl⟩ := mem_map.mp hfirst
      obtain ⟨secondFill, hsecondFill, rfl⟩ := mem_map.mp hsecond
      have hpositive : ∀ fill ∈ fills, 0 < fill.candidate.availableSize := by
        intro fill hmem
        have hlt := (hsizes fill hmem).1.trans_le (hsizes fill hmem).2
        exact_mod_cast hlt
      exact ⟨_, hsubperm.subset (mem_map_of_mem hfirstFill), _,
        hsubperm.subset (mem_map_of_mem hsecondFill), hpositive _ hfirstFill,
        hpositive _ hsecondFill, hne⟩

theorem availableTotal_filter (candidates : List TradeRouteCandidate) :
    availableTotal (candidates.filter fun candidate => 0 < candidate.availableSize) =
      availableTotal candidates := by
  induction candidates with
  | nil => rfl
  | cons candidate rest ih =>
    rw [filter_cons]
    by_cases hpositive : 0 < candidate.availableSize
    · rw [if_pos (decide_eq_true hpositive), availableTotal_cons, availableTotal_cons, ih]
    · have hzero : candidate.availableSize = 0 := le_antisymm (not_lt.mp hpositive) zero_le
      rw [if_neg (by simpa using hzero), availableTotal_cons, ih, hzero]
      simp

/-- Each candidate with something to take gives its part of the amount. -/
def proportionalFills (executable : List TradeRouteCandidate) (amount : ℚ) : List Fill :=
  (executable.filter fun candidate => 0 < candidate.availableSize).map fun candidate =>
    ⟨candidate, candidate.availableSize * min 1 (amount / availableTotal executable)⟩

theorem proportionalFills_candidates (offers : List TradeRouteCandidate) (amount : ℚ) :
    (proportionalFills offers amount).map Fill.candidate =
      offers.filter fun candidate => 0 < candidate.availableSize := by
  unfold proportionalFills
  rw [map_map]
  exact map_id _

theorem takenSize_proportionalFills (hpositive : 0 < availableTotal offers) :
    takenSize (proportionalFills offers amount) = min (availableTotal offers) amount := by
  have hparts : takenSize (proportionalFills offers amount) =
      ((offers.filter fun candidate => 0 < candidate.availableSize).map fun candidate =>
        (candidate.availableSize : ℚ) * min 1 (amount / availableTotal offers)).sum := by
    unfold takenSize proportionalFills
    rw [map_map]
    rfl
  rw [hparts, sum_map_mul_right, ← availableTotal, availableTotal_filter,
    mul_min_of_nonneg _ _ hpositive.le, mul_one, mul_div_cancel₀ _ hpositive.ne']

theorem feasible_of_twoVenues (hsmall : ∀ candidate ∈ offers,
      (candidate.availableSize : ℚ) < amount)
    (htotal : amount ≤ availableTotal offers + routeDustTolerance)
    (htwo : TwoVenues offers) : Feasible offers amount := by
  obtain ⟨first, hfirst, second, hsecond, hfirstPos, hsecondPos, hne⟩ := htwo
  have hamount : 0 < amount := (availableSize_nonneg first).trans_lt (hsmall first hfirst)
  have hpositive : 0 < availableTotal offers := by
    have hle : (first.availableSize : ℚ) ≤ availableTotal offers :=
      single_le_sum (by simp) _ (mem_map_of_mem hfirst)
    have hcast : (0 : ℚ) < first.availableSize := by exact_mod_cast hfirstPos
    linarith
  refine Or.inr ⟨proportionalFills offers amount, ?_, ?_, ?_, ?_⟩
  · rw [proportionalFills_candidates]
    exact filter_sublist.subperm
  · intro fill hmem
    obtain ⟨candidate, hcandidate, rfl⟩ := mem_map.mp hmem
    have havailable : (0 : ℚ) < candidate.availableSize := by
      exact_mod_cast of_decide_eq_true (mem_filter.mp hcandidate).2
    have hpart : 0 < min 1 (amount / availableTotal offers) :=
      lt_min one_pos (div_pos hamount hpositive)
    exact ⟨mul_pos havailable hpart, mul_le_of_le_one_right havailable.le (min_le_left _ _)⟩
  · have htol : routeDustTolerance = 1 / 100000000 := rfl
    rw [takenSize_proportionalFills hpositive, abs_le]
    rcases min_choice (availableTotal offers) amount with hall | hexact
    · have hle := min_le_right (availableTotal offers) amount
      rw [hall] at hle ⊢
      constructor
      · linarith
      · linarith
    · rw [hexact]
      constructor
      · linarith
      · linarith
  · have hvenues : (proportionalFills offers amount).map (fun fill => fill.candidate.venue) =
        (offers.filter fun candidate => 0 < candidate.availableSize).map
          TradeRouteCandidate.venue := by
      rw [← proportionalFills_candidates offers amount, map_map]
      rfl
    rw [hvenues, two_le_dedup_iff]
    refine ⟨first.venue, mem_map_of_mem ?_, second.venue, mem_map_of_mem ?_, hne⟩
    · exact mem_filter.mpr ⟨hfirst, decide_eq_true hfirstPos⟩
    · exact mem_filter.mpr ⟨hsecond, decide_eq_true hsecondPos⟩

theorem selectBestRoute_ne_none_iff : selectBestRoute side policy offers amount ≠ none ↔
      (∃ candidate ∈ offers, amount ≤ (candidate.availableSize : ℚ)) ∨
        buildMultiVenueRoute side policy offers amount ≠ none := by
  unfold selectBestRoute
  cases hsingle : buildSingleVenueRoute side offers amount with
  | none =>
    have hsmall : ¬ ∃ candidate ∈ offers, amount ≤ (candidate.availableSize : ℚ) := by
      rintro ⟨candidate, hmem, hfill⟩
      exact buildSingleVenueRoute_ne_none hmem hfill hsingle
    rw [or_iff_right hsmall]
    rfl
  | some single =>
    have hroute : single ∈ singleRoutes side offers amount :=
      mem_of_mem_head? (Option.mem_def.mpr hsingle)
    obtain ⟨candidate, hmem, hfill, -⟩ := mem_singleRoutes.mp hroute
    refine iff_of_true ?_ (Or.inl ⟨candidate, hmem, hfill⟩)
    cases buildMultiVenueRoute side policy offers amount with
    | none => exact Option.some_ne_none _
    | some multi =>
      simp only [chooseRoute]
      split
      · exact Option.some_ne_none _
      · split <;> exact Option.some_ne_none _

theorem two_le_length_of_twoVenues (htwo : TwoVenues offers) : 2 ≤ offers.length := by
  obtain ⟨first, hfirst, second, hsecond, -, -, hne⟩ := htwo
  match offers, hfirst, hsecond with
  | [only], hfirst, hsecond =>
    obtain rfl := mem_singleton.mp hfirst
    obtain rfl := mem_singleton.mp hsecond
    exact absurd rfl hne
  | _ :: _ :: rest, _, _ => simp

theorem feasible_iff_leavesVenue :
    (Feasible offers amount → selectBestRoute side policy offers amount ≠ none) ↔
      LeavesVenue side policy offers amount := by
  constructor
  · intro hselect hsmall hstaging htotal htwo
    have hroute := hselect (feasible_of_twoVenues hsmall htotal htwo)
    rw [selectBestRoute_ne_none_iff, buildMultiVenueRoute_ne_none_iff
      (two_le_length_of_twoVenues htwo)] at hroute
    rcases hroute with ⟨candidate, hmem, hfill⟩ | hstaged | ⟨-, hvenues⟩
    · exact absurd (hsmall candidate hmem) (not_lt.mpr hfill)
    · exact absurd hstaging hstaged
    · exact hvenues
  · intro hleaves hfeasible
    rw [selectBestRoute_ne_none_iff]
    by_cases hlarge : ∃ candidate ∈ offers, amount ≤ (candidate.availableSize : ℚ)
    · exact Or.inl hlarge
    · have hsmall : ∀ candidate ∈ offers, (candidate.availableSize : ℚ) < amount := by
        intro candidate hmem
        exact not_le.mp fun hfill => hlarge ⟨candidate, hmem, hfill⟩
      obtain ⟨htotal, htwo⟩ := twoVenues_of_feasible hfeasible hsmall
      rw [buildMultiVenueRoute_ne_none_iff (two_le_length_of_twoVenues htwo)]
      right
      by_cases hstaging : stagingFills side policy offers amount = none
      · exact Or.inr ⟨htotal, hleaves hsmall hstaging htotal htwo⟩
      · exact Or.inl hstaging

/-- Two offers of one venue that fill the amount together, and one of another venue. -/
def oneVenueFills : List TradeRouteCandidate :=
  [offerOfFive "POLYMARKET" (1 / 2), offerOfFive "POLYMARKET" (51 / 100),
    offerOfFive "LIMITLESS" (3 / 5)]

end LotusRfq.Routing
