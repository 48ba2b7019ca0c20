import LotusRfq.Combo.ExecutePlanRunner
import LotusRfq.Lib.RowLocks

/-!
# LotusRfq — how often the trade of a leg is filled

A run dispatches the legs whose fills are not recorded. A leg that was filled, or whose trade is
still open, is dispatched again unless its fill is recorded: after an `ALL_OR_NONE` failure the
fills are never recorded, a trade that fills after its timer is taken for a rejection, and a write
that throws is the last one.

* **`nodup_dispatched_iff`** — what one read dispatches;
* **`exists_filledTwice`** — two open trades of one leg may both be filled;
* **`runPlan_filledOnce_iff`** — every leg is filled at most once, along any runs.
-/

namespace LotusRfq.Combo

open Transitions List

variable {plan : ExecutionPlan} {s t : RunnerSystem}

/-! ## Trades -/

def Trade.isFilled (trade : Trade) : Bool := trade.outcome = some (some .FILLED)

/-- The trade was filled, or may still be. -/
def Trade.isLive (trade : Trade) : Bool := trade.outcome = none || trade.isFilled

def legsOf (c : Trade → Bool) (trades : List Trade) : List String :=
  (trades.filter c).map (·.step.legId)

abbrev RunnerSystem.filledLegs (s : RunnerSystem) : List String := legsOf Trade.isFilled s.trades

abbrev RunnerSystem.liveLegs (s : RunnerSystem) : List String := legsOf Trade.isLive s.trades

theorem legsOf_append (c : Trade → Bool) (trades trades' : List Trade) :
    legsOf c (trades ++ trades') = legsOf c trades ++ legsOf c trades' := by
  rw [legsOf, filter_append, map_append]
  rfl

theorem liveLegs_dispatch (i : ℕ) (steps : List ExecutionStep) :
    legsOf Trade.isLive (steps.map (dispatch i)) = steps.map (·.legId) := by
  have hlive : ∀ trade ∈ steps.map (dispatch i), trade.isLive = true := by
    intro trade hmem
    obtain ⟨step, -, rfl⟩ := mem_map.mp hmem
    rfl
  rw [legsOf, filter_eq_self.mpr hlive, map_map]
  rfl

theorem filledLegs_sublist (trades : List Trade) :
    (legsOf Trade.isFilled trades).Sublist (legsOf Trade.isLive trades) := by
  refine (monotone_filter_right trades fun trade hfilled => ?_).map _
  rw [Trade.isLive, hfilled, Bool.or_true]

theorem nodup_legsOf_iff {c : Trade → Bool} {trades : List Trade} :
    (legsOf c trades).Nodup ↔ ∀ (j k : ℕ) (hj : j < trades.length) (hk : k < trades.length),
      j < k → c trades[j] → c trades[k] → trades[j].step.legId ≠ trades[k].step.legId := by
  rw [legsOf, List.Nodup, pairwise_map, pairwise_filter, pairwise_iff_getElem]

theorem legsOf_set_sublist {c : Trade → Bool} {trades : List Trade} {k : ℕ} {trade trade' : Trade}
    (hat : trades[k]? = some trade) (hstep : trade'.step = trade.step) (hc : c trade' → c trade) :
    (legsOf c (trades.set k trade')).Sublist (legsOf c trades) := by
  induction trades generalizing k with
  | nil => cases hat
  | cons first rest ih =>
    cases k with
    | zero =>
      cases hat
      rw [set_cons_zero, legsOf, legsOf, filter_cons, filter_cons]
      by_cases hlive : c trade' = true
      · rw [if_pos hlive, if_pos (hc hlive), map_cons, map_cons, hstep]
      · rw [if_neg hlive]
        split
        · exact sublist_cons_self _ _
        · exact List.Sublist.refl _
    | succ k =>
      have hrest := ih (k := k) hat
      rw [set_cons_succ]
      show ((first :: rest.set k trade').filter c |>.map _).Sublist _
      rw [legsOf, filter_cons, filter_cons]
      split
      · exact hrest.cons_cons _
      · exact hrest

/-! ## One step -/

theorem runnerStep_read {i : ℕ} (h : runnerStep plan s (.read i) = some t) :
    t.trades = s.trades ++ (s.stepsToExecute plan).map (dispatch i) := by
  simp only [runnerStep] at h
  split at h
  next =>
    split at h
    next hnone =>
      cases h
      rw [hnone.1, map_nil, append_nil]
      rfl
    next =>
      cases h
      rfl
  next => cases h

/-- **What a step does to the trades**: it dispatches some, or settles one. -/
theorem runnerStep_trades {action : RunnerAction} (h : runnerStep plan s action = some t) :
    (∃ i, action = .read i ∧ t.trades = s.trades ++ (s.stepsToExecute plan).map (dispatch i)) ∨
    (∃ k trade trade', s.trades[k]? = some trade ∧ t.trades = s.trades.set k trade' ∧
      trade'.step = trade.step ∧ (trade'.isLive → trade.isLive)) ∨ t.trades = s.trades := by
  cases action with
  | start =>
    cases h
    exact .inr (.inr rfl)
  | read i => exact .inl ⟨i, rfl, runnerStep_read h⟩
  | fail i =>
    simp only [runnerStep] at h
    split at h
    next =>
      cases h
      exact .inr (.inr rfl)
    next => cases h
  | settle k outcome =>
    simp only [runnerStep] at h
    split at h
    next trade hat =>
      split at h
      next hopen =>
        cases h
        refine .inr (.inl ⟨k, trade, _, hat, rfl, rfl, fun _ => ?_⟩)
        rw [Trade.isLive, hopen]
        rfl
      next => cases h
    next => cases h
  | timeout k =>
    simp only [runnerStep] at h
    split at h
    next trade hat =>
      split at h
      next =>
        cases h
        exact .inr (.inl ⟨k, trade, _, hat, rfl, rfl, fun hlive => hlive⟩)
      next => cases h
    next => cases h
  | evaluate i =>
    simp only [runnerStep] at h
    split at h
    next =>
      split at h
      next =>
        cases h
        exact .inr (.inr rfl)
      next => cases h
    next => cases h
  | write i reply =>
    simp only [runnerStep] at h
    split at h
    next =>
      obtain ⟨⟨fills, phase⟩, -, rfl⟩ := Option.map_eq_some_iff.mp h
      exact .inr (.inr rfl)
    next => cases h

/-- No two live trades are of one leg, and every trade is of a step of the plan. -/
structure TradesSound (plan : ExecutionPlan) (s : RunnerSystem) : Prop where
  live : s.liveLegs.Nodup
  planned : ∀ trade ∈ s.trades, trade.step ∈ plan.steps

/-- A run reads when every leg that was filled or has an open trade is recorded as filled, and
dispatches no leg twice. -/
def ReadsSettled (plan : ExecutionPlan) (s : RunnerSystem) : RunnerAction → Prop
  | .read _ => (∀ legId ∈ s.liveLegs, legId ∈ s.getFilledSteps) ∧
      ((s.stepsToExecute plan).map (·.legId)).Nodup
  | _ => True

instance (plan : ExecutionPlan) (s : RunnerSystem) (action : RunnerAction) :
    Decidable (ReadsSettled plan s action) := by
  unfold ReadsSettled
  split <;> infer_instance

/-- **One read** dispatches no live leg exactly when it reads all of them. -/
theorem nodup_dispatched_iff (hs : TradesSound plan s) (i : ℕ) :
    (legsOf Trade.isLive (s.trades ++ (s.stepsToExecute plan).map (dispatch i))).Nodup ↔
      ReadsSettled plan s (.read i) := by
  rw [legsOf_append, liveLegs_dispatch, nodup_append]
  constructor
  · intro h
    refine ⟨fun legId hlive => ?_, h.2.1⟩
    by_contra hunread
    obtain ⟨trade, htrade, rfl⟩ := mem_map.mp hlive
    have hplanned := hs.planned trade (mem_of_mem_filter htrade)
    have hexecuted : trade.step ∈ s.stepsToExecute plan :=
      mem_filter.mpr ⟨hplanned, decide_eq_true hunread⟩
    exact h.2.2 _ hlive _ (mem_map_of_mem hexecuted) rfl
  · intro h
    refine ⟨hs.live, h.2, fun legId hlive legId' hexecuted heq => ?_⟩
    obtain ⟨step, hstep, rfl⟩ := mem_map.mp hexecuted
    have hunread := of_decide_eq_true (mem_filter.mp hstep).2
    rw [← heq] at hunread
    exact hunread (h.1 legId hlive)

theorem TradesSound.step (hs : TradesSound plan s) {action : RunnerAction}
    (hguard : ReadsSettled plan s action) (h : runnerStep plan s action = some t) :
    TradesSound plan t := by
  rcases runnerStep_trades h with ⟨i, rfl, htrades⟩ | ⟨k, trade, trade', hat, htrades, hstep, hlive⟩ |
    htrades
  · constructor
    · rw [RunnerSystem.liveLegs, htrades]
      exact (nodup_dispatched_iff hs i).mpr hguard
    · intro trade hmem
      rw [htrades] at hmem
      rcases mem_append.mp hmem with hold | hnew
      · exact hs.planned trade hold
      · obtain ⟨step, hstep, rfl⟩ := mem_map.mp hnew
        exact mem_of_mem_filter hstep
  · constructor
    · rw [RunnerSystem.liveLegs, htrades]
      exact (legsOf_set_sublist hat hstep hlive).nodup hs.live
    · intro trade'' hmem
      rw [htrades] at hmem
      rcases mem_or_eq_of_mem_set hmem with hold | rfl
      · exact hs.planned trade'' hold
      · rw [hstep]
        exact hs.planned trade (mem_of_getElem? hat)
  · constructor
    · rw [RunnerSystem.liveLegs, htrades]
      exact hs.live
    · rw [htrades]
      exact hs.planned

/-! ## Runs -/

theorem TradesSound.run (hs : TradesSound plan s)
    (hrun : Run (runnerStep plan) (ReadsSettled plan) s t) : TradesSound plan t :=
  hrun.invariant hs fun _ _ _ hs hguard hstep => hs.step hguard hstep

theorem TradesSound.filledLegs_nodup (hs : TradesSound plan s) : s.filledLegs.Nodup :=
  (filledLegs_sublist s.trades).nodup hs.live

theorem exists_filled (plan : ExecutionPlan) {k : ℕ} {trade : Trade}
    (hat : s.trades[k]? = some trade) (hlive : trade.isLive = true) :
    ∃ t trade', Run (runnerStep plan) (ReadsSettled plan) s t ∧
      t.trades = s.trades.set k trade' ∧ trade'.isFilled = true ∧ trade'.step = trade.step := by
  by_cases hopen : trade.outcome = none
  · have hsettle : runnerStep plan s (.settle k (some .FILLED)) =
        some { s with trades := s.trades.set k (trade.settle (some .FILLED)) } := by
      rw [runnerStep, hat]
      exact if_pos hopen
    exact ⟨_, trade.settle (some .FILLED),
      .tail .refl (.settle k (some .FILLED)) trivial hsettle, rfl, rfl, rfl⟩
  · rw [Trade.isLive, decide_eq_false hopen, Bool.false_or] at hlive
    refine ⟨s, trade, .refl, ?_, hlive, rfl⟩
    obtain ⟨hk, rfl⟩ := List.getElem?_eq_some_iff.mp hat
    exact (List.set_getElem_self hk).symm

/-- **Two live trades of one leg** may both turn out filled. -/
theorem exists_filledTwice (plan : ExecutionPlan) (h : ¬ s.liveLegs.Nodup) :
    ∃ t, Run (runnerStep plan) (ReadsSettled plan) s t ∧ ¬ t.filledLegs.Nodup := by
  rw [nodup_legsOf_iff] at h
  push Not at h
  obtain ⟨j, k, hj, hk, hlt, hlivej, hlivek, hsame⟩ := h
  obtain ⟨t, trade, hrun, htrades, hfilled, hstep⟩ :=
    exists_filled plan (getElem?_eq_getElem hj) hlivej
  have hat : t.trades[k]? = some s.trades[k] := by
    rw [htrades, getElem?_set_ne (by omega), getElem?_eq_getElem hk]
  obtain ⟨u, trade', hrun', htrades', hfilled', hstep'⟩ := exists_filled plan hat hlivek
  refine ⟨u, hrun.trans hrun', fun hnodup => ?_⟩
  rw [RunnerSystem.filledLegs, nodup_legsOf_iff] at hnodup
  have hj' : j < u.trades.length := by
    rw [htrades', htrades, length_set, length_set]
    exact hj
  have hk' : k < u.trades.length := by
    rw [htrades', htrades, length_set, length_set]
    exact hk
  have hatj : u.trades[j] = trade := by
    simp only [htrades', htrades]
    rw [getElem_set_ne (by omega), getElem_set_self]
  have hatk : u.trades[k] = trade' := by
    simp only [htrades']
    rw [getElem_set_self]
  refine hnodup j k hj' hk' hlt ?_ ?_ ?_
  · rw [hatj]
    exact hfilled
  · rw [hatk]
    exact hfilled'
  · rw [hatj, hatk, hstep, hstep']
    exact hsame

structure Undispatched (s : RunnerSystem) : Prop where
  trades : s.trades = []
  runs : s.runs = []

theorem Undispatched.sound (hs : Undispatched s) (plan : ExecutionPlan) : TradesSound plan s := by
  constructor
  · rw [RunnerSystem.liveLegs, hs.trades]
    exact nodup_nil
  · rw [hs.trades]
    exact nofun

/-- **Every leg is filled at most once** while every read finds all live legs recorded; and a read
that does not can be followed by two fills of one leg. -/
theorem runPlan_filledOnce_iff (plan : ExecutionPlan) {s t : RunnerSystem} (hs : Undispatched s)
    (hrun : Run (runnerStep plan) (ReadsSettled plan) s t) :
    t.filledLegs.Nodup ∧ ∀ i u, runnerStep plan t (.read i) = some u →
      (ReadsSettled plan t (.read i) ↔
        ∀ v, Run (runnerStep plan) (ReadsSettled plan) u v → v.filledLegs.Nodup) := by
  have hsound : TradesSound plan t := (hs.sound plan).run hrun
  refine ⟨hsound.filledLegs_nodup, fun i u hstep => ⟨fun hguard v hlater => ?_, fun h => ?_⟩⟩
  · exact ((hsound.step hguard hstep).run hlater).filledLegs_nodup
  · by_contra hguard
    have hlive : ¬ u.liveLegs.Nodup := by
      rw [RunnerSystem.liveLegs, runnerStep_read hstep, nodup_dispatched_iff hsound]
      exact hguard
    obtain ⟨v, hlater, htwice⟩ := exists_filledTwice plan hlive
    exact htwice (h v hlater)

/-! ### Retried -/

def legStep (legId : String) : ExecutionStep where
  id := "step-" ++ legId
  legId := legId
  targetSize := 10
  price := 1 / 2
  lpId := "lp-1"
  connector := "DEFAULT_SOR"
  clientOrderId := "order-" ++ legId
  idempotencyKey := "idem-" ++ legId
  timeoutMs := 5000
  maxRetries := 2
  backoffMs := 250
  unwindStrategy := .REVERT_FILL
  originalQuantity := 10
  residualQuantity := none

def twoLegs (policy : AcceptancePolicy) : ExecutionPlan :=
  ⟨"plan-1", "combo-1", "token-1", policy, [legStep "leg-1", legStep "leg-2"], 10, "READY"⟩

def undispatched : RunnerSystem := ⟨[], [], []⟩

theorem undispatched_undispatched : Undispatched undispatched := ⟨rfl, rfl⟩

def filledBesideRejected : List RunnerAction :=
  [.start, .read 0, .settle 0 (some .FILLED), .settle 1 (some .REJECTED), .evaluate 0]

def retriedUnrecorded : List RunnerAction :=
  filledBesideRejected ++
    [.write 0 .done, .start, .read 1, .settle 2 (some .FILLED), .settle 3 (some .FILLED)]

/-- The fill and the rejection are recorded, and the plan is retried. -/
def retriedRecorded : List RunnerAction :=
  filledBesideRejected ++
    [.write 0 .done, .write 0 .done, .write 0 .done, .start, .read 1, .settle 2 (some .FILLED)]

/-- Under `ALL_OR_NONE` the first leg is filled by each of two runs. -/
theorem twoLegs_filledTwice : ∃ t, Reaches (runnerStep (twoLegs .ALL_OR_NONE)) undispatched t ∧
    t.runs[0]? = some (.returned .FAILED) ∧ t.filledLegs = ["leg-1", "leg-1", "leg-2"] ∧
    ¬ t.filledLegs.Nodup := by
  have hplay : (play (runnerStep (twoLegs .ALL_OR_NONE)) (fun _ _ => True) retriedUnrecorded
      undispatched).isSome := by
    decide +kernel
  refine ⟨_, Run.of_isSome _ hplay, ?_, ?_, ?_⟩ <;> decide +kernel +revert

/-- Under `BEST_EFFORT` the retry dispatches the rejected leg only. -/
theorem runPlan_filledOnce_retried : ∃ t : RunnerSystem,
    t.filledLegs = ["leg-1", "leg-2"] ∧ t.filledLegs.Nodup := by
  have hplay : (play (runnerStep (twoLegs .BEST_EFFORT)) (ReadsSettled (twoLegs .BEST_EFFORT))
      retriedRecorded undispatched).isSome := by
    decide +kernel
  refine ⟨_, ?_, (runPlan_filledOnce_iff (twoLegs .BEST_EFFORT) undispatched_undispatched
    (Run.of_isSome _ hplay)).1⟩
  decide +kernel +revert

end LotusRfq.Combo
