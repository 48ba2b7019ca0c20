import LotusRfq.Bundles.Service

/-!
# LotusRfq — one venue order for each quoted leg

A live submit is kept from submitting again by the status that an earlier one recorded. That holds
where live submits do not overlap, where one that has an order accepted records it, and where no dry
run is recorded over orders.

* **`obeys_code`** — what every operation asks for, and where;
* **`Guarded.step`** — while an accepted order is not recorded, its submit is under way;
* **`calls_onceAccepted`** — a leg whose order was accepted is not submitted again.
-/

namespace LotusRfq.Bundles

open Processes Transitions List

/-! ## The protocol -/

/-- Where an operation is: a live submit past its duplicate check sends the order of one leg after
another, and may have had one accepted, until it has recorded them. -/
inductive SubmitPlace where
  | idle
  | sending (next : ℕ) (accepted : Bool)
  | recorded
  deriving DecidableEq

def SubmitPlace.isUnderway : SubmitPlace → Bool
  | .idle => false
  | .sending _ _ => true
  | .recorded => true

def SubmitPlace.answered (legIndex : ℕ) (answer : Bool) : SubmitPlace → SubmitPlace
  | .sending _ accepted => .sending (legIndex + 1) (accepted || answer)
  | place => place

def SubmitPlace.stored : SubmitPlace → SubmitPlace
  | .sending _ _ => .recorded
  | place => place

def submitProtocol : Protocol BundleRequest BundleRequest.Answer SubmitPlace where
  allows
    | place, .findDuplicate => place = .idle
    | place, .submitOrder legIndex _ => ∃ accepted, place = .sending legIndex accepted
    | place, .endLive unrecorded =>
      place = .recorded ∨ ∃ next accepted, place = .sending next accepted ∧
        (accepted = true → unrecorded ≠ [])
    | place, .remember status =>
      isDuplicateSubmitStatus status.status = true ∨ (status.dryRun = true ∧ place = .idle)
    | _, _ => True
  answers _ _ := True
  next
    | place, .findDuplicate, existing => if isDuplicate existing then place else .sending 0 false
    | place, .submitOrder legIndex answer, _ => place.answered legIndex answer
    | place, .remember _, _ => place.stored
    | _, .endLive _, _ => .idle
    | place, .findStoredExecutionStatus, _ => place
    | place, .findRepository, _ => place
    | place, .saveRepository _, _ => place
    | place, .recordFilledLeg _, _ => place

/-- What a program obeys that ends where it began. -/
abbrev Stays {α : Type} (place : SubmitPlace) (code : BundleCode α) : Prop :=
  Obeys submitProtocol (fun place' _ => place' = place) place code

def LegsOutcome.accepted : LegsOutcome → List SubmittedLeg
  | .threw submittedLegs => submittedLegs
  | .failed submittedLegs _ => submittedLegs
  | .done submittedLegs => submittedLegs

/-- A submit that has had an order accepted says so at the end of the loop. -/
def SendsUntil (place : SubmitPlace) (outcome : LegsOutcome) : Prop :=
  ∃ next accepted, place = .sending next accepted ∧ (accepted = true → outcome.accepted ≠ [])

variable {localeCompare : String → String → Ordering} {call : SubmitCall} {legs : List LegAnswers}
  {status : BundleStatus} {submittedLegs accepted : List SubmittedLeg} {place : SubmitPlace}

theorem obeys_recordFilledLegs (legs : List SubmittedLeg) :
    Stays place (recordFilledLegs legs) := by
  induction legs with
  | nil => exact obeys_pure rfl
  | cons leg legs ih => exact obeys_request_bind trivial fun _ _ => ih

theorem obeys_saveExecutionStatus {stored : SignedTradeExecutionStatus}
    (h : isDuplicateSubmitStatus stored.status = true ∨ (stored.dryRun = true ∧ place = .idle)) :
    Obeys submitProtocol (fun place' _ => place' = place.stored) place
      (saveExecutionStatus stored) :=
  obeys_request_bind h fun _ _ => obeys_request trivial fun _ _ => rfl

theorem obeys_getExecutionStatus (lookup : Lookup) : Stays .idle (getExecutionStatus lookup) := by
  refine obeys_request_bind trivial fun existing _ => ?_
  cases existing with
  | none => exact obeys_pure rfl
  | some stored =>
    refine obeys_ite (fun _ => obeys_pure rfl) fun hlive => ?_
    refine obeys_bind (obeys_saveExecutionStatus (.inl ?_)) fun place _ hplace => ?_
    · rw [refreshStoredExecutionStatus, if_neg hlive]
      exact isDuplicateSubmitStatus_summarize _
    · rw [hplace]
      exact obeys_recordFilledLegs _

theorem obeys_refreshStatus (lookup : Lookup) : Stays .idle (refreshStatus lookup) := by
  refine obeys_request_bind trivial fun existing _ => ?_
  cases existing with
  | none => exact obeys_pure rfl
  | some stored =>
    refine obeys_ite (fun _ => ?_) fun _ => obeys_pure rfl
    exact obeys_request_bind trivial fun _ _ => obeys_recordFilledLegs _

theorem obeys_submitLegs_live {index : ℕ} {answered : Bool}
    (haccepted : answered = true → submittedLegs ≠ []) :
    Obeys submitProtocol SendsUntil (.sending index answered)
      (submitLegs false index legs submittedLegs) := by
  induction legs generalizing index answered submittedLegs with
  | nil => exact obeys_pure ⟨index, answered, rfl, haccepted⟩
  | cons answers rest ih =>
    refine obeys_ite (fun _ => obeys_pure ⟨index, answered, rfl, haccepted⟩) fun _ => ?_
    refine obeys_ite (fun hdry => absurd hdry Bool.false_ne_true) fun _ => ?_
    cases answers.submitted with
    | ok submitted =>
      exact obeys_request_bind ⟨answered, rfl⟩ fun _ _ => ih fun _ => by simp
    | error normalized =>
      refine obeys_request_bind ⟨answered, rfl⟩ fun _ _ => obeys_pure ?_
      exact ⟨index + 1, answered || false, rfl,
        fun h => haccepted ((Bool.or_false answered).symm.trans h)⟩

theorem obeys_submitLegs_dryRun {index : ℕ} :
    Stays place (submitLegs true index legs submittedLegs) := by
  induction legs generalizing index submittedLegs with
  | nil => exact obeys_pure rfl
  | cons answers rest ih =>
    refine obeys_ite (fun _ => obeys_pure rfl) fun _ => ?_
    exact obeys_ite (fun _ => ih) fun hlive => absurd rfl hlive

theorem obeys_recordExecutionStatus
    (h : isDuplicateSubmitStatus status = true ∨ (call.dryRun = true ∧ place = .idle)) :
    Obeys submitProtocol (fun place' recorded => place' = if recorded then place.stored else place)
      place (recordExecutionStatus localeCompare call legs status submittedLegs) := by
  refine obeys_ite (fun _ => obeys_pure rfl) fun _ => ?_
  refine obeys_request_bind trivial fun existing _ => ?_
  refine obeys_bind (obeys_saveExecutionStatus h) fun place' _ hplace => ?_
  rw [hplace]
  exact obeys_bind (obeys_recordFilledLegs _) fun _ _ hplace => obeys_pure hplace

theorem obeys_recordResult_live (hlive : call.dryRun = false) {next : ℕ} {answered : Bool}
    (haccepted : answered = true → accepted ≠ []) (h : isDuplicateSubmitStatus status = true) :
    Obeys submitProtocol (fun place' _ => place' = .idle) (.sending next answered)
      (recordResult localeCompare call legs status submittedLegs accepted) := by
  refine obeys_bind (obeys_recordExecutionStatus (.inl h)) fun place recorded hplace => ?_
  refine obeys_ite (fun hdry => absurd (hlive.symm.trans hdry) Bool.false_ne_true) fun _ => ?_
  refine obeys_request ?_ fun _ _ => rfl
  cases recorded with
  | true => exact .inl hplace
  | false =>
    -- the accepted orders are not recorded
    exact .inr ⟨next, answered, hplace, fun h => by simpa using haccepted h⟩

theorem obeys_recordResult_dryRun (hdry : call.dryRun = true) :
    Stays .idle (recordResult localeCompare call legs status submittedLegs accepted) := by
  refine obeys_bind (obeys_recordExecutionStatus (.inr ⟨hdry, rfl⟩)) fun place recorded hplace => ?_
  refine obeys_ite (fun _ => obeys_pure ?_) fun hlive => absurd hdry hlive
  cases recorded <;> exact hplace

theorem obeys_submit (call : SubmitCall) : Stays .idle (submit localeCompare call) := by
  unfold submit
  cases call.quote with
  | none => exact obeys_pure rfl
  | some legs =>
    cases hdry : call.dryRun with
    | true =>
      -- a dry run stays where it is
      refine obeys_bind (M := fun place existing => place = .idle ∧ existing = none)
        (obeys_pure ⟨rfl, rfl⟩) ?_
      rintro place existing ⟨rfl, rfl⟩
      refine obeys_ite (fun hduplicate => absurd hduplicate Bool.false_ne_true) fun _ => ?_
      refine obeys_ite (fun hready => absurd hready.1 Bool.false_ne_true) fun _ => ?_
      refine obeys_bind obeys_submitLegs_dryRun fun place outcome hplace => ?_
      rw [hplace]
      cases outcome with
      | threw accepted => exact obeys_pure rfl
      | failed accepted failed => exact obeys_recordResult_dryRun hdry
      | done submittedLegs => exact obeys_recordResult_dryRun hdry
    | false =>
      refine obeys_request_bind rfl fun existing _ => ?_
      refine obeys_ite (fun hduplicate => obeys_pure (if_pos hduplicate)) fun hduplicate => ?_
      rw [show submitProtocol.next .idle .findDuplicate existing = .sending 0 false from
        if_neg hduplicate]
      have hnothing : false = true → ([] : List SubmittedLeg) ≠ [] := nofun
      refine obeys_ite (fun _ => ?_) fun _ => ?_
      · exact obeys_request (.inr ⟨0, false, rfl, nofun⟩) fun _ _ => rfl
      · refine obeys_bind (obeys_submitLegs_live hnothing) fun place outcome hplace => ?_
        obtain ⟨next, answered, rfl, haccepted⟩ := hplace
        cases outcome with
        | threw accepted =>
          refine obeys_request (.inr ⟨next, answered, rfl, fun h => ?_⟩) fun _ _ => rfl
          have hsome : accepted ≠ [] := haccepted h
          simpa using hsome
        | failed accepted failed => exact obeys_recordResult_live hdry haccepted rfl
        | done submittedLegs => exact obeys_recordResult_live hdry haccepted rfl

theorem obeys_code (operation : BundleOperation) :
    Obeys submitProtocol (fun _ _ => True) .idle (operation.code localeCompare) := by
  cases operation with
  | submit call => exact (obeys_submit call).weaken fun _ _ _ => trivial
  | getExecutionStatus lookup =>
    exact (obeys_getExecutionStatus lookup).weaken fun _ _ _ => trivial
  | refreshStatus lookup => exact (obeys_refreshStatus lookup).weaken fun _ _ _ => trivial

/-! ## The guard -/

def OnceAccepted (earlier later : OrderCall) : Prop :=
  earlier.accepted = true → later.legIndex ≠ earlier.legIndex

/-- A live submit passes its duplicate check while no other is under way; it does not end with
accepted orders that it has not recorded; a dry run is stored only over a quote that has no accepted
order. -/
def Exclusive (s : BundleState) : BundleRequest → Prop
  | .findDuplicate => isDuplicate s.stored = false → s.underway = 0
  | .endLive unrecorded => unrecorded = []
  | .remember status => status.dryRun = true → ∀ call ∈ s.calls, call.accepted = false
  | _ => True

instance (s : BundleState) (e : BundleRequest) : Decidable (Exclusive s e) := by
  unfold Exclusive
  split <;> infer_instance

/-- While an accepted order is not recorded, its submit is under way, and no other is. -/
structure Guarded (s : BundleState) (places : List SubmitPlace) : Prop where
  calls : s.calls.Pairwise OnceAccepted
  underway : places.countP SubmitPlace.isUnderway = s.underway
  single : s.underway ≤ 1
  sending : ∀ next accepted, .sending next accepted ∈ places →
    ∀ call ∈ s.calls, call.accepted = true → call.legIndex < next ∧ accepted = true
  recorded : (∀ next accepted, .sending next accepted ∉ places) →
    ∀ call ∈ s.calls, call.accepted = true → isDuplicate s.executionStatuses = true

variable {s : BundleState} {places : List SubmitPlace} {i : ℕ}

theorem isDuplicate_stored (h : isDuplicate s.executionStatuses = true) :
    isDuplicate s.stored = true := by
  unfold BundleState.stored
  cases hmemory : s.executionStatuses with
  | none =>
    rw [hmemory] at h
    cases h
  | some status =>
    rw [hmemory] at h
    exact h

theorem Guarded.start (h : Guarded s places) : Guarded s (places ++ [.idle]) where
  calls := h.calls
  underway := by
    rw [countP_append, h.underway]
    rfl
  single := h.single
  sending next accepted hmem := by
    refine h.sending next accepted ?_
    simpa using hmem
  recorded hidle := h.recorded fun next accepted hmem =>
    hidle next accepted (mem_append_left _ hmem)

theorem Guarded.findDuplicate (h : Guarded s places) (hplace : places[i]? = some .idle)
    (hguard : Exclusive s .findDuplicate) (hnew : isDuplicate s.stored = false) :
    Guarded { s with underway := s.underway + 1 } (places.set i (.sending 0 false)) := by
  have hnone : s.underway = 0 := hguard hnew
  have hcount := countP_set_place hplace SubmitPlace.isUnderway (.sending 0 false)
  have hsent : ∀ next accepted, SubmitPlace.sending next accepted ∉ places := by
    intro next accepted hmem
    have hpos := countP_pos_iff.mpr ⟨_, hmem, (rfl : SubmitPlace.isUnderway _ = true)⟩
    have hunderway := h.underway
    omega
  -- an accepted order would have been found
  have hfresh : ∀ call ∈ s.calls, call.accepted ≠ true := fun call hcall haccepted => by
    have hduplicate := isDuplicate_stored (h.recorded hsent call hcall haccepted)
    rw [hnew] at hduplicate
    cases hduplicate
  refine ⟨h.calls, ?_, ?_, fun next accepted hmem call hcall haccepted => ?_,
    fun _ call hcall haccepted => ?_⟩
  · have hunderway := h.underway
    simp only [SubmitPlace.isUnderway, Bool.toNat_false, Bool.toNat_true] at hcount
    show _ = s.underway + 1
    omega
  · show s.underway + 1 ≤ 1
    omega
  · exact absurd haccepted (hfresh call hcall)
  · exact absurd haccepted (hfresh call hcall)

theorem Guarded.submitOrder (h : Guarded s places) {legIndex : ℕ} {accepted : Bool}
    (hplace : places[i]? = some (.sending legIndex accepted)) (answer : Bool) :
    Guarded { s with calls := s.calls ++ [⟨legIndex, answer⟩] }
      (places.set i (.sending (legIndex + 1) (accepted || answer))) := by
  have hcount := countP_set_place hplace SubmitPlace.isUnderway
    (.sending (legIndex + 1) (accepted || answer))
  have hearlier := h.sending legIndex accepted (mem_of_getElem? hplace)
  refine ⟨?_, ?_, h.single, fun next accepted' hmem call hcall haccepted => ?_, fun hidle => ?_⟩
  · rw [pairwise_append]
    refine ⟨h.calls, pairwise_singleton _ _, fun earlier hmem later hlater haccepted => ?_⟩
    rw [mem_singleton.mp hlater]
    -- the legs of the accepted orders come before
    have hbefore := (hearlier earlier hmem haccepted).1
    show legIndex ≠ earlier.legIndex
    omega
  · rw [← h.underway]
    exact Nat.add_right_cancel hcount
  · have hone : places.countP SubmitPlace.isUnderway ≤ 1 := h.underway ▸ h.single
    have hsame := not_of_countP_le_one hplace hone rfl hmem rfl
    cases hsame
    rcases mem_append.mp hcall with hold | hnew
    · have hbefore := hearlier call hold haccepted
      exact ⟨by omega, by rw [hbefore.2, Bool.true_or]⟩
    · rw [mem_singleton.mp hnew] at haccepted ⊢
      refine ⟨Nat.lt_succ_self legIndex, ?_⟩
      rw [show answer = true from haccepted, Bool.or_true]
  · have hi : i < places.length := (List.getElem?_eq_some_iff.mp hplace).1
    exact absurd (mem_of_getElem? (List.getElem?_set_self hi)) (hidle _ _)

section

variable (h : Guarded s places) (hplace : places[i]? = some place)

include h hplace

theorem Guarded.alone (hunderway : place.isUnderway = true) {next place' : SubmitPlace}
    (hmem : place' ∈ places.set i next) (hunderway' : place'.isUnderway = true) : place' = next :=
  not_of_countP_le_one hplace (h.underway ▸ h.single) hunderway hmem hunderway'

theorem Guarded.endLive (hallowed : submitProtocol.allows place (.endLive [])) :
    Guarded { s with underway := s.underway - 1 } (places.set i .idle) := by
  have hunderway : place.isUnderway = true := by
    rcases hallowed with rfl | ⟨next, accepted, rfl, -⟩ <;> rfl
  have hcount := countP_set_place hplace SubmitPlace.isUnderway .idle
  refine ⟨h.calls, ?_, ?_, fun next accepted hmem => ?_, fun _ call hcall haccepted => ?_⟩
  · have hbefore := h.underway
    rw [hunderway] at hcount
    simp only [SubmitPlace.isUnderway, Bool.toNat_false, Bool.toNat_true] at hcount
    show _ = s.underway - 1
    omega
  · have hsingle := h.single
    show s.underway - 1 ≤ 1
    omega
  · cases h.alone hplace hunderway hmem rfl
  · rcases hallowed with rfl | ⟨next, accepted, rfl, hunrecorded⟩
    · refine h.recorded (fun next accepted hmem => ?_) call hcall haccepted
      rw [← set_place hplace] at hmem
      cases h.alone hplace rfl hmem rfl
    · have hearlier := h.sending next accepted (mem_of_getElem? hplace) call hcall haccepted
      exact absurd rfl (hunrecorded hearlier.2)

theorem Guarded.remember {status : SignedTradeExecutionStatus}
    (hallowed : submitProtocol.allows place (.remember status))
    (hguard : Exclusive s (.remember status)) :
    Guarded { s with executionStatuses := some status } (places.set i place.stored) := by
  have hrecorded : ∀ call ∈ s.calls, call.accepted = true →
      isDuplicateSubmitStatus status.status = true := fun call hcall haccepted => by
    rcases hallowed with hduplicate | ⟨hdry, -⟩
    · exact hduplicate
    · have hnone := hguard hdry call hcall
      rw [haccepted] at hnone
      cases hnone
  by_cases hstored : place.stored = place
  · rw [hstored, set_place hplace]
    exact ⟨h.calls, h.underway, h.single, h.sending, fun _ => hrecorded⟩
  · cases place with
    | sending next accepted =>
      -- the orders of this submit are recorded now
      have hcount := countP_set_place hplace SubmitPlace.isUnderway .recorded
      refine ⟨h.calls, ?_, h.single, fun next' accepted' hmem => ?_, fun _ => hrecorded⟩
      · rw [← h.underway]
        exact Nat.add_right_cancel hcount
      · cases h.alone hplace rfl hmem rfl
    | idle => exact absurd rfl hstored
    | recorded => exact absurd rfl hstored

theorem Guarded.step {e : BundleRequest} (hallowed : submitProtocol.allows place e)
    (hguard : Exclusive s e) :
    Guarded (handle e s).2 (places.set i (submitProtocol.next place e (handle e s).1)) := by
  cases e with
  | findDuplicate =>
    have hidle : place = .idle := hallowed
    subst hidle
    cases hstored : isDuplicate s.stored with
    | true =>
      simp only [handle, hstored, submitProtocol, if_true]
      rw [set_place hplace]
      exact h
    | false =>
      simp only [handle, hstored, submitProtocol, Bool.false_eq_true, if_false]
      exact h.findDuplicate hplace hguard hstored
  | submitOrder legIndex answer =>
    obtain ⟨accepted, rfl⟩ := hallowed
    exact h.submitOrder hplace answer
  | endLive unrecorded =>
    have hnone : unrecorded = [] := hguard
    subst hnone
    exact h.endLive hplace hallowed
  | remember status => exact h.remember hplace hallowed hguard
  | _ =>
    show Guarded _ (places.set i place)
    rw [set_place hplace]
    exact ⟨h.calls, h.underway, h.single, h.sending, h.recorded⟩

end

/-! ## Along runs -/

/-- No order was submitted for the quote, and no operation is under way. -/
structure Unsent (s : BundleSystem) : Prop where
  calls : s.shared.calls = []
  underway : s.shared.underway = 0
  running : s.running = []

theorem Unsent.supervised {s : BundleSystem} (h : Unsent s) :
    Supervised submitProtocol Guarded s := by
  refine ⟨[], ⟨?_, ?_, ?_, fun _ _ hmem => (not_mem_nil hmem).elim,
    fun _ call hcall => ?_⟩, ?_⟩
  · rw [h.calls]
    exact .nil
  · rw [h.underway]
    rfl
  · rw [h.underway]
    exact Nat.zero_le 1
  · rw [h.calls] at hcall
    cases hcall
  · rw [h.running]
    exact .nil

/-- **No order for a leg whose order was accepted**, in every run that keeps the guard. -/
theorem calls_onceAccepted (localeCompare : String → String → Ordering) {s t : BundleSystem}
    (hs : Unsent s) (hrun : Run (bundleStep localeCompare) (Asks Exclusive) s t) :
    t.shared.calls.Pairwise OnceAccepted := by
  obtain ⟨places, hguarded, -⟩ := supervised_of_run (I := Guarded) obeys_code
    (fun _ _ => trivial) (fun state places h => h.start)
    (fun state places i place e hI hplace hallowed hguard => hI.step hplace hallowed hguard)
    hs.supervised hrun
  exact hguarded.calls

/-! ### Submitted again -/

def quoted : BundleSystem := ⟨⟨none, none, [], 0, []⟩, []⟩

theorem quoted_unsent : Unsent quoted := ⟨rfl, rfl, rfl⟩

def acceptedLeg : LegAnswers :=
  ⟨⟨"LIMITLESS", 10, 1 / 2⟩, false, .ok ⟨"venue-order-1", none, .SUBMITTED, 0, 0⟩⟩

/-- A leg at PREDICT_FUN, for which the signature is missing. -/
def unsignedLeg : LegAnswers :=
  ⟨⟨"PREDICT_FUN", 10, 1 / 2⟩, true, .error ⟨"UNKNOWN", "not reached"⟩⟩

/-- Of a quote with two legs, the first is signed. -/
def halfSigned : SubmitCall := ⟨false, some [acceptedLeg, unsignedLeg], true, false, 1000⟩

def oneLeg : SubmitCall := ⟨false, some [acceptedLeg], true, false, 1000⟩

/-- The submit throws at the second leg, and is called again. -/
def submittedTwice : List (Action BundleOperation) :=
  .start (.submit halfSigned) :: List.replicate 3 (.advance 0) ++
    .start (.submit halfSigned) :: List.replicate 2 (.advance 1)

/-- The submit records its order, and the next one finds it. -/
def submittedOnce : List (Action BundleOperation) :=
  .start (.submit oneLeg) :: List.replicate 6 (.advance 0) ++
    [.start (.submit oneLeg), .advance 1]

/-- The first leg was accepted, and its order is submitted once more. -/
theorem quoted_submittedTwice : ¬ ∀ localeCompare s t, Unsent s →
    Reaches (bundleStep localeCompare) s t → t.shared.calls.Pairwise OnceAccepted := by
  intro h
  have hplay : (play (bundleStep compare) (fun _ _ => True) submittedTwice quoted).isSome := by
    decide +kernel
  have hcalls : ((play (bundleStep compare) (fun _ _ => True) submittedTwice quoted).get
      hplay).shared.calls = [⟨0, true⟩, ⟨0, true⟩] := by
    decide +kernel +revert
  have honce := h compare quoted _ quoted_unsent (Run.of_isSome _ hplay)
  rw [hcalls, pairwise_pair] at honce
  exact honce rfl rfl

theorem calls_onceAccepted_quoted : ∃ t, Unsent quoted ∧
    Run (bundleStep compare) (Asks Exclusive) quoted t ∧ t.shared.calls = [⟨0, true⟩] ∧
    t.shared.underway = 0 ∧ t.shared.calls.Pairwise OnceAccepted := by
  have hplay : (play (bundleStep compare) (Asks Exclusive) submittedOnce quoted).isSome := by
    decide +kernel
  exact ⟨_, quoted_unsent, Run.of_isSome _ hplay, by decide +kernel +revert,
    by decide +kernel +revert, calls_onceAccepted compare quoted_unsent (Run.of_isSome _ hplay)⟩

end LotusRfq.Bundles
