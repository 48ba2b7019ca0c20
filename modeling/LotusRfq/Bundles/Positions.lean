import LotusRfq.Bundles.Fills

/-!
# LotusRfq — the sizes that are recorded as positions

A leg is recorded with the size its venue reported, or with the whole size of the quoted leg; the
latter only after the venue reported its order as filled or, where settlements are verified, the
settlement as verified.

* **`Supported.step`** — every stored leg is supported by what the venue has reported;
* **`positions_covered`** — and so is every position.
-/

namespace LotusRfq.Bundles

open List

open Execution (SettlementStatusV0)
open Processes Transitions

/-! ## What the venues report -/

/-- A size is quoted for a leg, or its venue answers for an order of it. -/
inductive LegEvent where
  | quoted (legIndex : ℕ) (size : ℚ)
  | fill (key : SubmittedLegKey) (venueOrderId : Option String) (status : FillStatus)
      (filledSize : ℚ)
  | settlement (key : SubmittedLegKey) (venueOrderId : Option String) (status : SettlementStatusV0)
  deriving DecidableEq

def quotedEvents : ℕ → List LegAnswers → List LegEvent
  | _, [] => []
  | index, answers :: rest => .quoted index answers.leg.size :: quotedEvents (index + 1) rest

/-- The answers to the orders that the loop of a live submit gets to. -/
def orderEvents : ℕ → List LegAnswers → List LegEvent
  | _, [] => []
  | index, answers :: rest =>
    if answers.throws then []
    else
      match answers.submitted with
      | .ok submitted =>
        .fill ⟨index, answers.leg.venue.toUpper⟩ (some submitted.venueOrderId)
          submitted.status.fill submitted.filledSize :: orderEvents (index + 1) rest
      | .error _ => []

def lookupEvents (lookup : Lookup) (route : Option (List ExecutableRouteLeg)) (leg : SubmittedLeg) :
    List LegEvent :=
  let routeLeg := route.bind fun legs => legs[leg.legIndex]?
  if isLeft leg ∨ isInferred routeLeg leg then []
  else
    match (lookup.reply leg).fill with
    | .error _ => []
    | .ok fill =>
      .fill (submittedLegKey leg) leg.venueOrderId fill.status fill.filledSize ::
        if shouldRefreshSettlement lookup leg (effectiveFill routeLeg leg fill) then
          match (lookup.reply leg).settlement with
          | .error _ => []
          | .ok status => [.settlement (submittedLegKey leg) leg.venueOrderId status]
        else []

def refreshEvents (lookup : Lookup) (stored : SignedTradeExecutionStatus) : List LegEvent :=
  stored.submittedLegs.flatMap (lookupEvents lookup stored.route)

def operationEvents (s : BundleState) : BundleOperation → List LegEvent
  | .submit call =>
    match call.quote with
    | none => []
    | some legs => quotedEvents 0 legs ++
      if isAdmitted s call ∧ !call.dryRun then orderEvents 0 legs else []
  | .getExecutionStatus lookup =>
    match s.stored with
    | none => []
    | some stored =>
      if stored.dryRun then []
      else refreshEvents { lookup with settlementIntervalMs := 0 } stored
  | .refreshStatus lookup =>
    match s.repository with
    | none => []
    | some stored => if isActive stored then refreshEvents lookup stored else []

structure TrackedState where
  state : BundleState
  events : List LegEvent

def trackedStep (localeCompare : String → String → Ordering) (s : TrackedState)
    (operation : BundleOperation) : Option TrackedState :=
  (operationStep localeCompare s.state operation).map fun next =>
    ⟨next, s.events ++ operationEvents s.state operation⟩

/-! ## Supported by what is known -/

/-- The venue has reported the order of the leg as filled, or its settlement as verified where that
is needed. -/
def WholeReported (events : List LegEvent) (leg : SubmittedLeg) : Prop :=
  (∃ size, LegEvent.fill (submittedLegKey leg) leg.venueOrderId .FILLED size ∈ events) ∨
    (requiresVerifiedSettlementForPosition leg.venue = true ∧
      LegEvent.settlement (submittedLegKey leg) leg.venueOrderId .SETTLEMENT_VERIFIED ∈ events)

/-- A size for the leg: at most one that was reported, or the quoted one of a leg that was reported
as whole. -/
def SizeCovered (events : List LegEvent) (leg : SubmittedLeg) (size : ℚ) : Prop :=
  (∃ status reported,
    LegEvent.fill (submittedLegKey leg) leg.venueOrderId status reported ∈ events ∧
      size ≤ reported) ∨
  (LegEvent.quoted leg.legIndex size ∈ events ∧ WholeReported events leg)

structure LegSupported (events : List LegEvent) (leg : SubmittedLeg) : Prop where
  size : ∀ fill ∈ leg.fillState, SizeCovered events leg fill.filledSize
  filled : leg.status = .FILLED → WholeReported events leg
  settled : leg.settlementState = some .SETTLEMENT_VERIFIED →
    LegEvent.settlement (submittedLegKey leg) leg.venueOrderId .SETTLEMENT_VERIFIED ∈ events

structure StatusSupported (events : List LegEvent) (stored : Option SignedTradeExecutionStatus) :
    Prop where
  legs : ∀ leg ∈ legsOf stored, LegSupported events leg
  route : ∀ status ∈ stored, ∀ route ∈ status.route, ∀ legIndex leg,
    route[legIndex]? = some leg → LegEvent.quoted legIndex leg.size ∈ events

structure Supported (s : TrackedState) : Prop where
  proper : Proper s.state
  memory : StatusSupported s.events s.state.executionStatuses
  repository : StatusSupported s.events s.state.repository
  positions : ∀ leg ∈ s.state.positions, ∃ fill, leg.fillState = some fill ∧
    SizeCovered s.events leg fill.filledSize

variable {events later : List LegEvent} {leg : SubmittedLeg} {size : ℚ}
  {stored : Option SignedTradeExecutionStatus} {localeCompare : String → String → Ordering}

/-! ### What is known stays known -/

theorem WholeReported.mono (h : WholeReported events leg) (hsub : events ⊆ later) :
    WholeReported later leg :=
  h.imp (fun ⟨size, hmem⟩ => ⟨size, hsub hmem⟩) fun ⟨hneeds, hmem⟩ => ⟨hneeds, hsub hmem⟩

theorem SizeCovered.mono (h : SizeCovered events leg size) (hsub : events ⊆ later) :
    SizeCovered later leg size :=
  h.imp (fun ⟨status, reported, hmem, hle⟩ => ⟨status, reported, hsub hmem, hle⟩)
    fun ⟨hquoted, hwhole⟩ => ⟨hsub hquoted, hwhole.mono hsub⟩

theorem LegSupported.mono (h : LegSupported events leg) (hsub : events ⊆ later) :
    LegSupported later leg where
  size fill hfill := (h.size fill hfill).mono hsub
  filled hfilled := (h.filled hfilled).mono hsub
  settled hsettled := hsub (h.settled hsettled)

theorem StatusSupported.mono (h : StatusSupported events stored) (hsub : events ⊆ later) :
    StatusSupported later stored where
  legs leg hmem := (h.legs leg hmem).mono hsub
  route status hstatus route hroute legIndex leg hleg :=
    hsub (h.route status hstatus route hroute legIndex leg hleg)

/-! ### Legs of a submit -/

theorem legSupported_unfilled (hsize : leg.fillState = none) (hstatus : leg.status ≠ .FILLED)
    (hsettled : leg.settlementState = none) : LegSupported events leg where
  size fill hfill := by
    rw [hsize] at hfill
    cases hfill
  filled hfilled := absurd hfilled hstatus
  settled hverified := by
    rw [hsettled] at hverified
    cases hverified

theorem legSupported_toSubmittedLeg {index : ℕ} {answers : LegAnswers}
    {submitted : VenueSubmitResult} (hquoted : LegEvent.quoted index answers.leg.size ∈ events)
    (hfill : LegEvent.fill ⟨index, answers.leg.venue.toUpper⟩ (some submitted.venueOrderId)
      submitted.status.fill submitted.filledSize ∈ events) :
    LegSupported events (toSubmittedLeg index answers.leg.venue submitted answers.leg) := by
  have hwhole : submitted.status = .FILLED →
      WholeReported events (toSubmittedLeg index answers.leg.venue submitted answers.leg) := by
    intro hfilled
    rw [hfilled] at hfill
    exact .inl ⟨_, hfill⟩
  refine ⟨fun fill hmem => ?_, fun hfilled => ?_, nofun⟩
  · by_cases hfilled : submitted.status = .FILLED
    · -- a filled order is taken whole
      have hsize : fill.filledSize = answers.leg.size := by
        simp [toSubmittedLeg, hfilled] at hmem
        rw [← hmem]
      rw [hsize]
      exact .inr ⟨hquoted, hwhole hfilled⟩
    · have hsize : fill.filledSize = submitted.filledSize := by
        simp only [toSubmittedLeg, hfilled, if_false, false_or] at hmem
        split at hmem
        · cases hmem
          rfl
        · cases hmem
      rw [hsize]
      exact .inl ⟨_, _, hfill, le_refl _⟩
  · refine hwhole ?_
    cases hstatus : submitted.status with
    | FILLED => rfl
    | SUBMITTED => simp [toSubmittedLeg, hstatus, SubmittedLeg.bare, SubmitStatus.leg] at hfilled
    | PARTIAL_FILL =>
      simp [toSubmittedLeg, hstatus, SubmittedLeg.bare, SubmitStatus.leg] at hfilled

theorem legSupported_result {quote legs : List LegAnswers} {index : ℕ} {dryRun : Bool}
    {submittedLegs : List SubmittedLeg} {result : SubmitResult}
    (hquoted : quotedEvents index legs ⊆ events)
    (horders : dryRun = false → orderEvents index legs ⊆ events)
    (hbefore : ∀ leg ∈ submittedLegs, LegSupported events leg)
    (h : (legsOutcome dryRun index legs submittedLegs).result dryRun quote = some result) :
    ∀ leg ∈ result.submittedLegs, LegSupported events leg := by
  induction legs generalizing index submittedLegs with
  | nil =>
    cases h
    exact hbefore
  | cons answers rest ih =>
    have happend : ∀ next, LegSupported events next →
        ∀ leg ∈ submittedLegs ++ [next], LegSupported events leg :=
      fun next hnext leg hmem => (mem_append.mp hmem).elim (hbefore leg)
        fun hlast => mem_singleton.mp hlast ▸ hnext
    have hrest : quotedEvents (index + 1) rest ⊆ events :=
      fun event hmem => hquoted (mem_cons_of_mem _ hmem)
    rw [legsOutcome] at h
    split at h
    next => cases h
    next hthrows =>
      split at h
      next hdry =>
        refine ih hrest (fun hlive => absurd (hlive.symm.trans hdry) Bool.false_ne_true)
          (happend _ ?_) h
        exact legSupported_unfilled rfl (by rintro ⟨⟩) rfl
      next hlive =>
        have horders' := horders (Bool.eq_false_iff.mpr hlive)
        rw [orderEvents, if_neg hthrows] at horders'
        split at h
        next submitted hok =>
          rw [hok] at horders'
          refine ih hrest (fun _ event hmem => horders' (mem_cons_of_mem _ hmem)) (happend _ ?_) h
          exact legSupported_toSubmittedLeg (hquoted mem_cons_self) (horders' mem_cons_self)
        next normalized _ =>
          cases h
          refine happend _ (legSupported_unfilled rfl ?_ rfl)
          rintro ⟨⟩

theorem legSupported_select {existing next : SubmittedLeg}
    (hexisting : LegSupported events existing) (hnext : LegSupported events next) :
    LegSupported events (selectPreferredSubmittedLeg existing next) := by
  unfold selectPreferredSubmittedLeg
  split
  · exact hexisting
  · split
    next =>
      split
      · exact ⟨hnext.size, hnext.filled, hnext.settled⟩
      · exact hnext
    · exact hnext

/-! ### Legs of a lookup -/

section Lookup

variable {lookup : Lookup} {routeLeg : Option ExecutableRouteLeg} {fill : VenueFillState}
  {settlementState : Option SettlementStatusV0}

theorem effectiveFill_cases (routeLeg : Option ExecutableRouteLeg) (leg : SubmittedLeg)
    (fill : VenueFillState) : effectiveFill routeLeg leg fill = fill ∨
    (leg.status = .FILLED ∧ ∃ route ∈ routeLeg,
      effectiveFill routeLeg leg fill = inferredFilledLegState route) := by
  cases routeLeg with
  | none => exact .inl rfl
  | some route =>
    by_cases hopen : leg.status = .FILLED ∧ fill.status = .OPEN ∧
        ¬ requiresVerifiedSettlementForPosition leg.venue
    · exact .inr ⟨hopen.1, route, rfl, if_pos hopen⟩
    · exact .inl (if_neg hopen)

theorem answeredLeg_fillState (lookup : Lookup) (routeLeg : Option ExecutableRouteLeg)
    (leg : SubmittedLeg) (fill : VenueFillState) (settlementState : Option SettlementStatusV0) :
    ∃ final, (answeredLeg lookup routeLeg leg fill settlementState).fillState = some final ∧
      (final = fill ∨ (requiresVerifiedSettlementForPosition leg.venue = true ∧
        hasVerifiedPositionSettlement settlementState = true ∧
          ∃ route ∈ routeLeg, final = inferredFilledLegState route)) := by
  cases routeLeg with
  | none => exact ⟨fill, rfl, .inl rfl⟩
  | some route =>
    refine ⟨_, rfl, ?_⟩
    dsimp only
    split
    next hverified => exact .inr ⟨hverified.1, hverified.2.1, route, rfl, rfl⟩
    next => exact .inl rfl

theorem SETTLEMENT_VERIFIED_of_verified (h : hasVerifiedPositionSettlement settlementState = true) :
    settlementState = some .SETTLEMENT_VERIFIED := by
  simpa [hasVerifiedPositionSettlement] using h

theorem legSupported_answeredLeg (h : LegSupported events leg)
    (hquoted : ∀ route ∈ routeLeg, LegEvent.quoted leg.legIndex route.size ∈ events)
    (hfill : LegEvent.fill (submittedLegKey leg) leg.venueOrderId fill.status fill.filledSize ∈
      events)
    (hsettled : settlementState = some .SETTLEMENT_VERIFIED →
      LegEvent.settlement (submittedLegKey leg) leg.venueOrderId .SETTLEMENT_VERIFIED ∈ events) :
    LegSupported events (answeredLeg lookup routeLeg leg (effectiveFill routeLeg leg fill)
      settlementState) := by
  have hverified : requiresVerifiedSettlementForPosition leg.venue = true →
      hasVerifiedPositionSettlement settlementState = true → WholeReported events leg :=
    fun hneeds hverified => .inr ⟨hneeds, hsettled (SETTLEMENT_VERIFIED_of_verified hverified)⟩
  refine ⟨fun final hfinal => ?_, fun hfilled => ?_, fun hsettlement => ?_⟩
  · -- where the size comes from
    show SizeCovered events leg final.filledSize
    obtain ⟨final', hfinal', hcases⟩ := answeredLeg_fillState lookup routeLeg leg
      (effectiveFill routeLeg leg fill) settlementState
    cases hfinal'.symm.trans hfinal
    rcases hcases with heffective | ⟨hneeds, hdone, route, hroute, heffective⟩
    · rw [heffective]
      rcases effectiveFill_cases routeLeg leg fill with hsame | ⟨hfilled, route, hroute, hinferred⟩
      · rw [hsame]
        exact .inl ⟨_, _, hfill, le_refl _⟩
      · rw [hinferred]
        exact .inr ⟨hquoted route hroute, h.filled hfilled⟩
    · rw [heffective]
      exact .inr ⟨hquoted route hroute, hverified hneeds hdone⟩
  · show WholeReported events leg
    rw [answeredLeg_FILLED_iff] at hfilled
    split at hfilled
    next hneeds => exact hverified hneeds hfilled.1
    next =>
      rcases hfilled with hstatus | hopen
      · exact .inl ⟨_, hstatus ▸ hfill⟩
      · exact h.filled hopen.1
  · have hor : settlementState.or leg.settlementState = some .SETTLEMENT_VERIFIED := hsettlement
    cases hstate : settlementState with
    | none =>
      rw [hstate, Option.none_or] at hor
      exact h.settled hor
    | some status =>
      rw [hstate, Option.some_or] at hor
      exact hsettled (hstate.trans hor)

theorem legSupported_refreshLeg {route : Option (List ExecutableRouteLeg)}
    (h : LegSupported events leg)
    (hroute : ∀ legs ∈ route, ∀ legIndex leg, legs[legIndex]? = some leg →
      LegEvent.quoted legIndex leg.size ∈ events)
    (hevents : lookupEvents lookup route leg ⊆ events) :
    LegSupported events (refreshLeg lookup route leg) := by
  have hunanswered : ∀ message, LegSupported events (unansweredLeg lookup leg message) :=
    fun _ => ⟨h.size, h.filled, h.settled⟩
  have hquoted : ∀ routeLeg ∈ route.bind fun legs => legs[leg.legIndex]?,
      LegEvent.quoted leg.legIndex routeLeg.size ∈ events := by
    intro routeLeg hmem
    obtain ⟨legs, hlegs, hleg⟩ := Option.bind_eq_some_iff.mp hmem
    exact hroute legs hlegs leg.legIndex routeLeg hleg
  unfold refreshLeg
  unfold lookupEvents at hevents
  by_cases hleft : isLeft leg
  · rw [if_pos hleft]
    exact h
  · rw [if_neg hleft]
    dsimp only at hevents ⊢
    by_cases hinferred : isInferred (route.bind fun legs => legs[leg.legIndex]?) leg
    · rw [if_pos hinferred]
      have hfilled : leg.status = .FILLED := (of_decide_eq_true hinferred).1
      refine ⟨fun fill hfill => ?_, h.filled, h.settled⟩
      obtain ⟨routeLeg, hmem, rfl⟩ := Option.map_eq_some_iff.mp hfill
      exact .inr ⟨hquoted routeLeg hmem, h.filled hfilled⟩
    · rw [if_neg hinferred]
      rw [if_neg (not_or.mpr ⟨hleft, hinferred⟩)] at hevents
      cases hfill : (lookup.reply leg).fill with
      | error message => exact hunanswered message
      | ok fill =>
        rw [hfill] at hevents
        dsimp only at hevents ⊢
        have hreported := hevents mem_cons_self
        cases hsettlement : settlementFor lookup leg (effectiveFill
            (route.bind fun legs => legs[leg.legIndex]?) leg fill) with
        | error message => exact hunanswered message
        | ok settlementState =>
          refine legSupported_answeredLeg h hquoted hreported fun hverified => ?_
          rw [settlementFor] at hsettlement
          split at hsettlement
          next hasked =>
            rw [if_pos hasked] at hevents
            cases hanswer : (lookup.reply leg).settlement with
            | error message =>
              rw [hanswer] at hsettlement
              cases hsettlement
            | ok status =>
              rw [hanswer] at hsettlement hevents
              cases hsettlement
              cases hverified
              exact hevents (mem_cons_of_mem _ mem_cons_self)
          next =>
            cases hsettlement
            exact h.settled hverified

end Lookup

/-! ## Operations -/

section Step

variable {s : BundleState} {status : SignedTradeExecutionStatus}

theorem quotedEvents_mem {legs : List LegAnswers} {index : ℕ}
    (hquoted : quotedEvents index legs ⊆ events) {i : ℕ} {routeLeg : ExecutableRouteLeg}
    (hleg : (legs.map (·.leg))[i]? = some routeLeg) :
    LegEvent.quoted (index + i) routeLeg.size ∈ events := by
  induction legs generalizing index i with
  | nil => cases hleg
  | cons answers rest ih =>
    cases i with
    | zero =>
      cases hleg
      exact hquoted mem_cons_self
    | succ i =>
      have hrest := ih (fun event hmem => hquoted (mem_cons_of_mem _ hmem)) (i := i)
        (by simpa using hleg)
      rwa [Nat.add_assoc, Nat.add_comm 1 i] at hrest

theorem Supported.positions_append {s : TrackedState} (hs : Supported s) (hsub : s.events ⊆ events)
    (h : StatusSupported events (some status)) :
    ∀ leg ∈ s.state.positions ++ filledPositions status, ∃ fill, leg.fillState = some fill ∧
      SizeCovered events leg fill.filledSize := by
  intro leg hmem
  rcases mem_append.mp hmem with hold | hnew
  · obtain ⟨fill, hfill, hcovered⟩ := hs.positions leg hold
    exact ⟨fill, hfill, hcovered.mono hsub⟩
  · obtain ⟨hleg, -, -, hsome, -⟩ := mem_filledPositions hnew
    obtain ⟨fill, hfill⟩ := Option.isSome_iff_exists.mp hsome
    exact ⟨fill, hfill, (h.legs leg hleg).size fill hfill⟩

theorem Supported.written {s : TrackedState} (hs : Supported s)
    (hproper : Proper (s.state.written status)) (hsub : s.events ⊆ events)
    (h : StatusSupported events (some status)) : Supported ⟨s.state.written status, events⟩ :=
  ⟨hproper, h, h, hs.positions_append hsub h⟩

theorem Supported.watched {s : TrackedState} (hs : Supported s)
    (hproper : Proper (s.state.watched status)) (hsub : s.events ⊆ events)
    (h : StatusSupported events (some status)) : Supported ⟨s.state.watched status, events⟩ :=
  ⟨hproper, hs.memory.mono hsub, h, hs.positions_append hsub h⟩

theorem Supported.mono {s : TrackedState} (hs : Supported s) (hsub : s.events ⊆ events) :
    Supported ⟨s.state, events⟩ where
  proper := hs.proper
  memory := hs.memory.mono hsub
  repository := hs.repository.mono hsub
  positions leg hmem := by
    obtain ⟨fill, hfill, hcovered⟩ := hs.positions leg hmem
    exact ⟨fill, hfill, hcovered.mono hsub⟩

theorem Supported.of_sameStores {t : BundleState} (hs : Supported ⟨s, events⟩)
    (h : SameStores s t) : Supported ⟨t, events⟩ where
  proper := hs.proper.of_sameStores h
  memory := h.executionStatuses ▸ hs.memory
  repository := h.repository ▸ hs.repository
  positions := h.positions ▸ hs.positions

theorem Supported.read {s : TrackedState} (hs : Supported s) :
    StatusSupported s.events s.state.stored := by
  unfold BundleState.stored
  cases hmemory : s.state.executionStatuses with
  | none => exact hs.repository
  | some status =>
    have hsupported := hs.memory
    rw [hmemory] at hsupported
    exact hsupported

theorem statusSupported_refresh {lookup : Lookup} (h : StatusSupported events (some status))
    (hevents : refreshEvents lookup status ⊆ events) :
    StatusSupported events (some (refreshStoredExecutionStatus lookup status)) := by
  unfold refreshStoredExecutionStatus
  split
  · exact h
  · refine ⟨fun leg hmem => ?_, fun _ hnext => ?_⟩
    · obtain ⟨old, hold, rfl⟩ := mem_map.mp hmem
      refine legSupported_refreshLeg (h.legs old hold) (h.route status rfl) fun event hevent => ?_
      exact hevents (mem_flatMap.mpr ⟨old, hold, hevent⟩)
    · cases hnext
      exact h.route status rfl

theorem statusSupported_recorded {call : SubmitCall} {result : SubmitResult}
    {legs : List LegAnswers} (hs : Proper s) (h : StatusSupported events s.stored)
    (hresult : submitResult s call = some result) (hquote : call.quote = some legs)
    (hquoted : quotedEvents 0 legs ⊆ events)
    (horders : call.dryRun = false → orderEvents 0 legs ⊆ events) :
    StatusSupported events (some (result.recorded localeCompare s call)) := by
  obtain ⟨legs', hquote', hlegs⟩ := submitResult_eq hresult
  cases hquote.symm.trans hquote'
  have hlegsQuote : result.quote = legs := by
    revert hlegs
    cases legsOutcome call.dryRun 0 legs [] <;> rintro ⟨⟩ <;> rfl
  refine ⟨?_, fun _ hnext route hroute legIndex leg hleg => ?_⟩
  · refine forall_mem_merge hs.stored.1 (fun _ _ => legSupported_select) h.legs ?_
    exact legSupported_result hquoted horders (fun _ hmem => (not_mem_nil hmem).elim) hlegs
  · cases hnext
    -- the route that is stored, or the one of the quote
    have hor : (s.stored.bind (·.route)).or (some (result.quote.map (·.leg))) = some route := hroute
    cases hstored : s.stored.bind (·.route) with
    | none =>
      rw [hstored, Option.none_or, Option.some.injEq] at hor
      rw [← hor, hlegsQuote] at hleg
      simpa using quotedEvents_mem hquoted hleg
    | some route' =>
      rw [hstored, Option.some_or] at hor
      obtain ⟨status, hstatus, hroute'⟩ := Option.bind_eq_some_iff.mp (hstored.trans hor)
      exact h.route status hstatus route hroute' legIndex leg hleg

end Step

/-- **One operation** leaves what is stored supported. -/
theorem Supported.step {s t : TrackedState} (hs : Supported s) {operation : BundleOperation}
    (h : trackedStep localeCompare s operation = some t) : Supported t := by
  have hproper : ∀ next, operationStep localeCompare s.state operation = some next → Proper next :=
    fun next hnext => hs.proper.step hnext
  cases h
  have hsub : s.events ⊆ s.events ++ operationEvents s.state operation := subset_append_left _ _
  have hnew : operationEvents s.state operation ⊆ s.events ++ operationEvents s.state operation :=
    subset_append_right _ _
  generalize s.events ++ operationEvents s.state operation = later at hsub hnew ⊢
  have hread := hs.read.mono hsub
  cases operation with
  | submit call =>
    refine Supported.of_sameStores ?_ (run_submit localeCompare call s.state)
    have hsubmitted := hs.proper.submitted localeCompare call
    cases hresult : submitResult s.state call with
    | none => exact hs.mono hsub
    | some result =>
      rw [hresult] at hsubmitted
      obtain ⟨legs, hquote, -⟩ := submitResult_eq hresult
      have hevents : operationEvents s.state (.submit call) = quotedEvents 0 legs ++
          if isAdmitted s.state call ∧ !call.dryRun then orderEvents 0 legs else [] := by
        rw [operationEvents, hquote]
      rw [hevents] at hnew
      refine hs.written hsubmitted hsub (statusSupported_recorded hs.proper hread hresult hquote
        (fun event hmem => hnew (mem_append_left _ hmem)) fun hlive event hmem => ?_)
      refine hnew (mem_append_right _ ?_)
      rw [if_pos ⟨isAdmitted_of_result hresult, by rw [hlive]; rfl⟩]
      exact hmem
  | getExecutionStatus lookup =>
    have hnext := hproper _ rfl
    change Proper ((getExecutionStatus lookup).run handle s.state).2 at hnext
    show Supported ⟨((getExecutionStatus lookup).run handle s.state).2, _⟩
    rw [run_getExecutionStatus] at hnext ⊢
    rw [operationEvents] at hnew
    cases hstored : s.state.stored with
    | none => exact hs.mono hsub
    | some stored =>
      rw [hstored] at hnext hnew hread
      cases hdry : stored.dryRun with
      | true =>
        simp only [hdry, if_true]
        exact hs.mono hsub
      | false =>
        simp only [hdry, Bool.false_eq_true, if_false] at hnext hnew ⊢
        exact hs.written hnext hsub (statusSupported_refresh hread hnew)
  | refreshStatus lookup =>
    have hnext := hproper _ rfl
    change Proper ((refreshStatus lookup).run handle s.state).2 at hnext
    show Supported ⟨((refreshStatus lookup).run handle s.state).2, _⟩
    have hrepository := hs.repository.mono hsub
    rw [run_refreshStatus] at hnext ⊢
    rw [operationEvents] at hnew
    cases hstored : s.state.repository with
    | none => exact hs.mono hsub
    | some stored =>
      rw [hstored] at hnext hnew hrepository
      cases hactive : isActive stored with
      | false =>
        simp only [hactive, Bool.false_eq_true, if_false]
        exact hs.mono hsub
      | true =>
        simp only [hactive, if_true] at hnext hnew ⊢
        exact hs.watched hnext hsub (statusSupported_refresh hrepository hnew)

/-- **Every position** is covered by what the venues have reported, after any operations. -/
theorem positions_covered (localeCompare : String → String → Ordering)
    (operations : List BundleOperation) :
    ∀ t ∈ states (trackedStep localeCompare) operations ⟨unstored, []⟩,
      ∀ leg ∈ t.state.positions, ∃ fill, leg.fillState = some fill ∧
        SizeCovered t.events leg fill.filledSize := by
  have hs : Supported ⟨unstored, []⟩ := by
    refine ⟨unstored_proper, ⟨?_, ?_⟩, ⟨?_, ?_⟩, ?_⟩ <;> rintro _ ⟨⟩
  exact fun t ht => (forall_mem_states (fun s operation t hs h => hs.step h) hs t ht).positions

/-! ### Filled whole, reported in cash -/

/-- An order for 80 shares is answered as filled, with 4/5 as the size. -/
def cashFilled : SubmitCall where
  dryRun := false
  quote := some [⟨⟨"PREDICT_FUN", 80, 1 / 100⟩, false,
    .ok ⟨"venue-order-1", none, .FILLED, 4 / 5, 0⟩⟩]
  ready := true
  recordThrows := false
  now := 1000

def wholeLeg : SubmittedLeg :=
  { SubmittedLeg.bare 0 "PREDICT_FUN" .FILLED with
    venueOrderId := some "venue-order-1"
    fillState := some ⟨.FILLED, 80, 1 / 100, true⟩ }

/-- All 80 are recorded, because the order was reported as filled. -/
theorem positions_covered_cashFilled :
    ∃ t ∈ states (trackedStep compare) [.submit cashFilled] ⟨unstored, []⟩,
      wholeLeg ∈ t.state.positions ∧ ∃ fill, wholeLeg.fillState = some fill ∧
        SizeCovered t.events wholeLeg fill.filledSize := by
  let t : TrackedState := ⟨((submit compare cashFilled).run handle unstored).2,
    operationEvents unstored (.submit cashFilled)⟩
  have hstates : states (trackedStep compare) [.submit cashFilled] ⟨unstored, []⟩ =
      [⟨unstored, []⟩, t] := rfl
  have hlast : t ∈ states (trackedStep compare) [.submit cashFilled] ⟨unstored, []⟩ := by
    rw [hstates]
    exact mem_cons_of_mem _ (mem_singleton_self t)
  have hpositions : t.state.positions = [wholeLeg] := by decide +kernel
  have hwhole : wholeLeg ∈ t.state.positions := hpositions ▸ mem_singleton_self _
  exact ⟨t, hlast, hwhole, positions_covered compare [.submit cashFilled] t hlast wholeLeg hwhole⟩

/-- No more than 4/5 was reported. -/
theorem cashFilled_beyondReported : ¬ ∀ localeCompare operations,
    ∀ t ∈ states (trackedStep localeCompare) operations ⟨unstored, []⟩,
      ∀ leg ∈ t.state.positions, ∃ fill, leg.fillState = some fill ∧
        ∃ status reported, LegEvent.fill (submittedLegKey leg) leg.venueOrderId status reported ∈
          t.events ∧ fill.filledSize ≤ reported := by
  intro h
  let t : TrackedState := ⟨((submit compare cashFilled).run handle unstored).2,
    operationEvents unstored (.submit cashFilled)⟩
  have hstates : states (trackedStep compare) [.submit cashFilled] ⟨unstored, []⟩ =
      [⟨unstored, []⟩, t] := rfl
  have hlast : t ∈ states (trackedStep compare) [.submit cashFilled] ⟨unstored, []⟩ := by
    rw [hstates]
    exact mem_cons_of_mem _ (mem_singleton_self t)
  have hpositions : t.state.positions = [wholeLeg] := by decide +kernel
  have hevents : t.events =
      [.quoted 0 80, .fill ⟨0, "PREDICT_FUN"⟩ (some "venue-order-1") .FILLED (4 / 5)] := by
    decide +kernel
  obtain ⟨fill, hfill, status, reported, hmem, hle⟩ :=
    h compare [.submit cashFilled] t hlast wholeLeg (hpositions ▸ mem_singleton_self _)
  have hsize : fill.filledSize = 80 := by
    cases hfill
    rfl
  have hreported : reported = 4 / 5 := by
    rw [hevents] at hmem
    have hsame := mem_singleton.mp ((mem_cons.mp hmem).resolve_left (by rintro ⟨⟩))
    injection hsame
  rw [hsize, hreported] at hle
  exact absurd hle (by decide +kernel)

end LotusRfq.Bundles
