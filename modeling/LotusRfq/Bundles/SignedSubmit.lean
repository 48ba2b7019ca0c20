import LotusRfq.Bundles.Service
import LotusRfq.Signing.SignedPayload

/-!
# LotusRfq — `SignedTradeBundleService.submit`, signatures and orders

The legs of a quote are handled one after the other: the order of a leg is prepared, its signed
payload is looked up and verified, and the order goes to the venue before the next leg is looked
at. What throws ends the call; what a venue refuses is recorded and returned. So a payload that
is missing or wrong is found before any order only if it is the first leg's.

* **`submitLegs_calls`** — the orders are those of the service's `submit`;
* **`allOrNothing_iff`** — exactly when a call that throws has sent no order.
-/

namespace LotusRfq.Bundles

open Js Signing Processes

/-! ## Legs and payloads -/

structure SignedTradeLegPayload where
  legIndex : ℕ
  venue : String
  requestType : Option String
  signedPayload : Json

/-- A leg of the quote with what is answered while it is handled: the prepared order, the linked
account, and the venue's answer to the order. -/
structure QuoteLeg where
  leg : ExecutableRouteLeg
  requiresUserSignature : Bool
  prepareOrder : Except String PreparedVenueOrder
  expectedBinding : Except String ExpectedBinding
  submitOrder : Except NormalizedVenueError VenueSubmitResult

/-- `signedByLeg.get(key) ?? []`. -/
def payloadsOf (signedLegs : List SignedTradeLegPayload) (index : ℕ) (venue : String) :
    List SignedTradeLegPayload :=
  signedLegs.filter fun payload =>
    payload.legIndex = index ∧ payload.venue.toUpper = venue.toUpper

def isOrderPayload (payload : SignedTradeLegPayload) : Bool :=
  payload.requestType = some "ORDER" ∨
    stringField payload.signedPayload "purpose" = some "POLYMARKET_ORDER" ∨
    (recordField ((recordField payload.signedPayload "data").getD (.object [])) "order").isSome

/-- `selectSignedPayload`, with the other payloads of a Polymarket leg beside the one selected. -/
def selectSignedPayload (prepared : PreparedVenueOrder)
    (signedPayloads : List SignedTradeLegPayload) : Option Json :=
  match prepared.venue with
  | .POLYMARKET => do
    let index ← signedPayloads.findIdx? isOrderPayload
    let signed ← signedPayloads[index]?
    return signed.signedPayload.set "relatedSignedPayloads"
      (.array ((signedPayloads.eraseIdx index).map (·.signedPayload)))
  | _ => signedPayloads.head?.map (·.signedPayload)

section Submit

variable (verifiers : TypedDataVerifiers)

/-- What may throw on a leg before its order is submitted. -/
def checkLeg (signedLegs : List SignedTradeLegPayload) (index : ℕ) (leg : QuoteLeg) :
    Except String Unit := do
  let prepared ← leg.prepareOrder
  if leg.requiresUserSignature then
    let signed ← present
      (selectSignedPayload prepared (payloadsOf signedLegs index leg.leg.venue))
      "SIGNED_TRADE_LEG_MISSING"
    let binding ← leg.expectedBinding
    verifySignedPayload verifiers prepared binding signed

structure CheckedLeg where
  leg : ExecutableRouteLeg
  check : Except String Unit
  submitted : Except NormalizedVenueError VenueSubmitResult

def checkedLegs (signedLegs : List SignedTradeLegPayload) (legs : List QuoteLeg) :
    List CheckedLeg :=
  legs.zipIdx.map fun (leg, index) =>
    { leg := leg.leg
      check := checkLeg verifiers signedLegs index leg
      submitted := leg.submitOrder }

/-- How the loop over the legs ends when nothing throws. -/
inductive LegsEnd where
  | failed
  | done

def submitCheckedLegs (dryRun : Bool) : ℕ → List CheckedLeg →
    Except String LegsEnd × List OrderCall
  | _, [] => (.ok .done, [])
  | index, leg :: rest =>
    match leg.check with
    | .error error => (.error error, [])
    | .ok _ =>
      if dryRun then submitCheckedLegs dryRun (index + 1) rest
      else
        match leg.submitted with
        | .error _ => (.ok .failed, [⟨index, false⟩])
        | .ok _ =>
          let ended := submitCheckedLegs dryRun (index + 1) rest
          (ended.1, ⟨index, true⟩ :: ended.2)

/-- A call of `submit`, with what is answered to it. -/
structure SignedSubmitCall where
  dryRun : Bool
  signedLegs : List SignedTradeLegPayload
  requireFreshQuote : Except String (List QuoteLeg)
  findStoredExecutionStatus : Except String (Option SignedTradeExecutionStatus)
  /-- The live readiness; it throws unless it is fresh. -/
  liveReadiness : Except String Unit
  recordExecutionStatus : Except String Unit

/-- What stands before the loop over the legs: the legs, unless the call is a duplicate. -/
def legsToSubmit (call : SignedSubmitCall) : Except String (Option (List CheckedLeg)) := do
  let quote ← call.requireFreshQuote
  let existing ← if call.dryRun then pure none else call.findStoredExecutionStatus
  if isDuplicate existing then return none
  else
    if ¬ call.dryRun then call.liveReadiness
    return some (checkedLegs verifiers call.signedLegs quote)

/-- `submit`: how the call ends, and the orders it submits. -/
def submitSigned (call : SignedSubmitCall) : Except String Unit × List OrderCall :=
  match legsToSubmit verifiers call with
  | .error error => (.error error, [])
  | .ok none => (.ok (), [])
  | .ok (some legs) =>
    match submitCheckedLegs call.dryRun 0 legs with
    | (.error error, calls) => (.error error, calls)
    | (.ok _, calls) => (call.recordExecutionStatus, calls)

end Submit

/-! ## Throwing and submitting -/

def CheckedLeg.Throws (leg : CheckedLeg) : Prop := ∃ error, leg.check = .error error

def CheckedLeg.Refused (leg : CheckedLeg) : Prop := ∃ error, leg.submitted = .error error

def FirstThrows (legs : List CheckedLeg) : Prop := ∃ leg, legs.head? = some leg ∧ leg.Throws

/-- No leg after the first is the first to throw: one before it throws or is refused. -/
def VerifiedFirst (legs : List CheckedLeg) : Prop :=
  ∀ (index : ℕ) (leg : CheckedLeg), 0 < index → legs[index]? = some leg → leg.Throws →
    ∃ (before : ℕ) (earlier : CheckedLeg), before < index ∧ legs[before]? = some earlier ∧
      (earlier.Throws ∨ earlier.Refused)

def CheckedLeg.answers (leg : CheckedLeg) : LegAnswers where
  leg := leg.leg
  throws := !leg.check.toBool
  submitted := leg.submitted

variable {leg : CheckedLeg}

section Loop

variable {index : ℕ} {legs : List CheckedLeg}

theorem submitCheckedLegs_dryRun : (submitCheckedLegs true index legs).2 = [] := by
  induction legs generalizing index with
  | nil => rfl
  | cons leg legs ih =>
    unfold submitCheckedLegs
    cases leg.check with
    | error error => rfl
    | ok _ => exact ih

theorem submitCheckedLegs_calls :
    (submitCheckedLegs false index legs).2 = [] ↔ legs = [] ∨ FirstThrows legs := by
  cases legs with
  | nil => simp [submitCheckedLegs]
  | cons leg legs =>
    have hfirst : FirstThrows (leg :: legs) ↔ leg.Throws := by
      simp [FirstThrows]
    rw [hfirst]
    unfold submitCheckedLegs CheckedLeg.Throws
    cases leg.check with
    | error error => simp
    | ok _ => cases leg.submitted <;> simp

/-- A leg that throws and before which no leg throws or is refused. -/
def Interrupted (legs : List CheckedLeg) : Prop :=
  ∃ (place : ℕ) (leg : CheckedLeg), legs[place]? = some leg ∧ leg.Throws ∧
    ∀ before < place, ∀ earlier, legs[before]? = some earlier →
      ¬ earlier.Throws ∧ ¬ earlier.Refused

theorem interrupted_of_throws (h : leg.Throws) : Interrupted (leg :: legs) :=
  ⟨0, leg, rfl, h, fun before hbefore => absurd hbefore (Nat.not_lt_zero before)⟩

theorem not_interrupted_of_refused (hchecked : ¬ leg.Throws) (h : leg.Refused) :
    ¬ Interrupted (leg :: legs) := by
  rintro ⟨place, other, hplace, hthrows, hearlier⟩
  cases place with
  | zero =>
    obtain rfl : leg = other := Option.some.inj hplace
    exact hchecked hthrows
  | succ place => exact (hearlier 0 (Nat.succ_pos place) leg rfl).2 h

theorem interrupted_of_accepted (hchecked : ¬ leg.Throws) (haccepted : ¬ leg.Refused) :
    Interrupted (leg :: legs) ↔ Interrupted legs := by
  constructor
  · rintro ⟨place, other, hplace, hthrows, hearlier⟩
    cases place with
    | zero =>
      obtain rfl : leg = other := Option.some.inj hplace
      exact absurd hthrows hchecked
    | succ place =>
      exact ⟨place, other, hplace, hthrows, fun before hbefore earlier hmem =>
        hearlier (before + 1) (Nat.succ_lt_succ hbefore) earlier hmem⟩
  · rintro ⟨place, other, hplace, hthrows, hearlier⟩
    refine ⟨place + 1, other, hplace, hthrows, fun before hbefore earlier hmem => ?_⟩
    cases before with
    | zero =>
      obtain rfl : leg = earlier := Option.some.inj hmem
      exact ⟨hchecked, haccepted⟩
    | succ before => exact hearlier before (Nat.lt_of_succ_lt_succ hbefore) earlier hmem

theorem submitCheckedLegs_throws :
    (∃ error, (submitCheckedLegs false index legs).1 = .error error) ↔ Interrupted legs := by
  induction legs generalizing index with
  | nil => simp [submitCheckedLegs, Interrupted]
  | cons leg legs ih =>
    unfold submitCheckedLegs
    cases hcheck : leg.check with
    | error error => exact ⟨fun _ => interrupted_of_throws ⟨error, hcheck⟩, fun _ => ⟨error, rfl⟩⟩
    | ok _ =>
      have hchecked : ¬ leg.Throws := by
        rintro ⟨error, herror⟩
        rw [hcheck] at herror
        cases herror
      simp only [Bool.false_eq_true, if_false]
      cases hsubmitted : leg.submitted with
      | error error =>
        refine iff_of_false ?_ (not_interrupted_of_refused hchecked ⟨error, hsubmitted⟩)
        rintro ⟨_, h⟩
        cases h
      | ok submitted =>
        have haccepted : ¬ leg.Refused := by
          rintro ⟨error, herror⟩
          rw [hsubmitted] at herror
          cases herror
        rw [interrupted_of_accepted hchecked haccepted]
        exact ih

/-- Only the first leg can interrupt the loop, exactly when every other leg that throws comes
after one that throws or is refused. -/
theorem verifiedFirst_iff : VerifiedFirst legs ↔ (Interrupted legs → FirstThrows legs) := by
  constructor
  · rintro h ⟨place, leg, hplace, hthrows, hearlier⟩
    cases place with
    | zero => exact ⟨leg, by rwa [List.head?_eq_getElem?], hthrows⟩
    | succ place =>
      obtain ⟨before, earlier, hbefore, hmem, hbad⟩ :=
        h (place + 1) leg (Nat.succ_pos place) hplace hthrows
      obtain ⟨hnot, hnot'⟩ := hearlier before hbefore earlier hmem
      exact (hbad.elim hnot hnot').elim
  · intro h place leg hpos hplace hthrows
    by_contra hnone
    have hinterrupted : Interrupted legs := by
      refine ⟨place, leg, hplace, hthrows, fun before hbefore earlier hmem => ?_⟩
      exact not_or.mp fun hbad => hnone ⟨before, earlier, hbefore, hmem, hbad⟩
    obtain ⟨first, hfirst, hthrows'⟩ := h hinterrupted
    rw [List.head?_eq_getElem?] at hfirst
    exact hnone ⟨0, first, hpos, hfirst, .inl hthrows'⟩

/-- The legs are verified first exactly when a loop that throws has submitted nothing. -/
theorem verifiedFirst_iff_calls :
    VerifiedFirst legs ↔ ((∃ error, (submitCheckedLegs false index legs).1 = .error error) →
      (submitCheckedLegs false index legs).2 = []) := by
  rw [verifiedFirst_iff, submitCheckedLegs_throws, submitCheckedLegs_calls]
  constructor
  · exact fun h hinterrupted => .inr (h hinterrupted)
  · intro h hinterrupted
    cases h hinterrupted with
    | inl hnil =>
      -- a loop over no legs is not interrupted
      obtain ⟨place, leg, hplace, _⟩ := hinterrupted
      simp [hnil] at hplace
    | inr hfirst => exact hfirst

end Loop

/-! ## All or nothing -/

section Calls

variable {verifiers : TypedDataVerifiers} {call : SignedSubmitCall}

def AllOrNothing (verifiers : TypedDataVerifiers) (call : SignedSubmitCall) : Prop :=
  ∀ error, (submitSigned verifiers call).1 = .error error → (submitSigned verifiers call).2 = []

/-- The call gets to legs only in a dry run, or with nothing that could throw after an order:
no leg but the first is the first to throw unless the venue has refused an order before, and the
result is recorded if any order is submitted. -/
def SafeToSubmit (verifiers : TypedDataVerifiers) (call : SignedSubmitCall) : Prop :=
  ∀ legs, legsToSubmit verifiers call = .ok (some legs) →
    call.dryRun = true ∨ (VerifiedFirst legs ∧
      ((∃ error, call.recordExecutionStatus = .error error) → legs = [] ∨ FirstThrows legs))

/-- **All or nothing.** A call of `submit` that throws has sent no order to any venue, exactly
when nothing can throw once an order is sent. -/
theorem allOrNothing_iff : AllOrNothing verifiers call ↔ SafeToSubmit verifiers call := by
  unfold AllOrNothing SafeToSubmit submitSigned
  cases hlegs : legsToSubmit verifiers call with
  | error error => simp
  | ok found =>
    cases found with
    | none => simp
    | some legs =>
      simp only [Except.ok.injEq, Option.some.injEq, forall_eq']
      cases hdry : call.dryRun with
      | true =>
        refine iff_of_true ?_ (.inl rfl)
        intro error _
        have hcalls := @submitCheckedLegs_dryRun 0 legs
        split
        · rename_i hloop
          rw [hloop] at hcalls
          exact hcalls
        · rename_i hloop
          rw [hloop] at hcalls
          exact hcalls
      | false =>
        simp only [Bool.false_eq_true, false_or]
        rw [@verifiedFirst_iff_calls 0 legs, ← @submitCheckedLegs_calls 0 legs]
        cases hloop : submitCheckedLegs false 0 legs with
        | mk ended calls =>
          cases ended with
          | error error =>
            have hthrown : ∃ error', (Except.error error : Except String LegsEnd) = .error error' :=
              ⟨error, rfl⟩
            constructor
            · intro h
              have hcalls : calls = [] := h error rfl
              exact ⟨fun _ => hcalls, fun _ => hcalls⟩
            · exact fun h _ _ => h.1 hthrown
          | ok _ => simp [forall_exists_index]

end Calls

/-! ## A signature that is missing on the second leg -/

def trustingVerifiers : TypedDataVerifiers where
  verifyTypedData := fun _ _ _ _ => some "0xsigner"
  verifyTypedDataV6 := fun _ _ _ _ => some "0xsigner"

def linkedAccount : ExpectedBinding where
  userId := "user"
  signerAddress := "0xsigner"
  venueAccountAddress := "0xaccount"
  venueAccountId := none

def limitlessOrder : PreparedVenueOrder where
  venue := .LIMITLESS
  venueMarketId := "market"
  venueOutcomeId := "token"
  side := .buy
  size := 10
  price := 1 / 2
  exchange := none
  expiresAt := 100
  metadata := .null

def limitlessLeg : QuoteLeg where
  leg := { venue := "LIMITLESS", size := 10, price := 1 / 2 }
  requiresUserSignature := true
  prepareOrder := .ok limitlessOrder
  expectedBinding := .ok linkedAccount
  submitOrder := .ok
    { venueOrderId := "order", fillId := none, status := .SUBMITTED, filledSize := 0,
      averagePrice := 0 }

def signedFirstLeg : SignedTradeLegPayload where
  legIndex := 0
  venue := "LIMITLESS"
  requestType := none
  signedPayload := .object
    [("signer", .string "0xsigner"), ("account", .string "0xaccount"),
      ("signature", .string (String.ofList ('0' :: 'x' :: List.replicate 130 'a'))),
      ("typedData", .object [("message", .object [])])]

/-- Two legs, of which the client has signed the first. -/
def partlySigned : SignedSubmitCall where
  dryRun := false
  signedLegs := [signedFirstLeg]
  requireFreshQuote := .ok [limitlessLeg, limitlessLeg]
  findStoredExecutionStatus := .ok none
  liveReadiness := .ok ()
  recordExecutionStatus := .ok ()

/-- The call throws because the second leg is not signed, when the order of the first has been
sent. -/
theorem partlySigned_sends : submitSigned trustingVerifiers partlySigned =
      (.error "SIGNED_TRADE_LEG_MISSING", [⟨0, true⟩]) := by
  decide +kernel

/-- A signature that is missing is not always found before an order is sent. -/
theorem partlySigned_not_allOrNothing : ¬ AllOrNothing trustingVerifiers partlySigned := by
  intro h
  have hcalls := h "SIGNED_TRADE_LEG_MISSING" (by rw [partlySigned_sends])
  rw [partlySigned_sends] at hcalls
  exact List.cons_ne_nil _ _ hcalls

end LotusRfq.Bundles
