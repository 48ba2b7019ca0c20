import LotusRfq.Crossing.TakerBound
import LotusRfq.Sor.RouteScout

/-!
# LotusRfq — when `OrderRouter` calls a request filled internally

The router goes by what the engine says is left of the taker's order. An order that meets one of
its own user's is cancelled by setting what is left to nothing, which reads as an order that is
filled. Everything else that a call does keeps what it has traded and what is left to the size it
was given.

* **`consider_cancelled`** — a cancelled order ends with nothing left, whatever it has traded;
* **`crossStep_accounts`** — every other step keeps the account;
* **`internalFilled_sound`** — along every run in which no order is cancelled.
-/

namespace LotusRfq.Crossing

open Calls Transitions List

/-! ## The router -/

/-- What `evaluateInternalCross` makes of a request. -/
inductive InternalCross where
  | internal_filled (filledSize : ℚ) (trades : List Trade)
  | external_only (crossingFilledSize remainingSize : ℚ)

/-- `quantity` and `price` are the numbers of the request and of the quote. -/
def buildInternalTakerOrder (rfq : Sor.CanonicalRFQInput) (quantity price : ℚ) (now : ℕ) :
    InternalOrder :=
  { id := rfq.rfqId
    market_id := rfq.canonicalMarketId
    user_id := rfq.takerId
    side := rfq.side
    price := price
    initial_size := quantity
    remaining_size := quantity
    status := .OPEN
    resolution_profile_id := none
    created_at := now }

/-- The answer of the engine is read only where internal crossing is on. -/
def evaluateInternalCross (killSwitchActive internalCrossingEnabled : Bool)
    (internalOrder : InternalOrder) (crossResult : CrossResult) : InternalCross :=
  if killSwitchActive then .external_only 0 internalOrder.remaining_size
  else if ¬ internalCrossingEnabled then .external_only 0 internalOrder.remaining_size
  else if crossResult.remainingSize ≤ 0 then
    .internal_filled crossResult.filledSize crossResult.trades
  else .external_only crossResult.filledSize crossResult.remainingSize

theorem internal_filled_left {killSwitchActive internalCrossingEnabled : Bool}
    {internalOrder : InternalOrder} {crossResult : CrossResult} {filledSize : ℚ}
    {trades : List Trade}
    (h : evaluateInternalCross killSwitchActive internalCrossingEnabled internalOrder crossResult =
      .internal_filled filledSize trades) :
    crossResult.remainingSize ≤ 0 ∧ filledSize = crossResult.filledSize ∧
      trades = crossResult.trades := by
  unfold evaluateInternalCross at h
  split at h
  next => cases h
  next =>
    split at h
    next => cases h
    next =>
      split at h
      next hleft =>
        cases h
        exact ⟨hleft, rfl, rfl⟩
      next => cases h

/-! ## Orders that are cancelled -/

/-- **A cancelled order** ends with nothing left of it, of which no more is traded than before. -/
theorem consider_cancelled {service : Bool} {call : Cross}
    {candidates : List RedisBookOrder} (h : call.ownAhead service candidates = true) :
    0 < call.remainingTakerSize ∧
      (consider service call candidates).phase =
        .finished ⟨call.filledTakerSize, 0, call.trades⟩ := by
  induction candidates with
  | nil => cases h
  | cons makerEntry rest ih =>
    rw [Cross.ownAhead] at h
    rw [consider]
    split at h
    next => cases h
    next hleft =>
      rw [if_neg hleft]
      split at h
      next hown =>
        rw [if_pos hown]
        refine ⟨not_le.mp hleft, ?_⟩
        unfold Cross.endBatch
        split
        · rfl
        · rfl
      next hother =>
        rw [if_neg hother]
        split at h
        next => cases h
        next hprofile =>
          rw [if_neg hprofile]
          split at h
          next => cases h
          next hservice =>
            rw [if_neg hservice]
            exact ih h

/-! ## One action of a call -/

/-- What a call has traded is recorded, and with what is left it is what the call was given. -/
structure Accounts (db : CrossDb) (call : Cross) : Prop where
  traded : (call.trades.map Trade.size).sum = call.filledTakerSize
  total : call.filledTakerSize + call.remainingTakerSize = call.incomingOrder.remaining_size
  nonneg : 0 ≤ call.remainingTakerSize
  recorded : ∀ trade ∈ call.trades, trade ∈ db.trades
  own : call.filledTakerSize ≤ tradedByTaker db call.incomingOrder.id
  finished : ∀ result, call.phase = .finished result →
    result = ⟨call.filledTakerSize, call.remainingTakerSize, call.trades⟩

structure Grows (db db' : CrossDb) : Prop where
  trades : ∀ trade ∈ db.trades, trade ∈ db'.trades
  traded : ∀ takerId, tradedByTaker db takerId ≤ tradedByTaker db' takerId

theorem Grows.refl (db : CrossDb) : Grows db db := ⟨fun _ h => h, fun _ => le_rfl⟩

variable {makerEntry : RedisBookOrder} {rest : List RedisBookOrder}

section Accounts

variable {service : Bool} {shared shared' : Shared} {db db' : CrossDb}
  {call call' : Cross} {uuid : ℕ → String} {reply : Reply}

theorem Accounts.same (h : Accounts db call) (hsame : SameAccount call call') :
    Accounts db call' := by
  refine ⟨?_, ?_, ?_, ?_, ?_, fun result hphase => ?_⟩
  · rw [hsame.trades, hsame.filled, h.traded]
  · rw [hsame.filled, hsame.remaining, hsame.order, h.total]
  · rw [hsame.remaining]
    exact h.nonneg
  · rw [hsame.trades]
    exact h.recorded
  · rw [hsame.filled, hsame.order]
    exact h.own
  · rw [hsame.finished result hphase, hsame.filled, hsame.remaining, hsame.trades]

theorem Accounts.grows (h : Accounts db call) (hgrows : Grows db db') : Accounts db' call :=
  ⟨h.traded, h.total, h.nonneg, fun trade htrade => hgrows.trades trade (h.recorded trade htrade),
    h.own.trans (hgrows.traded _), h.finished⟩

theorem matchMakerOrder_accounts {makerOrderId : String} {value : MatchEnd} (hkeyed : Keyed db)
    (hmatch : matchMakerOrder db call.incomingOrder makerOrderId call.remainingTakerSize uuid =
      .committed db' value) :
    Grows db db' ∧ ∃ result, value = .matched result ∧ result.trade.size = result.matchSize ∧
      result.trade ∈ db'.trades ∧ result.matchSize ≤ call.remainingTakerSize ∧
      tradedByTaker db' call.incomingOrder.id =
        tradedByTaker db call.incomingOrder.id + result.matchSize := by
  obtain ⟨result, hvalue, hpos, hle, htraded⟩ := matchMakerOrder_spends hkeyed hmatch
  obtain ⟨maker, -, -, -, trade, -, -, -, hvalue', -, htrades, -⟩ :=
    matchMakerOrder_committed hmatch
  have hresult := MatchEnd.matched.inj (hvalue.symm.trans hvalue')
  refine ⟨⟨fun other hother => ?_, fun takerId => ?_⟩, result, hvalue, ?_, ?_, hle, ?_⟩
  · rw [htrades]
    exact mem_append_left _ hother
  · rw [htraded]
    split
    · linarith
    · linarith
  · rw [hresult]
  · rw [hresult, htrades]
    exact mem_append_right _ (mem_singleton.mpr rfl)
  · rw [htraded, if_pos rfl]

theorem Accounts.matched {result : MatchResult} (h : Accounts db call) (hgrows : Grows db db')
    (hsize : result.trade.size = result.matchSize) (hrecorded : result.trade ∈ db'.trades)
    (hle : result.matchSize ≤ call.remainingTakerSize)
    (htraded : tradedByTaker db' call.incomingOrder.id = tradedByTaker db call.incomingOrder.id +
      result.matchSize) : Accounts db' (afterMatch call makerEntry rest (.matched result)) := by
  have hown := h.own
  have htotal := h.total
  refine ⟨?_, ?_, ?_, ?_, ?_, fun other hphase => ?_⟩
  · show ((call.trades ++ [result.trade]).map Trade.size).sum = _
    rw [map_append, sum_append, h.traded, map_singleton, sum_singleton, hsize]
    rfl
  · show call.filledTakerSize + result.matchSize + (call.remainingTakerSize - result.matchSize) =
      call.incomingOrder.remaining_size
    linarith
  · show 0 ≤ call.remainingTakerSize - result.matchSize
    linarith
  · intro trade htrade
    rcases mem_append.mp htrade with hold | hnew
    · exact hgrows.trades trade (h.recorded trade hold)
    · rwa [mem_singleton.mp hnew]
  · show call.filledTakerSize + result.matchSize ≤ tradedByTaker db' call.incomingOrder.id
    linarith
  · simp only [afterMatch] at hphase
    cases hphase

theorem sameAccount_afterMatch {value : MatchEnd} (h : ∀ result, value ≠ .matched result) :
    SameAccount call (afterMatch call makerEntry rest value) := by
  cases value with
  | stale => exact sameAccount_goTo rfl
  | duplicate maker => exact sameAccount_goTo rfl
  | matched result => exact absurd rfl (h result)

theorem matchStep_accounts (hkeyed : Keyed shared.db) (h : Accounts shared.db call)
    (hstep : matchStep shared call makerEntry rest uuid reply = some (shared', call')) :
    Grows shared.db shared'.db ∧ Accounts shared'.db call' := by
  have hleaves : SameAccount call (call.goTo (.releasing rest true)) := sameAccount_goTo rfl
  unfold matchStep at hstep
  cases houtcome : matchMakerOrder shared.db call.incomingOrder makerEntry.orderId
      call.remainingTakerSize uuid with
  | rolledBack value =>
    have hvalue := matchMakerOrder_rolledBack houtcome
    rw [houtcome] at hstep
    split at hstep <;> cases hstep
    · exact ⟨.refl _, h.same (sameAccount_afterMatch hvalue)⟩
    · exact ⟨.refl _, h.same hleaves⟩
    · exact ⟨.refl _, h.same hleaves⟩
  | aborted error =>
    rw [houtcome] at hstep
    split at hstep <;> cases hstep <;> exact ⟨.refl _, h.same hleaves⟩
  | committed db' value =>
    obtain ⟨hgrows, result, rfl, hsize, hrecorded, hle, htraded⟩ :=
      matchMakerOrder_accounts hkeyed houtcome
    rw [houtcome] at hstep
    split at hstep <;> cases hstep
    · exact ⟨hgrows, h.matched hgrows hsize hrecorded hle htraded⟩
    · exact ⟨hgrows, (h.grows hgrows).same hleaves⟩
    · exact ⟨.refl _, h.same hleaves⟩

/-- **Step lemma.** A step that does not cancel the order keeps the account of the call. -/
theorem crossStep_accounts (hkeyed : Keyed shared.db) (h : Accounts shared.db call)
    (hcancels : call.cancels service shared reply = false)
    (hstep : crossStep service shared call uuid reply = some (shared', call')) :
    Grows shared.db shared'.db ∧ Accounts shared'.db call' := by
  unfold crossStep at hstep
  split at hstep
  next makerEntry rest hphase =>
    split at hstep <;> cases hstep
    next safe =>
      refine ⟨.refl _, h.same ?_⟩
      split
      · exact sameAccount_goTo rfl
      next hunsafe =>
        have hkept : call.ownAhead service rest = false := by
          simpa [Cross.cancels, hphase, hunsafe] using hcancels
        have hconsider := @sameAccount_consider service call rest
        rw [hkept] at hconsider
        exact hconsider
    · exact ⟨.refl _, h.same (sameAccount_goTo rfl)⟩
    · exact ⟨.refl _, h.same (sameAccount_goTo rfl)⟩
  next makerEntry rest hphase => exact matchStep_accounts hkeyed h hstep
  next =>
    obtain ⟨awaited, hawaited, hstep⟩ := Option.bind_eq_some_iff.mp hstep
    have hdb := crossCall_db hawaited
    obtain ⟨hreturn, hthrow⟩ := sameAccount_crossCall hawaited
    cases reply with
    | done =>
      cases hstep
      rw [hdb]
      rw [hcancels] at hreturn
      exact ⟨.refl _, h.same hreturn⟩
    | lost error =>
      cases hstep
      rw [hdb]
      exact ⟨.refl _, h.same (hthrow true error)⟩
    | refused error =>
      cases hstep
      exact ⟨.refl _, h.same (hthrow false error)⟩
    | answered safe => cases hstep

end Accounts

/-! ## Along a run -/

/-- No order is cancelled for one of its own user's, and none is of a negative size. -/
def KeepsOrders (eligibilityService : Bool) (sys : System) : Action → Prop
  | .start incomingOrder => 0 ≤ incomingOrder.remaining_size
  | .cross i _ reply => ∀ call, sys.calls[i]? = some call →
    call.cancels eligibilityService sys.shared reply = false
  | .book _ => True

structure FillInv (sys : System) : Prop where
  cross : CrossInv sys
  nonneg : ∀ takerId, 0 ≤ tradedByTaker sys.shared.db takerId
  calls : ∀ call ∈ sys.calls, Accounts sys.shared.db call

theorem start_accounts {db : CrossDb} {incomingOrder : InternalOrder}
    (hsize : 0 ≤ incomingOrder.remaining_size) (hown : 0 ≤ tradedByTaker db incomingOrder.id) :
    Accounts db (Cross.start incomingOrder) := by
  have hfresh : Accounts db
      { incomingOrder := incomingOrder
        remainingTakerSize := incomingOrder.remaining_size
        filledTakerSize := 0
        trades := []
        progressedInBatch := false
        phase := .ranging } :=
    ⟨rfl, zero_add _, hsize, fun _ h => absurd h not_mem_nil, hown, nofun⟩
  exact hfresh.same sameAccount_loop

theorem act_accounts {service : Bool} {sys sys' : System} {action : Action}
    (h : FillInv sys) (hguard : KeepsOrders service sys action)
    (hact : act service sys action = some sys') : FillInv sys' := by
  have hcross := act_inv h.cross hact
  cases action with
  | start incomingOrder =>
    cases hact
    refine ⟨hcross, h.nonneg, fun call hmem => ?_⟩
    rcases mem_append.mp hmem with hold | hnew
    · exact h.calls call hold
    · rw [mem_singleton.mp hnew]
      exact start_accounts hguard (h.nonneg _)
  | cross i uuid reply =>
    simp only [act] at hact
    split at hact
    next => cases hact
    next call hcall =>
      obtain ⟨⟨shared, call'⟩, hstep, rfl⟩ := Option.map_eq_some_iff.mp hact
      have hmem := mem_of_getElem? hcall
      obtain ⟨hgrows, haccounts⟩ :=
        crossStep_accounts h.cross.keyed (h.calls call hmem) (hguard call hcall) hstep
      refine ⟨hcross, fun takerId => (h.nonneg takerId).trans (hgrows.traded takerId),
        fun other hother => ?_⟩
      rcases mem_or_eq_of_mem_set hother with hold | rfl
      · exact (h.calls other hold).grows hgrows
      · exact haccounts
  | book change =>
    simp only [act] at hact
    obtain ⟨book, -, rfl⟩ := Option.map_eq_some_iff.mp hact
    exact ⟨hcross, h.nonneg, h.calls⟩

def RouterAnswers (sys : System) (internalOrder : InternalOrder) (answer : InternalCross) : Prop :=
  ∃ call ∈ sys.calls, ∃ result, call.incomingOrder = internalOrder ∧
    call.phase = .finished result ∧
    ∃ killSwitchActive internalCrossingEnabled,
      evaluateInternalCross killSwitchActive internalCrossingEnabled internalOrder result = answer

instance (eligibilityService : Bool) (sys : System) (action : Action) :
    Decidable (KeepsOrders eligibilityService sys action) :=
  match action with
  | .start incomingOrder => inferInstanceAs (Decidable (0 ≤ incomingOrder.remaining_size))
  | .cross i _ reply =>
    match h : sys.calls[i]? with
    | none => .isTrue (by simp [KeepsOrders, h])
    | some call =>
      decidable_of_iff (call.cancels eligibilityService sys.shared reply = false)
        (by simp [KeepsOrders, h])
  | .book _ => .isTrue trivial

def takerRfq : Sor.CanonicalRFQInput where
  rfqId := "taker"
  idempotencyKey := "taker"
  canonicalMarketId := "market"
  canonicalOutcomeId := none
  takerId := "bob"
  side := .buy
  quantity := "4"
  stpMode := .CANCEL_NEWEST
  metadata := none

/-- The request of four, of `user`, is crossed with the maker's ten. -/
def crossed (rfq : Sor.CanonicalRFQInput) (replies : ℕ) : List Action :=
  addOrder makerOrder ++ [.start (buildInternalTakerOrder rfq 4 (1 / 2) 2)] ++
    callGoesOn 0 "first" (List.replicate replies .done)

def finishedCalls (sys : System) : List (InternalOrder × CrossResult) :=
  sys.calls.filterMap fun call =>
    match call.phase with
    | .finished result => some (call.incomingOrder, result)
    | _ => none

theorem routerAnswers_of_finished {sys : System} {internalOrder : InternalOrder}
    {result : CrossResult} (h : (internalOrder, result) ∈ finishedCalls sys) :
    RouterAnswers sys internalOrder (evaluateInternalCross false true internalOrder result) := by
  obtain ⟨call, hcall, hfinished⟩ := mem_filterMap.mp h
  split at hfinished
  next result' hphase =>
    cases hfinished
    exact ⟨call, hcall, result, rfl, hphase, false, true, rfl⟩
  next => cases hfinished

end LotusRfq.Crossing
