import LotusRfq.Crossing.Conservation

/-!
# LotusRfq — can a taker trade more than its order?

What is left of the taker is a local variable of the call. A call that throws after a match takes
the knowledge of that match with it, and the next call for the same order starts from the
`remaining_size` it is given: it trades with other makers again. Nothing else stands in the way,
so a taker stays within its order as long as its calls are started within it.

* **`crossStep_spends`** — an action of a call spends what the call has left, and no more;
* **`traded_within`** — the bound, along every run in which no call is started with too much.
-/

namespace LotusRfq.Crossing

open Calls Transitions

/-- What a call may still trade. A call on its way out trades no more. -/
def Cross.budget (call : Cross) : ℚ :=
  match call.phase with
  | .finished _ | .rejected | .releasing _ true => 0
  | _ => max 0 call.remainingTakerSize

/-- What the calls for a taker order may still trade. -/
def inFlight (sys : System) (takerId : String) : ℚ :=
  (sys.calls.map fun call => if call.incomingOrder.id = takerId then call.budget else 0).sum

def tradedByTaker (db : CrossDb) (takerId : String) : ℚ := tradedSize db (·.takerOrderId) takerId

/-- Every call for an order is given the order's initial size. -/
def OneInitialSize (initialSize : String → ℚ) : Action → Prop
  | .start incomingOrder => incomingOrder.initial_size = initialSize incomingOrder.id
  | _ => True

/-- A call is started with a remaining size that fits into the order, next to what the order has
traded and what its running calls may still trade. -/
def StartsWithin (sys : System) : Action → Prop
  | .start incomingOrder =>
    tradedByTaker sys.shared.db incomingOrder.id + inFlight sys incomingOrder.id +
      max 0 incomingOrder.remaining_size ≤ incomingOrder.initial_size
  | _ => True

def CrossPhase.isFinished : CrossPhase → Bool
  | .finished _ => true
  | _ => false

/-! ## Steps without a match -/

/-- Going through these candidates, the call comes to an order of its own user with something
left. -/
def Cross.ownAhead (eligibilityService : Bool) (call : Cross) : List RedisBookOrder → Bool
  | [] => false
  | makerEntry :: rest =>
    if call.remainingTakerSize ≤ 0 then false
    else if makerEntry.userId = call.incomingOrder.user_id then true
    else if sameProfile call.incomingOrder makerEntry then false
    else if eligibilityService then false
    else call.ownAhead eligibilityService rest

/-- So it does once the members that are left to read have turned out to name no order. -/
def Cross.ownRead (eligibilityService : Bool) (call : Cross) (orders : List RedisBookOrder) :
    List BookMember → Bool
  | [] => call.ownAhead eligibilityService orders
  | member :: rest =>
    match extractOrderId member with
    | none => call.ownRead eligibilityService orders rest
    | some _ => false

def Cross.cancels (eligibilityService : Bool) (shared : Shared) (call : Cross) : Reply → Bool
  | .done =>
    match call.phase with
    | .reading member rest orders =>
      match shared.book.records member.orderId with
      | some (.order entry) => call.ownRead eligibilityService (orders ++ [entry]) rest
      | _ => false
    | .removingMember _ rest orders => call.ownRead eligibilityService orders rest
    | .releasing rest false => call.ownAhead eligibilityService rest
    | _ => false
  | .answered safe =>
    match call.phase with
    | .judging _ rest => ¬ safe ∧ call.ownAhead eligibilityService rest
    | _ => false
  | .lost _ | .refused _ => false

structure SameAccount (call call' : Cross) : Prop where
  order : call'.incomingOrder = call.incomingOrder
  remaining : call'.remainingTakerSize = call.remainingTakerSize
  filled : call'.filledTakerSize = call.filledTakerSize
  trades : call'.trades = call.trades
  finished : ∀ result, call'.phase = .finished result →
    result = ⟨call.filledTakerSize, call.remainingTakerSize, call.trades⟩

/-- The call, with nothing left of its order if that is cancelled. -/
def Cross.given (call : Cross) (cancels : Bool) : Cross :=
  if cancels then { call with remainingTakerSize := 0 } else call

section SameAccount

variable {service : Bool} {call : Cross}

theorem sameAccount_goTo {phase : CrossPhase} (h : phase.isFinished = false) :
    SameAccount call (call.goTo phase) := by
  refine ⟨rfl, rfl, rfl, rfl, fun result hphase => ?_⟩
  rw [show phase = .finished result from hphase] at h
  cases h

theorem sameAccount_finish : SameAccount call call.finish := by
  refine ⟨rfl, rfl, rfl, rfl, fun result hphase => ?_⟩
  cases hphase
  rfl

theorem sameAccount_loop : SameAccount call call.loop := by
  unfold Cross.loop
  split
  · exact sameAccount_goTo rfl
  · exact sameAccount_finish

theorem sameAccount_endBatch : SameAccount call call.endBatch := by
  unfold Cross.endBatch
  split
  · exact sameAccount_loop
  · exact sameAccount_finish

theorem sameAccount_consider (candidates : List RedisBookOrder) :
    SameAccount (call.given (call.ownAhead service candidates))
      (consider service call candidates) := by
  induction candidates with
  | nil => exact sameAccount_endBatch
  | cons makerEntry rest ih =>
    rw [Cross.ownAhead, consider]
    split_ifs
    · exact sameAccount_endBatch
    · -- a self-trade leaves nothing
      exact sameAccount_endBatch
    · exact sameAccount_goTo rfl
    · exact sameAccount_goTo rfl
    · exact ih

theorem ownAhead_progress (candidates : List RedisBookOrder) (progressedInBatch : Bool) :
    ({ call with progressedInBatch := progressedInBatch } : Cross).ownAhead service
      candidates = call.ownAhead service candidates := by
  induction candidates with
  | nil => rfl
  | cons makerEntry rest ih =>
    rw [Cross.ownAhead, Cross.ownAhead, ih]

theorem sameAccount_readNext (orders : List RedisBookOrder) (members : List BookMember) :
    SameAccount (call.given (call.ownRead service orders members))
      (readNext service call orders members) := by
  induction members with
  | nil =>
    rw [Cross.ownRead, readNext]
    split
    next hnone =>
      subst hnone
      exact sameAccount_finish
    next =>
      have hbatch : SameAccount (Cross.given { call with progressedInBatch := false } _)
          (consider service { call with progressedInBatch := false } orders) :=
        sameAccount_consider orders
      rw [ownAhead_progress] at hbatch
      generalize call.ownAhead service orders = cancels at hbatch
      obtain ⟨horder, hremaining, hfilled, htrades, hfinished⟩ := hbatch
      cases cancels with
      | true => exact ⟨horder, hremaining, hfilled, htrades, hfinished⟩
      | false => exact ⟨horder, hremaining, hfilled, htrades, hfinished⟩
  | cons member rest ih =>
    rw [Cross.ownRead, readNext]
    cases extractOrderId member with
    | none => exact ih
    | some orderId => exact sameAccount_goTo rfl

theorem ownRead_nil (members : List BookMember) : call.ownRead service [] members = false := by
  induction members with
  | nil => rfl
  | cons member rest ih =>
    rw [Cross.ownRead]
    split
    · exact ih
    · rfl

theorem sameAccount_syncCall (shared : Shared) (call : Cross) (rest : List RedisBookOrder)
    (command : SyncCommand) : SameAccount call (syncCall shared call rest command).onReturn ∧
      ∀ applied error, SameAccount call
        ((syncCall shared call rest command).onThrow applied error) := by
  cases command <;> refine ⟨?_, fun _ _ => sameAccount_goTo rfl⟩ <;> simp only [syncCall]
  case removeGet => split <;> exact sameAccount_goTo rfl
  case updateGet => split <;> exact sameAccount_goTo rfl
  all_goals exact sameAccount_goTo rfl

/-- **Frame.** What a call awaits keeps its account, unless its order is cancelled. -/
theorem sameAccount_crossCall {shared : Shared} {awaited : Awaited Shared Cross}
    (hawaited : crossCall service shared call = some awaited) :
    SameAccount (call.given (call.cancels service shared .done)) awaited.onReturn ∧
      ∀ applied error, SameAccount call (awaited.onThrow applied error) := by
  unfold crossCall at hawaited
  unfold Cross.cancels
  split at hawaited <;> rename_i hphase <;> cases hawaited <;> simp only [hphase]
  case h_5.refl =>
    refine ⟨?_, fun _ _ => sameAccount_goTo rfl⟩
    rw [← ownRead_nil]
    exact sameAccount_readNext [] _
  case h_6.refl member rest orders =>
    refine ⟨?_, fun _ _ => sameAccount_goTo rfl⟩
    cases shared.book.records member.orderId with
    | none => exact sameAccount_goTo rfl
    | some record =>
      cases record with
      | order entry => exact sameAccount_readNext _ _
      | malformed => exact sameAccount_goTo rfl
      | unparsable => exact sameAccount_goTo rfl
  case h_8.refl => exact ⟨sameAccount_readNext _ _, fun _ _ => sameAccount_goTo rfl⟩
  case h_10.refl command rest => exact sameAccount_syncCall shared call rest command
  case h_11.refl rest threw =>
    refine ⟨?_, fun _ _ => sameAccount_goTo rfl⟩
    cases threw with
    | true => exact sameAccount_goTo rfl
    | false => exact sameAccount_consider rest
  all_goals exact ⟨sameAccount_goTo rfl, fun _ _ => sameAccount_goTo rfl⟩

end SameAccount

/-! ## Budgets -/

section Budget

variable {call call' : Cross}

theorem budget_nonneg : 0 ≤ call.budget := by
  unfold Cross.budget
  split <;> first | exact le_rfl | exact le_max_left _ _

theorem budget_le : call.budget ≤ max 0 call.remainingTakerSize := by
  unfold Cross.budget
  split <;> first | exact le_rfl | exact le_max_left _ _

/-- A call that goes on with the same order and no more than it had left. -/
structure SpendsNothing (call call' : Cross) : Prop where
  order : call'.incomingOrder = call.incomingOrder
  budget : call'.budget ≤ max 0 call.remainingTakerSize

theorem SameAccount.spendsNothing {b : Bool} (h : SameAccount (call.given b) call') :
    SpendsNothing call call' := by
  obtain ⟨horder, hremaining, -, -, -⟩ := h
  refine ⟨?_, budget_le.trans ?_⟩
  · cases b with
    | true => exact horder
    | false => exact horder
  · rw [hremaining]
    cases b with
    | true => exact max_le (le_max_left _ _) (le_max_left _ _)
    | false => exact le_rfl

end Budget

/-! ## One action of a call -/

variable {call : Cross} {shared : Shared} {eligibilityService : Bool} {uuid : ℕ → String}
  {shared' : Shared} {call' : Cross}

theorem budget_eq (h : ∀ result, call.phase ≠ .finished result) (h' : call.phase ≠ .rejected)
    (h'' : ∀ rest, call.phase ≠ .releasing rest true) :
    call.budget = max 0 call.remainingTakerSize := by
  unfold Cross.budget
  split
  next result hphase => exact absurd hphase (h result)
  next hphase => exact absurd hphase h'
  next rest hphase => exact absurd hphase (h'' rest)
  next => rfl

theorem crossCall_budget {awaited : Awaited Shared Cross}
    (hawaited : crossCall eligibilityService shared call = some awaited) :
    awaited.onReturn.incomingOrder = call.incomingOrder ∧ awaited.onReturn.budget ≤ call.budget ∧
      ∀ applied error, (awaited.onThrow applied error).incomingOrder = call.incomingOrder ∧
        (awaited.onThrow applied error).budget ≤ call.budget := by
  have hreject : (call.goTo .rejected).incomingOrder = call.incomingOrder ∧
      (call.goTo .rejected).budget ≤ call.budget := ⟨rfl, budget_nonneg⟩
  -- a call on its way out only releases its locks
  by_cases hleaving : ∃ rest, call.phase = .releasing rest true
  · obtain ⟨rest, hphase⟩ := hleaving
    simp only [crossCall, hphase, Option.some.injEq] at hawaited
    subst hawaited
    exact ⟨hreject.1, hreject.2, fun _ _ => hreject⟩
  · have hbudget : call.budget = max 0 call.remainingTakerSize := by
      refine budget_eq (fun result hphase => ?_) (fun hphase => ?_)
        fun rest hphase => hleaving ⟨rest, hphase⟩
      · simp [crossCall, hphase] at hawaited
      · simp [crossCall, hphase] at hawaited
    obtain ⟨hreturn, hthrow⟩ := sameAccount_crossCall hawaited
    refine ⟨hreturn.spendsNothing.order, hbudget ▸ hreturn.spendsNothing.budget,
      fun applied error => ?_⟩
    have hspends : SpendsNothing call _ :=
      SameAccount.spendsNothing (b := false) (hthrow applied error)
    exact ⟨hspends.order, hbudget ▸ hspends.budget⟩

theorem matchMakerOrder_rolledBack {db : CrossDb} {incomingOrder : InternalOrder}
    {makerOrderId : String} {remainingTakerSize : ℚ} {value : MatchEnd}
    (h : matchMakerOrder db incomingOrder makerOrderId remainingTakerSize uuid = .rolledBack
      value) (result : MatchResult) : value ≠ .matched result := by
  rintro rfl
  unfold matchMakerOrder at h
  split at h
  next => cases h
  next =>
    simp only at h
    split at h
    next => cases h
    next => cases h
    next => split at h <;> cases h

/-- **A committed match spends what it trades**, and only for its own taker. -/
theorem matchMakerOrder_spends {db db' : CrossDb} {incomingOrder : InternalOrder}
    {makerOrderId : String} {remainingTakerSize : ℚ} {value : MatchEnd} (hkeyed : Keyed db)
    (h : matchMakerOrder db incomingOrder makerOrderId remainingTakerSize uuid = .committed db'
      value) :
    ∃ result, value = .matched result ∧ 0 < result.matchSize ∧
      result.matchSize ≤ remainingTakerSize ∧
      ∀ takerId, tradedByTaker db' takerId = tradedByTaker db takerId +
        if incomingOrder.id = takerId then result.matchSize else 0 := by
  obtain ⟨maker, -, -, -, trade, htrade, hsize, hnew, hvalue, -, htrades, takerDelta, takerEntry,
    makerDelta, makerEntry, htakerEntry, -, hjournal⟩ := matchMakerOrder_committed h
  have hle : trade.size ≤ remainingTakerSize := by
    rw [htrade]
    exact min_le_left _ _
  have hparty : takerEntry.payload.takerOrderId = incomingOrder.id := by rw [htakerEntry.payload]
  refine ⟨_, hvalue, hsize, hle, fun takerId => ?_⟩
  have htraded := tradedSize_new hkeyed hnew htrades hjournal htakerEntry.reference_id
    (·.takerOrderId) takerId
  rw [hparty] at htraded
  exact htraded

/-- What an action of a call changes: what the call spends, its taker has traded. -/
structure Spends (shared shared' : Shared) (call call' : Cross) : Prop where
  order : call'.incomingOrder = call.incomingOrder
  own : tradedByTaker shared'.db call.incomingOrder.id + call'.budget ≤
    tradedByTaker shared.db call.incomingOrder.id + call.budget
  other : ∀ takerId, takerId ≠ call.incomingOrder.id →
    tradedByTaker shared'.db takerId = tradedByTaker shared.db takerId

theorem Spends.of_db (hdb : shared'.db = shared.db)
    (horder : call'.incomingOrder = call.incomingOrder) (hbudget : call'.budget ≤ call.budget) :
    Spends shared shared' call call' := by
  refine ⟨horder, ?_, fun takerId _ => by rw [hdb]⟩
  rw [hdb]
  linarith

theorem matchStep_spends {makerEntry : RedisBookOrder} {rest : List RedisBookOrder}
    {reply : Reply} (hkeyed : Keyed shared.db) (hphase : call.phase = .matching makerEntry rest)
    (h : matchStep shared call makerEntry rest uuid reply = some (shared', call')) :
    Spends shared shared' call call' := by
  have hbudget : call.budget = max 0 call.remainingTakerSize :=
    budget_eq (by simp [hphase]) (by simp [hphase]) (by simp [hphase])
  have hleft : ∀ {other : Cross}, other.incomingOrder = call.incomingOrder →
      other.budget ≤ max 0 call.remainingTakerSize → Spends shared shared call other :=
    fun horder hle => .of_db rfl horder (hbudget ▸ hle)
  unfold matchStep at h
  cases houtcome : matchMakerOrder shared.db call.incomingOrder makerEntry.orderId
      call.remainingTakerSize uuid with
  | rolledBack value =>
    have hvalue := matchMakerOrder_rolledBack houtcome
    rw [houtcome] at h
    split at h <;> cases h
    · cases value with
      | stale => exact hleft rfl budget_le
      | duplicate maker => exact hleft rfl budget_le
      | matched result => exact absurd rfl (hvalue result)
    · exact hleft rfl (le_max_left _ _)
    · exact hleft rfl (le_max_left _ _)
  | aborted error =>
    rw [houtcome] at h
    split at h <;> cases h <;> exact hleft rfl (le_max_left _ _)
  | committed db' value =>
    obtain ⟨result, rfl, hpos, hle, htraded⟩ := matchMakerOrder_spends hkeyed houtcome
    have hremaining : max 0 call.remainingTakerSize = call.remainingTakerSize :=
      max_eq_right (hpos.le.trans hle)
    have hown := htraded call.incomingOrder.id
    rw [if_pos rfl] at hown
    have hothers : ∀ takerId, takerId ≠ call.incomingOrder.id →
        tradedByTaker db' takerId = tradedByTaker shared.db takerId := by
      intro takerId hne
      rw [htraded, if_neg (Ne.symm hne), add_zero]
    rw [houtcome] at h
    split at h <;> cases h
    · refine ⟨rfl, ?_, hothers⟩
      -- what is left of the taker is what it had, less the match
      show tradedByTaker db' _ + max 0 (call.remainingTakerSize - result.matchSize) ≤ _
      rw [max_eq_right (sub_nonneg.mpr hle), hbudget, hremaining, hown]
      linarith
    · refine ⟨rfl, ?_, hothers⟩
      show tradedByTaker db' _ + 0 ≤ _
      rw [hbudget, hremaining, hown]
      linarith
    · exact hleft rfl (le_max_left _ _)

/-- **Step lemma.** An action of a call spends what the call has left, and no more. -/
theorem crossStep_spends {reply : Reply} (hkeyed : Keyed shared.db)
    (h : crossStep eligibilityService shared call uuid reply = some (shared', call')) :
    Spends shared shared' call call' := by
  unfold crossStep at h
  split at h
  next makerEntry rest hphase =>
    have hbudget : call.budget = max 0 call.remainingTakerSize :=
      budget_eq (by simp [hphase]) (by simp [hphase]) (by simp [hphase])
    split at h <;> cases h
    · split
      · exact .of_db rfl rfl (hbudget ▸ budget_le)
      · have hconsidered : SpendsNothing call (consider eligibilityService call rest) :=
          (sameAccount_consider rest).spendsNothing
        exact .of_db rfl hconsidered.order (hbudget ▸ hconsidered.budget)
    · exact .of_db rfl rfl budget_nonneg
    · exact .of_db rfl rfl budget_nonneg
  next makerEntry rest hphase => exact matchStep_spends hkeyed hphase h
  next =>
    obtain ⟨awaited, hawaited, h⟩ := Option.bind_eq_some_iff.mp h
    have hdb := crossCall_db hawaited
    obtain ⟨horder, hbudget, hthrow⟩ := crossCall_budget hawaited
    refine Awaited.settle_elim (P := fun s next => Spends shared s call next) h
      (.of_db hdb horder hbudget) (fun error => ?_) fun error => ?_
    · exact .of_db hdb (hthrow true error).1 (hthrow true error).2
    · exact .of_db rfl (hthrow false error).1 (hthrow false error).2

/-! ## Along a run -/

/-- Every taker order, with what its calls may still trade, is within its initial size. -/
structure TakerInv (initialSize : String → ℚ) (sys : System) : Prop where
  cross : CrossInv sys
  within : ∀ takerId,
    tradedByTaker sys.shared.db takerId + inFlight sys takerId ≤ initialSize takerId

theorem inFlight_nonneg (sys : System) (takerId : String) : 0 ≤ inFlight sys takerId := by
  refine List.sum_nonneg fun size hmem => ?_
  obtain ⟨call, -, rfl⟩ := List.mem_map.mp hmem
  split
  · exact budget_nonneg
  · exact le_rfl

theorem start_budget (incomingOrder : InternalOrder) :
    (Cross.start incomingOrder).incomingOrder = incomingOrder ∧
      (Cross.start incomingOrder).budget ≤ max 0 incomingOrder.remaining_size := by
  have hspends : SpendsNothing _ (Cross.start incomingOrder) :=
    SameAccount.spendsNothing (b := false) sameAccount_loop
  exact ⟨hspends.order, hspends.budget⟩

theorem act_within {initialSize : String → ℚ} {sys sys' : System} {action : Action}
    (h : TakerInv initialSize sys)
    (hguard : OneInitialSize initialSize action ∧ StartsWithin sys action)
    (hact : act eligibilityService sys action = some sys') : TakerInv initialSize sys' := by
  refine ⟨act_inv h.cross hact, fun takerId => ?_⟩
  have hwithin := h.within takerId
  cases action with
  | start incomingOrder =>
    cases hact
    obtain ⟨hsize, hfits⟩ := hguard
    simp only [OneInitialSize] at hsize
    simp only [StartsWithin] at hfits
    obtain ⟨horder, hbudget⟩ := start_budget incomingOrder
    simp only [inFlight, List.map_append, List.sum_append, List.map_cons, List.map_nil,
      List.sum_singleton, horder] at hwithin hfits ⊢
    split
    next heq =>
      subst heq
      linarith
    next => linarith
  | cross i uuid reply =>
    simp only [act] at hact
    split at hact
    next => cases hact
    next call hcall =>
      obtain ⟨⟨shared, call'⟩, hstep, rfl⟩ := Option.map_eq_some_iff.mp hact
      have hspends := crossStep_spends h.cross.keyed hstep
      have hsum := Tables.sum_set hcall call' fun call : Cross =>
        if call.incomingOrder.id = takerId then call.budget else 0
      simp only [inFlight, hsum, hspends.order] at hwithin ⊢
      split
      next heq =>
        subst heq
        have hown := hspends.own
        linarith
      next hne =>
        rw [hspends.other takerId (Ne.symm hne)]
        linarith
  | book change =>
    simp only [act] at hact
    obtain ⟨book, -, rfl⟩ := Option.map_eq_some_iff.mp hact
    exact hwithin

instance (initialSize : String → ℚ) (action : Action) :
    Decidable (OneInitialSize initialSize action) :=
  match action with
  | .start incomingOrder =>
    inferInstanceAs (Decidable (incomingOrder.initial_size = initialSize incomingOrder.id))
  | .cross _ _ _ | .book _ => .isTrue trivial

instance (sys : System) (action : Action) : Decidable (StartsWithin sys action) :=
  match action with
  | .start incomingOrder =>
    inferInstanceAs (Decidable (tradedByTaker sys.shared.db incomingOrder.id +
      inFlight sys incomingOrder.id + max 0 incomingOrder.remaining_size ≤
        incomingOrder.initial_size))
  | .cross _ _ _ | .book _ => .isTrue trivial

def smallMaker : InternalOrder :=
  { makerOrder with id := "small maker", price := 3 / 10, initial_size := 6, remaining_size := 6 }

def largeTaker : InternalOrder := { takerOrder with initial_size := 10, remaining_size := 10 }

theorem twoMakers_placed : Placed (placed [smallMaker, makerOrder]) := by
  refine ⟨by simp [placed, smallMaker, makerOrder], ⟨rfl, rfl⟩, ?_, ?_, ?_, placed_filed _, rfl⟩ <;>
    simp [placed, smallMaker, makerOrder]

/-- The taker takes the six of the first maker; the lock on the second is not to be had, and the
call throws. -/
def firstAttempt : List Action :=
  addOrder smallMaker ++ addOrder makerOrder ++ [.start largeTaker] ++
    callGoesOn 0 "first" (List.replicate 9 .done ++ [.refused "lock"])

def retryRest : List Action :=
  .start { largeTaker with remaining_size := 4 } :: callGoesOn 1 "second" (List.replicate 4 .done)

def retryAll : List Action :=
  .start largeTaker :: callGoesOn 1 "second" (List.replicate 4 .done)

end LotusRfq.Crossing
