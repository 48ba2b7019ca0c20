import LotusRfq.Common.JsonValues
import LotusRfq.Execution.Types

/-!
# LotusRfq — when Polymarket says that an order is settled

`fetchSettlementState` asks for the first trade of an order and takes a transaction hash for its
settlement, whatever the status of the trade.

* **`settlesSoundly_iff`** — the verdict is sound, and the same in whatever order the trades are
  listed, exactly when the trades are settled alike and a trade that counts as final is confirmed.
-/

namespace LotusRfq.Execution

open List

/-! ## The source -/

/-- A trade of the CLOB, with what `extractPolymarketBuilderFeeEvidence` finds in it. -/
structure Trade (F : Type) where
  status : String
  transaction_hash : Option String
  fees : F

/-- What the CLOB answers: the associated trades of an order, if there is the order, and the trades
of a trade id. -/
structure Clob (F : Type) where
  getOrder : String → Option (List String)
  getTrades : String → List (Trade F)

inductive SettlementEvidence (F A : Type) where
  | ghostFill (reason : String) (fees : F)
  | finality (finalityStatus : Option String) (fees : F)
  | noTradeFound (fillOrOrderId : String)
  | dataApiActivity (activity : A)

structure SettlementVerdict (F A : Type) where
  status : SettlementStatusV0
  evidence : SettlementEvidence F A

variable {F A : Type}

def finalWords : List String := ["verified", "settled", "final", "finalized", "confirmed"]

def mapPolymarketV2SettlementState (finalityStatus settlementStatus : Option String)
    (ghostFillSuspected ghostFillConfirmed : Bool) (fees : F) : SettlementVerdict F A :=
  if ghostFillConfirmed then ⟨.GHOST_FILL_CONFIRMED, .ghostFill "ghost_fill_confirmed" fees⟩
  else if ghostFillSuspected then ⟨.GHOST_FILL_SUSPECTED, .ghostFill "ghost_fill_suspected" fees⟩
  else
    let normalized := (Js.trim ((finalityStatus <|> settlementStatus).getD "")).toLower
    if normalized ∈ finalWords then ⟨.SETTLEMENT_VERIFIED, .finality normalized fees⟩
    else if normalized ∈ ["pending", "open", "submitted"] then
      ⟨.SETTLEMENT_PENDING, .finality normalized fees⟩
    else if normalized ∈ ["timeout", "timed_out"] then
      ⟨.SETTLEMENT_TIMEOUT, .finality normalized fees⟩
    else ⟨.SETTLEMENT_UNKNOWN, .finality (if normalized = "" then none else normalized) fees⟩

def Trade.hashed (trade : Trade F) : Bool := trade.transaction_hash.any (· ≠ "")

/-- What is made of the first trade that was found, or of there being none. -/
def settlementOf (fillOrOrderId : String) (activity : Option A) :
    Option (Trade F) → SettlementVerdict F A
  | none =>
    match activity with
    | some activity => ⟨.SETTLEMENT_VERIFIED, .dataApiActivity activity⟩
    | none => ⟨.SETTLEMENT_PENDING, .noTradeFound fillOrOrderId⟩
  | some trade =>
    mapPolymarketV2SettlementState (some (if trade.hashed then "verified" else trade.status))
      (some trade.status) false false trade.fees

/-- `activity` is what the data API has found. -/
def fetchSettlementState (clob : Clob F) (activity : Option A) (fillOrOrderId : String) :
    SettlementVerdict F A :=
  let tradeId := ((clob.getOrder fillOrOrderId).bind (·[0]?)).getD fillOrOrderId
  settlementOf fillOrOrderId activity (clob.getTrades tradeId)[0]?

/-! ## Sound verdicts -/

def Clob.tradeIds (clob : Clob F) (fillOrOrderId : String) : List String :=
  match clob.getOrder fillOrOrderId with
  | some (tradeId :: rest) => tradeId :: rest
  | _ => [fillOrOrderId]

def Clob.tradesOf (clob : Clob F) (fillOrOrderId : String) : List (Trade F) :=
  (clob.tradeIds fillOrOrderId).flatMap clob.getTrades

def Trade.confirmed (trade : Trade F) : Prop := (Js.trim trade.status).toLower = "confirmed"

structure Relists (clob clob' : Clob F) (fillOrOrderId : String) : Prop where
  ids : (clob.tradeIds fillOrOrderId).Perm (clob'.tradeIds fillOrOrderId)
  trades : ∀ tradeId, (clob.getTrades tradeId).Perm (clob'.getTrades tradeId)

/-- A verdict that the CLOB's trades are settled is true of all of them, and no verdict depends on
the order they are listed in. -/
def SettlesSoundly (clob : Clob F) (activity : Option A) (fillOrOrderId : String) : Prop :=
  (∀ finalityStatus fees, fetchSettlementState clob activity fillOrOrderId =
      ⟨.SETTLEMENT_VERIFIED, .finality finalityStatus fees⟩ →
    clob.tradesOf fillOrOrderId ≠ [] ∧ ∀ trade ∈ clob.tradesOf fillOrOrderId, trade.confirmed) ∧
  ∀ clob', Relists clob clob' fillOrOrderId →
    fetchSettlementState clob' activity fillOrOrderId =
      fetchSettlementState clob activity fillOrOrderId

/-- What a trade's settlement goes by. -/
def Trade.finality (trade : Trade F) : String :=
  if trade.hashed then "verified" else (Js.trim trade.status).toLower

/-- The trades are there or not, and settled or not, all of them alike, and only confirmed ones
count as final. -/
structure SettledAlike (clob : Clob F) (fillOrOrderId : String) : Prop where
  found : (∀ tradeId ∈ clob.tradeIds fillOrOrderId, clob.getTrades tradeId = []) ∨
    ∀ tradeId ∈ clob.tradeIds fillOrOrderId, clob.getTrades tradeId ≠ []
  alike : ∀ trade ∈ clob.tradesOf fillOrOrderId, ∀ other ∈ clob.tradesOf fillOrOrderId,
    trade.finality = other.finality ∧ trade.fees = other.fees
  final : ∀ trade ∈ clob.tradesOf fillOrOrderId, trade.finality ∈ finalWords → trade.confirmed

section

variable {clob : Clob F} {activity : Option A} {id : String} {trade other : Trade F}

theorem settlementOf_some : settlementOf id activity (some trade) =
    ⟨if trade.finality ∈ finalWords then .SETTLEMENT_VERIFIED
      else if trade.finality ∈ ["pending", "open", "submitted"] then .SETTLEMENT_PENDING
      else if trade.finality ∈ ["timeout", "timed_out"] then .SETTLEMENT_TIMEOUT
      else .SETTLEMENT_UNKNOWN,
      .finality (if trade.finality = "" then none else some trade.finality) trade.fees⟩ := by
  have hnormalized : (Js.trim ((some (if trade.hashed then "verified" else trade.status) <|>
      some trade.status).getD "")).toLower = trade.finality := by
    rw [Trade.finality]
    cases trade.hashed with
    | true =>
      show (Js.trim "verified").toLower = "verified"
      decide +kernel
    | false => rfl
  simp only [settlementOf, mapPolymarketV2SettlementState, hnormalized, Bool.false_eq_true, if_false]
  split
  next h => rw [if_neg (by rintro heq; rw [heq] at h; revert h; decide)]
  next =>
    split
    next h => rw [if_neg (by rintro heq; rw [heq] at h; revert h; decide)]
    next =>
      split
      next h => rw [if_neg (by rintro heq; rw [heq] at h; revert h; decide)]
      next => rfl

/-- Two trades are settled alike exactly when they go by the same. -/
theorem settlementOf_inj : settlementOf id activity (some trade) =
        settlementOf id activity (some other) ↔
      trade.finality = other.finality ∧ trade.fees = other.fees := by
  rw [settlementOf_some, settlementOf_some]
  constructor
  · intro h
    simp only [SettlementVerdict.mk.injEq, SettlementEvidence.finality.injEq] at h
    refine ⟨?_, h.2.2⟩
    have hstatus := h.2.1
    split at hstatus <;> split at hstatus <;> simp_all
  · rintro ⟨hfinality, hfees⟩
    rw [hfinality, hfees]

/-- No trade, and a trade, are not settled alike. -/
theorem settlementOf_none_ne :
    settlementOf id activity none ≠ settlementOf id activity (some trade) := by
  rw [settlementOf_some]
  cases activity <;> simp [settlementOf]

/-- What the verdict goes by, if the trades come in some order. -/
def Picked (clob : Clob F) (id : String) (pick : Option (Trade F)) : Prop :=
  ∃ tradeId ∈ clob.tradeIds id,
    (clob.getTrades tradeId = [] ∧ pick = none) ∨ ∃ trade ∈ clob.getTrades tradeId, pick = some trade

theorem fetchSettlementState_picked : ∃ pick, Picked clob id pick ∧
    fetchSettlementState clob activity id = settlementOf id activity pick := by
  refine ⟨_, ⟨((clob.getOrder id).bind (·[0]?)).getD id, ?_, ?_⟩, rfl⟩
  · unfold Clob.tradeIds
    split
    next heq => simp [heq]
    next hno =>
      cases horder : clob.getOrder id with
      | none => simp
      | some ids =>
        cases ids with
        | nil => simp
        | cons tradeId rest => exact absurd horder (hno tradeId rest)
  · cases hfirst : clob.getTrades (((clob.getOrder id).bind (·[0]?)).getD id) with
    | nil => exact .inl ⟨rfl, rfl⟩
    | cons trade rest => exact .inr ⟨trade, mem_cons_self, rfl⟩

/-- Whatever may be picked is the first in some order. -/
theorem exists_relists {pick : Option (Trade F)} (h : Picked clob id pick) :
    ∃ clob', Relists clob clob' id ∧ fetchSettlementState clob' activity id =
        settlementOf id activity pick := by
  obtain ⟨tradeId, hid, hpick⟩ := h
  obtain ⟨before, after, hids⟩ := mem_iff_append.mp hid
  obtain ⟨first, hfirst, hperm⟩ : ∃ first, first[0]? = pick ∧
      (clob.getTrades tradeId).Perm first := by
    rcases hpick with ⟨hnil, rfl⟩ | ⟨trade, hmem, rfl⟩
    · exact ⟨[], rfl, .of_eq hnil⟩
    · obtain ⟨left, right, heq⟩ := mem_iff_append.mp hmem
      exact ⟨trade :: (left ++ right), rfl, heq ▸ perm_middle⟩
  refine ⟨⟨fun _ => some (tradeId :: (before ++ after)), fun key =>     if key = tradeId then first else clob.getTrades key⟩, ⟨?_, fun key => ?_⟩, ?_⟩
  · rw [hids]
    exact perm_middle
  · by_cases heq : key = tradeId
    · simpa [heq] using hperm
    · simp [heq]
  · simp [fetchSettlementState, hfirst]

theorem Relists.picked {clob' : Clob F} (h : Relists clob clob' id)
    {pick : Option (Trade F)} (hpick : Picked clob' id pick) : Picked clob id pick := by
  obtain ⟨tradeId, hid, hpick⟩ := hpick
  refine ⟨tradeId, h.ids.mem_iff.mpr hid, ?_⟩
  rcases hpick with ⟨hnil, rfl⟩ | ⟨trade, hmem, rfl⟩
  · exact .inl ⟨(hnil ▸ h.trades tradeId).eq_nil, rfl⟩
  · exact .inr ⟨trade, (h.trades tradeId).mem_iff.mpr hmem, rfl⟩

theorem picked_some_iff : Picked clob id (some trade) ↔ trade ∈ clob.tradesOf id := by
  simp [Picked, Clob.tradesOf, mem_flatMap]

end

/-- **When a settlement verdict is sound.** -/
theorem settlesSoundly_iff (clob : Clob F) (activity : Option A) (id : String) :
    SettlesSoundly clob activity id ↔ SettledAlike clob id := by
  obtain ⟨first, hfirst, hfetch⟩ := @fetchSettlementState_picked F A clob activity id
  constructor
  · rintro ⟨hsafe, hsame⟩
    have hpicks : ∀ pick, Picked clob id pick →
        settlementOf id activity pick = settlementOf id activity first := by
      intro pick hpick
      obtain ⟨clob', hrelists, hfetch'⟩ := @exists_relists F A clob activity id _ hpick
      rw [← hfetch', hsame clob' hrelists, hfetch]
    cases first with
    | none =>
      have hno : ∀ trade, trade ∉ clob.tradesOf id := fun trade hmem =>
        settlementOf_none_ne (hpicks _ (picked_some_iff.mpr hmem)).symm
      refine ⟨.inl fun tradeId hid => eq_nil_iff_forall_not_mem.mpr fun trade hmem =>
        hno trade (mem_flatMap.mpr ⟨tradeId, hid, hmem⟩), fun trade hmem => absurd hmem (hno trade),
        fun trade hmem => absurd hmem (hno trade)⟩
    | some trade =>
      have halike : ∀ other ∈ clob.tradesOf id,
          other.finality = trade.finality ∧ other.fees = trade.fees := fun other hmem =>
        settlementOf_inj.mp (hpicks _ (picked_some_iff.mpr hmem))
      refine ⟨.inr fun tradeId hid hnil => settlementOf_none_ne
        (hpicks none ⟨tradeId, hid, .inl ⟨hnil, rfl⟩⟩), fun one hone other hother => ?_,
        fun other hother hfinal => ?_⟩
      · obtain ⟨hfinality, hfees⟩ := halike one hone
        obtain ⟨hfinality', hfees'⟩ := halike other hother
        exact ⟨hfinality.trans hfinality'.symm, hfees.trans hfees'.symm⟩
      · rw [(halike other hother).1] at hfinal
        rw [settlementOf_some, if_pos hfinal] at hfetch
        exact (hsafe _ _ hfetch).2 other hother
  · intro h
    have hpicks : ∀ pick, Picked clob id pick →
        settlementOf id activity pick = settlementOf id activity first := by
      intro pick hpick
      rcases h.found with hnone | hsome
      · have hnil : ∀ pick, Picked clob id pick → pick = none := by
          rintro _ ⟨tradeId, hid, ⟨-, rfl⟩ | ⟨trade, hmem, rfl⟩⟩
          · rfl
          · exact absurd (hnone tradeId hid) (ne_nil_of_mem hmem)
        rw [hnil pick hpick, hnil first hfirst]
      · have htrade : ∀ pick, Picked clob id pick → ∃ trade, pick = some trade := by
          rintro _ ⟨tradeId, hid, ⟨hnil, -⟩ | ⟨trade, -, rfl⟩⟩
          · exact absurd hnil (hsome tradeId hid)
          · exact ⟨trade, rfl⟩
        obtain ⟨one, rfl⟩ := htrade pick hpick
        obtain ⟨other, rfl⟩ := htrade first hfirst
        exact settlementOf_inj.mpr
          (h.alike one (picked_some_iff.mp hpick) other (picked_some_iff.mp hfirst))
    refine ⟨fun finalityStatus fees hverified => ?_, fun clob' hrelists => ?_⟩
    · rw [hfetch] at hverified
      cases first with
      | none => cases activity <;> cases hverified
      | some trade =>
        have hmem := picked_some_iff.mp hfirst
        have hfinal : trade.finality ∈ finalWords := by
          by_contra hnot
          rw [settlementOf_some, if_neg hnot] at hverified
          have hstatus := congrArg SettlementVerdict.status hverified
          dsimp only at hstatus
          split at hstatus <;> [cases hstatus; (split at hstatus <;> cases hstatus)]
        exact ⟨ne_nil_of_mem hmem, fun other hother =>
          h.final other hother ((h.alike other hother trade hmem).1 ▸ hfinal)⟩
    · obtain ⟨first', hfirst', hfetch'⟩ := @fetchSettlementState_picked F A clob' activity id
      rw [hfetch', hfetch, hpicks _ (hrelists.picked hfirst')]

/-! ## A trade that has failed -/

/-- The order has one trade of this status, with a hash. -/
def oneTrade (status : String) : Clob Unit :=
  ⟨fun _ => some ["trade"], fun _ => [⟨status, some "0xhash", ()⟩]⟩

/-- A failed trade with a transaction hash counts as settled. -/
theorem failed_trade_verified : ¬ ∀ (clob : Clob Unit) (activity : Option Unit) id,
    SettlesSoundly clob activity id := by
  intro h
  obtain ⟨-, hconfirmed⟩ := (h (oneTrade "FAILED") none "order").1 (some "verified") ()
    (@settlementOf_some Unit Unit none "order" _)
  exact absurd (hconfirmed _ mem_cons_self) (by unfold Trade.confirmed; decide +kernel)

end LotusRfq.Execution
