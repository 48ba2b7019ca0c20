import LotusRfq.Common.Exposure

/-!
# LotusRfq — the rows of an RFQ

A session, a quote for it, and what the execution router tells the risk engine of an execution.
Of the rows only the columns that the router or the risk engine read.
-/

namespace LotusRfq.Rfq

/-- A row of `rfq_sessions`; `stp_mode` is a field of its metadata. -/
structure RFQSessionRecord where
  id : String
  canonical_market_id : String
  taker_id : String
  side : Side
  status : String
  stp_mode : Option String

/-- A row of `rfq_quotes`, with `valid_until` in milliseconds. -/
structure RFQQuoteRecord where
  id : String
  lp_key_id : String
  price : ℚ
  quantity : ℚ
  valid_until : ℤ
  deriving DecidableEq

def RFQQuoteRecord.notional (quote : RFQQuoteRecord) : ℚ := quote.quantity * quote.price

/-- The argument of `updateExposureAfterExecution`. -/
structure ExecutionResult where
  id : String
  sessionId : String
  takerId : String
  canonicalMarketId : String
  side : Side
  executedQuantity : ℚ
  executedPrice : ℚ
  reservationToken : Option String
  deriving DecidableEq

def ExecutionResult.deltaGross (exec : ExecutionResult) : ℚ :=
  exec.executedQuantity * exec.executedPrice

def ExecutionResult.deltaNet (exec : ExecutionResult) : ℚ :=
  match exec.side with
  | .buy => exec.deltaGross
  | .sell => -exec.deltaGross

end LotusRfq.Rfq
