import LotusRfq.Common.JsonValues

/-!
# LotusRfq — signed payloads

The client signs the typed data of a leg and sends the signature back in a payload of its own
making. `verifySignedPayload` recovers the signer from the typed data of the payload and compares
some of the payload's other fields with the leg and with the linked account.

Recovering a signer (`verifyTypedData`) is a function of the domain, the types, the message and the
signature, which may also throw.
-/

namespace LotusRfq.Signing

open Js

/-- The venues whose orders the user signs and the service relays. -/
inductive RelayVenue where
  | POLYMARKET
  | LIMITLESS
  | PREDICT_FUN

inductive OrderSide where
  | buy
  | sell

/-- What `prepareOrder` has put into the payload of an order. `venueMarketId` and `venueOutcomeId`
are `marketSlug` and `tokenId` at LIMITLESS. -/
structure PreparedVenueOrder where
  venue : RelayVenue
  venueMarketId : String
  venueOutcomeId : String
  side : OrderSide
  size : ℚ
  price : ℚ
  exchange : Option String
  expiresAt : ℕ
  metadata : Json

structure ExpectedBinding where
  userId : String
  signerAddress : String
  venueAccountAddress : String
  venueAccountId : Option String

/-- `verifyTypedData` of the two libraries: domain, types, message, signature. -/
structure TypedDataVerifiers where
  verifyTypedData : Json → Json → Json → String → Option String
  verifyTypedDataV6 : Json → Json → Json → String → Option String

def sameAddress (left : Option String) (right : String) : Bool :=
  left.any fun left => left ≠ "" ∧ right ≠ "" ∧ left.toLower = right.toLower

/-- `/^0x[a-fA-F0-9]{130}$/`. -/
abbrev isSignature (text : String) : Bool := isHex 130 text

def stripEip712Domain (types : Json) : Json := types.omit "EIP712Domain"

/-- `recordField(typedData, "message") ?? {}`. -/
def messageOf (typedData : Json) : Json := (recordField typedData "message").getD (.object [])

/-- The signer is recovered, and is the linked wallet. -/
def requireSigner (recovered : Option String) (binding : ExpectedBinding) (error : String) :
    Except String Unit := do
  let recovered ← present recovered "verifyTypedData"
  require (recovered.toLower = binding.signerAddress.toLower) error

variable (verifiers : TypedDataVerifiers)

/-- The signer `verifyTypedDataV6` recovers, the domain's own type left out. -/
def recoverV6 (typedData : Json) (signature : String) : Option String :=
  verifiers.verifyTypedDataV6 ((recordField typedData "domain").getD (.object []))
    (stripEip712Domain ((recordField typedData "types").getD (.object [])))
    (messageOf typedData) signature

/-- `SignatureType.POLY_1271`. -/
def POLY_1271 : ℚ := 3

def findSignedPayload (currentOrderPayload : Json) (purpose : String) : Option Json :=
  match currentOrderPayload.get "relatedSignedPayloads" with
  | some (.array related) =>
    related.find? fun entry => isRecord entry ∧ stringField entry "purpose" = some purpose
  | _ => none

def verifyPolymarketClobAuthPayload (binding : ExpectedBinding) (signedPayload : Json) :
    Except String Unit := do
  require (sameAddress (stringField signedPayload "signer") binding.signerAddress)
    "POLYMARKET_CLOB_AUTH_SIGNER_MISMATCH"
  require (sameAddress (stringField signedPayload "account") binding.venueAccountAddress)
    "POLYMARKET_CLOB_AUTH_ACCOUNT_MISMATCH"
  let signature ← present ((stringField signedPayload "signature").filter isSignature)
    "POLYMARKET_CLOB_AUTH_SIGNATURE_INVALID"
  let typedData ← present (recordField signedPayload "typedData")
    "POLYMARKET_CLOB_AUTH_SIGNATURE_INVALID"
  require (sameAddress (stringField (messageOf typedData) "address") binding.signerAddress)
    "POLYMARKET_CLOB_AUTH_ADDRESS_MISMATCH"
  requireSigner (recoverV6 verifiers typedData signature) binding
    "POLYMARKET_CLOB_AUTH_SIGNATURE_MISMATCH"

/-- The message of an order, which a POLY_1271 wrapper carries in `contents`. -/
def typedOrderMessage (typedData : Json) : Json :=
  (recordField (messageOf typedData) "contents").getD (messageOf typedData)

/-- The address that must stand as the signer of a Polymarket order. -/
def expectedOrderSigner (binding : ExpectedBinding) (order typedMessage : Json) : String :=
  if numberOf (firstPresent [order.get "signatureType", typedMessage.get "signatureType"]) =
      some POLY_1271 then binding.venueAccountAddress
  else binding.signerAddress

def verifyLimitlessPayload (binding : ExpectedBinding) (signedPayload : Json)
    (signature : String) : Except String Unit := do
  let typedData ← present (recordField signedPayload "typedData") "SIGNED_TRADE_TYPED_DATA_MISSING"
  requireSigner (verifiers.verifyTypedData ((recordField typedData "domain").getD (.object []))
    ((recordField typedData "types").getD .null) (messageOf typedData) signature) binding
    "SIGNED_TRADE_SIGNATURE_MISMATCH"

def verifyPolymarketPayload (prepared : PreparedVenueOrder) (binding : ExpectedBinding)
    (signedPayload : Json) (signature : String) : Except String Unit := do
  let typedData ← present (recordField signedPayload "typedData") "SIGNED_TRADE_TYPED_DATA_MISSING"
  requireSigner (recoverV6 verifiers typedData signature) binding "SIGNED_TRADE_SIGNATURE_MISMATCH"
  let order ← present ((recordField signedPayload "data").bind fun data => recordField data "order")
    "SIGNED_TRADE_ORDER_MISSING"
  require (sameAddress (stringField order "maker") binding.venueAccountAddress)
    "SIGNED_TRADE_ACCOUNT_MISMATCH"
  require (sameAddress (stringField order "signer")
    (expectedOrderSigner binding order (messageOf typedData))) "SIGNED_TRADE_SIGNER_MISMATCH"
  require (textOrEmpty (order.get "tokenId") = prepared.venueOutcomeId ∧
    textOrEmpty ((typedOrderMessage typedData).get "tokenId") = prepared.venueOutcomeId)
    "SIGNED_TRADE_TOKEN_MISMATCH"
  let authPayload ← present (findSignedPayload signedPayload "POLYMARKET_CLOB_AUTH")
    "POLYMARKET_CLOB_AUTH_SIGNATURE_MISSING"
  verifyPolymarketClobAuthPayload verifiers binding authPayload

def verifyPredictPayload (binding : ExpectedBinding) (signedPayload : Json)
    (signature : String) : Except String Unit := do
  let typedData ← present (recordField signedPayload "typedData") "SIGNED_TRADE_TYPED_DATA_MISSING"
  requireSigner (recoverV6 verifiers typedData signature) binding "SIGNED_TRADE_SIGNATURE_MISMATCH"
  let _ ← present ((recordField signedPayload "data").bind fun data => recordField data "order")
    "SIGNED_TRADE_ORDER_MISSING"

def verifySignedPayload (prepared : PreparedVenueOrder) (binding : ExpectedBinding)
    (signedPayload : Json) : Except String Unit := do
  require (sameAddress (stringField signedPayload "signer") binding.signerAddress)
    "SIGNED_TRADE_SIGNER_MISMATCH"
  require (sameAddress (stringField signedPayload "account") binding.venueAccountAddress)
    "SIGNED_TRADE_ACCOUNT_MISMATCH"
  let signature ← present ((stringField signedPayload "signature").filter isSignature)
    "SIGNED_TRADE_SIGNATURE_INVALID"
  match prepared.venue with
  | .LIMITLESS => verifyLimitlessPayload verifiers binding signedPayload signature
  | .POLYMARKET => verifyPolymarketPayload verifiers prepared binding signedPayload signature
  | .PREDICT_FUN => verifyPredictPayload verifiers binding signedPayload signature

/-! ## What a payload that is verified says -/

variable {verifiers} {prepared : PreparedVenueOrder} {binding : ExpectedBinding}
  {signedPayload : Json}

end LotusRfq.Signing
