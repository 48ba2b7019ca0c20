import LotusRfq.Common.StableJson
import Mathlib.Tactic.IntervalCases

/-!
# LotusRfq — the signed requests of the Polymarket execution relay

The relay client signs five fields joined with points: the time, a nonce, the method, the path and
the canonical text of the body it holds. The relay computes the same of what arrived. The body
arrives as JSON, which has no member that is `undefined`; and a point that separates two fields is
not told from a point within one.

* **`accepted_iff_defined`** — the relay accepts what the client sent exactly where nothing in the
  body is `undefined`;
* **`shifted_accepted`** — whatever was signed is accepted with another time and nonce as well.

Time is in milliseconds. The clock reads a year of four digits.
-/

namespace LotusRfq.Execution.RelayAuth

open Js

/-! ## Dates -/

def padded : ℕ → ℕ → Text
  | 0, _ => []
  | width + 1, n => padded width (n / 10) ++ [Nat.digitChar (n % 10)]

def isLeapYear (year : ℕ) : Bool := year % 4 = 0 ∧ (year % 100 ≠ 0 ∨ year % 400 = 0)

def daysInMonth (year month : ℕ) : ℕ :=
  if month = 2 then if isLeapYear year then 29 else 28
  else if month ∈ [4, 6, 9, 11] then 30
  else 31

structure Calendar where
  year : ℕ
  month : ℕ
  day : ℕ
  hour : ℕ
  minute : ℕ
  second : ℕ

structure Calendar.Valid (date : Calendar) : Prop where
  year_lt : date.year < 10000
  month_pos : 1 ≤ date.month
  month_le : date.month ≤ 12
  day_pos : 1 ≤ date.day
  day_le : date.day ≤ daysInMonth date.year date.month
  hour_lt : date.hour < 24
  minute_lt : date.minute < 60
  second_lt : date.second < 60

instance (date : Calendar) : Decidable date.Valid :=
  decidable_of_iff (date.year < 10000 ∧ 1 ≤ date.month ∧ date.month ≤ 12 ∧ 1 ≤ date.day ∧
      date.day ≤ daysInMonth date.year date.month ∧ date.hour < 24 ∧ date.minute < 60 ∧
      date.second < 60)
    ⟨fun ⟨h1, h2, h3, h4, h5, h6, h7, h8⟩ => ⟨h1, h2, h3, h4, h5, h6, h7, h8⟩,
      fun ⟨h1, h2, h3, h4, h5, h6, h7, h8⟩ => ⟨h1, h2, h3, h4, h5, h6, h7, h8⟩⟩

def Calendar.dayNumber (date : Calendar) : ℤ :=
  let year : ℤ := date.year
  365 * (year - 1970) + (year - 1969) / 4 - (year - 1901) / 100 + (year - 1601) / 400 +
    ((List.range (date.month - 1)).map fun month => daysInMonth date.year (month + 1)).sum +
    (date.day - 1)

/-- The milliseconds from 1970-01-01T00:00:00 to the date, both on one clock. -/
def Calendar.time (date : Calendar) : ℤ :=
  (((date.dayNumber * 24 + date.hour) * 60 + date.minute) * 60 + date.second) * 1000

/-- A `Date`, as its UTC fields. -/
structure Date where
  calendar : Calendar
  valid : calendar.Valid
  millisecond : ℕ
  millisecond_lt : millisecond < 1000

def Date.getTime (date : Date) : ℤ := date.calendar.time + date.millisecond

def Calendar.text (date : Calendar) : Text :=
  padded 4 date.year ++ '-' :: (padded 2 date.month ++ '-' :: (padded 2 date.day ++
    'T' :: (padded 2 date.hour ++ ':' :: (padded 2 date.minute ++ ':' :: padded 2 date.second))))

def Date.toISOString (date : Date) : Text :=
  date.calendar.text ++ '.' :: (padded 3 date.millisecond ++ ['Z'])

/-- A text that starts as a date and a time do, with what comes after. -/
def readCalendar (text : Text) : Option (Calendar × Text) :=
  match text with
  | y₁ :: y₂ :: y₃ :: y₄ :: '-' :: o₁ :: o₂ :: '-' :: d₁ :: d₂ :: 'T' :: h₁ :: h₂ :: ':' ::
      m₁ :: m₂ :: ':' :: s₁ :: s₂ :: rest =>
    (digits 10 [y₁, y₂, y₃, y₄]).bind fun year =>
    (digits 10 [o₁, o₂]).bind fun month =>
    (digits 10 [d₁, d₂]).bind fun day =>
    (digits 10 [h₁, h₂]).bind fun hour =>
    (digits 10 [m₁, m₂]).bind fun minute =>
    (digits 10 [s₁, s₂]).bind fun second =>
      some (⟨year, month, day, hour, minute, second⟩, rest)
  | _ => none

theorem digitsFrom_padded {width n : ℕ} (value : ℕ) (h : n < 10 ^ width) :
    digitsFrom 10 value (padded width n) = some (value * 10 ^ width + n) := by
  induction width generalizing n with
  | zero =>
    have hzero : n = 0 := by simpa using h
    simp [padded, digitsFrom, hzero]
  | succ width ih =>
    have hdigit : n % 10 < 10 := Nat.mod_lt n (by decide)
    have hrest : n / 10 < 10 ^ width := Nat.div_lt_of_lt_mul (by rwa [Nat.pow_succ'] at h)
    rw [padded, digitsFrom_append, ih hrest, Option.bind_some, digitsFrom,
      digitOf_digitChar (by omega), Option.filter_some_pos (by simpa using hdigit),
      Option.bind_some, digitsFrom]
    have hsplit := Nat.div_add_mod n 10
    rw [Nat.pow_succ]
    congr 1
    have hscale : value * (10 ^ width * 10) = value * 10 ^ width * 10 := (Nat.mul_assoc ..).symm
    omega

theorem digits_padded {width n : ℕ} (h : n < 10 ^ (width + 1)) :
    digits 10 (padded (width + 1) n) = some n := by
  have hne : padded (width + 1) n ≠ [] := by simp [padded]
  rw [digits, if_neg hne, digitsFrom_padded 0 h, Nat.zero_mul, Nat.zero_add]

theorem readCalendar_text {date : Calendar} (h : date.Valid) (rest : Text) :
    readCalendar (date.text ++ rest) = some (date, rest) := by
  have hread : readCalendar (date.text ++ rest) = (digits 10 (padded 4 date.year)).bind fun year =>
      (digits 10 (padded 2 date.month)).bind fun month =>
      (digits 10 (padded 2 date.day)).bind fun day =>
      (digits 10 (padded 2 date.hour)).bind fun hour =>
      (digits 10 (padded 2 date.minute)).bind fun minute =>
      (digits 10 (padded 2 date.second)).bind fun second =>
        some (⟨year, month, day, hour, minute, second⟩, rest) := rfl
  have hdays : daysInMonth date.year date.month ≤ 31 := by
    unfold daysInMonth
    split_ifs <;> decide
  have hmonth := h.month_le
  have hday := h.day_le
  have hhour := h.hour_lt
  have hminute := h.minute_lt
  have hsecond := h.second_lt
  rw [hread, digits_padded (by have := h.year_lt; omega), digits_padded (by omega),
    digits_padded (by omega), digits_padded (by omega), digits_padded (by omega),
    digits_padded (by omega)]
  rfl

/-! ## The runtime -/

structure Node where
  localeCompare : Text → Text → Ordering
  [consistent : Std.TransCmp localeCompare]
  toUpperCase : Text → Text
  /-- `createHmac("sha256", secret).update(payload).digest()` -/
  hmac : Text → Text → List UInt8
  hmac_injective : ∀ secret, (hmac secret).Injective
  /-- What the local clock is ahead of UTC, at a local time. -/
  localOffset : ℤ → ℤ
  /-- `Date.parse` of a text of another format. -/
  parseOther : Text → Option ℤ

/-- `Date.parse(text)`, when it is finite. A text without a zone is read on the local clock. -/
def Node.dateParse (node : Node) (text : Text) : Option ℤ :=
  match (readCalendar text).filter fun read => read.1.Valid with
  | some (date, []) => some (date.time - node.localOffset date.time)
  | some (date, ['.', f₁, f₂, f₃, 'Z']) =>
    match digits 10 [f₁, f₂, f₃] with
    | some millisecond => some (date.time + millisecond)
    | none => node.parseOther text
  | _ => node.parseOther text

/-- `digest("hex")`. -/
def hexText (bytes : List UInt8) : Text :=
  bytes.flatMap fun byte => [hexDigit (byte.toNat / 16), hexDigit byte.toNat]

/-- `Buffer.from(text, "hex")`: what no byte can be read from ends it. -/
def bufferFromHex : Text → List UInt8
  | high :: low :: rest =>
    match digitOf high, digitOf low with
    | some high, some low => UInt8.ofNat (16 * high + low) :: bufferFromHex rest
    | _, _ => []
  | _ => []

@[simp] theorem bufferFromHex_hexText (bytes : List UInt8) :
    bufferFromHex (hexText bytes) = bytes := by
  induction bytes with
  | nil => rfl
  | cons byte bytes ih =>
    have hhigh : digitOf (hexDigit (byte.toNat / 16)) = some (byte.toNat / 16 % 16) :=
      digitOf_digitChar (Nat.mod_lt _ (by decide))
    have hlow : digitOf (hexDigit byte.toNat) = some (byte.toNat % 16) :=
      digitOf_digitChar (Nat.mod_lt _ (by decide))
    have hbyte : 16 * (byte.toNat / 16 % 16) + byte.toNat % 16 = byte.toNat := by
      have := byte.toNat_lt
      omega
    show bufferFromHex (hexDigit (byte.toNat / 16) :: hexDigit byte.toNat :: hexText bytes) = _
    rw [bufferFromHex, hhigh, hlow]
    show UInt8.ofNat (16 * (byte.toNat / 16 % 16) + byte.toNat % 16) :: _ = _
    rw [hbyte, ih, UInt8.ofNat_toNat]

section

variable (node : Node)

theorem dateParse_toISOString (date : Date) :
    node.dateParse date.toISOString = some date.getTime := by
  have hread : readCalendar date.toISOString =
      some (date.calendar, '.' :: (padded 3 date.millisecond ++ ['Z'])) :=
    readCalendar_text date.valid _
  have hms : digits 10 (padded 3 date.millisecond) = some date.millisecond :=
    digits_padded (by have := date.millisecond_lt; omega)
  rw [Node.dateParse, hread, Option.filter_some_pos (by simpa using date.valid)]
  show (match digits 10 (padded 3 date.millisecond) with
    | some millisecond => some (date.calendar.time + millisecond)
    | none => _) = _
  rw [hms]
  rfl

theorem dateParse_text {date : Calendar} (h : date.Valid) :
    node.dateParse date.text = some (date.time - node.localOffset date.time) := by
  have hread : readCalendar date.text = some (date, []) := by
    rw [← List.append_nil date.text]
    exact readCalendar_text h []
  rw [Node.dateParse, hread, Option.filter_some_pos (by simpa using h)]

/-! ## `polymarket-execution-relay-auth` -/

structure PolymarketRelaySignatureInput where
  method : Text
  path : Text
  body : JsValue
  timestamp : Text
  nonce : Text

def Node.buildPolymarketRelaySigningPayload (input : PolymarketRelaySignatureInput) : Text :=
  ['.'].intercalate [input.timestamp, input.nonce, node.toUpperCase input.method, input.path,
    (stableJsonStringify node.localeCompare input.body).getD []]

def Node.signPolymarketRelayRequest (secret : Text) (input : PolymarketRelaySignatureInput) :
    Text :=
  hexText (node.hmac secret (node.buildPolymarketRelaySigningPayload input))

def Node.verifyPolymarketRelayRequest (secret : Text) (input : PolymarketRelaySignatureInput)
    (signature : Text) (now maxSkewMs : ℤ) : Bool :=
  match node.dateParse input.timestamp with
  | none => false
  | some parsedTimestamp =>
    if |now - parsedTimestamp| > maxSkewMs then false
    else
      let expected := node.signPolymarketRelayRequest secret input
      bufferFromHex signature = bufferFromHex expected

/-! ## `RelayPolymarketClobV2LiveClient` -/

/-- A request of the client: the time and the nonce it takes, and the body it holds. -/
structure RelayRequest where
  secret : Text
  method : Text
  path : Text
  body : List (Text × JsValue)
  time : Date
  nonce : Text

def RelayRequest.input (request : RelayRequest) : PolymarketRelaySignatureInput where
  method := request.method
  path := request.path
  body := .object request.body
  timestamp := request.time.toISOString
  nonce := request.nonce

/-- What arrives: the headers as sent, and the body parsed from the text that was posted. -/
def RelayRequest.arrived (request : RelayRequest) : PolymarketRelaySignatureInput :=
  { request.input with body := request.input.body.throughJson }

def RelayRequest.signature (request : RelayRequest) : Text :=
  node.signPolymarketRelayRequest request.secret request.input

def post (secret : Text) (time : Date) (nonce path : Text) (body : List (Text × JsValue)) :
    RelayRequest where
  secret := secret
  method := "POST".toList
  path := path
  body := body
  time := time
  nonce := nonce

section

variable (secret : Text) (time : Date) (nonce : Text)

def submitOrder (order : JsValue) : RelayRequest :=
  post secret time nonce "/internal/polymarket/v2/submit-order".toList [("order".toList, order)]

def fetchFillState (venueOrderId : Text) (context : Option JsValue) : RelayRequest :=
  post secret time nonce "/internal/polymarket/v2/fill-state".toList
    [("venueOrderId".toList, .string venueOrderId),
      ("context".toList, context.getD .undefined)]

def cancelOrder (venueOrderId : Text) : RelayRequest :=
  post secret time nonce "/internal/polymarket/v2/cancel-order".toList
    [("venueOrderId".toList, .string venueOrderId)]

def fetchSettlementState (fillOrOrderId : Text) (context : Option JsValue) : RelayRequest :=
  post secret time nonce "/internal/polymarket/v2/settlement-state".toList
    [("fillOrOrderId".toList, .string fillOrOrderId),
      ("context".toList, context.getD .undefined)]

end

/-! ## What the authentication is for -/

/-- The relay accepts the request at every time within the allowed skew. -/
def Complete (request : RelayRequest) : Prop :=
  ∀ now maxSkewMs : ℤ, |now - request.time.getTime| ≤ maxSkewMs →
    node.verifyPolymarketRelayRequest request.secret request.arrived (request.signature node)
      now maxSkewMs = true

/-- The signature of the request is accepted with the fields that were signed only; two bodies
are the same when their canonical texts are. -/
def Sound (request : RelayRequest) : Prop :=
  ∀ (input : PolymarketRelaySignatureInput) (now maxSkewMs : ℤ),
    node.verifyPolymarketRelayRequest request.secret input (request.signature node)
        now maxSkewMs = true →
      input.timestamp = request.input.timestamp ∧ input.nonce = request.input.nonce ∧
        node.toUpperCase input.method = node.toUpperCase request.input.method ∧
        input.path = request.input.path ∧
        stableJsonStringify node.localeCompare input.body =
          stableJsonStringify node.localeCompare request.input.body

/-! ### Verification compares payloads -/

/-- A signature is accepted where the payload is the one that was signed, at a time in reach. -/
theorem verify_iff {secret : Text} {input signed : PolymarketRelaySignatureInput}
    {now maxSkewMs : ℤ} : node.verifyPolymarketRelayRequest secret input
        (node.signPolymarketRelayRequest secret signed) now maxSkewMs = true ↔
      (∃ parsed, node.dateParse input.timestamp = some parsed ∧ |now - parsed| ≤ maxSkewMs) ∧
        node.buildPolymarketRelaySigningPayload input =
          node.buildPolymarketRelaySigningPayload signed := by
  unfold Node.verifyPolymarketRelayRequest
  cases hparsed : node.dateParse input.timestamp with
  | none =>
    have hnone : ¬ ∃ parsed, (none : Option ℤ) = some parsed ∧ |now - parsed| ≤ maxSkewMs := nofun
    exact iff_of_false Bool.false_ne_true fun hall => hnone hall.1
  | some parsed =>
    show (if |now - parsed| > maxSkewMs then false else _) = true ↔ _
    by_cases hskew : |now - parsed| > maxSkewMs
    · rw [if_pos hskew]
      refine iff_of_false Bool.false_ne_true ?_
      intro ⟨⟨other, hother, hle⟩, _⟩
      cases hother
      exact absurd hle (not_le.mpr hskew)
    · rw [if_neg hskew]
      have hwithin : ∃ other, some parsed = some other ∧ |now - other| ≤ maxSkewMs :=
        ⟨parsed, rfl, not_lt.mp hskew⟩
      simp only [Node.signPolymarketRelayRequest, bufferFromHex_hexText, decide_eq_true_eq]
      constructor
      · intro hsame
        exact ⟨hwithin, node.hmac_injective secret hsame.symm⟩
      · intro ⟨_, hsame⟩
        rw [hsame]

theorem intercalate_five (a b c d e : Text) : ['.'].intercalate [a, b, c, d, e] =
    a ++ '.' :: (b ++ '.' :: (c ++ '.' :: (d ++ '.' :: e))) := by
  simp [List.intercalate_cons_cons]

theorem payload_eq (input : PolymarketRelaySignatureInput) :
    node.buildPolymarketRelaySigningPayload input =
      input.timestamp ++ '.' :: (input.nonce ++ '.' :: (node.toUpperCase input.method ++
        '.' :: (input.path ++ '.' :: textOfValue node.localeCompare input.body))) :=
  intercalate_five ..

/-- With the other fields as they were, the payload says the canonical text of the body. -/
theorem payload_body (input : PolymarketRelaySignatureInput) (body : JsValue) :
    node.buildPolymarketRelaySigningPayload { input with body := body } =
        node.buildPolymarketRelaySigningPayload input ↔
      textOfValue node.localeCompare body = textOfValue node.localeCompare input.body := by
  rw [payload_eq, payload_eq]
  simp

/-! ## Complete where nothing is `undefined` -/

variable (request : RelayRequest)

theorem accepted_iff_defined :
    Complete node request ↔ (JsValue.object request.body).Defined := by
  have := node.consistent
  constructor
  · intro hcomplete
    have haccepted := hcomplete request.time.getTime 0 (by simp)
    have hpayload := ((verify_iff node).mp haccepted).2
    have htext := (payload_body node request.input _).mp hpayload
    have hsome : ∀ body, stableJsonStringify node.localeCompare (.object body) =
        some (textOfValue node.localeCompare (.object body)) := fun _ => rfl
    have hsame : stableJsonStringify node.localeCompare (.object (entriesThroughJson request.body)) =
        stableJsonStringify node.localeCompare (.object request.body) := by
      rw [hsome, hsome]
      exact congrArg some htext
    exact defined_of_sameText rfl hsame
  · intro hdefined now maxSkewMs hskew
    refine (verify_iff node).mpr ⟨⟨_, dateParse_toISOString node request.time, hskew⟩, ?_⟩
    refine (payload_body node request.input _).mpr ?_
    exact congrArg (Option.getD · []) (stableJsonStringify_throughJson hdefined)

/-! ## Sound nowhere -/

/-- The same payload, cut at the point within the time. -/
def RelayRequest.shifted (request : RelayRequest) : PolymarketRelaySignatureInput :=
  { request.input with
    timestamp := request.time.calendar.text
    nonce := padded 3 request.time.millisecond ++ 'Z' :: '.' :: request.nonce }

theorem shifted_payload :
    node.buildPolymarketRelaySigningPayload request.shifted =
      node.buildPolymarketRelaySigningPayload request.input := by
  rw [payload_eq, payload_eq]
  simp [RelayRequest.shifted, RelayRequest.input, Date.toISOString]

theorem shifted_accepted :
    ∃ now, node.verifyPolymarketRelayRequest request.secret request.shifted
      (request.signature node) now 0 = true := by
  refine ⟨request.time.calendar.time - node.localOffset request.time.calendar.time, ?_⟩
  refine (verify_iff node).mpr ⟨⟨_, dateParse_text node request.time.valid, ?_⟩,
    shifted_payload node request⟩
  rw [sub_self, abs_zero]

theorem not_sound : ¬ Sound node request := by
  intro hsound
  obtain ⟨now, haccepted⟩ := shifted_accepted node request
  have htime : request.time.calendar.text = request.time.toISOString :=
    (hsound request.shifted now 0 haccepted).1
  have hlength := congrArg List.length htime
  rw [Date.toISOString, List.length_append] at hlength
  simp at hlength

/-- A request is accepted exactly where nothing in its body is `undefined`, and its signature
never stands for its own fields alone. -/
theorem relayRequest_authentication (request : RelayRequest) :
    (Complete node request ↔ (JsValue.object request.body).Defined) ∧ ¬ Sound node request :=
  ⟨accepted_iff_defined node request, not_sound node request⟩

end

/-! ### A lookup without a context -/

/-- A process whose digest is the payload itself, with its clock on UTC. -/
def plainNode : Node where
  localeCompare := compare
  toUpperCase text := text.map Char.toUpper
  hmac _ payload := (String.ofList payload).toByteArray.data.toList
  hmac_injective _ _ _ h :=
    String.ofList_injective (String.toByteArray_inj.mp (ByteArray.ext (Array.toList_inj.mp h)))
  localOffset _ := 0
  parseOther _ := none

def noon : Date where
  calendar := ⟨2026, 3, 1, 12, 0, 5⟩
  valid := by decide
  millisecond := 250
  millisecond_lt := by decide

def lookup : RelayRequest :=
  fetchFillState "secret".toList noon "nonce".toList "order-1".toList none

/-- The relay refuses the lookup at the moment it was signed, and accepts its signature with
another time and another nonce. -/
theorem lookup_refused : ¬ Complete plainNode lookup ∧ ¬ Sound plainNode lookup := by
  have hrefused : plainNode.verifyPolymarketRelayRequest lookup.secret lookup.arrived
      (lookup.signature plainNode) noon.getTime 30000 = false := by decide +kernel
  have haccepted : plainNode.verifyPolymarketRelayRequest lookup.secret { lookup.input with
        timestamp := "2026-03-01T12:00:05".toList
        nonce := "250Z.nonce".toList }
      (lookup.signature plainNode) noon.getTime 30000 = true := by decide +kernel
  constructor
  · intro hcomplete
    have hnow := hcomplete noon.getTime 30000 (by decide)
    exact Bool.false_ne_true (hrefused.symm.trans hnow)
  · intro hsound
    have htime := (hsound _ _ _ haccepted).1
    revert htime
    decide

end LotusRfq.Execution.RelayAuth
