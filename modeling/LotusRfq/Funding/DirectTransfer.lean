import Mathlib.Data.Nat.Digits.Defs
import LotusRfq.Common.JsonValues
import LotusRfq.Common.Numbers

/-!
# LotusRfq — the call of a direct transfer

A target's amount goes into the call as a whole number of the token's smallest units, in hex, in a
word of 32 bytes. The product is rounded to 20 digits before its fraction is cut off, and the text
of a number that has more than 64 hex digits is not cut.

* **`decode_encode`** — what the call says, if its number fits the word;
* **`floor_rounded_iff`** — when the rounding leaves the whole part alone;
* **`directTransfer_exact_iff`** — when the call transfers what it should.
-/

namespace LotusRfq.Funding

open Js List

abbrev Text := List Char

def decimalToAtomicAmount (amount : ℚ) (decimals : ℕ) : Except String ℕ :=
  if amount ≤ 0 then .error "Direct transfer amount is invalid."
  else .ok ⌊rounded (amount * 10 ^ decimals)⌋₊

/-- `text.padStart(64, "0")`. -/
def padWord (text : Text) : Text := List.replicate (64 - text.length) '0' ++ text

/-- The digits of an address, in lower case. -/
def addressDigits (address : String) : Text := ((trim address).toList.drop 2).map Char.toLower

/-- `transfer(address,uint256)`. -/
def TRANSFER_SELECTOR : Text := "0xa9059cbb".toList

/-- The recipient has the form of an address. -/
def encodeErc20Transfer (recipient : String) (atomicAmount : ℕ) : Text :=
  TRANSFER_SELECTOR ++ padWord (addressDigits recipient) ++
    padWord (Nat.toDigits 16 atomicAmount)

def isEvmAddress (value : String) : Bool := isHex 40 (trim value)

/-- What the quote looks at: the checks of the environment, the chains and the tokens are given. -/
structure DirectTransfer where
  quotesEnabled : Bool
  onOneEvmChain : Bool
  tokenMatches : Bool
  sourceWalletAddress : String
  depositAddress : String
  preferredTokenAddress : String
  decimals : ℕ
  targetAmount : ℚ
  deriving Repr

/-- `transactionRequest`, with the value zero. -/
structure TransactionRequest where
  sender : String
  receiver : String
  data : Text
  deriving DecidableEq

def buildDirectTransferQuote (input : DirectTransfer) : Except String (Option TransactionRequest) :=
  if ¬ input.quotesEnabled ∨ ¬ input.onOneEvmChain then .ok none
  else if ¬ isEvmAddress input.sourceWalletAddress ∨ ¬ isEvmAddress input.depositAddress ∨
      ¬ isEvmAddress input.preferredTokenAddress then .ok none
  else if ¬ input.tokenMatches then .ok none
  else do
    let atomicAmount ← decimalToAtomicAmount input.targetAmount input.decimals
    return some ⟨input.sourceWalletAddress, input.preferredTokenAddress,
      encodeErc20Transfer input.depositAddress atomicAmount⟩

/-! ## What a call says -/

/-- Reads the recipient and the amount of a transfer: a selector of 4 bytes and two words. -/
def decodeErc20Transfer (data : Text) : Option (ℕ × ℕ) :=
  if data.length = 138 ∧ data.take 10 = TRANSFER_SELECTOR then do
    let recipient ← digits 16 ((data.drop 10).take 64)
    let amount ← digits 16 (data.drop 74)
    if recipient < 2 ^ 160 then some (recipient, amount) else none
  else none

def addressValue (address : String) : Option ℕ := digits 16 ((trim address).toList.drop 2)

theorem digitsFrom_zeros (base value count : ℕ) (hbase : 0 < base) (text : Text) :
    digitsFrom base value (List.replicate count '0' ++ text) =
      digitsFrom base (value * base ^ count) text := by
  induction count generalizing value with
  | zero => simp
  | succ count ih =>
    have hzero : digitOf '0' = some 0 := by decide
    rw [replicate_succ, cons_append, digitsFrom, hzero,
      Option.filter_some_pos (by simpa using hbase), Option.bind_some, ih]
    congr 1
    ring

variable {text : Text}

theorem digits_padWord (h : text ≠ []) : digits 16 (padWord text) = digits 16 text := by
  have hne : padWord text ≠ [] := fun hnil => h (append_eq_nil_iff.mp hnil).2
  rw [digits, if_neg hne, digits, if_neg h, padWord, digitsFrom_zeros 16 0 _ (by decide),
    Nat.zero_mul]

theorem length_padWord (h : text.length ≤ 64) : (padWord text).length = 64 := by
  rw [padWord, length_append, length_replicate]
  omega

theorem digitsFrom_toDigits (n value : ℕ) : digitsFrom 16 value (Nat.toDigits 16 n) =
      some (value * 16 ^ (Nat.toDigits 16 n).length + n) := by
  induction n using Nat.strong_induction_on with
  | _ n ih =>
    have hlast : ∀ value, digitsFrom 16 value [Nat.digitChar (n % 16)] =
        some (value * 16 + n % 16) := by
      intro value
      have hdigit : n % 16 < 16 := Nat.mod_lt n (by decide)
      rw [digitsFrom, digitOf_digitChar hdigit, Option.filter_some_pos (by simpa using hdigit)]
      rfl
    rcases Nat.lt_or_ge n 16 with hlt | hge
    · rw [Nat.toDigits_of_lt_base hlt]
      simpa [Nat.mod_eq_of_lt hlt] using hlast value
    · have hsplit := Nat.div_add_mod n 16
      rw [Nat.toDigits_of_base_le (by decide) hge, digitsFrom_append,
        ih (n / 16) (Nat.div_lt_self (by omega) (by decide)), Option.bind_some, hlast,
        length_append, length_singleton, Nat.pow_succ]
      congr 1
      rw [Nat.add_mul, Nat.mul_assoc]
      omega

theorem toDigits_ne_nil (n : ℕ) : Nat.toDigits 16 n ≠ [] := by
  rw [Nat.toDigits_eq_if (by decide)]
  split
  · simp
  · simp

theorem length_toDigits_le_iff {n : ℕ} : (Nat.toDigits 16 n).length ≤ 64 ↔ n < 2 ^ 256 := by
  constructor
  · intro h
    have hbound : ∀ n, n < 16 ^ (Nat.toDigits 16 n).length := by
      intro n
      induction n using Nat.strong_induction_on with
      | _ n ih =>
        rcases Nat.lt_or_ge n 16 with hlt | hge
        · rw [Nat.toDigits_of_lt_base hlt]
          simpa using hlt
        · have hrest := ih (n / 16) (Nat.div_lt_self (by omega) (by decide))
          rw [Nat.toDigits_of_base_le (by decide) hge, length_append, length_singleton,
            Nat.pow_succ]
          omega
    calc n < 16 ^ (Nat.toDigits 16 n).length := hbound n
      _ ≤ 16 ^ 64 := Nat.pow_le_pow_right (by decide) h
      _ = 2 ^ 256 := by decide
  · intro h
    exact Nat.toDigits_length 16 n 64 (by decide) (h.trans_eq (by decide))

theorem digitOf_some {c : Char} {digit : ℕ} (h : digitOf c = some digit) :
    digit < 16 ∧ digitOf c.toLower = some digit := by
  have hcode : c.toNat < 128 := by
    unfold digitOf at h
    split at h
    next hrange => exact (show c.toNat ≤ '9'.toNat from hrange.2).trans_lt (by decide)
    split at h
    next hrange => exact (show c.toNat ≤ 'f'.toNat from hrange.2).trans_lt (by decide)
    split at h
    next hrange => exact (show c.toNat ≤ 'F'.toNat from hrange.2).trans_lt (by decide)
    next => cases h
  have hall : ∀ n < 128, (digitOf (Char.ofNat n)).all fun digit =>
      digit < 16 ∧ digitOf (Char.ofNat n).toLower = some digit := by
    decide +kernel
  have hchar := hall c.toNat hcode
  rw [Char.ofNat_toNat, h] at hchar
  simpa using hchar

theorem digitsFrom_map_toLower (h : ∀ c ∈ text, (digitOf c).isSome) (value : ℕ) :
    digitsFrom 16 value (text.map Char.toLower) = digitsFrom 16 value text := by
  induction text generalizing value with
  | nil => rfl
  | cons c rest ih =>
    obtain ⟨digit, hdigit⟩ := Option.isSome_iff_exists.mp (h c mem_cons_self)
    rw [map_cons, digitsFrom, digitsFrom, (digitOf_some hdigit).2, hdigit]
    exact Option.bind_congr fun digit _ => ih (fun d hd => h d (mem_cons_of_mem _ hd)) _

theorem digitsFrom_some (h : ∀ c ∈ text, (digitOf c).isSome) (value : ℕ) :
    ∃ n, digitsFrom 16 value text = some n ∧ n < (value + 1) * 16 ^ text.length := by
  induction text generalizing value with
  | nil => exact ⟨value, rfl, by simp⟩
  | cons c rest ih =>
    obtain ⟨digit, hdigit⟩ := Option.isSome_iff_exists.mp (h c mem_cons_self)
    have hlt := (digitOf_some hdigit).1
    obtain ⟨n, hn, hbound⟩ := ih (fun d hd => h d (mem_cons_of_mem _ hd)) (value * 16 + digit)
    refine ⟨n, ?_, hbound.trans_le ?_⟩
    · rw [digitsFrom, hdigit, Option.filter_some_pos (by simpa using hlt), Option.bind_some, hn]
    · rw [length_cons, Nat.pow_succ', ← Nat.mul_assoc]
      exact Nat.mul_le_mul_right _ (by omega)

theorem isEvmAddress_iff {address : String} :
    isEvmAddress address = true ↔ ∃ rest, (trim address).toList = '0' :: 'x' :: rest ∧
      rest.length = 40 ∧ ∀ c ∈ rest, (digitOf c).isSome := by
  unfold isEvmAddress isHex
  split
  next rest hrest => simp [hrest]
  next hnone =>
    refine iff_of_false (by decide) ?_
    rintro ⟨rest, hrest, -⟩
    exact hnone rest hrest

/-- **What the call says**, if its number fits the word; else it says nothing. -/
theorem decode_encode {address : String} (h : isEvmAddress address = true) (n : ℕ) :
    ∃ recipient, addressValue address = some recipient ∧
      decodeErc20Transfer (encodeErc20Transfer address n) =
        if n < 2 ^ 256 then some (recipient, n) else none := by
  obtain ⟨rest, htext, hlength, hhex⟩ := isEvmAddress_iff.mp h
  obtain ⟨recipient, hrecipient, hbound⟩ := digitsFrom_some hhex 0
  have hdigits : addressDigits address = rest.map Char.toLower := by
    rw [addressDigits, htext]
    rfl
  have hne : rest ≠ [] := by
    rintro rfl
    cases hlength
  have hword : (padWord (addressDigits address)).length = 64 :=
    length_padWord (by rw [hdigits, length_map, hlength]; decide)
  have hread : digits 16 (padWord (addressDigits address)) = some recipient := by
    rw [hdigits, digits_padWord (by simpa using hne), digits, if_neg (by simpa using hne),
      digitsFrom_map_toLower hhex, hrecipient]
  refine ⟨recipient, by rw [addressValue, htext]; simpa [digits, hne] using hrecipient, ?_⟩
  have hselector : TRANSFER_SELECTOR.length = 10 := by decide
  have hsplit : (encodeErc20Transfer address n).length =
      74 + (padWord (Nat.toDigits 16 n)).length := by
    rw [encodeErc20Transfer, length_append, length_append, hselector, hword]
  unfold decodeErc20Transfer
  by_cases hfits : n < 2 ^ 256
  · have hlast := length_padWord (length_toDigits_le_iff.mpr hfits)
    have htake : (encodeErc20Transfer address n).take 10 = TRANSFER_SELECTOR := by
      rw [encodeErc20Transfer, append_assoc, take_left' hselector]
    have hmiddle : ((encodeErc20Transfer address n).drop 10).take 64 =
        padWord (addressDigits address) := by
      rw [encodeErc20Transfer, append_assoc, drop_left' hselector, take_left' hword]
    have hend : (encodeErc20Transfer address n).drop 74 = padWord (Nat.toDigits 16 n) := by
      rw [encodeErc20Transfer, drop_left' (by rw [length_append, hselector, hword])]
    have hamount : digits 16 (padWord (Nat.toDigits 16 n)) = some n := by
      rw [digits_padWord (toDigits_ne_nil n), digits, if_neg (toDigits_ne_nil n),
        digitsFrom_toDigits, Nat.zero_mul, Nat.zero_add]
    have hsmall : recipient < 2 ^ 160 := by
      rw [hlength] at hbound
      exact hbound.trans_eq (by decide)
    rw [if_pos ⟨by rw [hsplit, hlast], htake⟩, hmiddle, hread, hend, hamount, if_pos hfits]
    simp only [bind, Option.bind]
    rw [if_pos hsmall]
  · have hlong : (padWord (Nat.toDigits 16 n)).length ≠ 64 := by
      have hmore := mt length_toDigits_le_iff.mp hfits
      rw [padWord, length_append, length_replicate]
      omega
    rw [if_neg (fun hgood => hlong (by have := hgood.1; omega)), if_neg hfits]

/-! ## What the rounding does to the amount -/

/-- Of a number below `10 ^ 20`, half a unit of its twentieth digit does not reach past the whole
part; of any other, the whole part ends in zeros after its first twenty digits. -/
def KeepsWhole (x : ℚ) : Prop :=
  if Int.log 10 x ≤ 19 then x + 10 ^ (Int.log 10 x - 19) / 2 < ⌊x⌋ + 1
  else (10 : ℤ) ^ (Int.log 10 x - 19).toNat ∣ ⌊x⌋

theorem rounded_of_pos {x : ℚ} (h : 0 < x) :
    rounded x = ⌊x * 10 ^ (19 - Int.log 10 x) + 1 / 2⌋ / 10 ^ (19 - Int.log 10 x) := by
  have hscaled : 0 ≤ x * 10 ^ (19 - Int.log 10 x) := by positivity
  unfold rounded Decimals.toSignificant Decimals.roundHalfUp
  rw [abs_of_pos h, show (PRECISION : ℤ) - 1 = 19 by decide]
  simp only
  rw [if_pos hscaled]

/-- **When the rounding leaves the whole part alone.** -/
theorem floor_rounded_iff {x : ℚ} (h : 0 < x) : ⌊rounded x⌋ = ⌊x⌋ ↔ KeepsWhole x := by
  rw [rounded_of_pos h]
  unfold KeepsWhole
  generalize Int.log 10 x = log
  have hle := Int.floor_le x
  have hlt := Int.lt_floor_add_one x
  split
  next hfew =>
    -- the scale is a whole number
    obtain ⟨places, hplaces⟩ := Int.eq_ofNat_of_zero_le (sub_nonneg.mpr hfew)
    have hscale : (0 : ℚ) < 10 ^ places := by positivity
    have hunit : (10 : ℚ) ^ (log - 19) = (10 ^ places)⁻¹ := by
      rw [← zpow_natCast, ← zpow_neg, show log - 19 = -(places : ℤ) by omega]
    rw [hplaces, zpow_natCast, hunit, Int.floor_eq_iff, div_lt_iff₀ hscale, le_div_iff₀ hscale]
    have hbelow : (⌊x⌋ : ℚ) * 10 ^ places ≤ ⌊x * 10 ^ places + 1 / 2⌋ := by
      have hcast : ((⌊x⌋ * 10 ^ places : ℤ) : ℚ) ≤ x * 10 ^ places + 1 / 2 := by
        push_cast
        exact (mul_le_mul_of_nonneg_right hle hscale.le).trans (by linarith)
      exact_mod_cast Int.le_floor.mpr hcast
    have habove : (⌊x * 10 ^ places + 1 / 2⌋ : ℚ) < (⌊x⌋ + 1) * 10 ^ places ↔
        x * 10 ^ places + 1 / 2 < (⌊x⌋ + 1) * 10 ^ places := by
      have hfloor := @Int.floor_lt ℚ _ _ _ ((⌊x⌋ + 1) * 10 ^ places) (x * 10 ^ places + 1 / 2)
      push_cast at hfloor
      rw [← hfloor]
      exact_mod_cast Iff.rfl
    have hhalf : (x + (10 ^ places)⁻¹ / 2) * 10 ^ places = x * 10 ^ places + 1 / 2 := by
      field_simp
    rw [and_iff_right hbelow, habove, ← hhalf, mul_lt_mul_iff_left₀ hscale]
  next hmany =>
    -- the scale is a fraction, of which the digits that are left are the denominator
    obtain ⟨more, hmore⟩ := Int.eq_ofNat_of_zero_le (show 0 ≤ log - 19 by omega)
    have hunit : (0 : ℚ) < 10 ^ more := by positivity
    have hten : (10 : ℚ) ≤ 10 ^ more := by
      have hpos : more ≠ 0 := by omega
      exact le_self_pow₀ (by norm_num) hpos
    have hscale : (10 : ℚ) ^ (19 - log) = (10 ^ more)⁻¹ := by
      rw [← zpow_natCast, ← zpow_neg, show 19 - log = -(more : ℤ) by omega]
    rw [hscale, div_inv_eq_mul, hmore, Int.toNat_natCast]
    generalize hround : ⌊x * (10 ^ more)⁻¹ + 1 / 2⌋ = units
    have hwhole : (units : ℚ) * 10 ^ more = ((units * 10 ^ more : ℤ) : ℚ) := by push_cast; rfl
    rw [hwhole, Int.floor_intCast]
    constructor
    · exact fun heq => ⟨units, by rw [← heq, mul_comm]⟩
    · rintro ⟨count, hcount⟩
      have hunits : units = count := by
        rw [← hround, Int.floor_eq_iff]
        have hcast : (⌊x⌋ : ℚ) = 10 ^ more * count := by
          rw [hcount]
          push_cast
          rfl
        have hquotient : x * (10 ^ more)⁻¹ = count + (x - ⌊x⌋) * (10 ^ more)⁻¹ := by
          rw [hcast]
          field_simp
          ring
        have hsmall : (x - ⌊x⌋) * (10 ^ more)⁻¹ < 1 / 2 := by
          rw [← div_eq_mul_inv, div_lt_iff₀ hunit]
          linarith
        have hnonneg : 0 ≤ (x - ⌊x⌋) * (10 ^ more : ℚ)⁻¹ := mul_nonneg (by linarith) (by positivity)
        rw [hquotient]
        constructor
        · linarith
        · linarith
      rw [hunits, hcount, mul_comm]

/-- **When the call transfers what it should**: it decodes to the deposit address and to the whole
part of the amount in units. -/
theorem directTransfer_exact_iff (input : DirectTransfer) (request : TransactionRequest)
    (h : buildDirectTransferQuote input = .ok (some request)) :
    (∃ recipient, addressValue input.depositAddress = some recipient ∧
      decodeErc20Transfer request.data =
        some (recipient, ⌊input.targetAmount * 10 ^ input.decimals⌋₊)) ↔
    KeepsWhole (input.targetAmount * 10 ^ input.decimals) ∧
      ⌊input.targetAmount * 10 ^ input.decimals⌋₊ < 2 ^ 256 := by
  unfold buildDirectTransferQuote decimalToAtomicAmount at h
  split at h
  · cases h
  split at h
  · cases h
  next haddresses =>
    split at h
    · cases h
    split at h
    · cases h
    next hpositive =>
      cases h
      have haddress : isEvmAddress input.depositAddress = true := by
        by_contra hnot
        exact haddresses (.inr (.inl hnot))
      obtain ⟨recipient, hrecipient, hdecode⟩ := decode_encode haddress
        ⌊rounded (input.targetAmount * 10 ^ input.decimals)⌋₊
      have hamount : 0 < input.targetAmount * 10 ^ input.decimals :=
        mul_pos (not_le.mp hpositive) (by positivity)
      have hnat : ⌊rounded (input.targetAmount * 10 ^ input.decimals)⌋₊ =
          ⌊input.targetAmount * 10 ^ input.decimals⌋₊ ↔
            KeepsWhole (input.targetAmount * 10 ^ input.decimals) := by
        rw [← floor_rounded_iff hamount, ← Int.natCast_inj,
          Int.natCast_floor_eq_floor (rounded_nonneg hamount.le),
          Int.natCast_floor_eq_floor hamount.le]
      rw [← hnat, hdecode]
      constructor
      · rintro ⟨other, -, hread⟩
        split at hread
        next hfits =>
          have heq := (Prod.mk.inj (Option.some.inj hread)).2
          exact ⟨heq, heq ▸ hfits⟩
        next => cases hread
      · rintro ⟨heq, hfits⟩
        rw [← heq] at hfits ⊢
        exact ⟨recipient, hrecipient, if_pos hfits⟩

/-- A transfer of a token of 18 decimals. -/
def transferOf (targetAmount : ℚ) : DirectTransfer :=
  { quotesEnabled := true
    onOneEvmChain := true
    tokenMatches := true
    sourceWalletAddress := "0x00000000000000000000000000000000000000aa"
    depositAddress := "0x00000000000000000000000000000000000000Bb"
    preferredTokenAddress := "0x00000000000000000000000000000000000000cc"
    decimals := 18
    targetAmount := targetAmount }

def callOf (atomicAmount : ℕ) : TransactionRequest :=
  ⟨(transferOf 0).sourceWalletAddress, (transferOf 0).preferredTokenAddress,
    encodeErc20Transfer (transferOf 0).depositAddress atomicAmount⟩

theorem one_exact_iff : (∃ recipient, addressValue (transferOf 1).depositAddress = some recipient ∧
      decodeErc20Transfer (callOf (10 ^ 18)).data =
        some (recipient, ⌊(transferOf 1).targetAmount * 10 ^ (transferOf 1).decimals⌋₊)) ↔
    KeepsWhole ((transferOf 1).targetAmount * 10 ^ (transferOf 1).decimals) ∧
      ⌊(transferOf 1).targetAmount * 10 ^ (transferOf 1).decimals⌋₊ < 2 ^ 256 :=
  directTransfer_exact_iff (transferOf 1) (callOf (10 ^ 18)) (by decide +kernel)

/-- Of 0.999… with 21 nines the call transfers a whole token. -/
theorem nines_not_exact :
    ¬ ∀ (input : DirectTransfer) (request : TransactionRequest), input.decimals ≤ 36 →
      buildDirectTransferQuote input = .ok (some request) →
      ∃ recipient, addressValue input.depositAddress = some recipient ∧
        decodeErc20Transfer request.data =
          some (recipient, ⌊input.targetAmount * 10 ^ input.decimals⌋₊) := by
  intro h
  obtain ⟨recipient, -, hdecode⟩ := h (transferOf (1 - 1 / 10 ^ 21)) (callOf (10 ^ 18))
    (by decide) (by decide +kernel)
  have hread : (decodeErc20Transfer (callOf (10 ^ 18)).data).map Prod.snd = some (10 ^ 18) := by
    decide +kernel
  rw [hdecode] at hread
  have hsame : ⌊(transferOf (1 - 1 / 10 ^ 21)).targetAmount * 10 ^ 18⌋₊ = 10 ^ 18 :=
    Option.some.inj hread
  exact absurd hsame (by decide +kernel)

end LotusRfq.Funding
