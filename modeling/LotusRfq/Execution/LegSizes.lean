import Mathlib.Data.List.TakeWhile
import LotusRfq.Execution.PositionDeltas

/-!
# LotusRfq — the sizes of an execution's legs

A route says what each of its legs is for. Without a route, every venue of the path gets a leg of
the whole requested size. The sizes of a route arrive as `String` prints numbers, with an
exponent where they are very small or very large, and a leg whose size has one is left out.

* **`conserves_iff`** — exactly when the legs have the size that was asked for.
-/

namespace LotusRfq.Execution

open List

/-! ## What is asked for -/

def exponentFactor : List Char → Option ℚ
  | sign :: digits =>
    if digits = [] ∨ ¬ digits.all Char.isDigit then none
    else if sign = '+' then some (10 ^ digitsValue digits)
    else if sign = '-' then some (1 / 10 ^ digitsValue digits)
    else none
  | [] => none

/-- A text as `String` prints a number that is not negative, as that number. -/
def printedNumber (value : String) : Option ℚ :=
  match value.toList.dropWhile (· ≠ 'e') with
  | [] => decimalValue value
  | _ :: exponent => do
    let mantissa ← decimalValue (String.ofList (value.toList.takeWhile (· ≠ 'e')))
    let factor ← exponentFactor exponent
    return mantissa * factor

def sizeText : JsValue → Option String
  | .record leg =>
    match (JsRecord.get leg "venue").string? with
    | some venue => if venue = "" then none else (JsRecord.get leg "size").string?
    | none => none
  | _ => none

def routeLegSize (raw : JsValue) : Option ℚ := (sizeText raw).bind printedNumber

/-- The size an execution is for: that of its route, or else the requested one. -/
def totalSize (request : ExecutionRequestV0) : ℚ :=
  if routeLegs request ≠ [] then ((routeLegs request).filterMap routeLegSize).sum
  else request.size

/-- The legs have the size that was asked for, and no valid leg of the route is left out. -/
structure Conserves (uuid : ℕ → String) (request : ExecutionRequestV0) : Prop where
  size : ((buildLegs uuid request).map (·.size)).sum = totalSize request
  kept : ∀ entry ∈ (routeLegs request).zipIdx, (routeLegSize entry.1).isSome →
    ∃ leg ∈ buildLegs uuid request, leg.executionLegId.number = entry.2 + 1

/-- The size of a valid leg is written without an exponent. -/
def Plain (raw : JsValue) : Prop :=
  ∀ text, sizeText raw = some text → (printedNumber text).isSome → 'e' ∉ text.toList

/-- A route of plain sizes, or else a single venue. -/
def Separable (request : ExecutionRequestV0) : Prop :=
  (∀ raw ∈ routeLegs request, Plain raw) ∧
    (routeLegs request = [] → request.venuePath.length = 1 ∨ request.size = 0)

/-! ## Texts -/

variable {text : String}

theorem no_exponent_of_decimalValue {value : ℚ} (h : decimalValue text = some value) :
    'e' ∉ text.toList := by
  have hdigits : ∀ {c : Char}, c.isDigit = true → c ≠ 'e' := by
    rintro c h rfl
    exact absurd h (by decide)
  have hsplit := takeWhile_append_dropWhile (p := Char.isDigit) (l := text.toList)
  unfold decimalValue at h
  simp only at h
  intro hmem
  rw [← hsplit, mem_append] at hmem
  rcases hmem with hmem | hmem
  · exact hdigits (mem_takeWhile_imp hmem) rfl
  · split at h
    · rename_i hrest
      rw [hrest] at hmem
      cases hmem
    · rename_i fraction hrest
      rw [hrest] at hmem
      split at h
      · cases h
      · rename_i hfraction
        simp only [not_or, not_not, all_eq_true] at hfraction
        rcases mem_cons.mp hmem with heq | hmem
        · exact absurd heq (by decide)
        · exact hdigits (hfraction.2.2 _ hmem) rfl
    · cases h

theorem printedNumber_of_no_exponent (h : 'e' ∉ text.toList) :
    printedNumber text = decimalValue text := by
  have hdrop : text.toList.dropWhile (· ≠ 'e') = [] := by
    rw [dropWhile_eq_nil_iff]
    intro c hc
    exact decide_eq_true fun heq => h (heq ▸ hc)
  unfold printedNumber
  rw [hdrop]

theorem printedNumber_of_decimalValue {value : ℚ} (h : decimalValue text = some value) :
    printedNumber text = some value := by
  rw [printedNumber_of_no_exponent (no_exponent_of_decimalValue h), h]

/-! ## Legs -/

variable {uuid : ℕ → String} {request : ExecutionRequestV0}

def builtSize (raw : JsValue) : Option ℚ := (sizeText raw).bind decimalValue

theorem routeLeg_size (number : ℕ) (id : String) (raw : JsValue) :
    (routeLeg request number id raw).map (·.size) = builtSize raw := by
  unfold routeLeg builtSize sizeText
  cases raw with
  | record leg =>
    cases hvenue : (JsRecord.get leg "venue").string? with
    | none => simp [hvenue]
    | some venue =>
      cases hsize : (JsRecord.get leg "size").string? with
      | none => by_cases hempty : venue = "" <;> simp [hvenue, hsize, hempty]
      | some text =>
        cases hvalue : decimalValue text <;> by_cases hempty : venue = "" <;>
          simp [hvenue, hsize, hempty, hvalue]
  | _ => rfl

theorem routeLegSize_of_builtSize {raw : JsValue} {size : ℚ} (h : builtSize raw = some size) :
    routeLegSize raw = some size := by
  obtain ⟨text, htext, hvalue⟩ := Option.bind_eq_some_iff.mp h
  exact Option.bind_eq_some_iff.mpr ⟨text, htext, printedNumber_of_decimalValue hvalue⟩

theorem plain_iff (raw : JsValue) : Plain raw ↔ builtSize raw = routeLegSize raw := by
  unfold Plain builtSize routeLegSize
  cases sizeText raw with
  | none => simp
  | some text =>
    simp only [Option.some.injEq, forall_eq', Option.bind_some]
    constructor
    · intro h
      cases hprinted : printedNumber text with
      | none =>
        cases hvalue : decimalValue text with
        | none => rfl
        | some value =>
          rw [printedNumber_of_decimalValue hvalue] at hprinted
          cases hprinted
      | some value =>
        have hplain := h (by rw [hprinted]; rfl)
        rw [← printedNumber_of_no_exponent hplain, hprinted]
    · intro h hprinted
      obtain ⟨value, hvalue⟩ := Option.isSome_iff_exists.mp (h ▸ hprinted)
      exact no_exponent_of_decimalValue hvalue

section

variable (hroute : routeLegs request ≠ [])

include hroute

theorem buildLegs_route :
    buildLegs uuid request = (routeLegs request).zipIdx.filterMap fun (rawLeg, index) =>
      routeLeg request (index + 1) (uuid index) rawLeg := by
  unfold buildLegs
  rw [if_pos hroute]

theorem sizes_route :
    (buildLegs uuid request).map (·.size) = (routeLegs request).filterMap builtSize := by
  rw [buildLegs_route hroute, map_filterMap]
  simp only [routeLeg_size]
  rw [show (fun entry : JsValue × ℕ => builtSize entry.1) = builtSize ∘ Prod.fst from rfl,
    ← filterMap_map, zipIdx_map_fst]

theorem plain_of_kept
    (hkept : ∀ entry ∈ (routeLegs request).zipIdx, (routeLegSize entry.1).isSome → ∃ leg ∈
      buildLegs uuid request, leg.executionLegId.number = entry.2 + 1) {raw : JsValue}
    (hraw : raw ∈ routeLegs request) : Plain raw := by
  obtain ⟨index, hindex⟩ := mem_iff_getElem?.mp hraw
  have hentry : (raw, index) ∈ (routeLegs request).zipIdx := mem_zipIdx_iff_getElem?.mpr hindex
  rw [plain_iff]
  cases hsize : routeLegSize raw with
  | none =>
    cases hbuilt : builtSize raw with
    | none => rfl
    | some size =>
      rw [routeLegSize_of_builtSize hbuilt] at hsize
      cases hsize
  | some size =>
    obtain ⟨leg, hleg, hnumber⟩ := hkept _ hentry (by rw [hsize]; rfl)
    rw [buildLegs_route hroute] at hleg
    obtain ⟨⟨raw', index'⟩, hentry', hbuilt⟩ := mem_filterMap.mp hleg
    -- the number of a leg is that of its entry
    rw [routeLeg_id hbuilt] at hnumber
    obtain rfl : index' = index := Nat.succ.inj hnumber
    have hsame : raw' = raw := by
      have hindex' := mem_zipIdx_iff_getElem?.mp hentry'
      exact Option.some.inj (hindex'.symm.trans hindex)
    subst hsame
    have hsize' : some leg.size = builtSize raw' := by
      rw [← @routeLeg_size request (index' + 1) (uuid index') raw']
      exact congrArg (Option.map (·.size)) hbuilt.symm
    rw [← hsize, routeLegSize_of_builtSize hsize'.symm, ← hsize']

theorem kept_of_plain (hplain : ∀ raw ∈ routeLegs request, Plain raw) :
    ∀ entry ∈ (routeLegs request).zipIdx, (routeLegSize entry.1).isSome →
      ∃ leg ∈ buildLegs uuid request, leg.executionLegId.number = entry.2 + 1 := by
  rintro ⟨raw, index⟩ hentry hvalid
  have hraw : raw ∈ routeLegs request := mem_of_getElem? (mem_zipIdx_iff_getElem?.mp hentry)
  have hbuilt : ((routeLeg request (index + 1) (uuid index) raw).map (·.size)).isSome := by
    rw [routeLeg_size, (plain_iff raw).mp (hplain raw hraw)]
    exact hvalid
  rw [Option.isSome_map] at hbuilt
  obtain ⟨leg, hleg⟩ := Option.isSome_iff_exists.mp hbuilt
  refine ⟨leg, ?_, ?_⟩
  · rw [buildLegs_route hroute]
    exact mem_filterMap.mpr ⟨(raw, index), hentry, hleg⟩
  · rw [routeLeg_id hleg]

end

theorem size_venues (hroute : routeLegs request = []) :
    ((buildLegs uuid request).map (·.size)).sum = request.venuePath.length * request.size := by
  have hsizes : (buildLegs uuid request).map (·.size) =
      List.replicate request.venuePath.length request.size := by
    unfold buildLegs
    rw [if_neg (not_not_intro hroute), map_map]
    rw [show (fun leg : ExecutionLegV0 => leg.size) ∘ (fun entry : String × ℕ =>
      newLeg request (entry.2 + 1) (uuid entry.2) entry.1) = fun _ => request.size from rfl,
      map_const', length_zipIdx]
  rw [hsizes, sum_replicate, nsmul_eq_mul]

/-- **The size that was asked for.** The legs of an execution have the size of its route, each
valid leg among them, or the requested size, exactly when the sizes of the route are written
without exponents and, without a route, there is one venue to send the size to. -/
theorem conserves_iff : Conserves uuid request ↔ Separable request := by
  by_cases hroute : routeLegs request = []
  · have htotal : totalSize request = request.size := by
      unfold totalSize
      rw [if_neg (not_not_intro hroute)]
    have hone : (request.venuePath.length * request.size = request.size) ↔
        request.venuePath.length = 1 ∨ request.size = 0 := by
      rw [mul_left_eq_self₀, Nat.cast_eq_one]
    constructor
    · intro h
      refine ⟨by simp [hroute], fun _ => hone.mp ?_⟩
      rw [← size_venues hroute, h.size, htotal]
    · intro h
      refine ⟨?_, by simp [hroute]⟩
      rw [size_venues hroute, htotal]
      exact hone.mpr (h.2 hroute)
  · have htotal : totalSize request = ((routeLegs request).filterMap routeLegSize).sum := by
      unfold totalSize
      rw [if_pos hroute]
    constructor
    · intro h
      exact ⟨fun raw hraw => plain_of_kept hroute h.kept hraw, fun h => absurd h hroute⟩
    · intro h
      refine ⟨?_, kept_of_plain hroute h.1⟩
      rw [sizes_route hroute, htotal]
      congr 1
      exact filterMap_congr fun raw hraw => (plain_iff raw).mp (h.1 raw hraw)

/-- A tenth of a millionth is printed with an exponent. -/
example : buildLegs (fun _ => "uuid") { twoVenueRequest with
    metadata := [("routeLegs", .array [.record
      [("venue", .text "LIMITLESS" none), ("size", .text "1e-7" none)]])] } = [] := by
  decide +kernel

/-- Two venues without a route: two legs of the whole size. -/
theorem twoVenues_not_conserved :
    ¬ ∀ (uuid : ℕ → String) (request : ExecutionRequestV0), Conserves uuid request := by
  intro h
  have hsize : ((buildLegs (fun _ => "uuid") twoVenueRequest).map (·.size)).sum ≠
      totalSize twoVenueRequest := by decide +kernel
  exact hsize (h (fun _ => "uuid") twoVenueRequest).size

end LotusRfq.Execution
