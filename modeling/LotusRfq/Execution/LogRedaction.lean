import LotusRfq.Common.JsonValues
import LotusRfq.Lib.Transitions

/-!
# LotusRfq — what the Polymarket client keeps out of the log

A call to the SDK puts a function in the place of `console.error` that redacts the call's sensitive
values, and puts back what it found there when it ends. Calls that overlap find each other's
functions.

* **`log_redacted`** — while every call that ends is the newest one in progress, what is logged is
  redacted for all of them, and `console.error` is in place after the last.
-/

namespace LotusRfq.Execution

open Transitions List

/-! ## The source -/

inductive LogValue where
  | text (value : String)
  | array (items : List LogValue)
  | record (entries : List (String × LogValue))
  | other

/-- The patterns that are replaced in every text, and those of the keys whose value is dropped. -/
structure RedactionPatterns where
  replaceAll : String → String
  sensitiveKey : String → Bool

section

variable (patterns : RedactionPatterns) (sensitiveValues : List String)

def redactStringValues (value : String) : String :=
  patterns.replaceAll
    (sensitiveValues.foldl (fun output secret => output.replace secret "<redacted>") value)

mutual

def redactPolymarketSdkLog : LogValue → LogValue
  | .text value => .text (redactStringValues patterns sensitiveValues value)
  | .array items => .array (redactItems items)
  | .record entries => .record (redactEntries entries)
  | .other => .other

def redactItems : List LogValue → List LogValue
  | [] => []
  | item :: items => redactPolymarketSdkLog item :: redactItems items

def redactEntries : List (String × LogValue) → List (String × LogValue)
  | [] => []
  | (key, entry) :: entries =>
    (key, if patterns.sensitiveKey key then .text "<redacted>" else redactPolymarketSdkLog entry) ::
      redactEntries entries

end

end

/-- What `console.error` is: the sensitive values that its wrappers redact, the outermost first. The
original function has no wrapper. -/
abbrev ConsoleError := List (List String)

/-- What the original function is given of an argument. -/
def ConsoleError.passed (patterns : RedactionPatterns) (console : ConsoleError) (arg : LogValue) :
    LogValue :=
  console.foldl (fun arg values => redactPolymarketSdkLog patterns values arg) arg

structure SdkCall where
  sensitiveValues : List String
  originalError : ConsoleError
  deriving DecidableEq

/-- The calls are those in progress, the newest first. -/
structure LogSystem where
  console : ConsoleError
  calls : List SdkCall
  deriving DecidableEq

/-- A call begins, with the values of its client and its own, or the `i`-th newest one ends, whether
it returns or throws. -/
inductive LogAction where
  | start (configured extraSensitiveValues : List String)
  | finish (i : Nat)

def nonEmpty (value : String) : Bool := Js.trim value ≠ ""

/-- `callSdkWithRedactedConsole`. -/
def logStep (s : LogSystem) : LogAction → Option LogSystem
  | .start configured extraSensitiveValues =>
    let sensitiveValues := (configured ++ extraSensitiveValues).filter (nonEmpty ·)
    some ⟨sensitiveValues :: s.console, ⟨sensitiveValues, s.console⟩ :: s.calls⟩
  | .finish i => s.calls[i]?.map fun call => ⟨call.originalError, s.calls.eraseIdx i⟩

def quietConsole : LogSystem := ⟨[], []⟩

/-! ## Calls that nest -/

/-- On its way to the original function every argument is redacted for the value. -/
def ConsoleError.Redacts (console : ConsoleError) (value : String) : Prop :=
  ∃ values outer inner, value ∈ values ∧ ∀ patterns arg, console.passed patterns arg =
    passed patterns inner (redactPolymarketSdkLog patterns values (passed patterns outer arg))

/-- What is logged is redacted for every call in progress, and nothing is left of those that have
ended. -/
structure LogRedacted (s : LogSystem) : Prop where
  redacts : ∀ call ∈ s.calls, ∀ value ∈ call.sensitiveValues, s.console.Redacts value
  restored : s.calls = [] → s.console = []

def EndsNewest (_ : LogSystem) : LogAction → Prop
  | .start _ _ => True
  | .finish i => i = 0

instance (s : LogSystem) (action : LogAction) : Decidable (EndsNewest s action) := by
  unfold EndsNewest
  split <;> infer_instance

/-- Each call has found the wrappers of the calls that were in progress. -/
inductive Nested : ConsoleError → List SdkCall → Prop where
  | none : Nested [] []
  | call {console : ConsoleError} {calls : List SdkCall} (values : List String)
      (h : Nested console calls) : Nested (values :: console) (⟨values, console⟩ :: calls)

theorem Nested.step {s t : LogSystem} {action : LogAction} (h : Nested s.console s.calls)
    (hguard : EndsNewest s action) (hstep : logStep s action = some t) :
    Nested t.console t.calls := by
  obtain ⟨console, calls⟩ := s
  cases action with
  | start configured extraSensitiveValues =>
    cases hstep
    exact .call _ h
  | finish i =>
    obtain rfl : i = 0 := hguard
    cases h with
    | none => cases hstep
    | call values h =>
      cases hstep
      exact h

theorem Nested.wrapped {console : ConsoleError} {calls : List SdkCall} (h : Nested console calls) :
    console = calls.map (·.sensitiveValues) := by
  induction h with
  | none => rfl
  | call values _ ih => rw [map_cons, ← ih]

theorem ConsoleError.redacts_of_mem {console : ConsoleError} {values : List String} {value : String}
    (hvalues : values ∈ console) (hvalue : value ∈ values) : console.Redacts value := by
  obtain ⟨outer, inner, rfl⟩ := mem_iff_append.mp hvalues
  refine ⟨values, outer, inner, hvalue, fun patterns arg => ?_⟩
  rw [passed, foldl_append, foldl_cons]
  rfl

theorem not_redacts_original (value : String) : ¬ ConsoleError.Redacts [] value := by
  rintro ⟨values, outer, inner, -, h⟩
  let blank : RedactionPatterns := ⟨fun _ => "", fun _ => false⟩
  have htext (console : ConsoleError) (text : String) :
      ∃ left, console.passed blank (.text text) = .text left := by
    induction console generalizing text with
    | nil => exact ⟨text, rfl⟩
    | cons values console ih => exact ih _
  have hblank (console : ConsoleError) : console.passed blank (.text "") = .text "" := by
    induction console with
    | nil => rfl
    | cons values console ih => exact ih
  obtain ⟨left, hleft⟩ := htext outer "logged"
  have hlogged := h blank (.text "logged")
  rw [hleft] at hlogged
  exact absurd (hlogged.trans (hblank inner)) (by simp [ConsoleError.passed])

/-- **When the log is redacted.** Whatever calls overlap, as long as each one that ends is the newest
one in progress, everything that is passed to `console.error` is redacted for each call in progress,
and `console.error` is the original function when there is none. -/
theorem log_redacted {t : LogSystem} (hrun : Run logStep EndsNewest quietConsole t) :
    LogRedacted t := by
  have hnested : Nested t.console t.calls :=
    hrun.invariant (P := fun s => Nested s.console s.calls) .none fun _ _ _ h => h.step
  have hwrapped := hnested.wrapped
  refine ⟨fun call hcall value hvalue => ?_, fun hcalls => ?_⟩
  · refine ConsoleError.redacts_of_mem ?_ hvalue
    rw [hwrapped]
    exact mem_map_of_mem hcall
  · rw [hwrapped, hcalls, map_nil]

/-- Two calls, of which the second ends first. -/
theorem nested_log_redacted : LogRedacted quietConsole :=
  log_redacted (Run.of_play [.start ["key"] ["a"], .start ["key"] ["b"], .finish 0, .finish 0]
    (by decide +kernel))

/-- The first of two calls ends first, and takes the second one's wrapper off. -/
theorem overlapping_not_redacted : ¬ ∀ t, Reaches logStep quietConsole t → LogRedacted t := by
  intro h
  have hplay : play logStep (fun _ _ => True) [.start ["key"] [], .start ["key"] [], .finish 1]
      quietConsole = some ⟨[], [⟨["key"], [["key"]]⟩]⟩ := by decide +kernel
  exact not_redacts_original "key"
    ((h _ (Run.of_play _ hplay)).redacts _ mem_cons_self "key" mem_cons_self)

end LotusRfq.Execution
