import LotusRfq.Positions.Recorder
import LotusRfq.Lib.Tables
import Mathlib.Tactic.Linarith
import Mathlib.Tactic.Ring

/-!
# LotusRfq — what is applied of an order

However the fills of an order are reported, repeated and interleaved, what is applied of it to the
position is the largest size that was reported.

* **`Booked.recordFilledLeg`** — one transaction, on the tables as they are;
* **`applied_eq_maxReported`** — along runs.
-/

namespace LotusRfq.Positions

open RowLocks Transitions List

/-- The sizes that calls for `key` have reported and committed. -/
def reportedSizes (key : ApplicationKey) (committed : List (FilledLeg ⊕ SettlementDelta)) :
    List ℚ :=
  committed.filterMap fun
    | .inl input => if input.key = key then input.fillSize else none
    | .inr _ => none

def maxReported (key : ApplicationKey) (committed : List (FilledLeg ⊕ SettlementDelta)) : ℚ :=
  (reportedSizes key committed).foldl max 0

/-- What has been applied for `key`. -/
def totalApplied (key : ApplicationKey) (tables : PositionTables) : ℚ :=
  ((tables.applied.filter fun applied => applied.application = some key).map (·.size)).sum

def verifiedSize (key : PositionKey) (tables : PositionTables) : ℚ :=
  ((tables.positions.lookup key).map (·.verifiedSize)).getD 0

/-- The position after sizes are applied to it one after another. -/
def replay (key : PositionKey) (size : ℚ) (applied : List AppliedSize) : ℚ :=
  (applied.filter fun applied => applied.position = key).foldl
    (fun size applied => max (size + signedSize applied.side applied.size) 0) size

/-- The route of an execution is stored with it, and every fill of a leg is recorded with the leg of
that route. -/
def RoutedBy (routeLeg : LegKey → RouteLeg) (_ : RecorderSystem) (action : RecorderAction) : Prop :=
  ∀ input, action = .start input → input.routeLeg = routeLeg input.key.leg

instance (routeLeg : LegKey → RouteLeg) (s : RecorderSystem) (action : RecorderAction) :
    Decidable (RoutedBy routeLeg s action) :=
  match action with
  | .start input => decidable_of_iff (input.routeLeg = routeLeg input.key.leg)
      ⟨fun h _ heq => by cases heq; exact h, fun h => h input rfl⟩
  | .insert _ | .select _ | .commit _ | .rollback _ | .post _ => isTrue (by rintro _ ⟨⟩)

/-- A call that gets to the database has something to record, for its leg. -/
def IsRouted (routeLeg : LegKey → RouteLeg) (input : FilledLeg) : Prop :=
  input.routeLeg = routeLeg input.key.leg ∧ isPositive input.fillSize = true

/-- The application of an order has the size that was applied, which is the largest reported. -/
structure BookedFor (routeLeg : LegKey → RouteLeg) (tables : PositionTables)
    (committed : List (FilledLeg ⊕ SettlementDelta)) (key : ApplicationKey) : Prop where
  seen : previousFillSize (tables.applications.lookup key) (routeLeg key.leg).size =
    some (totalApplied key tables)
  reported : totalApplied key tables = maxReported key committed

variable {routeLeg : LegKey → RouteLeg} {tables : PositionTables}
  {committed : List (FilledLeg ⊕ SettlementDelta)} {key : ApplicationKey} {position : PositionKey}

/-! ## One transaction -/

section Transaction

variable {input : FilledLeg} {seen : Option FillState}

/-- What `recordFilledLeg` applies. -/
def FilledLeg.applied (input : FilledLeg) (delta : ℚ) : AppliedSize :=
  ⟨input.routeLeg.position input.key.leg.userId, some input.key, input.routeLeg.side, delta⟩

theorem recordFilledLeg_cases (input : FilledLeg) (seen : Option FillState)
    (tables : PositionTables) :
    (recordFilledLeg input seen tables = tables ∧ ∀ delta ∈ deltaFillSize input seen, delta ≤ 0) ∨
    ∃ delta ∈ deltaFillSize input seen, 0 < delta ∧ recordFilledLeg input seen tables =
      applySize (input.applied delta) (averagePriceOf input.fillState input.routeLeg) { tables with
          applications := OrderedMap.set input.key input.fillState tables.applications } := by
  unfold recordFilledLeg
  cases hdelta : deltaFillSize input seen with
  | none =>
    refine .inl ⟨rfl, ?_⟩
    rintro delta ⟨⟩
  | some delta =>
    by_cases hle : delta ≤ 0
    · refine .inl ⟨if_pos hle, ?_⟩
      rintro delta ⟨⟩
      exact hle
    · exact .inr ⟨delta, rfl, not_le.mp hle, if_neg hle⟩

theorem database_lawful : database.Lawful where
  frame := by
    intro input seen tables k hk
    show (recordFilledLeg input seen tables).applications.lookup k = tables.applications.lookup k
    rcases recordFilledLeg_cases input seen tables with ⟨hsame, -⟩ | ⟨delta, -, -, hwritten⟩
    · rw [hsame]
    · rw [hwritten]
      exact (OrderedMap.lookup_set _ _ _ _).trans (if_neg hk)
  kept := by
    intro input seen tables k hsome
    show ((recordFilledLeg input seen tables).applications.lookup k).isSome = true
    rcases recordFilledLeg_cases input seen tables with ⟨hsame, -⟩ | ⟨delta, -, -, hwritten⟩
    · rw [hsame]
      exact hsome
    · rw [hwritten]
      show ((OrderedMap.set input.key input.fillState tables.applications).lookup k).isSome = true
      rw [OrderedMap.lookup_set]
      split
      · rfl
      · exact hsome
  post := rfl

end Transaction

/-! ## The books -/

theorem maxReported_append (committed : List (FilledLeg ⊕ SettlementDelta))
    (e : FilledLeg ⊕ SettlementDelta) : maxReported key (committed ++ [e]) =
      (reportedSizes key [e]).foldl max (maxReported key committed) := by
  rw [maxReported, maxReported, reportedSizes, filterMap_append, foldl_append]
  rfl

theorem totalApplied_applySize (applied : AppliedSize) (price : ℚ) :
    totalApplied key (applySize applied price tables) =
      totalApplied key tables + if applied.application = some key then applied.size else 0 := by
  rw [totalApplied, totalApplied, applySize, filter_append, map_append, sum_append,
    filter_singleton]
  by_cases happlication : applied.application = some key
  · simp [happlication]
  · simp [happlication]

variable {input : FilledLeg} {s : RecorderSystem}

theorem reportedSizes_self {size : ℚ} (hsize : input.fillSize = some size) :
    reportedSizes input.key [.inl input] = [size] := by
  simp [reportedSizes, hsize]

theorem reportedSizes_other (hne : key ≠ input.key) : reportedSizes key [.inl input] = [] := by
  simp [reportedSizes, hne.symm]

section

variable {input : FilledLeg} {size : ℚ} (hrouted : input.routeLeg = routeLeg input.key.leg)
  (hsize : input.fillSize = some size) (h : BookedFor routeLeg tables committed input.key)

include hrouted hsize h

theorem BookedFor.deltaFillSize : deltaFillSize input (tables.applications.lookup input.key) =
      some (max 0 (size - totalApplied input.key tables)) := by
  have hseen := h.seen
  rw [← hrouted] at hseen
  unfold Positions.deltaFillSize
  rw [hsize]
  dsimp only [Option.bind_eq_bind, Option.bind_some]
  rw [hseen]
  rfl

/-- One more call for the same order: what is applied for it grows to the size that is reported, if
that is larger. -/
theorem BookedFor.record :
    BookedFor routeLeg (recordFilledLeg input (tables.applications.lookup input.key) tables)
      (committed ++ [.inl input]) input.key := by
  have hdelta := h.deltaFillSize hrouted hsize
  have hmax : maxReported input.key (committed ++ [.inl input]) =
      max (totalApplied input.key tables) size := by
    rw [maxReported_append, reportedSizes_self hsize, h.reported]
    rfl
  rcases recordFilledLeg_cases input (tables.applications.lookup input.key) tables with
    ⟨hsame, hle⟩ | ⟨delta, hmem, hpos, hwritten⟩
  · -- nothing new is reported
    have hsmall : size ≤ totalApplied input.key tables := by
      have hmax0 := (le_max_right _ _).trans (hle _ hdelta)
      linarith
    rw [hsame]
    refine ⟨h.seen, ?_⟩
    rw [hmax, max_eq_left hsmall]
  · have hdelta' : delta = max 0 (size - totalApplied input.key tables) :=
      Option.some.inj (hmem.symm.trans hdelta)
    have hlarge : totalApplied input.key tables < size := by
      by_contra hge
      rw [max_eq_left (by linarith)] at hdelta'
      linarith
    have htotal : totalApplied input.key (recordFilledLeg input
        (tables.applications.lookup input.key) tables) = size := by
      rw [hwritten, totalApplied_applySize, FilledLeg.applied, if_pos rfl, hdelta',
        max_eq_right (by linarith)]
      show totalApplied input.key tables + _ = size
      ring
    refine ⟨?_, ?_⟩
    · rw [htotal, hwritten]
      show previousFillSize ((OrderedMap.set input.key input.fillState tables.applications).lookup
        input.key) (routeLeg input.key.leg).size = some size
      rw [OrderedMap.lookup_set, if_pos rfl, ← hrouted]
      exact hsize
    · rw [htotal, hmax, max_eq_right hlarge.le]

end

theorem BookedFor.record_other (hne : key ≠ input.key)
    (h : BookedFor routeLeg tables committed key) :
    BookedFor routeLeg (recordFilledLeg input (tables.applications.lookup input.key) tables)
      (committed ++ [.inl input]) key := by
  have happlications : (recordFilledLeg input (tables.applications.lookup input.key)
      tables).applications.lookup key = tables.applications.lookup key :=
    database_lawful.frame hne
  have htotal : totalApplied key (recordFilledLeg input (tables.applications.lookup input.key)
      tables) = totalApplied key tables := by
    rcases recordFilledLeg_cases input (tables.applications.lookup input.key) tables with
      ⟨hsame, -⟩ | ⟨delta, -, -, hwritten⟩
    · rw [hsame]
    · have hother : (input.applied delta).application ≠ some key := fun heq =>
        hne (Option.some.inj heq).symm
      rw [hwritten, totalApplied_applySize, if_neg hother, add_zero]
      rfl
  refine ⟨?_, ?_⟩
  · rw [happlications, htotal]
    exact h.seen
  · rw [htotal, maxReported_append, reportedSizes_other hne]
    exact h.reported

theorem bookedFor_record (hrouted : IsRouted routeLeg input)
    (h : ∀ key, BookedFor routeLeg tables committed key) (key : ApplicationKey) :
    BookedFor routeLeg (recordFilledLeg input (tables.applications.lookup input.key) tables)
      (committed ++ [.inl input]) key := by
  obtain ⟨hroute, hpositive⟩ := hrouted
  by_cases hkey : key = input.key
  · subst hkey
    cases hsize : input.fillSize with
    | none =>
      rw [hsize] at hpositive
      cases hpositive
    | some size => exact (h input.key).record hroute hsize
  · exact (h key).record_other hkey

theorem BookedFor.settle {delta : SettlementDelta} (h : BookedFor routeLeg tables committed key) :
    BookedFor routeLeg (applySettlementDelta delta tables) (committed ++ [.inr delta]) key where
  seen := by
    rw [applySettlementDelta, totalApplied_applySize, if_neg (by rintro ⟨⟩), add_zero]
    exact h.seen
  reported := by
    rw [applySettlementDelta, totalApplied_applySize, if_neg (by rintro ⟨⟩), add_zero,
      maxReported_append]
    exact h.reported

/-! ## Positions -/

theorem verifiedSize_applySize (applied : AppliedSize) (price : ℚ) :
    verifiedSize position (applySize applied price tables) =
      if applied.position = position then
        max (verifiedSize position tables + signedSize applied.side applied.size) 0
      else verifiedSize position tables := by
  rw [verifiedSize, verifiedSize, applySize, upsertPosition, OrderedMap.lookup_set]
  by_cases hposition : applied.position = position
  · rw [if_pos hposition.symm, if_pos hposition, hposition]
    cases tables.positions.lookup position with
    | none => simp
    | some row => simp
  · rw [if_neg (Ne.symm hposition), if_neg hposition]

theorem replay_append (size : ℚ) (earlier : List AppliedSize) (applied : AppliedSize) :
    replay position size (earlier ++ [applied]) =
      if applied.position = position then
        max (replay position size earlier + signedSize applied.side applied.size) 0
      else replay position size earlier := by
  rw [replay, replay, filter_append, filter_singleton, foldl_append]
  by_cases hposition : applied.position = position
  · simp [hposition]
  · simp [hposition]

/-- The positions are what the sizes make of them that were applied. -/
def Replayed (start : PositionTables) (tables : PositionTables) : Prop :=
  ∀ position, verifiedSize position tables =
    replay position (verifiedSize position start) tables.applied

theorem Replayed.applySize {start : PositionTables} (h : Replayed start tables)
    (applied : AppliedSize) (price : ℚ) : Replayed start (applySize applied price tables) := by
  intro position
  rw [verifiedSize_applySize, h position]
  exact (replay_append _ _ _).symm

theorem Replayed.recordFilledLeg {start : PositionTables} (h : Replayed start tables)
    (input : FilledLeg) (seen : Option FillState) :
    Replayed start (recordFilledLeg input seen tables) := by
  rcases recordFilledLeg_cases input seen tables with ⟨hsame, -⟩ | ⟨delta, -, -, hwritten⟩
  · rw [hsame]
    exact h
  · rw [hwritten]
    exact Replayed.applySize h _ _

/-! ## Along runs -/

/-- Nothing has been recorded, and nobody is recording. The positions are as they are. -/
structure Unrecorded (s : RecorderSystem) : Prop where
  applications : s.tables.applications = []
  applied : s.tables.applied = []
  phases : s.phases = []
  committed : s.committed = []

theorem Unrecorded.bookedFor (hs : Unrecorded s) (routeLeg : LegKey → RouteLeg)
    (key : ApplicationKey) : BookedFor routeLeg s.tables s.committed key where
  seen := by
    rw [hs.applications, totalApplied, hs.applied]
    rfl
  reported := by
    rw [totalApplied, hs.applied, hs.committed]
    rfl

theorem recorderStep_cases {t : RecorderSystem} {action : RecorderAction}
    (h : recorderStep s action = some t) : t = s ∨ (step database s action = some t ∧
      (∀ input, action = .start input → isPositive input.fillSize = true) ∧
        ∀ delta, action = .post delta → isPositive delta.size = true) := by
  cases action with
  | start input =>
    rw [recorderStep] at h
    split at h
    next hpositive =>
      refine .inr ⟨h, fun input heq => ?_, by rintro _ ⟨⟩⟩
      cases heq
      exact hpositive
    next =>
      cases h
      exact .inl rfl
  | post delta =>
    rw [recorderStep] at h
    split at h
    next hpositive =>
      refine .inr ⟨h, by rintro _ ⟨⟩, fun delta heq => ?_⟩
      cases heq
      exact hpositive
    next =>
      cases h
      exact .inl rfl
  | insert i => exact .inr ⟨h, by rintro _ ⟨⟩, by rintro _ ⟨⟩⟩
  | select i => exact .inr ⟨h, by rintro _ ⟨⟩, by rintro _ ⟨⟩⟩
  | commit i => exact .inr ⟨h, by rintro _ ⟨⟩, by rintro _ ⟨⟩⟩
  | rollback i => exact .inr ⟨h, by rintro _ ⟨⟩, by rintro _ ⟨⟩⟩

theorem run_database {t : RecorderSystem} (hrun : Run recorderStep (RoutedBy routeLeg) s t) :
    Run (step database) (Starts (IsRouted routeLeg)) s t := by
  induction hrun with
  | refl => exact .refl
  | tail _ action hguard hstep ih =>
    rcases recorderStep_cases hstep with rfl | ⟨hdatabase, hpositive, -⟩
    · exact ih
    · exact .tail ih action (fun input heq => ⟨hguard input heq, hpositive input heq⟩) hdatabase

/-- **What is applied of every order** is the largest size that was reported for it, and the
positions are what these sizes make of them. -/
theorem applied_eq_maxReported (routeLeg : LegKey → RouteLeg) {s t : RecorderSystem}
    (hs : Unrecorded s) (hrun : Run recorderStep (RoutedBy routeLeg) s t) :
    (∀ key, totalApplied key t.tables = maxReported key t.committed) ∧
      ∀ position, verifiedSize position t.tables =
        replay position (verifiedSize position s.tables) t.tables.applied := by
  have hbooked : (∀ key, BookedFor routeLeg t.tables t.committed key) ∧
      Replayed s.tables t.tables := by
    refine invariant_of_run (I := fun tables committed =>
      (∀ key, BookedFor routeLeg tables committed key) ∧ Replayed s.tables tables)
      database_lawful ?_ ?_ (consistent_of_phases_nil hs.phases) ⟨fun key => ?_, ?_⟩
      (run_database hrun)
    · rintro tables committed input hrouted ⟨hbooked, hreplayed⟩
      exact ⟨bookedFor_record hrouted hbooked, hreplayed.recordFilledLeg input _⟩
    · rintro tables committed delta ⟨hbooked, hreplayed⟩
      exact ⟨fun key => (hbooked key).settle, Replayed.applySize hreplayed _ _⟩
    · exact hs.bookedFor routeLeg key
    · intro position
      rw [hs.applied]
      rfl
  exact ⟨fun key => (hbooked.1 key).reported, hbooked.2⟩

/-! ### Reported three times, applied once -/

def blank : RecorderSystem := ⟨⟨[], [], []⟩, [], []⟩

theorem blank_unrecorded : Unrecorded blank := ⟨rfl, rfl, rfl, rfl⟩

def tenShares : RouteLeg := ⟨.buy, "market-1", "YES", "LIMITLESS", some 10, 1 / 2⟩

def boughtShares : ApplicationKey := ⟨⟨"quote-1", "user-1", 0⟩, "venue-order-1"⟩

def reporting (size : ℚ) : FilledLeg := ⟨boughtShares, tenShares, ⟨some size, 1 / 2, true⟩⟩

/-- All ten are recorded while a report of four is about to insert, and ten once more. -/
def reportedThrice : List RecorderAction :=
  [.start (reporting 4), .start (reporting 10), .insert 1, .commit 1, .insert 0, .select 0,
    .commit 0, .start (reporting 10), .insert 2, .select 2, .commit 2]

theorem applied_eq_maxReported_blank : ∃ t, Unrecorded blank ∧
    Run recorderStep (RoutedBy fun _ => tenShares) blank t ∧
    totalApplied boughtShares t.tables = 10 ∧
    totalApplied boughtShares t.tables = maxReported boughtShares t.committed := by
  have hplay : (play recorderStep (RoutedBy fun _ => tenShares) reportedThrice blank).isSome := by
    decide +kernel
  exact ⟨_, blank_unrecorded, Run.of_isSome _ hplay, by decide +kernel +revert,
    (applied_eq_maxReported (fun _ => tenShares) blank_unrecorded
      (Run.of_isSome _ hplay)).1 boughtShares⟩

end LotusRfq.Positions
