import LotusRfq.Guardrails.Degradation

/-!
# LotusRfq — overrides of two kinds in one selection

The overrides in force are ordered by their scope and, in one scope, by their age. What comes first
is taken for a mode override, of whatever kind it is.

* **`selected_minimal`** — what is selected is preceded by nothing in force;
* **`resolveEffectiveMode_right_iff`** — so the mode is right exactly when a mode override precedes
  every enforcement override in force.
-/

namespace LotusRfq.Guardrails

open Js Processes List

variable {localeCompare : String → String → Ordering} {now : ℤ}
  {overrides : List ControlPlaneOverride} {context : DegradationContext}
  {evaluation : Option GuardrailEvaluationResult}

/-! ## What comes first -/

def OverrideScopeType.rank : OverrideScopeType → ℕ
  | .ENGINE => 0
  | .BUCKET => 1
  | .SHARD => 2
  | .MARKET => 3

/-- By scope, and in one scope by recency. -/
def Precedes (localeCompare : String → String → Ordering) (left right : ControlPlaneOverride) :
    Prop :=
  left.scopeType.rank < right.scopeType.rank ∨
    (left.scopeType = right.scopeType ∧ compareOverrides localeCompare left right = .lt)

instance (left right : ControlPlaneOverride) : Decidable (Precedes localeCompare left right) :=
  inferInstanceAs (Decidable (_ ∨ _))

def InForce (now : ℤ) (overrides : List ControlPlaneOverride) (context : DegradationContext)
    (override : ControlPlaneOverride) : Prop :=
  override ∈ overrides ∧ override.active now = true ∧ override.inScope context = true

theorem mem_loadActive {override : ControlPlaneOverride} :
    override ∈ loadActiveControlPlaneOverrides now overrides context ↔
      InForce now overrides context override := by
  unfold loadActiveControlPlaneOverrides InForce
  rw [mem_filter, Bool.and_eq_true]

theorem matches_of_inForce {override : ControlPlaneOverride}
    (h : InForce now overrides context override) : override.matches context = true := by
  have hscope := h.2.2
  unfold ControlPlaneOverride.inScope at hscope
  exact (Bool.and_eq_true_iff.mp hscope).1

theorem rank_injective {left right : OverrideScopeType} (h : left.rank = right.rank) :
    left = right := by
  cases left <;> cases right <;> first | rfl | exact absurd h (by decide)

instance compareOverrides_trans [Std.TransCmp localeCompare] :
    Std.TransCmp (compareOverrides localeCompare) := by
  have hrecent := transCmp_descending (compare : ℤ → ℤ → Ordering) ControlPlaneOverride.createdAt
  have hid := transCmp_descending localeCompare ControlPlaneOverride.id
  exact inferInstanceAs (Std.TransCmp (compareLex
    (fun left right : ControlPlaneOverride => compare right.createdAt left.createdAt)
    (fun left right : ControlPlaneOverride => localeCompare right.id left.id)))

/-! ## What is selected -/

variable {items : List ControlPlaneOverride} {override : ControlPlaneOverride}

def scopedOverrides (localeCompare : String → String → Ordering)
    (items : List ControlPlaneOverride) (scopeType : OverrideScopeType) :
    List ControlPlaneOverride :=
  sortWith (compareOverrides localeCompare)
    (items.filter fun item => item.scopeType = scopeType)

variable {scopeType : OverrideScopeType}

theorem mem_scopedOverrides : override ∈ scopedOverrides localeCompare items scopeType ↔
      override ∈ items ∧ override.scopeType = scopeType := by
  rw [scopedOverrides, mem_sortWith, mem_filter, decide_eq_true_eq]

section

variable (hmatches : ∀ item ∈ items, item.matches context = true)

include hmatches

theorem selectScoped_eq_head
    (scopeType : OverrideScopeType) : selectScoped localeCompare items context scopeType =
      (scopedOverrides localeCompare items scopeType).head? := by
  show (scopedOverrides localeCompare items scopeType).find? _ = _
  cases hsorted : scopedOverrides localeCompare items scopeType with
  | nil => rfl
  | cons first rest =>
    have hfirst : first ∈ scopedOverrides localeCompare items scopeType := by
      rw [hsorted]
      exact mem_cons_self
    exact find?_cons_of_pos (hmatches first (mem_scopedOverrides.mp hfirst).1)

theorem selectScoped_none
    (h : selectScoped localeCompare items context scopeType = none) :
    ∀ item ∈ items, item.scopeType ≠ scopeType := by
  rw [selectScoped_eq_head hmatches, head?_eq_none_iff] at h
  intro item hitem hscope
  have hmem : item ∈ scopedOverrides localeCompare items scopeType :=
    mem_scopedOverrides.mpr ⟨hitem, hscope⟩
  rw [h] at hmem
  cases hmem

theorem selectScoped_some [Std.TransCmp localeCompare]
    (h : selectScoped localeCompare items context scopeType = some override) :
    override ∈ items ∧ override.scopeType = scopeType ∧ ∀ item ∈ items, item.scopeType = scopeType →
        compareOverrides localeCompare item override ≠ .lt := by
  rw [selectScoped_eq_head hmatches] at h
  obtain ⟨hmem, hleast⟩ := head_sortWith h
  obtain ⟨hitem, hscope⟩ := mem_filter.mp hmem
  refine ⟨hitem, of_decide_eq_true hscope, fun item hitem' hscope' => ?_⟩
  exact hleast item (mem_filter.mpr ⟨hitem', decide_eq_true hscope'⟩)

/-- **What is selected** is preceded by nothing. -/
theorem selected_minimal [Std.TransCmp localeCompare]
    (h : selectMatchingControlPlaneOverride localeCompare items context = some override) :
    override ∈ items ∧ ∀ item ∈ items, ¬ Precedes localeCompare item override := by
  -- the scopes before the one that is found have no override at all
  obtain ⟨before, scopeType, after, hsplit, hfound, hnone⟩ := findSome?_eq_some_iff.mp h
  obtain ⟨hmem, hscope, hleast⟩ := selectScoped_some hmatches hfound
  refine ⟨hmem, fun item hitem hprecedes => ?_⟩
  rcases hprecedes with hrank | ⟨hsame, hlt⟩
  · have hranks : (before ++ scopeType :: after).Pairwise fun left right =>
        left.rank < right.rank := by
      rw [← hsplit]
      decide
    have hall : item.scopeType ∈ before ++ scopeType :: after := by
      rw [← hsplit]
      cases item.scopeType <;> decide
    rw [hscope] at hrank
    rcases mem_append.mp hall with hbefore | hlater
    · exact selectScoped_none hmatches (hnone _ hbefore) item hitem rfl
    · have hcons := (pairwise_append.mp hranks).2.1
      rcases mem_cons.mp hlater with hsame | hafter
      · rw [hsame] at hrank
        exact Nat.lt_irrefl _ hrank
      · exact Nat.lt_asymm hrank ((pairwise_cons.mp hcons).1 _ hafter)
  · exact hleast item hitem (hsame.trans hscope) hlt

theorem selected_none
    (h : selectMatchingControlPlaneOverride localeCompare items context = none) : items = [] := by
  refine eq_nil_iff_forall_not_mem.mpr fun item hitem => ?_
  have hscope := findSome?_eq_none_iff.mp h item.scopeType (by cases item.scopeType <;> decide)
  exact selectScoped_none hmatches hscope item hitem rfl

end

theorem eq_of_not_precedes [Std.TransCmp localeCompare] {left right : ControlPlaneOverride}
    (h : ¬ Precedes localeCompare left right) (h' : ¬ Precedes localeCompare right left) :
    localeCompare right.id left.id = .eq := by
  unfold Precedes at h h'
  simp only [not_or, not_and] at h h'
  have hscope : left.scopeType = right.scopeType := rank_injective (by omega)
  have hsame : compareOverrides localeCompare left right = .eq := by
    cases horder : compareOverrides localeCompare left right with
    | eq => rfl
    | lt => exact absurd horder (h.2 hscope)
    | gt => exact absurd (Std.OrientedCmp.gt_iff_lt.mp horder) (h'.2 hscope.symm)
  unfold compareOverrides at hsame
  exact (Ordering.then_eq_eq.mp hsame).2

/-! ## The right mode -/

/-- What the auto-safety engine writes to disable resolution pooling. -/
def disableResolutionPoolingPayload (trigger strategyKey scopeType scopeId : String) : Json :=
  .object [("enforcementMode", .string "ENFORCED"),
    ("reason", .string ("phase3b:auto_safety:disable_resolution_pooling:" ++ trigger)),
    ("policy", .string "DISABLE_RESOLUTION_POOLING"), ("strategyKey", .string strategyKey),
    ("scopeType", .string scopeType), ("scopeId", .string scopeId)]

/-- The overrides that the system creates: of a mode, or to disable resolution pooling. -/
def Created (override : ControlPlaneOverride) : Prop :=
  match override.overrideType with
  | .EXECUTION_MODE => (executionModeOf (override.payload.get "mode")).isSome
  | .GUARDRAIL_ENFORCEMENT => ∃ trigger strategyKey scopeType scopeId,
    override.payload = disableResolutionPoolingPayload trigger strategyKey scopeType scopeId

def readableReason (override : ControlPlaneOverride) : Bool :=
  match override.payload.get "reason" with
  | none | some (.string _) => true
  | _ => false

section Right

variable (localeCompare now overrides context)

abbrev ModeInForce (override : ControlPlaneOverride) : Prop :=
  InForce now overrides context override ∧ override.overrideType = .EXECUTION_MODE

def IsFirstMode (override : ControlPlaneOverride) : Prop :=
  ModeInForce now overrides context override ∧
    ∀ other, ModeInForce now overrides context other → ¬ Precedes localeCompare other override

/-- The mode of the first mode override in force, else what the guardrails suggest, else all. -/
def RightMode (evaluation : Option GuardrailEvaluationResult) (mode : ExecutionMode) : Prop :=
  (∃ override, IsFirstMode localeCompare now overrides context override ∧
    executionModeOf (override.payload.get "mode") = some mode) ∨
  ((∀ override, ¬ ModeInForce now overrides context override) ∧
    mode = (guardrailMode evaluation).getD .FULL_MODE)

/-- A mode override precedes every enforcement override in force, and the first has a reason that
can be read. -/
def ModesComeFirst : Prop :=
  (∀ override, InForce now overrides context override →
    override.overrideType = .GUARDRAIL_ENFORCEMENT →
    ∃ other, ModeInForce now overrides context other ∧ Precedes localeCompare other override) ∧
  ∀ override, IsFirstMode localeCompare now overrides context override →
    readableReason override = true

end Right

theorem parseOverridePayload_mode {mode : ExecutionMode}
    (hmode : executionModeOf (override.payload.get "mode") = some mode) :
    (∃ result, buildOverrideResult override = .ok result) ↔ readableReason override = true := by
  unfold buildOverrideResult parseOverridePayload readableReason
  rw [hmode]
  cases override.payload.get "reason" with
  | none => simp [Bind.bind, Except.bind, pure, Except.pure]
  | some reason => cases reason <;> simp [Bind.bind, Except.bind, pure, Except.pure]

theorem buildOverrideResult_mode {mode : ExecutionMode} {result : EffectiveExecutionModeResult}
    (hmode : executionModeOf (override.payload.get "mode") = some mode)
    (h : buildOverrideResult override = .ok result) : result.mode = mode := by
  unfold buildOverrideResult parseOverridePayload at h
  rw [hmode] at h
  cases hreason : override.payload.get "reason" with
  | none =>
    rw [hreason] at h
    cases h
    rfl
  | some reason =>
    rw [hreason] at h
    cases reason <;> first | cases h; rfl | cases h

theorem buildOverrideResult_enforcement (hcreated : Created override)
    (htype : override.overrideType = .GUARDRAIL_ENFORCEMENT) :
    buildOverrideResult override = .error .malformed_override_payload := by
  unfold Created at hcreated
  rw [htype] at hcreated
  obtain ⟨trigger, strategyKey, scopeType, scopeId, hpayload⟩ := hcreated
  unfold buildOverrideResult parseOverridePayload
  rw [hpayload]
  rfl

/-- An id is one override's, and ids of different overrides compare as different. -/
abbrev DistinctIds (localeCompare : String → String → Ordering)
    (overrides : List ControlPlaneOverride) : Prop :=
  ∀ left ∈ overrides, ∀ right ∈ overrides, localeCompare left.id right.id = .eq → left = right

/-- **The mode is right** exactly when the mode overrides come first. -/
theorem resolveEffectiveMode_right_iff [Std.TransCmp localeCompare]
    (hcreated : ∀ override ∈ overrides, Created override)
    (hids : DistinctIds localeCompare overrides) : (∃ result, resolveEffectiveMode localeCompare
        (loadActiveControlPlaneOverrides now overrides context) context evaluation = .ok result ∧
      RightMode localeCompare now overrides context evaluation result.mode) ↔
      ModesComeFirst localeCompare now overrides context := by
  unfold resolveEffectiveMode
  have hmatches : ∀ item ∈ loadActiveControlPlaneOverrides now overrides context,
      item.matches context = true := fun item hitem => matches_of_inForce (mem_loadActive.mp hitem)
  cases hselect : selectMatchingControlPlaneOverride localeCompare
      (loadActiveControlPlaneOverrides now overrides context) context with
  | none =>
    -- nothing is in force
    have hnone : ∀ override, ¬ InForce now overrides context override := by
      intro override hforce
      have hmem := mem_loadActive.mpr hforce
      rw [selected_none hmatches hselect] at hmem
      cases hmem
    refine ⟨fun _ => ⟨fun override hforce => absurd hforce (hnone override),
      fun override hfirst => absurd hfirst.1.1 (hnone override)⟩, fun _ => ⟨_, rfl, Or.inr ?_⟩⟩
    exact ⟨fun override hforce => hnone override hforce.1,
      buildGuardrailOrDefaultResult_mode evaluation⟩
  | some selected =>
    obtain ⟨hmem, hminimal⟩ := selected_minimal hmatches hselect
    have hforce := mem_loadActive.mp hmem
    have hleast : ∀ other, InForce now overrides context other →
        ¬ Precedes localeCompare other selected :=
      fun other hother => hminimal other (mem_loadActive.mpr hother)
    have hcreatedSelected := hcreated selected hforce.1
    cases htype : selected.overrideType with
    | GUARDRAIL_ENFORCEMENT =>
      have hfails := buildOverrideResult_enforcement hcreatedSelected htype
      constructor
      · rintro ⟨result, hok, -⟩
        have hbuilt : buildOverrideResult selected = .ok result := hok
        rw [hfails] at hbuilt
        cases hbuilt
      · intro hmodes
        obtain ⟨other, hother, hprecedes⟩ := hmodes.1 selected hforce htype
        exact absurd hprecedes (hleast other hother.1)
    | EXECUTION_MODE =>
      have hfirst : IsFirstMode localeCompare now overrides context selected :=
        ⟨⟨hforce, htype⟩, fun other hother => hleast other hother.1⟩
      unfold Created at hcreatedSelected
      rw [htype] at hcreatedSelected
      obtain ⟨mode, hmode⟩ := Option.isSome_iff_exists.mp hcreatedSelected
      constructor
      · rintro ⟨result, hok, -⟩
        refine ⟨fun override hother henforces => ?_, fun override hother => ?_⟩
        · -- the selected override precedes what it is not preceded by
          refine ⟨selected, hfirst.1, Classical.not_not.mp fun hnot => ?_⟩
          have heq := hids override hother.1 selected hforce.1
            (eq_of_not_precedes hnot (hleast override hother))
          rw [heq, htype] at henforces
          cases henforces
        · have heq := hids override hother.1.1.1 selected hforce.1
            (eq_of_not_precedes (hother.2 selected hfirst.1) (hleast override hother.1.1))
          rw [heq]
          exact (parseOverridePayload_mode hmode).mp ⟨result, hok⟩
      · intro hmodes
        obtain ⟨result, hok⟩ := (parseOverridePayload_mode hmode).mpr (hmodes.2 selected hfirst)
        refine ⟨result, hok, Or.inl ⟨selected, hfirst, ?_⟩⟩
        rw [buildOverrideResult_mode hmode hok]
        exact hmode

/-! ## The call -/

theorem ends_persistModeTransitionIfNeeded {result : EffectiveExecutionModeResult}
    {s : ControlPlaneState} :
    (∃ s', alone handle (persistModeTransitionIfNeeded context result) s = (.ok (), s')) ↔
      (s.shards.lookup context.shardId).isSome = true := by
  have hload : alone handle (call (ControlPlaneRequest.loadCurrentShardMode context.shardId)) s =
      (.ok (s.shards.lookup context.shardId), s) := rfl
  unfold persistModeTransitionIfNeeded
  rw [alone_bind_ok hload]
  cases hrow : s.shards.lookup context.shardId with
  | none =>
    refine ⟨fun ⟨s', h⟩ => ?_, fun h => by cases h⟩
    have herror := congrArg Prod.fst h
    cases herror
  | some currentMode =>
    refine ⟨fun _ => rfl, fun _ => ?_⟩
    show ∃ s', alone handle (if currentMode = _ then _ else _) s = (.ok (), s')
    by_cases hsame : currentMode = .mode result.mode
    · rw [if_pos hsame]
      exact ⟨s, rfl⟩
    · have hpersist : alone handle
          (call (ControlPlaneRequest.persistMode context.shardId result.mode)) s =
          (.ok true, { s with
            shards := setShardMode context.shardId (.mode result.mode) s.shards }) := by
        show ((.ok (s.shards.lookup context.shardId).isSome : Except _ Bool), _) = _
        rw [hrow]
        rfl
      rw [if_neg hsame, alone_bind_ok hpersist]
      exact ⟨_, rfl⟩

/-- The call returns what is resolved, where its context is valid and it can write the mode. -/
theorem returns_getEffectiveExecutionMode {persist : Bool} {s : ControlPlaneState}
    {P : EffectiveExecutionModeResult → Prop} :
    Returns handle (getEffectiveExecutionMode localeCompare context evaluation persist) s
        (fun result _ => P result) ↔
      hasText context.shardId = true ∧
      (persist = true → (s.shards.lookup context.shardId).isSome = true) ∧
      ∃ result, resolveEffectiveMode localeCompare
        (loadActiveControlPlaneOverrides s.now s.overrides context) context evaluation =
          .ok result ∧ P result := by
  unfold Returns Ends getEffectiveExecutionMode
  cases htext : hasText context.shardId with
  | false =>
    refine ⟨fun ⟨result, hresult, _⟩ => ?_, fun h => by cases h.1⟩
    cases hresult
  | true =>
    have hload : alone handle (call (ControlPlaneRequest.loadActiveOverrides context)) s =
        (.ok (loadActiveControlPlaneOverrides s.now s.overrides context), s) := rfl
    simp only [Bool.not_true, Bool.false_eq_true, if_false, true_and]
    rw [alone_bind_ok hload]
    cases hresolve : resolveEffectiveMode localeCompare
        (loadActiveControlPlaneOverrides s.now s.overrides context) context evaluation with
    | error error =>
      refine ⟨fun ⟨result, hresult, _⟩ => ?_, fun ⟨_, result, hresult, _⟩ => by cases hresult⟩
      cases hresult
    | ok result =>
      cases persist with
      | false =>
        refine ⟨fun ⟨result', hresult, hP⟩ => ⟨fun h => absurd h Bool.false_ne_true, result', hresult, hP⟩,
          fun ⟨_, result', hresult, hP⟩ => ⟨result', hresult, hP⟩⟩
      | true =>
        constructor
        · rintro ⟨result', hresult, hP⟩
          replace hresult : (alone handle (persistModeTransitionIfNeeded context result >>=
            fun _ => pure result) s).1 = .ok result' := hresult
          cases hdone : alone handle (persistModeTransitionIfNeeded context result) s with
          | mk ended s' =>
            cases ended with
            | error error =>
              rw [alone_bind_error hdone] at hresult
              cases hresult
            | ok done =>
              rw [alone_bind_ok hdone] at hresult
              exact ⟨fun _ => ends_persistModeTransitionIfNeeded.mp ⟨s', hdone⟩, result',
                hresult, hP⟩
        · rintro ⟨hrow, result', hresult, hP⟩
          obtain ⟨s', hdone⟩ := ends_persistModeTransitionIfNeeded.mpr (hrow rfl)
          refine ⟨result', ?_, hP⟩
          show (alone handle (persistModeTransitionIfNeeded context result >>= fun _ => pure result)
            s).1 = _
          rw [alone_bind_ok hdone]
          exact hresult

/-- **A planning call is given the right mode** exactly when a mode override precedes every
enforcement override in force, and can be read. -/
theorem getEffectiveExecutionMode_right_iff [Std.TransCmp localeCompare] (persist : Bool)
    (s : ControlPlaneState) (context : DegradationContext)
    (evaluation : Option GuardrailEvaluationResult)
    (hcreated : ∀ override ∈ s.overrides, Created override)
    (hids : DistinctIds localeCompare s.overrides) :
    Returns handle (getEffectiveExecutionMode localeCompare context evaluation persist) s
        (fun result _ => RightMode localeCompare s.now s.overrides context evaluation result.mode) ↔
      hasText context.shardId = true ∧
      (persist = true → (s.shards.lookup context.shardId).isSome = true) ∧
      ModesComeFirst localeCompare s.now s.overrides context := by
  rw [returns_getEffectiveExecutionMode, resolveEffectiveMode_right_iff hcreated hids]

def poolingDisabledState : ControlPlaneState where
  now := 0
  overrides := [
    ⟨"0a", .SHARD, "shard", .GUARDRAIL_ENFORCEMENT, disableResolutionPoolingPayload
      "REPLAY_MISMATCH_RATE" "sor" "SHARD" "shard", 0, some 3600000⟩,
    ⟨"0b", .MARKET, "market", .EXECUTION_MODE, .object [("mode", .string "SOR_ONLY")], 0, none⟩]
  shards := [("shard", .mode .FULL_MODE)]
  actions := []
  returned := []

theorem created_poolingDisabled : ∀ override ∈ poolingDisabledState.overrides, Created override := by
  intro override hmem
  rcases mem_cons.mp hmem with rfl | hmem
  · exact ⟨_, _, _, _, rfl⟩
  · rw [mem_singleton.mp hmem]
    rfl

theorem distinctIds_poolingDisabled : DistinctIds compare poolingDisabledState.overrides := by
  intro left hleft right hright hsame
  have hid := Std.LawfulEqCmp.eq_of_compare hsame
  rcases mem_cons.mp hleft with rfl | hleft <;> rcases mem_cons.mp hright with rfl | hright
  · rfl
  · rw [mem_singleton.mp hright] at hid
    exact absurd hid (by decide)
  · rw [mem_singleton.mp hleft] at hid
    exact absurd hid (by decide)
  · rw [mem_singleton.mp hleft, mem_singleton.mp hright]

/-- A call about another shard is given the mode of the market's override. -/
theorem getEffectiveExecutionMode_right_otherShard :
    Returns handle (getEffectiveExecutionMode compare
      ⟨"other", none, .SOR, some "market"⟩ none false) poolingDisabledState (fun result _ =>
        RightMode compare 0 poolingDisabledState.overrides ⟨"other", none, .SOR, some "market"⟩ none
          result.mode) := by
  refine (getEffectiveExecutionMode_right_iff false poolingDisabledState
    ⟨"other", none, .SOR, some "market"⟩ none created_poolingDisabled
    distinctIds_poolingDisabled).mpr ⟨by decide, fun h => absurd h (by decide), ?_, ?_⟩
  · intro override hforce henforces
    rcases mem_cons.mp hforce.1 with rfl | hmem
    · exact absurd hforce.2.2 (by decide)
    · rw [mem_singleton.mp hmem] at henforces
      cases henforces
  · intro override hfirst
    rcases mem_cons.mp hfirst.1.1.1 with rfl | hmem
    · cases hfirst.1.2
    · rw [mem_singleton.mp hmem]
      rfl

/-- A call about the shard fails, and so does every planning call on it. -/
theorem getEffectiveExecutionMode_poolingDisabled :
    (∀ override ∈ poolingDisabledState.overrides, Created override) ∧
    Throws handle (getEffectiveExecutionMode compare ⟨"shard", none, .SOR, some "market"⟩ none true)
      poolingDisabledState fun error _ => error = .malformed_override_payload := by
  refine ⟨created_poolingDisabled, .malformed_override_payload, ?_, rfl⟩
  decide +kernel

end LotusRfq.Guardrails
