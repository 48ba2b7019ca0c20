import LotusRfq.Guardrails.Degradation
import LotusRfq.Lib.Labelled

/-!
# LotusRfq — explicit modes of a shard, and planning calls beside them

A planning call computes its mode from overrides and guardrails only, and writes it over the mode of
the shard. What was set explicitly is kept where the guardrails ask for as much.

* **`obeys_planning`** — a planning call without an override in force writes and gives the mode that
  its guardrails suggest;
* **`ActionsKept.step`** — so each request keeps what was set, if the calls under way cover it;
* **`safetyActions_stick`** — and a run does.
-/

namespace LotusRfq.Guardrails

open Js Processes Transitions List

/-! ## Covering a mode -/

def ShardMode.disables (engine : Engine) : ShardMode → Bool
  | .PAUSED => true
  | .mode target => shouldSkipEngine engine target

/-- Disables at least the engines that the other mode disables. -/
def Covers (mode action : ShardMode) : Prop :=
  ∀ engine, action.disables engine = true → mode.disables engine = true

theorem Covers.refl (mode : ShardMode) : Covers mode mode := fun _ h => h

instance (mode action : ShardMode) : Decidable (Covers mode action) :=
  decidable_of_iff (∀ engine ∈ [Engine.SOR, .INTERNAL_CROSS, .NETTING_PHASE2A, .CLEARING_PHASE2B],
      action.disables engine = true → mode.disables engine = true)
    ⟨fun h engine => h engine (by cases engine <;> decide), fun h engine _ => h engine⟩

/-- The mode a planning call arrives at where no override is in force. -/
def suggestedMode (input : EvaluatePlanningGuardrailsInput) : Option ExecutionMode :=
  if hasText input.context.shardId then
    (evaluate input.guardrails input.stats).map fun guardrailEvaluation =>
      (guardrailMode (some guardrailEvaluation)).getD .FULL_MODE
  else none

/-- The stored mode, and every mode that a planner was given, covers what was set before. -/
structure ActionsStick (shardId : String) (s : ControlPlaneState) : Prop where
  stored : ∀ action, s.actions.lookup shardId = some action →
    ∃ stored, s.shards.lookup shardId = some stored ∧ Covers stored action
  returned : ∀ action mode, (shardId, some action, mode) ∈ s.returned → Covers (.mode mode) action

/-- The call is about the shard, and covers what is set for it. -/
def CallCovers (shardId : String) (action : ShardMode) : ControlPlaneOperation → Prop
  | .plan input => input.context.shardId = shardId →
    ∀ mode ∈ suggestedMode input, Covers (.mode mode) action
  | _ => True

/-- A planning call starts where its guardrails cover what is set. -/
def StartCovered (shardId : String) (s : ControlPlaneState) (_ : List ControlPlaneOperation)
    (operation : ControlPlaneOperation) : Prop :=
  ∀ action ∈ s.actions.lookup shardId, CallCovers shardId action operation

def NoOverrideInForce (shardId : String) (s : ControlPlaneState) : ControlPlaneRequest → Prop
  | .loadActiveOverrides context => context.shardId = shardId →
    ∀ override ∈ s.overrides, override.active s.now = true → override.inScope context = false
  | _ => True

/-- A mode is set where the planning calls under way cover it. -/
def ActionCovered (shardId : String) (underWay : List ControlPlaneOperation) :
    ControlPlaneRequest → Prop
  | .updateShardMode shardId' action => shardId' = shardId →
    ∀ operation ∈ underWay, CallCovers shardId action operation
  | _ => True

/-! ## The protocol -/

inductive CallPhase where
  | running
  /-- An override was loaded. -/
  | overridden
  | ended
  deriving DecidableEq

open CallPhase (ended overridden)

abbrev CallPlace : Type := ControlPlaneOperation × CallPhase

def startPlace : ControlPlaneOperation → CallPlace
  | .plan input => (.plan input, if suggestedMode input = none then .ended else .running)
  | operation => (operation, .running)

abbrev CallPlace.done (q : CallPlace) : Prop := q.2 ≠ .running

/-- What an operation asks for whose mode comes from its guardrails. -/
def ControlPlaneOperation.Asks : ControlPlaneOperation → ControlPlaneRequest → Prop
  | .plan input, .loadActiveOverrides context => context = input.context
  | .plan _, .loadCurrentShardMode _ => True
  | .plan input, .persistMode shardId mode | .plan input, .giveMode shardId mode =>
    shardId = input.context.shardId ∧ suggestedMode input = some mode
  | .pauseShard shardId, .updateShardMode shardId' action => shardId' = shardId ∧ action = .PAUSED
  | .degradeShard shardId mode, .updateShardMode shardId' action =>
    shardId' = shardId ∧ action = .mode mode
  | .change _ _, .change _ _ => True
  | _, _ => False

/-- After an override was loaded, any mode may come out, for the same shard. -/
def AsksOverridden : ControlPlaneOperation → ControlPlaneRequest → Prop
  | .plan input, .persistMode shardId _ | .plan input, .giveMode shardId _ =>
    shardId = input.context.shardId
  | .plan _, .loadCurrentShardMode _ => True
  | _, _ => False

def callProtocol :
    Protocol ControlPlaneRequest (fun e => Except DegradationManagerError e.Answer) CallPlace where
  allows q e :=
    match q.2 with
    | .running => q.1.Asks e
    | .overridden => AsksOverridden q.1 e
    | .ended => False
  answers _ r := ∃ a, r = .ok a
  next q e r :=
    match q.2, e, r with
    | .running, .loadActiveOverrides _, .ok [] => q
    | .running, .loadActiveOverrides _, _ => (q.1, .overridden)
    | .running, .loadCurrentShardMode _, .ok (some _) => q
    | .running, .persistMode _ _, .ok true => q
    | .running, _, _ => (q.1, .ended)
    | _, _, _ => q

variable {localeCompare : String → String → Ordering} {shardId : String}

theorem handle_answers (e : ControlPlaneRequest) (s : ControlPlaneState) :
    callProtocol.answers e (handle e s).1 := ⟨_, rfl⟩

theorem callProtocol_next_label (q : CallPlace) (e : ControlPlaneRequest)
    (r : Except DegradationManagerError e.Answer) : (callProtocol.next q e r).1 = q.1 := by
  unfold callProtocol
  dsimp only
  split <;> rfl

variable {input : EvaluatePlanningGuardrailsInput} {e : ControlPlaneRequest}

theorem startPlace_none (h : suggestedMode input = none) :
    startPlace (.plan input) = (.plan input, .ended) := by
  rw [startPlace, if_pos h]

theorem startPlace_some {mode : ExecutionMode} (h : suggestedMode input = some mode) :
    startPlace (.plan input) = (.plan input, .running) := by
  rw [startPlace, if_neg (by rw [h]; exact Option.some_ne_none mode)]

theorem obeys_persistModeTransitionIfNeeded {result : EffectiveExecutionModeResult}
    {phase : CallPhase}
    (hphase : phase = .running ∧ suggestedMode input = some result.mode ∨ phase = .overridden) :
    Obeys callProtocol (fun q ended => match ended with
        | .ok _ => q = (.plan input, phase)
        | .error _ => q.done) (.plan input, phase)
      (persistModeTransitionIfNeeded input.context result).run := by
  unfold persistModeTransitionIfNeeded
  have hload : callProtocol.allows (.plan input, phase)
      (.loadCurrentShardMode input.context.shardId) := by
    rcases hphase with ⟨rfl, -⟩ | rfl <;> trivial
  have hpersist : callProtocol.allows (.plan input, phase)
      (.persistMode input.context.shardId result.mode) := by
    rcases hphase with ⟨rfl, hmode⟩ | rfl
    · exact ⟨rfl, hmode⟩
    · rfl
  refine obeys_program_bind (M := fun q row => match row with
    | some _ => q = (.plan input, phase)
    | none => q.done) (obeys_call hload ?_) ?_
  · rintro _ ⟨row, rfl⟩
    rcases hphase with ⟨rfl, -⟩ | rfl <;> cases row
    · exact (by decide : ended ≠ .running)
    · rfl
    · exact (by decide : overridden ≠ .running)
    · rfl
  · intro q row hrow
    cases row with
    | none => exact obeys_throw hrow
    | some currentMode =>
      cases hrow
      by_cases hsame : currentMode = .mode result.mode
      · simp only [if_pos hsame]
        exact obeys_return rfl
      · simp only [if_neg hsame]
        refine obeys_program_bind (M := fun q updated => match updated with
          | true => q = (.plan input, phase)
          | false => q.done) (obeys_call hpersist ?_) ?_
        · rintro _ ⟨updated, rfl⟩
          rcases hphase with ⟨rfl, -⟩ | rfl <;> cases updated
          · exact (by decide : ended ≠ .running)
          · rfl
          · exact (by decide : overridden ≠ .running)
          · rfl
        · intro q updated hupdated
          cases updated with
          | true => exact obeys_return hupdated
          | false => exact obeys_throw hupdated

def Effective (input : EvaluatePlanningGuardrailsInput) (q : CallPlace) (mode : ExecutionMode) :
    Prop :=
  ∃ phase, q = (.plan input, phase) ∧
    (phase = .running ∧ suggestedMode input = some mode ∨ phase = .overridden)

theorem obeys_getEffectiveExecutionMode {persist : Bool}
    {guardrailEvaluation : GuardrailEvaluationResult}
    (hevaluate : evaluate input.guardrails input.stats = some guardrailEvaluation) :
    Obeys callProtocol (fun q ended => match ended with
        | .ok result => Effective input q result.mode
        | .error _ => q.done) (startPlace (.plan input))
      (getEffectiveExecutionMode localeCompare input.context (some guardrailEvaluation)
        persist).run := by
  unfold getEffectiveExecutionMode
  cases htext : hasText input.context.shardId with
  | false =>
    have hnone : suggestedMode input = none := by
      rw [suggestedMode, htext, if_neg Bool.false_ne_true]
    rw [startPlace_none hnone]
    exact obeys_throw (by decide : ended ≠ .running)
  | true =>
    have hsuggested : suggestedMode input = some ((guardrailMode guardrailEvaluation).getD
        .FULL_MODE) := by
      rw [suggestedMode, htext, if_pos rfl, hevaluate]
      rfl
    rw [startPlace_some hsuggested]
    refine obeys_program_bind (M := fun q overrides => q = (.plan input, .running) ∧ overrides = [] ∨
      q = (.plan input, .overridden)) (obeys_call rfl ?_) ?_
    · rintro _ ⟨overrides, rfl⟩
      cases overrides with
      | nil => exact Or.inl ⟨rfl, rfl⟩
      | cons first rest => exact Or.inr rfl
    · intro q overrides hq
      -- without overrides the result is the guardrails'
      have hresult : match resolveEffectiveMode localeCompare overrides input.context
          (some guardrailEvaluation) with
          | .ok result => Effective input q result.mode
          | .error _ => CallPlace.done q := by
        rcases hq with ⟨rfl, rfl⟩ | rfl
        · refine ⟨.running, rfl, Or.inl ⟨rfl, ?_⟩⟩
          rw [buildGuardrailOrDefaultResult_mode]
          exact hsuggested
        · cases resolveEffectiveMode localeCompare overrides input.context
            (some guardrailEvaluation) with
          | error error => exact (by decide : overridden ≠ .running)
          | ok result => exact ⟨.overridden, rfl, Or.inr rfl⟩
      cases hresolve : resolveEffectiveMode localeCompare overrides input.context
          (some guardrailEvaluation) with
      | error error =>
        rw [hresolve] at hresult
        exact obeys_throw hresult
      | ok result =>
        rw [hresolve] at hresult
        obtain ⟨phase, rfl, hphase⟩ := hresult
        cases persist with
        | false => exact obeys_return ⟨phase, rfl, hphase⟩
        | true =>
          refine obeys_program_bind (M := fun q (_ : Unit) => q = (.plan input, phase))
            ((obeys_persistModeTransitionIfNeeded hphase).weaken fun q ended hq => ?_) ?_
          · cases ended <;> exact hq
          rintro q _ rfl
          exact obeys_return ⟨phase, rfl, hphase⟩

theorem obeys_planning (input : EvaluatePlanningGuardrailsInput) :
    Obeys callProtocol (fun q _ => q.done) (startPlace (.plan input))
      (evaluatePlanningGuardrails localeCompare input).run := by
  unfold evaluatePlanningGuardrails
  cases hevaluate : evaluate input.guardrails input.stats with
  | none =>
    have hnone : suggestedMode input = none := by
      unfold suggestedMode
      rw [hevaluate]
      cases hasText input.context.shardId <;> rfl
    rw [startPlace_none hnone]
    exact obeys_throw (by decide : ended ≠ .running)
  | some guardrailEvaluation =>
    refine obeys_program_bind
      (M := fun q (result : EffectiveExecutionModeResult) => Effective input q result.mode)
      ((obeys_getEffectiveExecutionMode hevaluate).weaken fun q ended hq => ?_) ?_
    · cases ended <;> exact hq
    rintro _ effective ⟨phase, rfl, hphase⟩
    refine obeys_program_bind (M := fun q _ => q.done) (obeys_call ?_ ?_) fun q _ hq =>
      obeys_return hq
    · rcases hphase with ⟨rfl, hmode⟩ | rfl
      · exact ⟨rfl, hmode⟩
      · rfl
    · rintro _ ⟨-, rfl⟩
      rcases hphase with ⟨rfl, -⟩ | rfl
      · exact (by decide : ended ≠ .running)
      · exact (by decide : overridden ≠ .running)

theorem obeys_code (operation : ControlPlaneOperation) :
    Obeys callProtocol (fun q _ => q.done) (startPlace operation)
      (operation.code localeCompare) := by
  have hended : ended ≠ .running := by decide
  cases operation with
  | plan input => exact obeys_bind (obeys_planning input) fun q _ hq => hq
  | pauseShard shardId => exact obeys_request_bind ⟨rfl, rfl⟩ fun r _ => hended
  | degradeShard shardId targetMode => exact obeys_request_bind ⟨rfl, rfl⟩ fun r _ => hended
  | change now overrides => exact obeys_request_bind trivial fun r _ => hended

/-! ## What a request keeps -/

/-- The calls under way on the shard cover what is set for it, and none of them loaded an
override. -/
structure ActionsKept (shardId : String) (s : ControlPlaneState) (places : List CallPlace) :
    Prop where
  sticks : ActionsStick shardId s
  covered : ∀ q ∈ places, ¬ q.done → ∀ action ∈ s.actions.lookup shardId,
    CallCovers shardId action q.1
  plain : ∀ input, (ControlPlaneOperation.plan input, overridden) ∈ places →
    input.context.shardId ≠ shardId

theorem lookup_setShardMode (shardId shardId' : String) (mode : ShardMode)
    (shards : List (String × ShardMode)) : (setShardMode shardId mode shards).lookup shardId' =
      if shardId' = shardId then (shards.lookup shardId).map fun _ => mode
      else shards.lookup shardId' :=
  OrderedMap.lookup_modify ..

theorem ActionsKept.start {s : ControlPlaneState} {places : List CallPlace}
    {underWay : List ControlPlaneOperation} {operation : ControlPlaneOperation}
    (h : ActionsKept shardId s places) (hcovered : StartCovered shardId s underWay operation) :
    ActionsKept shardId s (places ++ [startPlace operation]) := by
  have hlabel : (startPlace operation).1 = operation := by cases operation <;> rfl
  refine ⟨h.sticks, fun q hmem hnot action haction => ?_, fun input hmem => ?_⟩
  · rcases mem_append.mp hmem with hmem | hmem
    · exact h.covered q hmem hnot action haction
    · rw [mem_singleton.mp hmem, hlabel]
      exact hcovered action haction
  · rcases mem_append.mp hmem with hmem | hmem
    · exact h.plain input hmem
    · have heq := mem_singleton.mp hmem
      cases operation with
      | plan input' =>
        have hphase := congrArg Prod.snd heq
        simp only [startPlace] at hphase
        split at hphase <;> cases hphase
      | pauseShard => cases heq
      | degradeShard => cases heq
      | change => cases heq

theorem callProtocol_next_running {q : CallPlace} {r : Except DegradationManagerError e.Answer}
    (h : ¬ (callProtocol.next q e r).done) : ¬ q.done := by
  have hoverridden : CallPlace.done (q.1, .overridden) := by simp
  have hended : CallPlace.done (q.1, .ended) := by simp
  unfold callProtocol at h
  dsimp only at h
  split at h
  next => exact h
  next => exact absurd hoverridden h
  next => exact h
  next => exact h
  next => exact absurd hended h
  next => exact h

theorem callProtocol_next_overridden {q : CallPlace} {r : Except DegradationManagerError e.Answer}
    (h : (callProtocol.next q e r).2 = .overridden) :
    q.2 = .overridden ∨ q.2 = .running ∧ ∃ context, e = .loadActiveOverrides context := by
  unfold callProtocol at h
  dsimp only at h
  split at h
  next => exact Or.inr ⟨by assumption, _, rfl⟩
  next => exact Or.inr ⟨by assumption, _, rfl⟩
  next => exact Or.inl h
  next => exact Or.inl h
  next => cases h
  next => exact Or.inl h

section

variable {s : ControlPlaneState} {places : List CallPlace} {i : ℕ} {q : CallPlace}
  (h : ActionsKept shardId s places)

include h

theorem ActionsKept.move {s' : ControlPlaneState} {q' : CallPlace} (hplace : places[i]? = some q)
    (hlabel : q'.1 = q.1) (hrunning : ¬ q'.done → ¬ q.done)
    (hplain : ∀ input, q' = (.plan input, .overridden) → input.context.shardId ≠ shardId)
    (hactions : s'.actions.lookup shardId = s.actions.lookup shardId)
    (hsticks : ActionsStick shardId s') : ActionsKept shardId s' (places.set i q') := by
  refine ⟨hsticks, fun place hmem hnot action haction => ?_, fun input hmem => ?_⟩
  · rw [hactions] at haction
    rcases mem_or_eq_of_mem_set hmem with hmem | rfl
    · exact h.covered place hmem hnot action haction
    · rw [hlabel]
      exact h.covered q (mem_of_getElem? hplace) (hrunning hnot) action haction
  · rcases mem_or_eq_of_mem_set hmem with hmem | heq
    · exact h.plain input hmem
    · exact hplain input heq.symm

/-- What a planning call writes or gives is what its guardrails suggest, or is for another shard. -/
theorem ActionsKept.covers (hplace : places[i]? = some q) {mode : ExecutionMode}
    (he : e = .persistMode shardId mode ∨ e = .giveMode shardId mode)
    (hallowed : callProtocol.allows q e) {action : ShardMode}
    (haction : s.actions.lookup shardId = some action) : Covers (.mode mode) action := by
  have hmem : q ∈ places := mem_of_getElem? hplace
  obtain ⟨operation, phase⟩ := q
  cases phase with
  | running =>
    have hcovered := h.covered _ hmem (fun hnot => hnot rfl) action haction
    cases operation with
    | plan input =>
      have hsame : shardId = input.context.shardId ∧ suggestedMode input = some mode := by
        rcases he with rfl | rfl <;> exact hallowed
      exact hcovered hsame.1.symm mode hsame.2
    | pauseShard => rcases he with rfl | rfl <;> cases hallowed
    | degradeShard => rcases he with rfl | rfl <;> cases hallowed
    | change => rcases he with rfl | rfl <;> cases hallowed
  | overridden =>
    cases operation with
    | plan input =>
      have hsame : shardId = input.context.shardId := by
        rcases he with rfl | rfl <;> exact hallowed
      exact absurd hsame.symm (h.plain input hmem)
    | pauseShard => rcases he with rfl | rfl <;> cases hallowed
    | degradeShard => rcases he with rfl | rfl <;> cases hallowed
    | change => rcases he with rfl | rfl <;> cases hallowed
  | ended => cases hallowed

/-- **One request** keeps what is set. -/
theorem ActionsKept.step {underWay : List ControlPlaneOperation}
    (hunder : ∀ q ∈ places, ¬ q.done → q.1 ∈ underWay) (hplace : places[i]? = some q)
    (hallowed : callProtocol.allows q e) (hnone : NoOverrideInForce shardId s e)
    (hcovered : ActionCovered shardId underWay e) :
    ActionsKept shardId (handle e s).2 (places.set i (callProtocol.next q e (handle e s).1)) := by
  have hlabel := callProtocol_next_label q e (handle e s).1
  have hmem : q ∈ places := mem_of_getElem? hplace
  have hplain : ∀ input, callProtocol.next q e (handle e s).1 = (.plan input, .overridden) →
      input.context.shardId ≠ shardId := by
    intro input heq hshard
    obtain ⟨operation, phase⟩ := q
    rw [heq] at hlabel
    cases hlabel
    rcases callProtocol_next_overridden (congrArg Prod.snd heq) with hphase | ⟨hphase, context, rfl⟩
    · cases hphase
      exact h.plain input hmem hshard
    · -- nothing is loaded for the shard
      cases hphase
      cases hallowed
      have hload : (handle (.loadActiveOverrides input.context) s).1 = .ok [] :=
        congrArg Except.ok (loadActiveControlPlaneOverrides_nil (hnone hshard))
      rw [hload] at heq
      cases heq
  cases e with
  | loadActiveOverrides context | loadCurrentShardMode shardId' =>
    exact h.move hplace hlabel callProtocol_next_running hplain rfl h.sticks
  | persistMode shardId' mode =>
    refine h.move hplace hlabel callProtocol_next_running hplain rfl
      ⟨fun action haction => ?_, h.sticks.returned⟩
    obtain ⟨stored, hstored, hcovers⟩ := h.sticks.stored action haction
    show ∃ stored, (setShardMode shardId' (.mode mode) s.shards).lookup shardId = some stored ∧ _
    rw [lookup_setShardMode]
    by_cases hsame : shardId = shardId'
    · subst hsame
      rw [if_pos rfl, hstored]
      exact ⟨_, rfl, h.covers hplace (Or.inl rfl) hallowed haction⟩
    · rw [if_neg hsame]
      exact ⟨stored, hstored, hcovers⟩
  | giveMode shardId' mode =>
    refine h.move hplace hlabel callProtocol_next_running hplain rfl
      ⟨h.sticks.stored, fun action given hgiven => ?_⟩
    rcases mem_append.mp hgiven with hgiven | hgiven
    · exact h.sticks.returned action given hgiven
    · obtain ⟨rfl, hpair⟩ := Prod.mk.inj (mem_singleton.mp hgiven)
      obtain ⟨haction, rfl⟩ := Prod.mk.inj hpair
      exact h.covers hplace (Or.inr rfl) hallowed haction.symm
  | updateShardMode shardId' action =>
    cases hrow : s.shards.lookup shardId' with
    | none =>
      have hsame : (handle (.updateShardMode shardId' action) s).2 = s := by
        show (perform _ s).2 = s
        rw [perform, hrow]
        rfl
      rw [hsame]
      exact h.move hplace hlabel callProtocol_next_running hplain rfl h.sticks
    | some row =>
      have hupdated : (handle (.updateShardMode shardId' action) s).2 = { s with
          shards := setShardMode shardId' action s.shards
          actions := OrderedMap.set shardId' action s.actions } := by
        show (perform _ s).2 = _
        rw [perform, hrow]
        rfl
      have hactions : (OrderedMap.set shardId' action s.actions).lookup shardId =
          if shardId = shardId' then some action else s.actions.lookup shardId :=
        OrderedMap.lookup_set ..
      have hshards := lookup_setShardMode shardId' shardId action s.shards
      rw [hupdated]
      by_cases hsame : shardId = shardId'
      · subst hsame
        rw [if_pos rfl] at hactions hshards
        refine ⟨⟨fun action' haction => ⟨action, ?_, ?_⟩, h.sticks.returned⟩,
          fun place hmem hnot action' haction => ?_, fun input hmem => ?_⟩
        · rw [hshards, hrow]
          rfl
        · cases hactions.symm.trans haction
          exact Covers.refl action
        · -- the calls under way cover what is set now
          cases hactions.symm.trans haction
          rcases mem_or_eq_of_mem_set hmem with hmem | rfl
          · exact hcovered rfl _ (hunder place hmem hnot)
          · rw [hlabel]
            exact hcovered rfl _ (hunder q (mem_of_getElem? hplace)
              (callProtocol_next_running hnot))
        · rcases mem_or_eq_of_mem_set hmem with hmem | heq
          · exact h.plain input hmem
          · exact hplain input heq.symm
      · rw [if_neg hsame] at hactions hshards
        refine h.move hplace hlabel callProtocol_next_running hplain hactions
          ⟨fun action' haction => ?_, h.sticks.returned⟩
        obtain ⟨stored, hstored, hcovers⟩ := h.sticks.stored action' (hactions.symm.trans haction)
        exact ⟨stored, hshards.trans hstored, hcovers⟩
  | change now overrides =>
    refine h.move hplace hlabel callProtocol_next_running hplain rfl
      ⟨h.sticks.stored, h.sticks.returned⟩

end

/-! ## Runs -/

abbrev PlannerRun : Type :=
  Labelled ControlPlaneOperation ControlPlaneState ControlPlaneRequest fun e =>
    Except DegradationManagerError e.Answer

def plannerStep (localeCompare : String → String → Ordering) :
    PlannerRun → Action ControlPlaneOperation → Option PlannerRun :=
  labelledStep (ControlPlaneOperation.code localeCompare) handle

/-- Nothing was set yet, and nothing runs. -/
def untouched (now : ℤ) (overrides : List ControlPlaneOverride)
    (shards : List (String × ShardMode)) : PlannerRun :=
  ⟨[], ⟨now, overrides, shards, [], []⟩, []⟩

def WithoutOverrides (shardId : String) : PlannerRun → Action ControlPlaneOperation → Prop :=
  Guarded (fun _ _ _ => True) fun s _ e => NoOverrideInForce shardId s e

theorem untouched_kept (now : ℤ) (overrides : List ControlPlaneOverride)
    (shards : List (String × ShardMode)) :
    ActionsKept shardId (untouched now overrides shards).system.shared [] where
  sticks := by
    constructor
    · rintro action ⟨⟩
    · rintro action mode ⟨⟩
  covered := by rintro q ⟨⟩
  plain := by rintro input ⟨⟩

/-- Planning calls start where their guardrails cover what is set for the shard, and a mode is set
where the calls under way cover it; no override is in force. -/
abbrev GuardrailsCover (shardId : String) : PlannerRun → Action ControlPlaneOperation → Prop :=
  Guarded (StartCovered shardId) fun s underWay e =>
    NoOverrideInForce shardId s e ∧ ActionCovered shardId underWay e

/-- **Safety actions stick** along any run in which the guardrails cover them. -/
theorem safetyActions_stick (shardId : String) (now : ℤ) (overrides : List ControlPlaneOverride)
    (shards : List (String × ShardMode)) {s : PlannerRun}
    (hrun : Run (plannerStep localeCompare) (GuardrailsCover shardId)
      (untouched now overrides shards) s) : ActionsStick shardId s.system.shared := by
  have hstart : Accounted callProtocol Prod.fst CallPlace.done (ActionsKept shardId)
      (untouched now overrides shards) :=
    ⟨[], untouched_kept now overrides shards, rfl, .nil⟩
  have hkept := accounted_of_run obeys_code (fun operation => by cases operation <;> rfl)
    (fun q e r _ => callProtocol_next_label q e r) handle_answers
    (fun _ _ _ _ h _ hguard => h.start hguard) (fun _ _ _ _ _ _ h hunder hplace hallowed hguard =>
      h.step hunder hplace hallowed hguard.1 hguard.2) hstart hrun
  obtain ⟨_, hkept, -⟩ := hkept
  exact hkept.sticks

/-! ### A pause that is planned over -/

instance (shardId : String) (action : ShardMode) (operation : ControlPlaneOperation) :
    Decidable (CallCovers shardId action operation) := by
  unfold CallCovers
  split <;> infer_instance

instance (shardId : String) (s : ControlPlaneState) (underWay : List ControlPlaneOperation)
    (operation : ControlPlaneOperation) : Decidable (StartCovered shardId s underWay operation) := by
  unfold StartCovered
  infer_instance

instance (shardId : String) (s : ControlPlaneState) (e : ControlPlaneRequest) :
    Decidable (NoOverrideInForce shardId s e) := by
  unfold NoOverrideInForce
  split <;> infer_instance

instance (shardId : String) (underWay : List ControlPlaneOperation) (e : ControlPlaneRequest) :
    Decidable (ActionCovered shardId underWay e) := by
  unfold ActionCovered
  split <;> infer_instance

instance (shardId : String) (s : PlannerRun) (action : Action ControlPlaneOperation) :
    Decidable (WithoutOverrides shardId s action) := by
  unfold WithoutOverrides Guarded
  cases action <;> infer_instance

/-- A planning call of the router after locks were waited for so long. -/
def routerCall (lockWaitMs : ℚ) : EvaluatePlanningGuardrailsInput where
  guardrails := ⟨100, 100, 100, 100, 100, 100, 100, 100⟩
  stats := ⟨.SOR, 1, 1, 1, 1, lockWaitMs, 0⟩
  context := ⟨"shard", none, .SOR, none⟩
  enforcementMode := .ENFORCED

def fullShard : PlannerRun := untouched 0 [] [("shard", .mode .FULL_MODE)]

/-- Phase 2B is disabled for the shard, and then locks are waited for too long. -/
def degradesAndPlans : List (Action ControlPlaneOperation) :=
  [.start (.degradeShard "shard" .DISABLE_PHASE2B), .advance 0, .start (.plan (routerCall 200)),
    .advance 1, .advance 1, .advance 1, .advance 1]

theorem safetyActions_stick_degraded : ∃ s : PlannerRun,
    s.system.shared.returned = [("shard", some (.mode .DISABLE_PHASE2B), .DISABLE_PHASE2A_AND_2B)] ∧
    ActionsStick "shard" s.system.shared := by
  have hplayed : (play (plannerStep compare) (GuardrailsCover "shard") degradesAndPlans
      fullShard).map (fun s => s.system.shared.returned) =
        some [("shard", some (.mode .DISABLE_PHASE2B), .DISABLE_PHASE2A_AND_2B)] := by
    decide +kernel
  obtain ⟨s, hplay, hreturned⟩ := Option.map_eq_some_iff.mp hplayed
  exact ⟨s, hreturned, safetyActions_stick "shard" 0 [] _ (Run.of_play _ hplay)⟩

/-- The shard is paused, and a planning call with nothing to report writes `FULL_MODE` over it. -/
def pausesAndPlans : List (Action ControlPlaneOperation) :=
  [.start (.pauseShard "shard"), .advance 0, .start (.plan (routerCall 0)), .advance 1, .advance 1,
    .advance 1, .advance 1]

theorem safetyActions_unstuck : ∃ s : PlannerRun,
    Run (plannerStep compare) (WithoutOverrides "shard") fullShard s ∧
    s.system.shared.shards.lookup "shard" = some (.mode .FULL_MODE) ∧
    s.system.shared.returned = [("shard", some .PAUSED, .FULL_MODE)] ∧
    ¬ ActionsStick "shard" s.system.shared := by
  have hplayed : (play (plannerStep compare) (WithoutOverrides "shard") pausesAndPlans
      fullShard).map (fun s => (s.system.shared.shards.lookup "shard", s.system.shared.returned)) =
      some (some (.mode .FULL_MODE), [("shard", some .PAUSED, .FULL_MODE)]) := by
    decide +kernel
  obtain ⟨s, hplay, hshared⟩ := Option.map_eq_some_iff.mp hplayed
  obtain ⟨hshards, hreturned⟩ := Prod.mk.inj hshared
  refine ⟨s, Run.of_play _ hplay, hshards, hreturned, fun hsticks => ?_⟩
  have hcovers := hsticks.returned .PAUSED .FULL_MODE (by rw [hreturned]; decide)
  exact absurd hcovers (by decide)

end LotusRfq.Guardrails
