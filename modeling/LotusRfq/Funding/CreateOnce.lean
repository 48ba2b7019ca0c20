import LotusRfq.Lib.Tables
import LotusRfq.Lib.Transitions

/-!
# LotusRfq — an intent created under an idempotency key

`createIntent` and `createWithdrawalIntent` look for the intent of a key, and insert one where
there is none. The insert keeps a row that has come in between and returns it, but the rows of the
targets, or of the sources, name the id that the call has drawn for itself.

* **`created_once`** — every call returns the one intent of its key, with its items, as long as no
  call is overtaken between its lookup and its insert.
-/

namespace LotusRfq.Funding

open Transitions Tables List

variable {D T : Type}

/-! ## The source -/

/-- A row of `funding_intents` or of `funding_withdrawal_intents`. -/
structure IntentRow (D : Type) where
  id : String
  userId : String
  idempotencyKey : String
  content : D
  deriving DecidableEq

/-- A row of `funding_targets` or of `funding_withdrawal_sources`. -/
structure ItemRow (T : Type) where
  intentId : String
  item : T
  deriving DecidableEq

structure IntentTables (D T : Type) where
  intents : List (IntentRow D)
  items : List (ItemRow T)

/-- `UNIQUE (user_id, idempotency_key)`. -/
def IntentRow.key (intent : IntentRow D) : String × String :=
  (intent.userId, intent.idempotencyKey)

namespace IntentTables

def findByUserAndIdempotencyKey (tables : IntentTables D T) (key : String × String) :
    Option (IntentRow D) :=
  select IntentRow.key key tables.intents

def findById (tables : IntentTables D T) (id : String) : Option (IntentRow D) :=
  select IntentRow.id id tables.intents

def listItems (tables : IntentTables D T) (intentId : String) : List (ItemRow T) :=
  tables.items.filter (·.intentId = intentId)

/-- The transaction of the repository: an upsert that changes nothing, and the items under the id of
`input`, each of which references an intent. The ids of the items are new. -/
def create (tables : IntentTables D T) (input : IntentRow D) (items : List T) :
    Except String (IntentTables D T × IntentRow D) :=
  let (intents, row) := match tables.findByUserAndIdempotencyKey input.key with
    | some existing => (tables.intents, existing)
    | none => (tables.intents ++ [input], input)
  if items.isEmpty ∨ input.id ∈ intents.map IntentRow.id then
    .ok (⟨intents, tables.items ++ items.map (⟨input.id, ·⟩)⟩, row)
  else .error "violates foreign key constraint"

end IntentTables

/-- Where a call is. It ends with an intent and its items, with an error about what it was given, or
with one about what the tables hold. -/
inductive CreatePhase (D T : Type) where
  | looking
  | inserting (content : D) (items : List T)
  | auditing (intentId : String)
  | reading (intentId : String)
  | listing (intent : IntentRow D)
  | returned (intent : IntentRow D) (items : List (ItemRow T))
  | refused (error : String)
  | failed (error : String)
  deriving DecidableEq

structure CreateCall (D T : Type) where
  key : String × String
  phase : CreatePhase D T
  deriving DecidableEq

structure CreateService where
  assertsDestination : Bool
  notFound : String
  forbidden : String

def createIntent : CreateService where
  assertsDestination := false
  notFound := "FUNDING_INTENT_NOT_FOUND"
  forbidden := "FUNDING_INTENT_FORBIDDEN"

def createWithdrawalIntent : CreateService where
  assertsDestination := true
  notFound := "WITHDRAWAL_INTENT_NOT_FOUND"
  forbidden := "WITHDRAWAL_INTENT_FORBIDDEN"

/-- What a call makes of its input, with the wallets and balances it looks up, and the id it draws. -/
structure Prepared (D T : Type) where
  prepared : Except String (D × List T)
  uuid : String

def CreateCall.advance (service : CreateService) (tables : IntentTables D T)
    (call : CreateCall D T) (given : Prepared D T) :
    Option (IntentTables D T × CreatePhase D T) :=
  match call.phase with
  | .looking =>
    match tables.findByUserAndIdempotencyKey call.key, given.prepared with
    | some existing, _ => some (tables, .reading existing.id)
    | none, .error error => some (tables, .refused error)
    | none, .ok (content, items) => some (tables, .inserting content items)
  | .inserting content items =>
    -- no row has the id yet
    if given.uuid ∈ tables.intents.map IntentRow.id then none
    else match tables.create ⟨given.uuid, call.key.1, call.key.2, content⟩ items with
      | .ok (tables, created) => some (tables, .auditing created.id)
      | .error error => some (tables, .failed error)
  | .auditing intentId => some (tables, .reading intentId)
  | .reading intentId =>
    match tables.findById intentId with
    | none => some (tables, .failed service.notFound)
    | some intent =>
      if intent.userId ≠ call.key.1 then some (tables, .failed service.forbidden)
      else some (tables, .listing intent)
  | .listing intent => some (tables, .returned intent (tables.listItems intent.id))
  | .returned _ _ | .refused _ | .failed _ => none

structure CreateSystem (D T : Type) where
  tables : IntentTables D T
  calls : List (CreateCall D T)

/-- A call begins, or goes on. A destination that is no address is refused at once. -/
inductive CreateAction (D T : Type) where
  | start (key : String × String) (destinationError : Option String)
  | advance (i : ℕ) (given : Prepared D T)

def createStep (service : CreateService) (s : CreateSystem D T) :
    CreateAction D T → Option (CreateSystem D T)
  | .start key destinationError =>
    let phase := match service.assertsDestination, destinationError with
      | true, some error => .refused error
      | _, _ => .looking
    some { s with calls := s.calls ++ [⟨key, phase⟩] }
  | .advance i given =>
    s.calls[i]?.bind fun call =>
      (call.advance service s.tables given).map fun (tables, phase) =>
        ⟨tables, s.calls.set i { call with phase := phase }⟩

/-! ## One intent for each key -/

/-- The intent is stored, is that of the key, and is returned with all of its items. -/
structure IsIntentOf (tables : IntentTables D T) (key : String × String) (intent : IntentRow D) :
    Prop where
  stored : intent ∈ tables.intents
  key : intent.key = key

/-- One intent for each key, which every call that ends gives with its items; calls that fail have
themselves to blame, and no item is without its intent. -/
structure CreatedOnce (s : CreateSystem D T) : Prop where
  single : (s.tables.intents.map IntentRow.key).Nodup
  returned : ∀ call ∈ s.calls, ∀ intent items, call.phase = .returned intent items →
    IsIntentOf s.tables call.key intent ∧ items = s.tables.listItems intent.id
  noneFails : ∀ call ∈ s.calls, ∀ error, call.phase ≠ .failed error
  kept : ∀ item ∈ s.tables.items, item.intentId ∈ s.tables.intents.map IntentRow.id

/-- Somebody has inserted the intent of the key since the call looked for it, and the call has items
to insert. -/
def CreateCall.overtaken (tables : IntentTables D T) (call : CreateCall D T) : Bool :=
  match call.phase with
  | .inserting _ items =>
    !items.isEmpty && (tables.findByUserAndIdempotencyKey call.key).isSome
  | _ => false

def NotOvertaken (s : CreateSystem D T) : CreateAction D T → Prop
  | .start _ _ => True
  | .advance i _ => ∀ call ∈ s.calls[i]?, call.overtaken s.tables = false

instance (s : CreateSystem D T) (action : CreateAction D T) : Decidable (NotOvertaken s action) := by
  unfold NotOvertaken
  split <;> infer_instance

def Knows (tables : IntentTables D T) (key : String × String) : CreatePhase D T → Prop
  | .looking | .inserting _ _ | .refused _ => True
  | .auditing intentId | .reading intentId => ∃ intent, IsIntentOf tables key intent ∧
    intent.id = intentId
  | .listing intent => IsIntentOf tables key intent
  | .returned intent items => IsIntentOf tables key intent ∧ items = tables.listItems intent.id
  | .failed _ => False

structure CreateSound (tables : IntentTables D T) : Prop where
  ids : (tables.intents.map IntentRow.id).Nodup
  keys : (tables.intents.map IntentRow.key).Nodup
  kept : ∀ item ∈ tables.items, item.intentId ∈ tables.intents.map IntentRow.id

/-- What is stored stays, and the items of an intent stay what they are. -/
structure KeepsRows (tables tables' : IntentTables D T) : Prop where
  intents : tables.intents ⊆ tables'.intents
  items : ∀ intent ∈ tables.intents, tables'.listItems intent.id = tables.listItems intent.id

section

variable {service : CreateService} {tables tables' : IntentTables D T} {key : String × String}
  {phase : CreatePhase D T} {s t : CreateSystem D T}

theorem Knows.mono (h : Knows tables key phase) (hkeeps : KeepsRows tables tables') :
    Knows tables' key phase := by
  have hintent {intent : IntentRow D} (hof : IsIntentOf tables key intent) :
      IsIntentOf tables' key intent := ⟨hkeeps.intents hof.stored, hof.key⟩
  cases phase with
  | looking | inserting | refused => trivial
  | auditing | reading =>
    obtain ⟨intent, hof, hid⟩ := h
    exact ⟨intent, hintent hof, hid⟩
  | listing => exact hintent h
  | returned intent => exact ⟨hintent h.1, h.2.trans (hkeeps.items intent h.1.stored).symm⟩
  | failed => exact h

theorem CreateSound.create (h : CreateSound tables) {input : IntentRow D} {items : List T}
    (hfresh : input.id ∉ tables.intents.map IntentRow.id)
    (hfree : (!items.isEmpty && (tables.findByUserAndIdempotencyKey input.key).isSome) = false) :
    ∃ tables' row, tables.create input items = .ok (tables', row) ∧ CreateSound tables' ∧
      KeepsRows tables tables' ∧ IsIntentOf tables' input.key row := by
  cases hfound : tables.findByUserAndIdempotencyKey input.key with
  | some existing =>
    obtain rfl : items = [] := by simpa [hfound] using hfree
    obtain ⟨hmem, hkey⟩ := mem_of_select hfound
    refine ⟨tables, existing, ?_, h, ⟨Subset.refl _, fun _ _ => rfl⟩, hmem, hkey⟩
    simp [IntentTables.create, hfound]
  | none =>
    have hkey : input.key ∉ tables.intents.map IntentRow.key := by
      simpa [mem_map] using select_eq_none.mp hfound
    refine ⟨⟨tables.intents ++ [input], tables.items ++ items.map (⟨input.id, ·⟩)⟩, input, ?_,
      ⟨?_, ?_, ?_⟩, ⟨subset_append_left _ _, ?_⟩, by simp, rfl⟩
    · simp [IntentTables.create, hfound]
    · simpa [nodup_append, h.ids] using fun intent hintent heq =>
        hfresh (mem_map.mpr ⟨intent, hintent, heq⟩)
    · simpa [nodup_append, h.keys] using fun intent hintent heq =>
        hkey (mem_map.mpr ⟨intent, hintent, heq⟩)
    · intro item hitem
      rw [map_append, mem_append]
      rcases mem_append.mp hitem with hold | hnew
      · exact .inl (h.kept item hold)
      · obtain ⟨_, -, rfl⟩ := mem_map.mp hnew
        exact .inr (mem_singleton_self _)
    · -- the new items are those of the new intent
      intro intent hintent
      have hne : input.id ≠ intent.id := fun heq => hfresh (heq ▸ mem_map_of_mem hintent)
      simp [IntentTables.listItems, filter_append, filter_map, hne, Function.comp_def]

theorem CreateSound.advance (h : CreateSound s.tables) {i : ℕ} {given : Prepared D T}
    {call : CreateCall D T} (hat : s.calls[i]? = some call)
    (hknows : Knows s.tables call.key call.phase) (hguard : NotOvertaken s (.advance i given))
    (hstep : call.advance service s.tables given = some (tables', phase)) :
    CreateSound tables' ∧ KeepsRows s.tables tables' ∧ Knows tables' call.key phase := by
  have hsame : KeepsRows s.tables s.tables := ⟨Subset.refl _, fun _ _ => rfl⟩
  unfold CreateCall.advance at hstep
  split at hstep
  next hphase =>
    cases hfound : s.tables.findByUserAndIdempotencyKey call.key with
    | some existing =>
      rw [hfound] at hstep
      cases hstep
      obtain ⟨hmem, hkey⟩ := mem_of_select hfound
      exact ⟨h, hsame, existing, ⟨hmem, hkey⟩, rfl⟩
    | none =>
      rw [hfound] at hstep
      cases hprepared : given.prepared with
      | error error =>
        rw [hprepared] at hstep
        cases hstep
        exact ⟨h, hsame, trivial⟩
      | ok value =>
        rw [hprepared] at hstep
        cases hstep
        exact ⟨h, hsame, trivial⟩
  next content items hphase =>
    split at hstep
    next => cases hstep
    next hfresh =>
      have hfree := hguard call hat
      rw [CreateCall.overtaken, hphase] at hfree
      have hnew : (⟨given.uuid, call.key.1, call.key.2, content⟩ : IntentRow D).id ∉
        s.tables.intents.map IntentRow.id := hfresh
      obtain ⟨_, row, hcreate, hsound, hkeeps, hof⟩ := h.create hnew hfree
      rw [hcreate] at hstep
      cases hstep
      exact ⟨hsound, hkeeps, row, hof, rfl⟩
  next intentId hphase =>
    cases hstep
    rw [hphase] at hknows
    exact ⟨h, hsame, hknows⟩
  next intentId hphase =>
    rw [hphase] at hknows
    obtain ⟨intent, hof, rfl⟩ := hknows
    rw [IntentTables.findById, (select_eq_some h.ids).mpr ⟨hof.stored, rfl⟩] at hstep
    simp only [← hof.key, IntentRow.key, ne_eq, not_true_eq_false, if_false] at hstep
    cases hstep
    exact ⟨h, hsame, hof⟩
  next intent hphase =>
    cases hstep
    rw [hphase] at hknows
    exact ⟨h, hsame, hknows, rfl⟩
  all_goals cases hstep

/-- The tables are sound, and every call knows what its phase says. -/
def CreateInvariant (s : CreateSystem D T) : Prop :=
  CreateSound s.tables ∧ ∀ call ∈ s.calls, Knows s.tables call.key call.phase

theorem CreateInvariant.step (h : CreateInvariant s) {action : CreateAction D T}
    (hguard : NotOvertaken s action) (hstep : createStep service s action = some t) :
    CreateInvariant t := by
  cases action with
  | start key destinationError =>
    cases hstep
    refine ⟨h.1, fun call hcall => ?_⟩
    rcases mem_append.mp hcall with hold | hnew
    · exact h.2 call hold
    · rw [mem_singleton.mp hnew]
      dsimp only
      split <;> trivial
  | advance i given =>
    obtain ⟨call, hat, hstep⟩ := Option.bind_eq_some_iff.mp hstep
    obtain ⟨⟨tables', phase⟩, hnext, rfl⟩ := Option.map_eq_some_iff.mp hstep
    obtain ⟨hsound, hkeeps, hknows⟩ := h.1.advance hat (h.2 call (mem_of_getElem? hat)) hguard hnext
    refine ⟨hsound, fun other hother => ?_⟩
    rcases mem_or_eq_of_mem_set hother with hold | rfl
    · exact (h.2 other hold).mono hkeeps
    · exact hknows

end

/-- **When creation is idempotent.** Whatever calls are interleaved, as long as none that has items
to insert is overtaken between its lookup and its insert, each key has one intent, every call that
ends gives that intent with its items, none fails because of another, and no item is without its
intent. -/
theorem created_once (service : CreateService) {s t : CreateSystem D T}
    (hsound : CreateSound s.tables) (hcalls : s.calls = [])
    (hrun : Run (createStep service) NotOvertaken s t) : CreatedOnce t := by
  have hstart : CreateInvariant s := ⟨hsound, by rw [hcalls]; exact nofun⟩
  obtain ⟨htables, hknows⟩ := hrun.invariant hstart fun _ _ _ h => h.step
  refine ⟨htables.keys, fun call hcall intent items hphase => ?_, fun call hcall error hphase => ?_,
    htables.kept⟩ <;> have hknown := hknows call hcall <;> rw [hphase] at hknown
  · exact hknown
  · exact hknown

/-! ## Two calls at once -/

def noIntents : CreateSystem Unit Unit := ⟨⟨[], []⟩, []⟩

def uuidGiven (uuid : String) : Prepared Unit Unit := ⟨.ok ((), [()]), uuid⟩

def inTurn : List (CreateAction Unit Unit) :=
  [.start ("alice", "key") none, .advance 0 (uuidGiven "a"), .advance 0 (uuidGiven "a"),
    .start ("alice", "key") none, .advance 1 (uuidGiven "b")]

/-- Both look before either inserts. -/
def overlapping : List (CreateAction Unit Unit) :=
  [.start ("alice", "key") none, .start ("alice", "key") none, .advance 0 (uuidGiven "a"),
    .advance 1 (uuidGiven "b"), .advance 0 (uuidGiven "a"), .advance 1 (uuidGiven "b")]

theorem inTurn_created_once :
    ∃ t, play (createStep createIntent) NotOvertaken inTurn noIntents = some t ∧ CreatedOnce t := by
  have hplays : (play (createStep createIntent) NotOvertaken inTurn noIntents).isSome := by
    decide +kernel
  exact ⟨_, (Option.some_get hplays).symm, created_once createIntent (s := noIntents)
    ⟨nodup_nil, nodup_nil, nofun⟩ rfl (Run.of_isSome inTurn hplays)⟩

/-- The later call fails for the earlier one. -/
theorem overtaken_fails : ¬ ∀ service, ∀ s t : CreateSystem Unit Unit, CreateSound s.tables →
    s.calls = [] → Reaches (createStep service) s t → CreatedOnce t := by
  intro h
  have hends : ((play (createStep createIntent) (fun _ _ => True) overlapping noIntents).map
      fun t => decide (⟨("alice", "key"), .failed "violates foreign key constraint"⟩ ∈ t.calls)) =
        some true := by decide +kernel
  obtain ⟨t, hplay, hfailed⟩ := Option.map_eq_some_iff.mp hends
  have hcreated := h createIntent noIntents t ⟨nodup_nil, nodup_nil, nofun⟩ rfl
    (Run.of_play overlapping hplay)
  exact hcreated.noneFails _ (of_decide_eq_true hfailed) _ rfl

end LotusRfq.Funding
