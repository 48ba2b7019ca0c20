import LotusRfq.Lib.RowLocks
import LotusRfq.Lib.Tables
import LotusRfq.Locks.Lockers

/-!
# LotusRfq — whose lock is deleted

A caller that has read itself as the owner of a key deletes it next; one that has set the lock of a
step or of a session deletes it after its work. Meanwhile the lock may expire and the key be set by
another caller. An acquisition that fails has released what it has set, unless one of its commands
threw.

* **`lockPlaces`** — what every caller keeps to, command by command;
* **`locks_step`** — one command;
* **`locks_ownershipSafe`** — along any runs.
-/

namespace LotusRfq.Locks

open Processes Transitions List

/-- The id of a caller, the keys that it may have set, and the key that it has just set or read
itself as the owner of. -/
structure Place where
  holder : Option ℕ
  mayHold : List String
  deletes : Option String

def Place.allows (q : Place) : LockRequest → Prop
  | .randomUUID => q.holder = none
  | .set _ holder | .get _ holder _ => q.holder = some holder
  | .del key holder _ | .work (some ⟨key, holder⟩) =>
    q.holder = some holder ∧ q.deletes = some key
  | .failed holder => q.holder = some holder ∧ q.mayHold = []
  | .work none | .expire _ | .connect _ => True

def Place.without (q : Place) (key : String) : Place :=
  ⟨q.holder, q.mayHold.filter fun other => other ≠ key, none⟩

def Place.broken (q : Place) : LockPart → Place
  | .acquire => ⟨q.holder, [], none⟩
  | .release => ⟨q.holder, q.mayHold, none⟩

def Place.next (q : Place) : (e : LockRequest) → Except LockError e.Answer → Place
  | .randomUUID, .ok id => ⟨some id, [], none⟩
  | .set key _, .ok true => ⟨q.holder, key :: q.mayHold, some key⟩
  | .set _ _, .ok false => ⟨q.holder, q.mayHold, none⟩
  | .set _ _, .error _ => q.broken .acquire
  | .get key holder _, .ok owner =>
    if owner = some holder then ⟨q.holder, q.mayHold, some key⟩ else q.without key
  | .get _ _ part, .error _ => q.broken part
  | .del key _ _, .ok _ => q.without key
  | .del _ _ part, .error _ => q.broken part
  | .work (some _), _ => q
  | _, _ => ⟨q.holder, q.mayHold, none⟩

abbrev lockPlaces : Protocol LockRequest (fun e => Except LockError e.Answer) Place where
  allows := Place.allows
  answers _ _ := True
  next := Place.next

def Place.start : Place := ⟨none, [], none⟩

/-! ## The lockers keep to it -/

variable {q : Place} {holder : ℕ}

theorem mem_without {q : Place} {key other : String} :
    other ∈ (q.without key).mayHold ↔ other ∈ q.mayHold ∧ other ≠ key := by
  rw [Place.without, mem_filter, decide_eq_true_iff]

/-- Whatever is thrown, a release leaves nothing that an acquisition may still have set. -/
theorem obeys_releaseLocks (part : LockPart) {keys : List String} (hholder : q.holder = some holder)
    (hheld : part = .acquire → ∀ key ∈ q.mayHold, key ∈ keys) :
    Obeys lockPlaces (fun q _ => q.holder = some holder ∧ (part = .acquire → q.mayHold = [])) q
      (releaseLocks part holder keys).run := by
  induction keys generalizing q with
  | nil =>
    exact obeys_return ⟨hholder, fun hpart => eq_nil_iff_forall_not_mem.mpr fun key hkey =>
      nomatch hheld hpart key hkey⟩
  | cons key rest ih =>
    have hbroken : ∀ q : Place, q.holder = some holder →
        (q.broken part).holder = some holder ∧ (part = .acquire → (q.broken part).mayHold = []) := by
      intro q hq
      cases part with
      | acquire => exact ⟨hq, fun _ => rfl⟩
      | release => exact ⟨hq, nofun⟩
    have hwithout : ∀ q : Place, (part = .acquire → ∀ other ∈ q.mayHold, other ∈ key :: rest) →
        part = .acquire → ∀ other ∈ (q.without key).mayHold, other ∈ rest := by
      intro q hq hpart other hother
      obtain ⟨hmay, hne⟩ := mem_without.mp hother
      exact (mem_cons.mp (hq hpart other hmay)).resolve_left hne
    rw [releaseLocks]
    refine obeys_program_bind (M := fun q owner => q.holder = some holder ∧
        if owner = some holder then q.deletes = some key ∧
          (part = .acquire → ∀ other ∈ q.mayHold, other ∈ key :: rest)
        else part = .acquire → ∀ other ∈ q.mayHold, other ∈ rest)
      (obeys_call hholder fun r _ => ?_) fun q owner hq => ?_
    · cases r with
      | error error => exact hbroken q hholder
      | ok owner =>
        have hnext : lockPlaces.next q (.get key holder part) (.ok owner) =
            if owner = some holder then ⟨q.holder, q.mayHold, some key⟩ else q.without key := rfl
        rw [hnext]
        by_cases hown : owner = some holder
        · rw [if_pos hown]
          exact ⟨hholder, by rw [if_pos hown]; exact ⟨rfl, hheld⟩⟩
        · rw [if_neg hown]
          exact ⟨hholder, by rw [if_neg hown]; exact hwithout q hheld⟩
    · obtain ⟨hholder, hq⟩ := hq
      split
      next hown =>
        rw [if_pos hown] at hq
        refine obeys_program_bind (M := fun q _ => q.holder = some holder ∧
            (part = .acquire → ∀ other ∈ q.mayHold, other ∈ rest))
          (obeys_call ⟨hholder, hq.1⟩ fun r _ => ?_) fun q _ hq => ih hq.1 hq.2
        cases r with
        | error error => exact hbroken q hholder
        | ok _ => exact ⟨hholder, hwithout q hq.2⟩
      next hother =>
        rw [if_neg hother] at hq
        exact ih hholder hq

theorem obeys_tryAcquireLocks {keys acquired : List String} (hholder : q.holder = some holder)
    (hheld : ∀ key ∈ q.mayHold, key ∈ acquired) :
    Obeys lockPlaces (fun q result => q.holder = some holder ∧
      ((∃ keys, result = .ok (some keys)) ∨ q.mayHold = [])) q
      (tryAcquireLocks holder acquired keys).run := by
  induction keys generalizing q acquired with
  | nil => exact obeys_return ⟨hholder, .inl ⟨acquired, rfl⟩⟩
  | cons key rest ih =>
    rw [tryAcquireLocks]
    refine obeys_program_bind (M := fun q outcome => q.holder = some holder ∧
        ∀ other ∈ q.mayHold, other ∈ if outcome = true then acquired ++ [key] else acquired)
      (obeys_call hholder fun r _ => ?_) fun q outcome hq => ?_
    · cases r with
      | error error => exact ⟨hholder, .inr rfl⟩
      | ok outcome =>
        cases outcome with
        | false => exact ⟨hholder, hheld⟩
        | true =>
          refine ⟨hholder, fun other hother => ?_⟩
          rcases mem_cons.mp hother with rfl | hold
          · exact mem_append_right acquired mem_cons_self
          · exact mem_append_left _ (hheld other hold)
    · obtain ⟨hholder, hq⟩ := hq
      split
      next hset =>
        rw [if_pos hset] at hq
        exact ih hholder hq
      next hnot =>
        rw [if_neg hnot] at hq
        refine obeys_program_bind (M := fun q _ => q.holder = some holder ∧ q.mayHold = []) ?_
          fun q _ hq => obeys_return ⟨hq.1, .inr hq.2⟩
        refine (obeys_releaseLocks .acquire hholder fun _ => hq).weaken fun q result hq => ?_
        cases result with
        | error error => exact ⟨hq.1, .inr (hq.2 rfl)⟩
        | ok _ => exact ⟨hq.1, hq.2 rfl⟩

/-- What an acquisition comes to: it has locked, or nothing is set. -/
def Acquires (holder : ℕ) (acquire : LockProgram (List String)) : Prop :=
  ∀ q : Place, q.holder = some holder → q.mayHold = [] →
    Obeys lockPlaces (fun q result => q.holder = some holder ∧
      ((∃ keys, result = .ok keys) ∨ q.mayHold = [])) q acquire.run

theorem acquires_within (holder : ℕ) (keys : List String) (attempts : ℕ) :
    Acquires holder (acquireWithin holder keys attempts) := by
  induction attempts with
  | zero => exact fun q hholder hnone => obeys_throw ⟨hholder, .inr hnone⟩
  | succ attempts ih =>
    intro q hholder hnone
    rw [acquireWithin]
    refine obeys_program_bind
      (M := fun q acquired => q.holder = some holder ∧ (acquired = none → q.mayHold = [])) ?_
      fun q acquired hq => ?_
    · refine (obeys_tryAcquireLocks hholder fun key hkey => ?_).weaken fun q result hq => ?_
      · rw [hnone] at hkey
        exact hkey
      · cases result with
        | error error => exact ⟨hq.1, .inr (hq.2.resolve_left nofun)⟩
        | ok acquired =>
          refine ⟨hq.1, fun hacquired => hq.2.resolve_left fun ⟨keys, h⟩ => ?_⟩
          rw [hacquired] at h
          cases h
    · cases acquired with
      | none => exact ih q hq.1 (hq.2 rfl)
      | some acquired => exact obeys_return ⟨hq.1, .inl ⟨acquired, rfl⟩⟩

/-- **The lockers** keep to it. -/
theorem obeys_lockedBy {acquire : ℕ → LockProgram (List String)}
    (hacquire : ∀ holder, Acquires holder (acquire holder)) :
    Obeys lockPlaces (fun _ _ => True) .start (lockedBy acquire).run := by
  rw [lockedBy]
  refine obeys_program_bind (M := fun q id => q = ⟨some id, [], none⟩)
    (obeys_call rfl fun r _ => ?_) ?_
  · cases r with
    | error error => trivial
    | ok id => rfl
  rintro _ id rfl
  refine obeys_attempt (hacquire id ⟨some id, [], none⟩ rfl rfl) fun q acquired hq => ?_
  cases acquired with
  | error error =>
    have hnone := hq.2.resolve_left fun ⟨keys, h⟩ => nomatch h
    refine obeys_program_bind (M := fun _ _ => True) (obeys_call ⟨hq.1, hnone⟩ fun r _ => ?_)
      fun _ _ _ => obeys_throw trivial
    cases r <;> trivial
  | ok lockKeys =>
    refine obeys_attempt (M := fun q _ => q.holder = some id)
      (obeys_call trivial fun r _ => hq.1) fun q result hholder => ?_
    refine obeys_program_bind (M := fun _ _ => True) ?_ fun _ _ _ => ?_
    · refine (obeys_releaseLocks .release hholder nofun).weaken
        fun q released _ => ?_
      cases released <;> trivial
    · cases result with
      | error error => exact obeys_throw trivial
      | ok _ => exact obeys_return trivial

/-- **The locks that are deleted without reading** keep to it. -/
theorem obeys_lockedUnread (lockKey : String) {refused : LockProgram Unit}
    (hrefused : ∀ q, Obeys lockPlaces (fun _ _ => True) q refused.run) :
    Obeys lockPlaces (fun _ _ => True) .start (lockedUnread lockKey refused).run := by
  rw [lockedUnread]
  refine obeys_program_bind (M := fun q id => q = ⟨some id, [], none⟩)
    (obeys_call rfl fun r _ => ?_) ?_
  · cases r with
    | error error => trivial
    | ok id => rfl
  rintro _ id rfl
  refine obeys_attempt (M := fun q outcome => q.holder = some id ∧
      if outcome = .ok true then q.deletes = some lockKey else q.mayHold = [])
    (obeys_call rfl fun r _ => ?_) fun q outcome hq => ?_
  · match r with
    | .error error => exact ⟨rfl, rfl⟩
    | .ok false => exact ⟨rfl, rfl⟩
    | .ok true => exact ⟨rfl, rfl⟩
  match outcome with
  | .error error =>
    refine obeys_program_bind (M := fun _ _ => True) (obeys_call hq fun r _ => ?_)
      fun _ _ _ => obeys_throw trivial
    cases r <;> trivial
  | .ok false =>
    refine obeys_program_bind (M := fun _ _ => True) (obeys_call hq fun r _ => ?_)
      fun q _ _ => hrefused q
    cases r <;> trivial
  | .ok true =>
    refine obeys_attempt (M := fun q _ => q.holder = some id ∧ q.deletes = some lockKey)
      (obeys_call hq fun r _ => hq) fun q result hq => ?_
    refine obeys_program_bind (M := fun _ _ => True) (obeys_call hq fun r _ => ?_) fun _ _ _ => ?_
    · cases r <;> trivial
    · cases result with
      | error error => exact obeys_throw trivial
      | ok _ => exact obeys_return trivial

theorem obeys_lockCode (config : LockerConfig) (operation : LockOperation) :
    Obeys lockPlaces (fun _ _ => True) .start (lockCode config operation) := by
  refine obeys_bind (M := fun _ _ => True) ?_ fun q result _ => obeys_pure trivial
  cases operation with
  | matchMakerOrder orderIdA orderIdB =>
    exact obeys_lockedBy fun holder => acquires_within holder _ config.orderRetries
  | lockResources resourceIds =>
    exact obeys_lockedBy fun holder => acquires_within holder _ config.resourceRetries
  | executeSingleStep stepId => exact obeys_lockedUnread _ fun q => obeys_return trivial
  | executeSession sessionId => exact obeys_lockedUnread _ fun q => obeys_throw trivial
  | expire key => exact obeys_call trivial fun r _ => trivial
  | connect connection => exact obeys_call trivial fun r _ => trivial

/-! ## What a command does to the keys -/

def LockState.gains (state : LockState) : LockRequest → Option String
  | .set key _ =>
    if state.connection ≠ .refusing ∧ state.isLocked key = false then some key else none
  | _ => none

open LockState (reply gains without)

section Commands

variable {e : LockRequest} {state : LockState} {row : LockRow}

theorem reply_after {α : Type} {P : LockState → Prop} {after : LockState} {answer : α}
    (h : P state) (h' : state.connection ≠ .refusing → P after) :
    P (state.reply after answer).2 := by
  unfold reply
  split
  next hup => exact h' (by rw [hup]; decide)
  next => exact h
  next hlosing => exact h' (by rw [hlosing]; decide)

/-- **What a request leaves**: the keys as they are, one more, or all but one. -/
theorem lockHandle_after {P : LockState → Prop} (h : P state)
    (hset : ∀ key holder, e = .set key holder → state.gains e = some key →
      P (state.with ⟨key, holder⟩))
    (hwithout : ∀ key, P (state.without key))
    (hid : e = .randomUUID → P { state with nextId := state.nextId + 1 })
    (hconnect : ∀ connection, P { state with connection }) : P (lockHandle e state).2 := by
  cases e with
  | randomUUID => exact hid rfl
  | set key holder =>
    rw [lockHandle]
    split
    next => exact reply_after h fun _ => h
    next hfree =>
      refine reply_after h fun hconnected => hset key holder rfl ?_
      rw [gains, if_pos ⟨hconnected, Bool.eq_false_iff.mpr hfree⟩]
  | get key holder part => exact reply_after h fun _ => h
  | del key holder part => exact reply_after h fun _ => hwithout key
  | work deletes => exact reply_after h fun _ => h
  | failed holder => exact h
  | expire key => exact hwithout key
  | connect connection => exact hconnect connection

theorem mem_withoutKey {key : String} :
    row ∈ (state.without key).locks ↔ row ∈ state.locks ∧ row.key ≠ key := by
  rw [without, mem_filter, decide_eq_true_iff]

theorem mem_lockHandle (h : row ∈ (lockHandle e state).2.locks) : row ∈ state.locks ∨
      ∃ key holder, e = .set key holder ∧ state.gains e = some key ∧ row = ⟨key, holder⟩ := by
  revert h
  refine lockHandle_after (P := fun after => row ∈ after.locks → _) .inl ?_
    (fun _ hmem => .inl (mem_withoutKey.mp hmem).1) (fun _ => .inl) fun _ => .inl
  intro key holder hset hgains hmem
  rcases mem_append.mp hmem with hold | hnew
  · exact .inl hold
  · exact .inr ⟨key, holder, hset, hgains, mem_singleton.mp hnew⟩

theorem isLocked_of_gains {key holder} (h : state.gains (.set key holder) = some key) :
    state.isLocked key = false := by
  rw [gains] at h
  split at h
  next hfree => exact hfree.2
  next => cases h

theorem nodup_lockHandle (e : LockRequest) (h : (state.locks.map (·.key)).Nodup) :
    ((lockHandle e state).2.locks.map (·.key)).Nodup := by
  refine lockHandle_after (P := fun after => (after.locks.map (·.key)).Nodup) h ?_
    (fun key => h.sublist (filter_sublist.map _)) (fun _ => h) fun _ => h
  rintro key holder rfl hgains
  rw [LockState.with, map_append, nodup_append]
  refine ⟨h, nodup_singleton key, fun other hother key' hkey' heq => ?_⟩
  obtain ⟨row, hrow, rfl⟩ := mem_map.mp hother
  have hlocked : state.isLocked key = true := by
    refine any_eq_true.mpr ⟨row, hrow, decide_eq_true ?_⟩
    rw [heq]
    exact mem_singleton.mp hkey'
  rw [isLocked_of_gains hgains] at hlocked
  cases hlocked

theorem nextId_lockHandle (hne : e ≠ .randomUUID) : (lockHandle e state).2.nextId = state.nextId :=
  lockHandle_after (P := fun after => after.nextId = state.nextId) rfl (fun _ _ _ _ => rfl)
    (fun _ => rfl) (fun heq => absurd heq hne) fun _ => rfl

theorem ownerOf_of_mem (h : (state.locks.map (·.key)).Nodup) (hrow : row ∈ state.locks) :
    state.ownerOf row.key = some row.holder := by
  have hselect : Tables.select LockRow.key row.key state.locks = some row :=
    (Tables.select_eq_some h).mpr ⟨hrow, rfl⟩
  exact congrArg (Option.map LockRow.holder) hselect

end Commands

/-! ## One command -/

/-- The lock that is deleted by a request, or after it, without another look. -/
def LockRequest.deletes : LockRequest → Option LockRow
  | .del key holder _ => some ⟨key, holder⟩
  | .work deletes => deletes
  | _ => none

/-- The caller of which a command is part of an acquisition. -/
def LockRequest.acquiring : LockRequest → Option ℕ
  | .set _ holder | .get _ holder .acquire | .del _ holder .acquire => some holder
  | _ => none

/-- The keys that some caller is going to delete without another look. -/
def pendingDeletes (s : LockSystem) : List String :=
  s.running.filterMap fun program =>
    match program with
    | .ask e _ => e.deletes.map LockRow.key
    | .ret _ => none

/-- No key is locked that a caller is going to delete without another look; and a command of an
acquisition throws only where its caller then has no lock. -/
structure Undisturbed (s : LockSystem) (e : LockRequest) : Prop where
  unclaimed : ∀ key ∈ s.shared.gains e, key ∉ pendingDeletes s
  unbroken : s.shared.connection ≠ .up → ∀ holder ∈ e.acquiring,
    ∀ row ∈ (lockHandle e s.shared).2.locks, row.holder ≠ holder

/-- What is deleted is the caller's own lock, or is not there; and a caller whose acquisition has
failed has no lock. -/
structure OwnershipSafe (s : LockSystem) (e : LockRequest) : Prop where
  deletes : s.shared.connection ≠ .refusing → ∀ key holder part, e = .del key holder part →
    ∀ row ∈ s.shared.locks, row.key = key → row.holder = holder
  fails : ∀ holder, e = .failed holder → ∀ row ∈ s.shared.locks, row.holder ≠ holder

/-- Callers have different ids, and what is locked by one it may have set. -/
structure KeysSound (state : LockState) (places : List Place) : Prop where
  keys : (state.locks.map (·.key)).Nodup
  held : ∀ row ∈ state.locks, ∀ q ∈ places, q.holder = some row.holder → row.key ∈ q.mayHold
  alone : ∀ (i j : ℕ) (q q' : Place) (holder : ℕ), places[i]? = some q → places[j]? = some q' →
    q.holder = some holder → q'.holder = some holder → i = j
  callers : ∀ q ∈ places, ∀ holder ∈ q.holder, holder < state.nextId
  rows : ∀ row ∈ state.locks, row.holder < state.nextId

section Step

variable {e : LockRequest} {state : LockState} {places : List Place} {i : ℕ}

theorem holder_next (hne : e ≠ .randomUUID) (r : Except LockError e.Answer) :
    (q.next e r).holder = q.holder := by
  unfold Place.next
  split
  next => exact absurd rfl hne
  next => rfl
  next => rfl
  next => rfl
  next =>
    split
    · rfl
    · rfl
  next part _ => cases part <;> rfl
  next => rfl
  next part _ => cases part <;> rfl
  next => rfl
  next => rfl

theorem held_next (hkeys : (state.locks.map (·.key)).Nodup)
    (hrows : ∀ row ∈ state.locks, row.holder < state.nextId)
    (hheld : ∀ row ∈ state.locks, q.holder = some row.holder → row.key ∈ q.mayHold)
    (hallowed : q.allows e) (hunbroken : state.connection ≠ .up → ∀ holder ∈ e.acquiring,
      ∀ row ∈ (lockHandle e state).2.locks, row.holder ≠ holder) :
    ∀ row ∈ (lockHandle e state).2.locks,
      (q.next e (lockHandle e state).1).holder = some row.holder →
        row.key ∈ (q.next e (lockHandle e state).1).mayHold := by
  intro row hrow hholder
  cases e with
  | randomUUID =>
    have hlt := hrows row hrow
    have hid : state.nextId = row.holder := Option.some.inj hholder
    omega
  | set key holder =>
    rw [holder_next (by simp)] at hholder
    by_cases hup : state.connection = .up
    · by_cases hlocked : state.isLocked key = true
      · have hhandle : lockHandle (.set key holder) state = (.ok false, state) := by
          rw [lockHandle, if_pos hlocked, reply, hup]
        rw [hhandle] at hrow ⊢
        exact hheld row hrow hholder
      · have hhandle : lockHandle (.set key holder) state =
            (.ok true, state.with ⟨key, holder⟩) := by
          rw [lockHandle, if_neg hlocked, reply, hup]
        rw [hhandle] at hrow ⊢
        rcases mem_append.mp hrow with hold | hnew
        · exact mem_cons_of_mem key (hheld row hold hholder)
        · rw [mem_singleton.mp hnew]
          exact mem_cons_self
    · have hown : some holder = some row.holder := hallowed.symm.trans hholder
      exact absurd (Option.some.inj hown).symm (hunbroken hup holder rfl row hrow)
  | get key holder part =>
    rw [holder_next (by simp)] at hholder
    have hown : some holder = some row.holder := hallowed.symm.trans hholder
    by_cases hup : state.connection = .up
    · have hhandle : lockHandle (.get key holder part) state =
          (.ok (state.ownerOf key), state) := by
        rw [lockHandle, reply, hup]
      rw [hhandle] at hrow ⊢
      have hnext : q.next (.get key holder part) (.ok (state.ownerOf key)) =
          if state.ownerOf key = some holder then ⟨q.holder, q.mayHold, some key⟩
          else q.without key := rfl
      rw [hnext]
      split
      · exact hheld row hrow hholder
      next hother =>
        refine mem_without.mpr ⟨hheld row hrow hholder, fun hkey => hother ?_⟩
        rw [← hkey, ownerOf_of_mem hkeys hrow, hown]
    · cases part with
      | acquire => exact absurd (Option.some.inj hown).symm (hunbroken hup holder rfl row hrow)
      | release =>
        have hhandle : lockHandle (.get key holder .release) state =
            (.error .connection, state) := by
          rw [lockHandle, reply]
          split
          next heq => exact absurd heq hup
          next => rfl
          next => rfl
        rw [hhandle] at hrow ⊢
        exact hheld row hrow hholder
  | del key holder part =>
    rw [holder_next (by simp)] at hholder
    have hown : some holder = some row.holder := hallowed.1.symm.trans hholder
    by_cases hup : state.connection = .up
    · have hhandle : lockHandle (.del key holder part) state = (.ok (), state.without key) := by
        rw [lockHandle, reply, hup]
      rw [hhandle] at hrow ⊢
      obtain ⟨hold, hne⟩ := mem_withoutKey.mp hrow
      exact mem_without.mpr ⟨hheld row hold hholder, hne⟩
    · cases part with
      | acquire => exact absurd (Option.some.inj hown).symm (hunbroken hup holder rfl row hrow)
      | release =>
        have hthrows : (lockHandle (.del key holder .release) state).1 = .error .connection := by
          rw [lockHandle, reply]
          split
          next heq => exact absurd heq hup
          next => rfl
          next => rfl
        rw [hthrows]
        rcases mem_lockHandle hrow with hold | ⟨_, _, hset, -⟩
        · exact hheld row hold hholder
        · cases hset
  | work deletes =>
    rw [holder_next (by simp)] at hholder
    rcases mem_lockHandle hrow with hold | ⟨_, _, hset, -⟩
    · cases deletes with
      | none => exact hheld row hold hholder
      | some deleted => exact hheld row hold hholder
    · cases hset
  | failed holder => exact hheld row hrow hholder
  | expire key => exact hheld row (mem_withoutKey.mp hrow).1 hholder
  | connect connection => exact hheld row hrow hholder

/-- **One command** keeps the keys in order. -/
theorem KeysSound.step (hs : KeysSound state places) (hplace : places[i]? = some q)
    (hallowed : q.allows e) (hunbroken : state.connection ≠ .up → ∀ holder ∈ e.acquiring,
      ∀ row ∈ (lockHandle e state).2.locks, row.holder ≠ holder) :
    KeysSound (lockHandle e state).2 (places.set i (q.next e (lockHandle e state).1)) := by
  have hq := mem_of_getElem? hplace
  have hnextId : state.nextId ≤ (lockHandle e state).2.nextId := by
    by_cases hid : e = .randomUUID
    · subst hid
      exact Nat.le_succ _
    · rw [nextId_lockHandle hid]
  -- the place of the caller is as old as it was, or has a new id
  have hcaller : ∀ holder, (q.next e (lockHandle e state).1).holder = some holder →
      q.holder = some holder ∨
        e = .randomUUID ∧ holder = state.nextId ∧ holder < (lockHandle e state).2.nextId := by
    intro holder hholder
    by_cases hid : e = .randomUUID
    · subst hid
      have heq : state.nextId = holder := Option.some.inj hholder
      refine .inr ⟨rfl, heq.symm, ?_⟩
      show holder < state.nextId + 1
      omega
    · rw [holder_next hid] at hholder
      exact .inl hholder
  constructor
  · exact nodup_lockHandle e hs.keys
  · intro row hrow q' hq' hholder
    obtain ⟨j, hat⟩ := mem_iff_getElem?.mp hq'
    rcases RowLocks.getElem?_set_cases hat with ⟨-, rfl⟩ | ⟨hne, hold⟩
    · exact held_next hs.keys hs.rows (fun row hrow => hs.held row hrow q hq) hallowed hunbroken
        row hrow hholder
    · rcases mem_lockHandle hrow with hthere | ⟨key, holder, rfl, -, rfl⟩
      · exact hs.held row hthere q' (mem_of_getElem? hold) hholder
      · exact absurd (hs.alone i j q q' holder hplace hold hallowed hholder) hne
  · intro j k p p' holder hj hk hp hp'
    rcases RowLocks.getElem?_set_cases hj with ⟨rfl, rfl⟩ | ⟨hij, hold⟩
    · rcases RowLocks.getElem?_set_cases hk with ⟨heq, -⟩ | ⟨hik, hold'⟩
      · exact heq
      · rcases hcaller holder hp with hsame | ⟨-, hnew, -⟩
        · exact hs.alone _ k q p' holder hplace hold' hsame hp'
        · have hlt := hs.callers p' (mem_of_getElem? hold') holder hp'
          omega
    · rcases RowLocks.getElem?_set_cases hk with ⟨rfl, rfl⟩ | ⟨-, hold'⟩
      · rcases hcaller holder hp' with hsame | ⟨-, hnew, -⟩
        · exact hs.alone j _ p q holder hold hplace hp hsame
        · have hlt := hs.callers p (mem_of_getElem? hold) holder hp
          omega
      · exact hs.alone j k p p' holder hold hold' hp hp'
  · intro q' hq' holder hholder
    rcases mem_or_eq_of_mem_set hq' with hold | rfl
    · have hlt := hs.callers q' hold holder hholder
      omega
    · rcases hcaller holder hholder with hsame | ⟨-, -, hlt⟩
      · have hlt := hs.callers q hq holder hsame
        omega
      · exact hlt
  · intro row hrow
    rcases mem_lockHandle hrow with hold | ⟨key, holder, rfl, -, rfl⟩
    · have hlt := hs.rows row hold
      omega
    · have hlt := hs.callers q hq holder hallowed
      show holder < _
      omega

end Step

/-! ## Runs -/

/-- What is asked for is asked where nothing disturbs it. -/
def LocksUndisturbed (s : LockSystem) : Action LockOperation → Prop
  | .start _ => True
  | .advance i => ∀ e ∈ asked s i, Undisturbed s e

/-- A lock that is deleted without another look is the caller's own, or is not there. -/
def DeletesOwn (state : LockState) (e : LockRequest) : Prop :=
  ∀ row ∈ e.deletes, ∀ other ∈ state.locks, other.key = row.key → other.holder = row.holder

structure LocksSound (s : LockSystem) : Prop where
  supervised : Supervised lockPlaces KeysSound s
  own : ∀ i, ∀ e ∈ asked s i, DeletesOwn s.shared e

variable {s : LockSystem} {e : LockRequest}

theorem mem_asked {i : ℕ} : e ∈ asked s i ↔ ∃ next, s.running[i]? = some (.ask e next) := by
  unfold asked
  split
  next e' next hat =>
    rw [hat]
    constructor
    · rintro ⟨⟩
      exact ⟨next, rfl⟩
    · rintro ⟨next', h⟩
      cases h
      exact rfl
  next hnone => exact iff_of_false nofun fun ⟨next, hat⟩ => hnone e next hat

theorem deletesOwn_next {state : LockState} {row : LockRow}
    (hkeys : (state.locks.map (·.key)).Nodup) (hallowed : q.allows e) (hown : DeletesOwn state e)
    (hdeletes : (q.next e (lockHandle e state).1).deletes = some row.key)
    (hholder : (q.next e (lockHandle e state).1).holder = some row.holder) :
    ∀ other ∈ (lockHandle e state).2.locks, other.key = row.key → other.holder = row.holder := by
  intro other hother hkey
  cases e with
  | set key holder =>
    rw [holder_next (by simp)] at hholder
    have hcaller : some holder = some row.holder := hallowed.symm.trans hholder
    match hanswer : (lockHandle (.set key holder) state).1 with
    | .error error =>
      rw [hanswer] at hdeletes
      cases hdeletes
    | .ok false =>
      rw [hanswer] at hdeletes
      cases hdeletes
    | .ok true =>
      rw [hanswer] at hdeletes
      have hset : key = row.key := Option.some.inj hdeletes
      rcases mem_lockHandle hother with hold | ⟨_, _, heq, -, rfl⟩
      · -- a key that is there is not set
        have hlocked : state.isLocked key = true :=
          any_eq_true.mpr ⟨other, hold, decide_eq_true (hkey.trans hset.symm)⟩
        rw [lockHandle, if_pos hlocked, reply] at hanswer
        split at hanswer <;> cases hanswer
      · cases heq
        exact Option.some.inj hcaller
  | get key holder part =>
    rw [holder_next (by simp)] at hholder
    have hcaller : some holder = some row.holder := hallowed.symm.trans hholder
    have hold : other ∈ state.locks := by
      rcases mem_lockHandle hother with hold | ⟨_, _, heq, -, -⟩
      · exact hold
      · cases heq
    match hanswer : (lockHandle (.get key holder part) state).1 with
    | .error error =>
      rw [hanswer] at hdeletes
      cases part <;> cases hdeletes
    | .ok owner =>
      rw [hanswer] at hdeletes
      have howner : owner = state.ownerOf key := by
        rw [lockHandle, reply] at hanswer
        split at hanswer
        next => exact (Except.ok.inj hanswer).symm
        next => cases hanswer
        next => cases hanswer
      have hnext : q.next (.get key holder part) (.ok owner) =
          if owner = some holder then ⟨q.holder, q.mayHold, some key⟩ else q.without key := rfl
      rw [hnext] at hdeletes
      split at hdeletes
      next hread =>
        have hset : key = row.key := Option.some.inj hdeletes
        have hmine := ownerOf_of_mem hkeys hold
        rw [hkey, ← hset, ← howner, hread, hcaller] at hmine
        exact (Option.some.inj hmine).symm
      next => cases hdeletes
  | del key holder part =>
    cases hanswer : (lockHandle (.del key holder part) state).1 with
    | error error =>
      rw [hanswer] at hdeletes
      cases part <;> cases hdeletes
    | ok _ =>
      rw [hanswer] at hdeletes
      cases hdeletes
  | work deletes =>
    cases deletes with
    | none => cases hdeletes
    | some deleted =>
      have hsame : deleted = row := by
        obtain ⟨hq, hq'⟩ := hallowed
        have hkey' : some deleted.key = some row.key := hq'.symm.trans hdeletes
        have hholder' : some deleted.holder = some row.holder := hq.symm.trans hholder
        cases deleted
        cases row
        simp_all
      rcases mem_lockHandle hother with hold | ⟨_, _, heq, -, -⟩
      · exact hsame ▸ hown deleted rfl other hold (by rw [hsame]; exact hkey)
      · cases heq
  | randomUUID => cases hdeletes
  | failed holder => cases hdeletes
  | expire key => cases hdeletes
  | connect connection => cases hdeletes

theorem deletes_of_obeys {post : Place → Unit → Prop}
    {next : Except LockError e.Answer → Code LockRequest (fun e => Except LockError e.Answer)
      Unit} (h : Obeys lockPlaces post q (.ask e next)) {row : LockRow} (hrow : row ∈ e.deletes) :
    q.holder = some row.holder ∧ q.deletes = some row.key := by
  have hallowed : q.allows e := h.1
  cases e with
  | del key holder part =>
    cases hrow
    exact hallowed
  | work deletes =>
    cases hrow
    exact hallowed
  | _ => cases hrow

theorem LocksSound.step {config : LockerConfig} {t : LockSystem} (hs : LocksSound s)
    {action : Action LockOperation} (hguard : LocksUndisturbed s action)
    (h : lockStep config s action = some t) : LocksSound t := by
  obtain ⟨⟨places, hkeys, hobeys⟩, hown⟩ := hs
  cases action with
  | start operation =>
    cases h
    refine ⟨⟨places ++ [.start], ?_, rel_append hobeys (.cons (obeys_lockCode config operation)
      .nil)⟩, fun i e hasked => ?_⟩
    · have hstart : ∀ {j : ℕ} {q : Place} {holder : ℕ}, (places ++ [.start])[j]? = some q →
          q.holder = some holder → places[j]? = some q := by
        intro j q holder hat hholder
        rw [getElem?_append] at hat
        split at hat
        · exact hat
        · rw [mem_singleton.mp (mem_of_getElem? hat)] at hholder
          cases hholder
      refine ⟨hkeys.keys, fun row hrow q hq hholder => ?_, fun i j q q' holder hi hj hq hq' =>
        hkeys.alone i j q q' holder (hstart hi hq) (hstart hj hq') hq hq',
        fun q hq holder hholder => ?_, hkeys.rows⟩
      · obtain ⟨j, hat⟩ := mem_iff_getElem?.mp hq
        exact hkeys.held row hrow q (mem_of_getElem? (hstart hat hholder)) hholder
      · obtain ⟨j, hat⟩ := mem_iff_getElem?.mp hq
        exact hkeys.callers q (mem_of_getElem? (hstart hat hholder)) holder hholder
    · obtain ⟨next, hat⟩ := mem_asked.mp hasked
      rw [getElem?_append] at hat
      split at hat
      · exact hown i e (mem_asked.mpr ⟨next, hat⟩)
      · -- a caller that starts deletes nothing yet
        have hfirst := mem_singleton.mp (mem_of_getElem? hat)
        have hobeysFirst := obeys_lockCode config operation
        rw [← hfirst] at hobeysFirst
        intro row hrow
        obtain ⟨hholder, -⟩ := deletes_of_obeys hobeysFirst hrow
        cases hholder
  | advance i =>
    simp only [lockStep, Processes.step] at h
    split at h
    next e next hat =>
      cases h
      have hasked : e ∈ asked s i := mem_asked.mpr ⟨next, hat⟩
      have hundisturbed := hguard e hasked
      obtain ⟨hi, hprogram⟩ := List.getElem?_eq_some_iff.mp hat
      obtain ⟨places', q, hkeys', hplace, hallowed, hnext⟩ :=
        Supervised.place (p := lockPlaces) (I := KeysSound) ⟨places, hkeys, hobeys⟩ hat
      have hobeys' := hnext (lockHandle e s.shared).1 trivial
      refine ⟨⟨_, hkeys'.step hplace hallowed hundisturbed.unbroken, hobeys'⟩, ?_⟩
      intro j e' hasked' row hrow other hother hkey
      obtain ⟨next', hat'⟩ := mem_asked.mp hasked'
      rcases RowLocks.getElem?_set_cases hat' with ⟨rfl, heq⟩ | ⟨hne, hold⟩
      · have hlength : i < places'.length := (List.getElem?_eq_some_iff.mp hplace).1
        have hmine : Obeys lockPlaces (fun _ _ => True) (q.next e (lockHandle e s.shared).1)
            (next (lockHandle e s.shared).1) := by
          have hget := (List.forall₂_iff_get.mp hobeys').2 i (by simpa using hlength)
            (by simpa using hi)
          simpa using hget
        rw [← heq] at hmine
        obtain ⟨hholder, hdeletes⟩ := deletes_of_obeys hmine hrow
        exact deletesOwn_next hkeys'.keys hallowed (hown i e hasked) hdeletes hholder other hother
          hkey
      · rcases mem_lockHandle hother with hthere | ⟨key, holder, rfl, hgains, rfl⟩
        · exact hown j e' (mem_asked.mpr ⟨next', hold⟩) row hrow other hthere hkey
        · refine absurd (mem_filterMap.mpr ⟨_, mem_of_getElem? hold, ?_⟩)
            (hundisturbed.unclaimed key hgains)
          show e'.deletes.map LockRow.key = some key
          rw [show e'.deletes = some row from hrow, Option.map_some, ← hkey]
    next => cases h

/-- No key is set, and nobody has called. -/
structure Unlocked (s : LockSystem) : Prop where
  locks : s.shared.locks = []
  running : s.running = []

theorem Unlocked.sound (hs : Unlocked s) : LocksSound s := by
  refine ⟨⟨[], ⟨?_, ?_, ?_, ?_, ?_⟩, ?_⟩, fun i e hasked => ?_⟩
  · rw [hs.locks]
    exact nodup_nil
  · rw [hs.locks]
    exact nofun
  · exact nofun
  · exact nofun
  · rw [hs.locks]
    exact nofun
  · rw [hs.running]
    exact .nil
  · obtain ⟨next, hat⟩ := mem_asked.mp hasked
    rw [hs.running] at hat
    cases hat

/-- **Ownership**: along any runs, with locks that expire at any time, every lock that is deleted is
the caller's own, and an acquisition that fails leaves nothing locked, as long as no key is locked
that some caller is going to delete without another look, and commands of acquisitions throw only
where their callers have no lock. -/
theorem locks_ownershipSafe (config : LockerConfig) {s t : LockSystem} (hs : Unlocked s)
    (hrun : Run (lockStep config) LocksUndisturbed s t) :
    ∀ i, ∀ e ∈ asked t i, OwnershipSafe t e := by
  have ht : LocksSound t := hrun.invariant hs.sound fun _ _ _ hs hguard hstep =>
    hs.step hguard hstep
  intro i e hasked
  constructor
  · rintro - key holder part rfl row hrow hkey
    exact ht.own i _ hasked ⟨key, holder⟩ rfl row hrow hkey
  · rintro holder rfl row hrow heq
    obtain ⟨next, hat⟩ := mem_asked.mp hasked
    obtain ⟨places, q, hkeys, hplace, ⟨hholder, hnone⟩, -⟩ := ht.supervised.place hat
    have hheld := hkeys.held row hrow q (mem_of_getElem? hplace) (by rw [heq]; exact hholder)
    rw [hnone] at hheld
    cases hheld

/-! ### A lock that expires, and one that is left -/

instance (s : LockSystem) (e : LockRequest) : Decidable (Undisturbed s e) :=
  decidable_of_iff
    ((∀ key ∈ s.shared.gains e, key ∉ pendingDeletes s) ∧
      (s.shared.connection ≠ .up → ∀ holder ∈ e.acquiring,
        ∀ row ∈ (lockHandle e s.shared).2.locks, row.holder ≠ holder))
    ⟨fun ⟨hunclaimed, hunbroken⟩ => ⟨hunclaimed, hunbroken⟩,
      fun ⟨hunclaimed, hunbroken⟩ => ⟨hunclaimed, hunbroken⟩⟩

instance (s : LockSystem) (action : Action LockOperation) :
    Decidable (LocksUndisturbed s action) := by
  unfold LocksUndisturbed
  cases action <;> infer_instance

def oneAttempt : LockerConfig where
  localeCompare left right := compareOfLessAndEq left right
  orderRetries := 1
  resourceRetries := 1

def unlocked : LockSystem := ⟨⟨[], .up, 0⟩, []⟩

theorem unlocked_unlocked : Unlocked unlocked := ⟨rfl, rfl⟩

/-- The lock of an order expires after its owner was read, and is set by another caller. -/
def expiresUnread : List (Action LockOperation) :=
  [.start (.matchMakerOrder "1" "2"), .advance 0, .advance 0, .advance 0, .advance 0, .advance 0,
    .start (.expire "lock:order:1"), .advance 1,
    .start (.matchMakerOrder "1" "3"), .advance 2, .advance 2]

/-- The second lock of a pair cannot be set. -/
def breaksOff : List (Action LockOperation) :=
  [.start (.matchMakerOrder "1" "2"), .advance 0, .advance 0, .start (.connect .refusing),
    .advance 1, .advance 0]

/-- The first caller deletes the lock of the other; and a caller whose acquisition has failed leaves
one locked. -/
theorem locks_unsafe : (∃ t, Reaches (lockStep oneAttempt) unlocked t ∧
      .del "lock:order:1" 0 .release ∈ asked t 0 ∧ ⟨"lock:order:1", 1⟩ ∈ t.shared.locks ∧
      ¬ OwnershipSafe t (.del "lock:order:1" 0 .release)) ∧
    ∃ t, Reaches (lockStep oneAttempt) unlocked t ∧ .failed 0 ∈ asked t 0 ∧
      ⟨"lock:order:1", 0⟩ ∈ t.shared.locks ∧ ¬ OwnershipSafe t (.failed 0) := by
  constructor
  · have hplayed : (play (lockStep oneAttempt) (fun _ _ => True) expiresUnread unlocked).map
        (fun t => (asked t 0, t.shared)) =
          some (some (.del "lock:order:1" 0 .release), ⟨[⟨"lock:order:2", 0⟩, ⟨"lock:order:1", 1⟩],
            .up, 2⟩) := by
      decide +kernel
    obtain ⟨t, hplay, ht⟩ := Option.map_eq_some_iff.mp hplayed
    obtain ⟨hasked, hshared⟩ := Prod.mk.inj ht
    have hmem : ⟨"lock:order:1", 1⟩ ∈ t.shared.locks := by
      rw [hshared]
      decide
    refine ⟨t, Run.of_play _ hplay, hasked, hmem, fun hsafe => ?_⟩
    have hown := hsafe.deletes (by rw [hshared]; decide) _ _ _ rfl _ hmem rfl
    cases hown
  · have hplayed : (play (lockStep oneAttempt) (fun _ _ => True) breaksOff unlocked).map
        (fun t => (asked t 0, t.shared)) =
          some (some (.failed 0), ⟨[⟨"lock:order:1", 0⟩], .refusing, 1⟩) := by
      decide +kernel
    obtain ⟨t, hplay, ht⟩ := Option.map_eq_some_iff.mp hplayed
    obtain ⟨hasked, hshared⟩ := Prod.mk.inj ht
    have hmem : ⟨"lock:order:1", 0⟩ ∈ t.shared.locks := by
      rw [hshared]
      decide
    exact ⟨t, Run.of_play _ hplay, hasked, hmem, fun hsafe => hsafe.fails 0 rfl _ hmem rfl⟩

/-- A step is locked while another caller finds its lock taken; then the lock expires, and is
deleted when nobody has it. -/
def expiresAlone : List (Action LockOperation) :=
  [.start (.executeSingleStep "1"), .advance 0, .advance 0, .start (.executeSingleStep "1"),
    .advance 1, .advance 1, .advance 1, .start (.expire "route_step:1:lock"), .advance 2,
    .advance 0]

theorem locks_ownershipSafe_expired : ∃ t : LockSystem,
    asked t 0 = some (.del "route_step:1:lock" 0 .release) ∧
    ∀ i, ∀ e ∈ asked t i, OwnershipSafe t e := by
  have hplayed : (play (lockStep oneAttempt) LocksUndisturbed expiresAlone unlocked).map
      (fun t => asked t 0) = some (some (.del "route_step:1:lock" 0 .release)) := by
    decide +kernel
  obtain ⟨t, hplay, hasked⟩ := Option.map_eq_some_iff.mp hplayed
  exact ⟨t, hasked, locks_ownershipSafe oneAttempt unlocked_unlocked (Run.of_play _ hplay)⟩

end LotusRfq.Locks
