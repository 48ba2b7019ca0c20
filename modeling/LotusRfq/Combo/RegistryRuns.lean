import LotusRfq.Combo.CandidateRegistry

/-!
# LotusRfq — registrations and removals side by side

A registration writes the sets of the legs and then the combo's own; a removal reads the combo's
own, and empties what it has read. Registrations of one combo may run side by side, and so may its
removals, but not one beside the other.

* **`ComboKept.quiet`** — with nothing under way the sets of a combo are those of its legs;
* **`registry_consistent`** — so along a run, what is found is what is registered.
-/

namespace LotusRfq.Combo

open Processes Transitions List

/-! ## Operations -/

inductive RegistryOperation where
  | register (combo : ComboNettingCandidateCombo)
  | unregister (comboId : String)
  deriving DecidableEq

def RegistryOperation.comboId : RegistryOperation → String
  | .register combo => combo.id
  | .unregister comboId => comboId

def RegistryOperation.code :
    RegistryOperation → Code RegistryRequest RegistryRequest.Answer Unit
  | .register combo => registerComboCandidate combo >>= fun _ => pure ()
  | .unregister comboId => unregisterComboCandidate comboId >>= fun _ => pure ()

abbrev RegistryRun : Type :=
  Labelled RegistryOperation Memberships RegistryRequest RegistryRequest.Answer

def registryStep : RegistryRun → Action RegistryOperation → Option RegistryRun :=
  labelledStep RegistryOperation.code redis

def noCandidates : RegistryRun := ⟨[], [], []⟩

/-- The operation throws before its first command. -/
def RegistryOperation.refused : RegistryOperation → Bool
  | .register combo => (parseCombo combo).isNone
  | .unregister comboId => !Js.hasText comboId

def registeredAfter (comboId : String) (registered : Option ComboNettingCandidateCombo)
    (operation : RegistryOperation) : Option ComboNettingCandidateCombo :=
  if operation.refused ∨ operation.comboId ≠ comboId then registered
  else match operation with
    | .register combo => some combo
    | .unregister _ => none

def registeredCombo (comboId : String) (operations : List RegistryOperation) :
    Option ComboNettingCandidateCombo :=
  operations.foldl (registeredAfter comboId) none

theorem registeredCombo_append (comboId : String) (operations : List RegistryOperation)
    (operation : RegistryOperation) : registeredCombo comboId (operations ++ [operation]) =
      registeredAfter comboId (registeredCombo comboId operations) operation := by
  rw [registeredCombo, foldl_append]
  rfl

def RegistryOperation.ExtendedBy (combo : ComboNettingCandidateCombo) : RegistryOperation → Prop
  | .register earlier => ∀ key ∈ uniqueLegKeys earlier.legs, key ∈ uniqueLegKeys combo.legs
  | .unregister _ => False

/-- Registrations of a combo run side by side with registrations of the same legs or fewer, and
removals with removals. A combo is registered again with at least the legs that it has. -/
def StartsApart (memberships : Memberships) (underWay : List RegistryOperation)
    (operation : RegistryOperation) : Prop :=
  operation.refused = false →
  match operation with
  | .register combo =>
    (∀ other ∈ underWay, other.comboId = combo.id → other.ExtendedBy combo) ∧
    ∀ key, (comboLegsKey combo.id, key) ∈ memberships → key ∈ uniqueLegKeys combo.legs
  | .unregister comboId =>
    ∀ other ∈ underWay, other.comboId = comboId → other = .unregister comboId

/-! ## The protocol -/

open RegistryOperation (register unregister refused)

inductive RegistryPhase where
  | adding (keys : List String)
  | reading
  | removing (keys : List String)
  | ended

open RegistryPhase (adding removing)

abbrev RegistryPlace : Type := RegistryOperation × RegistryPhase

abbrev RegistryPlace.done (q : RegistryPlace) : Prop := q.2 = .ended

def registryStart (operation : RegistryOperation) : RegistryPlace :=
  if operation.refused then (operation, .ended)
  else match operation with
    | .register combo => (operation, .adding (uniqueLegKeys combo.legs))
    | .unregister _ => (operation, .reading)

def registryProtocol : Protocol RegistryRequest RegistryRequest.Answer RegistryPlace where
  allows q e :=
    match q with
    | (.register combo, .adding (key :: _)) => e = .sadd key [combo.id]
    | (.register combo, .adding []) =>
      e = .sadd (comboLegsKey combo.id) (uniqueLegKeys combo.legs)
    | (.unregister comboId, .reading) => e = .smembers (comboLegsKey comboId)
    | (.unregister comboId, .removing (key :: _)) => e = .srem key comboId
    | (.unregister comboId, .removing []) => e = .del (comboLegsKey comboId)
    | _ => False
  answers _ _ := True
  next q e r :=
    match q.2, e, r with
    | .adding (_ :: keys), _, _ => (q.1, .adding keys)
    | .reading, .smembers _, (key :: keys : List String) => (q.1, .removing (key :: keys))
    | .removing (_ :: keys), _, _ => (q.1, .removing keys)
    | _, _, _ => (q.1, .ended)

theorem registryProtocol_next_label (q : RegistryPlace) (e : RegistryRequest) (r : e.Answer) :
    (registryProtocol.next q e r).1 = q.1 := by
  unfold registryProtocol
  dsimp only
  split <;> rfl

variable {operation : RegistryOperation} {combo : ComboNettingCandidateCombo}
  {comboId key : String} {registered : Option ComboNettingCandidateCombo}
  {members : Memberships} {q : RegistryPlace} {e : RegistryRequest}

theorem registryStart_refused (h : operation.refused = true) :
    registryStart operation = (operation, .ended) := by
  unfold registryStart
  rw [if_pos h]

theorem registryStart_register (h : (register combo).refused = false) :
    registryStart (.register combo) = (.register combo, .adding (uniqueLegKeys combo.legs)) := by
  rw [registryStart, if_neg (by simp [h])]

theorem registryStart_unregister (h : (unregister comboId).refused = false) :
    registryStart (.unregister comboId) = (.unregister comboId, .reading) := by
  rw [registryStart, if_neg (by simp [h])]

theorem registryStart_label (operation : RegistryOperation) :
    (registryStart operation).1 = operation := by
  unfold registryStart
  cases operation with
  | register combo => split <;> rfl
  | unregister comboId => split <;> rfl

theorem obeys_saddEach (combo : ComboNettingCandidateCombo) (keys : List String) :
    Obeys registryProtocol (fun q _ => q = (.register combo, .adding []))
      (.register combo, .adding keys) (saddEach combo.id keys) := by
  induction keys with
  | nil => rfl
  | cons key keys ih => exact obeys_request_bind rfl fun r _ => ih

theorem obeys_sremEach (comboId : String) (keys : List String) :
    Obeys registryProtocol (fun q _ => q = (.unregister comboId, .removing []))
      (.unregister comboId, .removing keys) (sremEach comboId keys) := by
  induction keys with
  | nil => rfl
  | cons key keys ih => exact obeys_request_bind rfl fun r _ => obeys_bind ih fun q _ hq => hq

theorem obeys_registryCode (operation : RegistryOperation) :
    Obeys registryProtocol (fun q _ => q.done) (registryStart operation) operation.code := by
  cases operation with
  | register combo =>
    refine obeys_bind (M := fun q _ => q.done) ?_ fun q _ hq => hq
    unfold registerComboCandidate
    cases hparsed : parseCombo combo with
    | none =>
      rw [registryStart_refused (by rw [refused, hparsed]; rfl)]
      rfl
    | some parsedCombo =>
      have hsame := parseCombo_eq hparsed
      subst hsame
      rw [registryStart_register (by rw [refused, hparsed]; rfl)]
      simp only [if_neg (uniqueLegKeys_ne_nil hparsed)]
      refine obeys_bind (obeys_saddEach parsedCombo _) ?_
      rintro q _ rfl
      exact obeys_request_bind rfl fun r _ => rfl
  | unregister comboId =>
    refine obeys_bind (M := fun q _ => q.done) ?_ fun q _ hq => hq
    unfold unregisterComboCandidate
    cases htext : Js.hasText comboId with
    | false =>
      rw [registryStart_refused (by rw [refused, htext]; rfl)]
      rfl
    | true =>
      rw [registryStart_unregister (by rw [refused, htext]; rfl)]
      simp only [Bool.not_true, Bool.false_eq_true, if_false]
      refine obeys_request_bind rfl fun r _ => ?_
      cases r with
      | nil => rfl
      | cons key keys =>
        refine obeys_bind (obeys_sremEach comboId (key :: keys)) ?_
        rintro q _ rfl
        exact obeys_request_bind rfl fun r _ => rfl

/-! ## One combo -/

def Unregistering (comboId : String) (places : List RegistryPlace) : Prop :=
  ∃ phase, phase ≠ .ended ∧ (unregister comboId, phase) ∈ places

/-- A registration of the combo is under way, and has these keys left. -/
def Registering (combo : ComboNettingCandidateCombo) (keys : List String)
    (places : List RegistryPlace) : Prop :=
  (register combo, adding keys) ∈ places

def registeredKeys (registered : Option ComboNettingCandidateCombo) : List String :=
  (registered.map fun combo => uniqueLegKeys combo.legs).getD []

theorem isLegKey_uniqueLegKeys {legs : List ComboNettingCandidateLeg}
    (h : key ∈ uniqueLegKeys legs) : IsLegKey key := by
  obtain ⟨leg, -, rfl⟩ := mem_uniqueLegKeys.mp h
  exact leg.isLegKey

theorem isLegKey_registeredKeys (h : key ∈ registeredKeys registered) : IsLegKey key := by
  cases registered with
  | none => cases h
  | some combo => exact isLegKey_uniqueLegKeys h

/-- The sets of one combo while registrations of it may be under way. -/
structure WhileRegistering (comboId : String) (memberships : Memberships)
    (places : List RegistryPlace) (registered : Option ComboNettingCandidateCombo) : Prop where
  within : ∀ key, IsLegKey key → (key, comboId) ∈ memberships → key ∈ registeredKeys registered
  reverseWithin : ∀ key, (comboLegsKey comboId, key) ∈ memberships →
    key ∈ registeredKeys registered
  bounded : ∀ combo keys, Registering combo keys places → combo.id = comboId →
    (∀ key ∈ uniqueLegKeys combo.legs, key ∈ registeredKeys registered) ∧
      ∀ key ∈ keys, key ∈ uniqueLegKeys combo.legs
  added : ∀ key ∈ registeredKeys registered, (key, comboId) ∈ memberships ∨
    ∃ combo keys, combo.id = comboId ∧ Registering combo keys places ∧ key ∈ keys
  reverseAdded : ∀ key ∈ registeredKeys registered, (comboLegsKey comboId, key) ∈ memberships ∨
    ∃ combo keys, combo.id = comboId ∧ Registering combo keys places ∧
      key ∈ uniqueLegKeys combo.legs

/-- The sets of one combo while removals of it are under way. -/
structure WhileUnregistering (comboId : String) (memberships : Memberships)
    (places : List RegistryPlace) (registered : Option ComboNettingCandidateCombo) : Prop where
  none : registered = none
  alone : ∀ combo keys, Registering combo keys places → combo.id ≠ comboId
  backed : ∀ key, IsLegKey key → (key, comboId) ∈ memberships →
    (comboLegsKey comboId, key) ∈ memberships
  removing : ∀ keys, (unregister comboId, removing keys) ∈ places →
    ∀ key, IsLegKey key → (key, comboId) ∈ memberships → key ∈ keys

structure ComboKept (comboId : String) (memberships : Memberships)
    (places : List RegistryPlace) (registered : Option ComboNettingCandidateCombo) : Prop where
  legs : ∀ key, (comboLegsKey comboId, key) ∈ memberships → IsLegKey key
  removed : ∀ keys, (unregister comboId, removing keys) ∈ places →
    ∀ key ∈ keys, IsLegKey key
  registering : ¬ Unregistering comboId places →
    WhileRegistering comboId memberships places registered
  unregistering : Unregistering comboId places →
    WhileUnregistering comboId memberships places registered

/-- What an entry is about: it is in a set of the combo, or in the combo's own. -/
def AboutCombo (comboId : String) (entry : String × String) : Prop :=
  IsLegKey entry.1 ∧ entry.2 = comboId ∨ entry.1 = comboLegsKey comboId

theorem ComboKept.frame {memberships' : Memberships} {places places' : List RegistryPlace}
    (h : ComboKept comboId members places registered)
    (hmemberships : ∀ entry, AboutCombo comboId entry → (entry ∈ memberships' ↔ entry ∈ members))
    (hplaces : ∀ operation phase, operation.comboId = comboId → phase ≠ .ended → ((operation,
      phase) ∈ places' ↔ (operation, phase) ∈ places)) :
    ComboKept comboId memberships' places' registered := by
  have hleg : ∀ key, IsLegKey key → ((key, comboId) ∈ memberships' ↔ (key, comboId) ∈ members) :=
    fun key hkey => hmemberships _ (Or.inl ⟨hkey, rfl⟩)
  have hreverse : ∀ key, (comboLegsKey comboId, key) ∈ memberships' ↔
      (comboLegsKey comboId, key) ∈ members :=
    fun key => hmemberships _ (Or.inr rfl)
  have hregistering : ∀ combo keys, combo.id = comboId →
      (Registering combo keys places' ↔ Registering combo keys places) :=
    fun combo keys hid => hplaces _ _ hid (by simp)
  have hremoving : ∀ keys, (unregister comboId, removing keys) ∈ places' ↔
        (unregister comboId, removing keys) ∈ places :=
    fun keys => hplaces _ _ rfl (by simp)
  have hunregistering : Unregistering comboId places' ↔ Unregistering comboId places :=
    exists_congr fun phase => and_congr_right fun hphase => hplaces _ _ rfl hphase
  refine ⟨fun key hkey => h.legs key ((hreverse key).mp hkey),
    fun keys hkeys => h.removed keys ((hremoving keys).mp hkeys), fun hnot => ?_, fun hyes => ?_⟩
  · have hbefore := h.registering fun hbefore => hnot (hunregistering.mpr hbefore)
    refine ⟨fun key hkey hmem => hbefore.within key hkey ((hleg key hkey).mp hmem),
      fun key hmem => hbefore.reverseWithin key ((hreverse key).mp hmem),
      fun combo keys hmem hid => hbefore.bounded combo keys ((hregistering _ _ hid).mp hmem) hid,
      fun key hkey => ?_, fun key hkey => ?_⟩
    · rcases hbefore.added key hkey with hmem | ⟨combo, keys, hid, hmem, hleft⟩
      · exact Or.inl ((hleg key (isLegKey_registeredKeys hkey)).mpr hmem)
      · exact Or.inr ⟨combo, keys, hid, (hregistering _ _ hid).mpr hmem, hleft⟩
    · rcases hbefore.reverseAdded key hkey with hmem | ⟨combo, keys, hid, hmem, hleft⟩
      · exact Or.inl ((hreverse key).mpr hmem)
      · exact Or.inr ⟨combo, keys, hid, (hregistering _ _ hid).mpr hmem, hleft⟩
  · have hbefore := h.unregistering (hunregistering.mp hyes)
    refine ⟨hbefore.none, fun combo keys hmem hid =>
        hbefore.alone combo keys ((hregistering _ _ hid).mp hmem) hid,
      fun key hkey hmem => (hreverse key).mpr (hbefore.backed key hkey ((hleg key hkey).mp hmem)),
      fun keys hkeys key hkey hmem =>
        hbefore.removing keys ((hremoving keys).mp hkeys) key hkey ((hleg key hkey).mp hmem)⟩

def LegKeysLeft (q : RegistryPlace) : Prop :=
  match q.2 with
  | .adding keys | .removing keys => ∀ key ∈ keys, IsLegKey key
  | _ => True

theorem redis_other (hallowed : registryProtocol.allows q e) (hleft : LegKeysLeft q)
    (hother : q.1.comboId ≠ comboId) {entry : String × String} (habout : AboutCombo comboId entry) :
    entry ∈ (redis e members).2 ↔ entry ∈ members := by
  -- an entry of the combo in a set of a leg, or under another combo's key, is none of `comboId`
  have hleg : ∀ key, IsLegKey key → entry ≠ (key, q.1.comboId) := by
    rintro key hkey rfl
    rcases habout with ⟨-, heq⟩ | heq
    · exact hother heq
    · exact legKey_ne_comboLegsKey hkey comboId heq
  have hreverse : entry.1 ≠ comboLegsKey q.1.comboId := by
    intro heq
    rcases habout with ⟨hkey, -⟩ | heq'
    · exact legKey_ne_comboLegsKey hkey _ heq
    · exact hother (comboLegsKey_injective (heq.symm.trans heq'))
  obtain ⟨operation, phase⟩ := q
  cases operation with
  | register combo =>
    cases phase with
    | adding keys =>
      cases keys with
      | nil =>
        cases hallowed
        rw [mem_sadd]
        exact or_iff_left fun h => hreverse h.1
      | cons key keys =>
        cases hallowed
        rw [mem_sadd]
        refine or_iff_left fun h => hleg key (hleft key mem_cons_self) ?_
        exact Prod.ext h.1 (mem_singleton.mp h.2)
    | reading => cases hallowed
    | removing keys => cases hallowed
    | ended => cases hallowed
  | unregister comboId' =>
    cases phase with
    | adding keys => cases hallowed
    | reading =>
      cases hallowed
      exact Iff.rfl
    | removing keys =>
      cases keys with
      | nil =>
        cases hallowed
        rw [mem_del]
        exact and_iff_left hreverse
      | cons key keys =>
        cases hallowed
        rw [mem_srem]
        exact and_iff_left (hleg key (hleft key mem_cons_self))
    | ended => cases hallowed

/-! ## Commands of the combo itself -/

section Own

variable {places : List RegistryPlace} {i : ℕ} {members : Memberships}
  {registered : Option ComboNettingCandidateCombo}

theorem mem_set_of_mem {q' place : RegistryPlace} (hplace : places[i]? = some q)
    (hmem : place ∈ places) (hne : place ≠ q) : place ∈ places.set i q' := by
  obtain ⟨j, hj, rfl⟩ := getElem_of_mem hmem
  refine List.mem_iff_getElem.mpr ⟨j, by simpa using hj, ?_⟩
  have hij : i ≠ j := by
    rintro rfl
    rw [getElem?_eq_getElem hj] at hplace
    exact hne (Option.some.inj hplace)
  rw [getElem_set_ne hij]

theorem mem_set_self' {q' : RegistryPlace} (hplace : places[i]? = some q) :
    q' ∈ places.set i q' := by
  obtain ⟨hi, -⟩ := List.getElem?_eq_some_iff.mp hplace
  exact List.mem_iff_getElem.mpr ⟨i, by simpa using hi, List.getElem_set_self _⟩

theorem mem_of_mem_set_ended {place : RegistryPlace}
    (hmem : place ∈ places.set i (operation, .ended)) (hphase : place.2 ≠ .ended) :
    place ∈ places := by
  rcases mem_or_eq_of_mem_set hmem with hmem | rfl
  · exact hmem
  · exact absurd rfl hphase

theorem ComboKept.sadd {keys : List String} (h : ComboKept combo.id members places registered)
    (hplace : places[i]? = some (.register combo, .adding (key :: keys))) :
    ComboKept combo.id (redis (.sadd key [combo.id]) members).2
      (places.set i (.register combo, .adding keys)) registered := by
  have hmem := mem_of_getElem? hplace
  have hquiet : ¬ Unregistering combo.id places := fun hyes =>
    (h.unregistering hyes).alone combo (key :: keys) hmem rfl
  have hbefore := h.registering hquiet
  obtain ⟨hkeys, hleft⟩ := hbefore.bounded combo _ hmem rfl
  have hkey : key ∈ uniqueLegKeys combo.legs := hleft key mem_cons_self
  have hlegKey := isLegKey_uniqueLegKeys hkey
  have hreverse : ∀ key', (comboLegsKey combo.id, key') ∈ (redis (.sadd key [combo.id])
      members).2 ↔ (comboLegsKey combo.id, key') ∈ members := fun key' => by
    rw [mem_sadd]
    exact or_iff_left fun heq => legKey_ne_comboLegsKey hlegKey combo.id heq.1.symm
  -- what is under way is what was, but for this registration
  have hback : ∀ combo' keys', Registering combo' keys'
      (places.set i (.register combo, .adding keys)) → Registering combo' keys' places ∨
        combo' = combo ∧ keys' = keys := by
    intro combo' keys' hmem'
    rcases mem_or_eq_of_mem_set hmem' with hmem' | heq
    · exact Or.inl hmem'
    · cases heq
      exact Or.inr ⟨rfl, rfl⟩
  have hunregister : ∀ phase, (unregister combo.id, phase) ∈
      places.set i (.register combo, .adding keys) → (unregister combo.id, phase) ∈ places := by
    intro phase hmem'
    rcases mem_or_eq_of_mem_set hmem' with hmem' | heq
    · exact hmem'
    · cases heq
  refine ⟨fun key' hmem' => h.legs key' ((hreverse key').mp hmem'),
    fun keys' hkeys' => h.removed keys' (hunregister _ hkeys'), fun _ => ?_, fun hyes => ?_⟩
  · refine ⟨fun key' hkey' hmem' => ?_,
      fun key' hmem' => hbefore.reverseWithin key' ((hreverse key').mp hmem'),
      fun combo' keys' hmem' hid => ?_, fun key' hkey' => ?_, fun key' hkey' => ?_⟩
    · rcases mem_sadd.mp hmem' with hmem' | heq
      · exact hbefore.within key' hkey' hmem'
      · obtain ⟨rfl, -⟩ := heq
        exact hkeys _ hkey
    · rcases hback combo' keys' hmem' with hmem' | ⟨rfl, rfl⟩
      · exact hbefore.bounded combo' keys' hmem' hid
      · exact ⟨hkeys, fun key' hkey' => hleft key' (mem_cons_of_mem _ hkey')⟩
    · rcases hbefore.added key' hkey' with hmem' | ⟨combo', keys', hid, hmem', hkey'⟩
      · exact Or.inl (mem_sadd.mpr (Or.inl hmem'))
      · by_cases hsame : combo' = combo ∧ keys' = key :: keys
        · obtain ⟨rfl, rfl⟩ := hsame
          rcases mem_cons.mp hkey' with rfl | hkey'
          · exact Or.inl (mem_sadd.mpr (Or.inr ⟨rfl, mem_singleton_self _⟩))
          · exact Or.inr ⟨combo', keys, rfl, mem_set_self' hplace, hkey'⟩
        · exact Or.inr ⟨combo', keys', hid, mem_set_of_mem hplace hmem' (by simpa using hsame),
            hkey'⟩
    · rcases hbefore.reverseAdded key' hkey' with hmem' | ⟨combo', keys', hid, hmem', hkey'⟩
      · exact Or.inl ((hreverse key').mpr hmem')
      · by_cases hsame : combo' = combo ∧ keys' = key :: keys
        · obtain ⟨rfl, rfl⟩ := hsame
          exact Or.inr ⟨combo', keys, rfl, mem_set_self' hplace, hkey'⟩
        · exact Or.inr ⟨combo', keys', hid, mem_set_of_mem hplace hmem' (by simpa using hsame),
            hkey'⟩
  · obtain ⟨phase, hphase, hmem'⟩ := hyes
    exact absurd ⟨phase, hphase, hunregister _ hmem'⟩ hquiet

theorem ComboKept.saddReverse (h : ComboKept combo.id members places registered)
    (hplace : places[i]? = some (.register combo, .adding [])) : ComboKept combo.id
      (redis (.sadd (comboLegsKey combo.id) (uniqueLegKeys combo.legs)) members).2
      (places.set i (.register combo, .ended)) registered := by
  have hmem := mem_of_getElem? hplace
  have hquiet : ¬ Unregistering combo.id places := fun hyes =>
    (h.unregistering hyes).alone combo [] hmem rfl
  have hbefore := h.registering hquiet
  obtain ⟨hkeys, -⟩ := hbefore.bounded combo _ hmem rfl
  have hleg : ∀ key, IsLegKey key → ((key, combo.id) ∈
      (redis (.sadd (comboLegsKey combo.id) (uniqueLegKeys combo.legs)) members).2 ↔
        (key, combo.id) ∈ members) := fun key hkey => by
    rw [mem_sadd]
    exact or_iff_left fun heq => legKey_ne_comboLegsKey hkey combo.id heq.1
  refine ⟨fun key hmem' => ?_, fun keys hkeys' => h.removed keys (mem_of_mem_set_ended hkeys' (by simp)),
    fun _ => ?_, fun hyes => ?_⟩
  · rcases mem_sadd.mp hmem' with hmem' | heq
    · exact h.legs key hmem'
    · exact isLegKey_uniqueLegKeys heq.2
  · refine ⟨fun key hkey hmem' => hbefore.within key hkey ((hleg key hkey).mp hmem'),
      fun key hmem' => ?_, fun combo' keys' hmem' hid =>
        hbefore.bounded combo' keys' (mem_of_mem_set_ended hmem' (by simp)) hid,
      fun key hkey => ?_, fun key hkey => ?_⟩
    · rcases mem_sadd.mp hmem' with hmem' | heq
      · exact hbefore.reverseWithin key hmem'
      · exact hkeys key heq.2
    · rcases hbefore.added key hkey with hmem' | ⟨combo', keys', hid, hmem', hkey'⟩
      · exact Or.inl ((hleg key (isLegKey_registeredKeys hkey)).mpr hmem')
      · refine Or.inr ⟨combo', keys', hid, mem_set_of_mem hplace hmem' ?_, hkey'⟩
        intro heq
        cases heq
        cases hkey'
    · rcases hbefore.reverseAdded key hkey with hmem' | ⟨combo', keys', hid, hmem', hkey'⟩
      · exact Or.inl (mem_sadd.mpr (Or.inl hmem'))
      · by_cases hsame : combo' = combo ∧ keys' = []
        · obtain ⟨rfl, rfl⟩ := hsame
          exact Or.inl (mem_sadd.mpr (Or.inr ⟨rfl, hkey'⟩))
        · exact Or.inr ⟨combo', keys', hid, mem_set_of_mem hplace hmem' (by simpa using hsame),
            hkey'⟩
  · obtain ⟨phase, hphase, hmem'⟩ := hyes
    exact absurd ⟨phase, hphase, mem_of_mem_set_ended hmem' hphase⟩ hquiet

theorem ComboKept.of_empty (hnone : registered = none)
    (halone : ∀ combo keys, Registering combo keys places → combo.id ≠ comboId)
    (hremoved : ∀ keys, (unregister comboId, removing keys) ∈ places → ∀ key ∈ keys, IsLegKey key)
    (hlegs : ∀ key, IsLegKey key → (key, comboId) ∉ members)
    (hreverse : ∀ key, (comboLegsKey comboId, key) ∉ members) :
    ComboKept comboId members places registered := by
  subst hnone
  refine ⟨fun key hmem => absurd hmem (hreverse key), hremoved, fun _ => ?_, fun _ => ?_⟩
  · exact ⟨fun key hkey hmem => absurd hmem (hlegs key hkey),
      fun key hmem => absurd hmem (hreverse key),
      fun combo keys hmem hid => absurd hid (halone combo keys hmem),
      fun key hkey => absurd hkey not_mem_nil, fun key hkey => absurd hkey not_mem_nil⟩
  · exact ⟨rfl, halone, fun key hkey hmem => absurd hmem (hlegs key hkey),
      fun keys _ key hkey hmem => absurd hmem (hlegs key hkey)⟩

section

variable {comboId : String} (h : ComboKept comboId members places registered)

include h

theorem ComboKept.smembers (hplace : places[i]? = some (.unregister comboId, .reading)) :
    ComboKept comboId members (places.set i (registryProtocol.next (.unregister comboId, .reading)
      (.smembers (comboLegsKey comboId)) (smembersOf (comboLegsKey comboId) members)))
        registered := by
  have hmem := mem_of_getElem? hplace
  have hbefore := h.unregistering ⟨.reading, by simp, hmem⟩
  cases hread : smembersOf (comboLegsKey comboId) members with
  | nil =>
    have hempty : ∀ key, (comboLegsKey comboId, key) ∉ members := fun key hkey => by
      have hkey' := mem_smembersOf.mpr hkey
      rw [hread] at hkey'
      cases hkey'
    exact .of_empty hbefore.none
      (fun combo keys hmem' => hbefore.alone combo keys (mem_of_mem_set_ended hmem' (by simp)))
      (fun keys hmem' => h.removed keys (mem_of_mem_set_ended hmem' (by simp)))
      (fun key hkey hmem' => hempty key (hbefore.backed key hkey hmem')) hempty
  | cons first rest =>
    show ComboKept comboId members
      (places.set i (.unregister comboId, .removing (first :: rest))) registered
    have hall : ∀ key, (comboLegsKey comboId, key) ∈ members ↔ key ∈ first :: rest :=
      fun key => by rw [← hread, mem_smembersOf]
    have hback : ∀ place ∈ places.set i (.unregister comboId, .removing (first :: rest)),
        place ∈ places ∨ place = (.unregister comboId, .removing (first :: rest)) :=
      fun place hmem' => mem_or_eq_of_mem_set hmem'
    refine ⟨h.legs, fun keys hmem' key hkey => ?_, fun hnot => ?_, fun _ => ?_⟩
    · rcases hback _ hmem' with hmem' | heq
      · exact h.removed keys hmem' key hkey
      · cases heq
        exact h.legs key ((hall key).mpr hkey)
    · exact absurd ⟨_, by simp, mem_set_self' hplace⟩ hnot
    · refine ⟨hbefore.none, fun combo keys hmem' => ?_, hbefore.backed,
        fun keys hmem' key hkey hmember => ?_⟩
      · rcases hback _ hmem' with hmem' | heq
        · exact hbefore.alone combo keys hmem'
        · cases heq
      · rcases hback _ hmem' with hmem' | heq
        · exact hbefore.removing keys hmem' key hkey hmember
        · cases heq
          exact (hall key).mp (hbefore.backed key hkey hmember)

theorem ComboKept.srem {keys : List String}
    (hplace : places[i]? = some (.unregister comboId, .removing (key :: keys))) :
    ComboKept comboId (redis (.srem key comboId) members).2
      (places.set i (.unregister comboId, .removing keys)) registered := by
  have hmem := mem_of_getElem? hplace
  have hbefore := h.unregistering ⟨_, by simp, hmem⟩
  have hlegKey : IsLegKey key := h.removed _ hmem key mem_cons_self
  have hreverse : ∀ key', (comboLegsKey comboId, key') ∈ (redis (.srem key comboId)
      members).2 ↔ (comboLegsKey comboId, key') ∈ members := fun key' => by
    rw [mem_srem]
    refine and_iff_left fun heq => ?_
    exact legKey_ne_comboLegsKey hlegKey comboId (Prod.mk.inj heq).1.symm
  refine ⟨fun key' hmem' => h.legs key' ((hreverse key').mp hmem'), fun keys' hmem' key' hkey' => ?_,
    fun hnot => absurd ⟨_, by simp, mem_set_self' hplace⟩ hnot, fun _ => ?_⟩
  · rcases mem_or_eq_of_mem_set hmem' with hmem' | heq
    · exact h.removed keys' hmem' key' hkey'
    · cases heq
      exact h.removed _ hmem key' (mem_cons_of_mem _ hkey')
  · refine ⟨hbefore.none, fun combo keys' hmem' => ?_,
      fun key' hkey' hmem' =>
        (hreverse key').mpr (hbefore.backed key' hkey' (mem_srem.mp hmem').1),
      fun keys' hmem' key' hkey' hmember => ?_⟩
    · rcases mem_or_eq_of_mem_set hmem' with hmem' | heq
      · exact hbefore.alone combo keys' hmem'
      · cases heq
    · obtain ⟨hmember, hne⟩ := mem_srem.mp hmember
      rcases mem_or_eq_of_mem_set hmem' with hmem' | heq
      · exact hbefore.removing keys' hmem' key' hkey' hmember
      · cases heq
        -- what this removal has read and not removed yet
        rcases mem_cons.mp (hbefore.removing _ hmem key' hkey' hmember) with rfl | hlater
        · exact absurd rfl hne
        · exact hlater

theorem ComboKept.del (hplace : places[i]? = some (.unregister comboId, .removing [])) :
    ComboKept comboId (redis (.del (comboLegsKey comboId)) members).2
      (places.set i (.unregister comboId, .ended)) registered := by
  have hmem := mem_of_getElem? hplace
  have hbefore := h.unregistering ⟨_, by simp, hmem⟩
  refine .of_empty hbefore.none
    (fun combo keys hmem' => hbefore.alone combo keys (mem_of_mem_set_ended hmem' (by simp)))
    (fun keys hmem' => h.removed keys (mem_of_mem_set_ended hmem' (by simp))) (fun key hkey hmem' => ?_)
    fun key hmem' => (mem_del.mp hmem').2 rfl
  have hleft := hbefore.removing [] hmem key hkey (mem_del.mp hmem').1
  cases hleft

end

end Own

/-! ## Starts -/

theorem registeredAfter_self (h : operation.refused = true ∨ operation.comboId ≠ comboId) :
    registeredAfter comboId registered operation = registered := by
  unfold registeredAfter
  rw [if_pos h]

theorem ComboKept.start {places : List RegistryPlace} {underWay : List RegistryOperation}
    (h : ComboKept comboId members places registered)
    (hunder : ∀ q ∈ places, ¬ q.done → q.1 ∈ underWay)
    (hguard : StartsApart members underWay operation) :
    ComboKept comboId members (places ++ [registryStart operation])
      (registeredAfter comboId registered operation) := by
  by_cases hself : operation.refused = true ∨ operation.comboId ≠ comboId
  · -- it is refused, or about another combo
    rw [registeredAfter_self hself]
    refine h.frame (fun _ _ => Iff.rfl) fun operation' phase hid hphase => ?_
    rw [mem_append, mem_singleton]
    refine or_iff_left fun heq => ?_
    rcases hself with hrefused | hother
    · rw [registryStart_refused hrefused] at heq
      exact hphase (congrArg Prod.snd heq)
    · have hlabel := congrArg Prod.fst heq
      rw [registryStart_label] at hlabel
      exact hother (hlabel ▸ hid)
  · obtain ⟨haccepted, hid⟩ := not_or.mp hself
    replace haccepted : operation.refused = false := Bool.eq_false_of_not_eq_true haccepted
    replace hid := Classical.not_not.mp hid
    subst hid
    replace hguard := hguard haccepted
    unfold registeredAfter
    rw [if_neg hself]
    cases operation with
    | register combo =>
      rw [registryStart_register haccepted]
      obtain ⟨hothers, hreverse⟩ := hguard
      have hquiet : ¬ Unregistering combo.id places := by
        rintro ⟨phase, hphase, hmem⟩
        exact hothers _ (hunder _ hmem hphase) rfl
      have hbefore := h.registering hquiet
      have hunder' : ∀ combo' keys, Registering combo' keys places → combo'.id = combo.id →
          ∀ key ∈ uniqueLegKeys combo'.legs, key ∈ uniqueLegKeys combo.legs := by
        intro combo' keys hmem hid
        exact hothers _ (hunder _ hmem (by simp)) hid
      -- what was registered has at most these legs
      have hkeys : ∀ key ∈ registeredKeys registered, key ∈ uniqueLegKeys combo.legs := by
        intro key hkey
        rcases hbefore.reverseAdded key hkey with hmem | ⟨combo', keys, hid, hmem, hkey⟩
        · exact hreverse key hmem
        · exact hunder' combo' keys hmem hid key hkey
      have hback : ∀ phase, (unregister combo.id, phase) ∈
          places ++ [(.register combo, .adding (uniqueLegKeys combo.legs))] →
            (unregister combo.id, phase) ∈ places := by
        intro phase hmem
        rcases mem_append.mp hmem with hmem | hmem
        · exact hmem
        · cases mem_singleton.mp hmem
      refine ⟨h.legs, fun keys hmem => h.removed keys (hback _ hmem), fun _ => ?_,
        fun ⟨phase, hphase, hmem⟩ => absurd ⟨phase, hphase, hback _ hmem⟩ hquiet⟩
      have hnew : Registering combo (uniqueLegKeys combo.legs)
          (places ++ [(.register combo, .adding (uniqueLegKeys combo.legs))]) :=
        mem_append_right _ (mem_singleton_self _)
      refine ⟨fun key hkey hmem => hkeys key (hbefore.within key hkey hmem),
        fun key hmem => hkeys key (hbefore.reverseWithin key hmem),
        fun combo' keys hmem hid => ?_, fun key hkey => Or.inr ⟨combo, _, rfl, hnew, hkey⟩,
        fun key hkey => Or.inr ⟨combo, _, rfl, hnew, hkey⟩⟩
      rcases mem_append.mp hmem with hmem | hmem
      · exact ⟨hunder' combo' keys hmem hid, (hbefore.bounded combo' keys hmem hid).2⟩
      · cases mem_singleton.mp hmem
        exact ⟨fun key hkey => hkey, fun key hkey => hkey⟩
    | unregister comboId =>
      rw [registryStart_unregister haccepted]
      have halone : ∀ combo keys, Registering combo keys places → combo.id ≠ comboId := by
        intro combo keys hmem hid
        cases hguard _ (hunder _ hmem (by simp)) hid
      have hnew : Unregistering comboId (places ++ [(.unregister comboId, .reading)]) :=
        ⟨.reading, by simp, mem_append_right _ (mem_singleton_self _)⟩
      have hbackRegister : ∀ combo keys, Registering combo keys
          (places ++ [(.unregister comboId, .reading)]) → Registering combo keys places := by
        intro combo keys hmem
        rcases mem_append.mp hmem with hmem | hmem
        · exact hmem
        · cases mem_singleton.mp hmem
      have hbackRemoving : ∀ keys, (unregister comboId, removing
          keys) ∈ places ++ [(.unregister comboId, .reading)] →
            (unregister comboId, removing keys) ∈ places := by
        intro keys hmem
        rcases mem_append.mp hmem with hmem | hmem
        · exact hmem
        · cases mem_singleton.mp hmem
      refine ⟨h.legs, fun keys hmem => h.removed keys (hbackRemoving keys hmem),
        fun hnot => absurd hnew hnot, fun _ => ⟨rfl, fun combo keys hmem =>
          halone combo keys (hbackRegister combo keys hmem), fun key hkey hmem => ?_,
          fun keys hmem key hkey hmember => ?_⟩⟩
      · by_cases hyes : Unregistering comboId places
        · exact (h.unregistering hyes).backed key hkey hmem
        · have hbefore := h.registering hyes
          -- no registration is under way, so that every key is in the combo's own set
          rcases hbefore.reverseAdded key (hbefore.within key hkey hmem) with
            hreverse | ⟨combo, keys, hid, hunderWay, -⟩
          · exact hreverse
          · exact absurd hid (halone combo keys hunderWay)
      · have hold := hbackRemoving keys hmem
        exact (h.unregistering ⟨_, by simp, hold⟩).removing keys hold key hkey hmember

/-! ## Runs -/

/-- The sets of every combo, and the keys that are left to places. -/
structure RegistryKept (memberships : Memberships) (places : List RegistryPlace) : Prop where
  combos : ∀ comboId, ComboKept comboId memberships places
    (registeredCombo comboId (places.map Prod.fst))
  left : ∀ q ∈ places, LegKeysLeft q

section

variable {members : Memberships} {places : List RegistryPlace}
  (h : RegistryKept members places)

include h

theorem RegistryKept.start {underWay : List RegistryOperation}
    (hunder : ∀ q ∈ places, ¬ q.done → q.1 ∈ underWay)
    (hguard : StartsApart members underWay operation) :
    RegistryKept members (places ++ [registryStart operation]) := by
  refine ⟨fun comboId => ?_, fun q hmem => ?_⟩
  · rw [map_append, map_singleton, registryStart_label, registeredCombo_append]
    exact (h.combos comboId).start hunder hguard
  · rcases mem_append.mp hmem with hmem | hmem
    · exact h.left q hmem
    · rw [mem_singleton.mp hmem]
      unfold registryStart
      split
      · trivial
      · cases operation with
        | register combo => exact fun key hkey => isLegKey_uniqueLegKeys hkey
        | unregister comboId => trivial

theorem legKeysLeft_next (hmem : q ∈ places) (hallowed : registryProtocol.allows q e) :
    LegKeysLeft (registryProtocol.next q e (redis e members).1) := by
  have hleft := h.left q hmem
  obtain ⟨operation, phase⟩ := q
  cases phase with
  | adding keys =>
    cases keys with
    | nil => cases e <;> trivial
    | cons key keys => exact fun key' hkey' => hleft key' (mem_cons_of_mem _ hkey')
  | reading =>
    cases operation with
    | register combo => cases hallowed
    | unregister comboId =>
      cases hallowed
      show LegKeysLeft (registryProtocol.next _ (.smembers (comboLegsKey comboId))
        (smembersOf (comboLegsKey comboId) members))
      cases hread : smembersOf (comboLegsKey comboId) members with
      | nil => trivial
      | cons first rest =>
        intro key hkey
        rw [← hread] at hkey
        exact (h.combos comboId).legs key (mem_smembersOf.mp hkey)
  | removing keys =>
    cases keys with
    | nil => cases e <;> trivial
    | cons key keys => exact fun key' hkey' => hleft key' (mem_cons_of_mem _ hkey')
  | ended => cases operation <;> cases hallowed

/-- **One command.** -/
theorem RegistryKept.step {i : ℕ} (hplace : places[i]? = some q)
    (hallowed : registryProtocol.allows q e) : RegistryKept (redis e members).2
      (places.set i (registryProtocol.next q e (redis e members).1)) := by
  have hmem := mem_of_getElem? hplace
  have hlabel := registryProtocol_next_label q e (redis e members).1
  refine ⟨fun comboId => ?_, fun place hplace' => ?_⟩
  · have hoperations : (places.set i (registryProtocol.next q e (redis e members).1)).map
        Prod.fst = places.map Prod.fst := by
      rw [map_set, hlabel]
      refine set_place ?_
      rw [getElem?_map, hplace, Option.map_some]
    rw [hoperations]
    have hkept := h.combos comboId
    by_cases hown : q.1.comboId = comboId
    · -- the command is about the combo
      obtain ⟨operation, phase⟩ := q
      cases operation with
      | register combo =>
        cases hown
        cases phase with
        | adding keys =>
          cases keys with
          | nil =>
            cases hallowed
            exact hkept.saddReverse hplace
          | cons key keys =>
            cases hallowed
            exact hkept.sadd hplace
        | reading => cases hallowed
        | removing keys => cases hallowed
        | ended => cases hallowed
      | unregister comboId' =>
        cases hown
        cases phase with
        | adding keys => cases hallowed
        | reading =>
          cases hallowed
          exact hkept.smembers hplace
        | removing keys =>
          cases keys with
          | nil =>
            cases hallowed
            exact hkept.del hplace
          | cons key keys =>
            cases hallowed
            exact hkept.srem hplace
        | ended => cases hallowed
    · refine hkept.frame (fun entry habout => redis_other hallowed (h.left q hmem) hown habout)
        fun operation phase hid hphase => ?_
      constructor
      · intro hmem'
        rcases mem_or_eq_of_mem_set hmem' with hmem' | heq
        · exact hmem'
        · have hfirst := congrArg Prod.fst heq
          rw [hlabel] at hfirst
          exact absurd (hfirst ▸ hid) hown
      · intro hmem'
        refine mem_set_of_mem hplace hmem' fun heq => hown ?_
        rw [← heq]
        exact hid
  · rcases mem_or_eq_of_mem_set hplace' with hplace' | rfl
    · exact h.left place hplace'
    · exact legKeysLeft_next h hmem hallowed

end

section

variable {comboId : String} {members : Memberships} {places : List RegistryPlace}
  {registered : Option ComboNettingCandidateCombo} {key : String}
  (h : ComboKept comboId members places registered)

include h

theorem ComboKept.quiet (hdone : ∀ q ∈ places, q.done) (hkey : IsLegKey key) :
    ((key, comboId) ∈ members ↔ key ∈ registeredKeys registered) := by
  have hquiet : ¬ Unregistering comboId places := fun ⟨phase, hphase, hmem⟩ =>
    hphase (hdone _ hmem)
  have hkept := h.registering hquiet
  refine ⟨hkept.within key hkey, fun hregistered => ?_⟩
  rcases hkept.added key hregistered with hmem | ⟨combo, keys, -, hmem, -⟩
  · exact hmem
  · cases hdone _ hmem

theorem ComboKept.backed (hkey : IsLegKey key) (hmem : (key, comboId) ∈ members) :
    (comboLegsKey comboId, key) ∈ members ∨
      ∃ combo keys, combo.id = comboId ∧ Registering combo keys places := by
  by_cases hyes : Unregistering comboId places
  · exact Or.inl ((h.unregistering hyes).backed key hkey hmem)
  · have hkept := h.registering hyes
    rcases hkept.reverseAdded key (hkept.within key hkey hmem) with
      hreverse | ⟨combo, keys, hid, hregistering, -⟩
    · exact Or.inl hreverse
    · exact Or.inr ⟨combo, keys, hid, hregistering⟩

end

/-- Of one outcome, on opposite sides. -/
def OppositeLegs (leg other : ComboNettingCandidateLeg) : Prop :=
  leg.marketId = other.marketId ∧ leg.outcomeId = other.outcomeId ∧
    leg.side = other.side.opposite

/-- Another combo that is registered with a leg opposite to one of the incoming combo's. -/
def Opposing (operations : List RegistryOperation) (incomingCombo : ComboNettingCandidateCombo)
    (comboId : String) : Prop :=
  comboId ≠ incomingCombo.id ∧ ∃ combo, registeredCombo comboId operations = some combo ∧
    ∃ leg ∈ combo.legs, ∃ other ∈ incomingCombo.legs, OppositeLegs leg other

/-- Another combo whose leg has the key of a leg opposite to one of the incoming combo's has such a
leg. -/
def KeysTellApart (operations : List RegistryOperation)
    (incomingCombo : ComboNettingCandidateCombo) : Prop :=
  ∀ comboId combo, comboId ≠ incomingCombo.id → registeredCombo comboId operations = some combo →
    (∃ leg ∈ combo.legs, ∃ other ∈ incomingCombo.legs, leg.key = other.oppositeKey) →
    ∃ leg ∈ combo.legs, ∃ other ∈ incomingCombo.legs, OppositeLegs leg other

theorem key_eq_of_oppositeLegs {leg other : ComboNettingCandidateLeg} (h : OppositeLegs leg other) :
    leg.key = other.oppositeKey := by
  unfold ComboNettingCandidateLeg.key ComboNettingCandidateLeg.oppositeKey
  rw [h.1, h.2.1, h.2.2]

theorem mem_registeredKeys : key ∈ registeredKeys registered ↔
      ∃ combo, registered = some combo ∧ ∃ leg ∈ combo.legs, leg.key = key := by
  cases registered with
  | none => simp [registeredKeys]
  | some combo => simp [registeredKeys, mem_uniqueLegKeys]

/-- **The registry is consistent** where registrations and removals of a combo are apart: a
membership is backed unless its combo is being registered, and with nothing under way what is found
is what is registered, as far as the keys tell legs apart. -/
theorem registry_consistent {s : RegistryRun}
    (hrun : Run registryStep (Guarded StartsApart fun _ _ _ => True) noCandidates s) :
    (∀ key comboId, IsLegKey key → (key, comboId) ∈ s.system.shared →
      (comboLegsKey comboId, key) ∈ s.system.shared ∨
        ∃ combo, combo.id = comboId ∧ .register combo ∈ s.underWay) ∧
    (s.underWay = [] → ∀ incomingCombo, (parseCombo incomingCombo).isSome →
      ((∃ comboIds, (findCandidateCombos incomingCombo).run redis s.system.shared =
          (some comboIds, s.system.shared) ∧ comboIds.Nodup ∧
          ∀ comboId, comboId ∈ comboIds ↔ Opposing s.operations incomingCombo comboId) ↔
        KeysTellApart s.operations incomingCombo)) := by
  have hinitial : Accounted registryProtocol Prod.fst RegistryPlace.done RegistryKept
      noCandidates := by
    refine ⟨[], ⟨fun comboId => .of_empty rfl ?_ ?_ ?_ ?_, ?_⟩, rfl, .nil⟩
    · rintro combo keys ⟨⟩
    · rintro keys ⟨⟩
    · rintro key - ⟨⟩
    · rintro key ⟨⟩
    · rintro q ⟨⟩
  obtain ⟨places, hkept, hlabels, hobeys⟩ := accounted_of_run obeys_registryCode
    registryStart_label (fun q e r _ => registryProtocol_next_label q e r) (fun _ _ => trivial)
    (fun _ _ _ _ h hunder hguard => h.start hunder hguard)
    (fun _ _ _ _ _ _ h _ hplace hallowed _ => h.step hplace hallowed) hinitial hrun
  refine ⟨fun key comboId hkey hmem => ?_, fun hidle incomingCombo hparsed => ?_⟩
  · rcases (hkept.combos comboId).backed hkey hmem with hreverse | ⟨combo, keys, hid, hregister⟩
    · exact Or.inl hreverse
    · refine Or.inr ⟨combo, hid, ?_⟩
      exact mem_underWay hlabels hobeys hregister (fun h => by cases h)
  · have hdone : ∀ q ∈ places, q.done := fun q hmem => Classical.not_not.mp fun hnot => by
      have hunder := mem_underWay hlabels hobeys hmem hnot
      rw [hidle] at hunder
      cases hunder
    -- what is found is registered with the key
    have hfound : ∀ comboId, Found incomingCombo s.system.shared comboId ↔
        comboId ≠ incomingCombo.id ∧ ∃ combo, registeredCombo comboId s.operations = some combo ∧
          ∃ leg ∈ combo.legs, ∃ other ∈ incomingCombo.legs, leg.key = other.oppositeKey := by
      intro comboId
      refine and_congr_right fun _ => ?_
      have hkeys : ∀ other : ComboNettingCandidateLeg,
          (other.oppositeKey, comboId) ∈ s.system.shared ↔
            ∃ combo, registeredCombo comboId s.operations = some combo ∧
              ∃ leg ∈ combo.legs, leg.key = other.oppositeKey := fun other => by
        have hkey : IsLegKey other.oppositeKey := ⟨_, _, _, rfl⟩
        rw [(hkept.combos comboId).quiet hdone hkey, mem_registeredKeys, hlabels]
      constructor
      · rintro ⟨other, hother, hmem⟩
        obtain ⟨combo, hregistered, leg, hleg, hkey⟩ := (hkeys other).mp hmem
        exact ⟨combo, hregistered, leg, hleg, other, hother, hkey⟩
      · rintro ⟨combo, hregistered, leg, hleg, other, hother, hkey⟩
        exact ⟨other, hother, (hkeys other).mpr ⟨combo, hregistered, leg, hleg, hkey⟩⟩
    obtain ⟨comboIds, hfind, hnodup, hmem⟩ := run_findCandidateCombos hparsed s.system.shared
    constructor
    · rintro ⟨comboIds', hfind', -, hmem'⟩ comboId combo hother hregistered hkey
      have hsame : comboIds' = comboIds := by
        rw [hfind] at hfind'
        exact (Option.some.inj (Prod.mk.inj hfind').1).symm
      subst hsame
      obtain ⟨-, combo', hregistered', hlegs⟩ := (hmem' comboId).mp
        ((hmem comboId).mpr ((hfound comboId).mpr ⟨hother, combo, hregistered, hkey⟩))
      rw [hregistered] at hregistered'
      cases hregistered'
      exact hlegs
    · intro hapart
      refine ⟨comboIds, hfind, hnodup, fun comboId => ?_⟩
      rw [hmem, hfound]
      constructor
      · rintro ⟨hother, combo, hregistered, hkey⟩
        exact ⟨hother, combo, hregistered, hapart comboId combo hother hregistered hkey⟩
      · rintro ⟨hother, combo, hregistered, leg, hleg, other, hother', hopposite⟩
        exact ⟨hother, combo, hregistered, leg, hleg, other, hother',
          key_eq_of_oppositeLegs hopposite⟩

/-! ### A removal beside a registration -/

instance (combo : ComboNettingCandidateCombo) (operation : RegistryOperation) :
    Decidable (operation.ExtendedBy combo) := by
  unfold RegistryOperation.ExtendedBy
  split <;> infer_instance

instance (comboId : String) (memberships : Memberships) (keys : List String) :
    Decidable (∀ key, (comboLegsKey comboId, key) ∈ memberships → key ∈ keys) :=
  decidable_of_iff (∀ key ∈ smembersOf (comboLegsKey comboId) memberships, key ∈ keys)
    (forall_congr' fun key => by rw [mem_smembersOf])

instance (memberships : Memberships) (underWay : List RegistryOperation)
    (operation : RegistryOperation) : Decidable (StartsApart memberships underWay operation) := by
  unfold StartsApart
  cases operation <;> infer_instance

def buyCombo : ComboNettingCandidateCombo := ⟨"buyer", [⟨"1", "market", "yes", .buy⟩]⟩

def sellCombo : ComboNettingCandidateCombo := ⟨"seller", [⟨"1", "market", "yes", .sell⟩]⟩

/-- A combo is registered, and another one while it is removed and registered again. -/
def registersInTurn : List (Action RegistryOperation) :=
  [.start (.register buyCombo), .advance 0, .start (.register sellCombo), .advance 1, .advance 0,
    .start (.unregister "buyer"), .advance 2, .advance 1, .advance 2, .advance 2]

theorem registry_consistent_inTurn : ∃ s : RegistryRun,
    s.system.shared = [(candidateLegKey "market" "yes" .sell, "seller"),
      (comboLegsKey "seller", candidateLegKey "market" "yes" .sell)] ∧
    ((∃ comboIds, (findCandidateCombos buyCombo).run redis s.system.shared =
        (some comboIds, s.system.shared) ∧ comboIds.Nodup ∧
        ∀ comboId, comboId ∈ comboIds ↔ Opposing s.operations buyCombo comboId) ↔
      KeysTellApart s.operations buyCombo) := by
  have hplayed : (play registryStep (Guarded StartsApart fun _ _ _ => True) registersInTurn
      noCandidates).map (fun s => (s.underWay, s.system.shared)) =
        some ([], [(candidateLegKey "market" "yes" .sell, "seller"),
          (comboLegsKey "seller", candidateLegKey "market" "yes" .sell)]) := by
    decide +kernel
  obtain ⟨s, hplay, hs⟩ := Option.map_eq_some_iff.mp hplayed
  obtain ⟨hidle, hshared⟩ := Prod.mk.inj hs
  exact ⟨s, hshared, (registry_consistent (Run.of_play _ hplay)).2 hidle buyCombo (by decide)⟩

/-- A combo is registered, and registered again between the commands that remove it. -/
def registersWhileRemoved : List (Action RegistryOperation) :=
  [.start (.register buyCombo), .advance 0, .advance 0,
    .start (.unregister "buyer"), .advance 1, .advance 1,
    .start (.register buyCombo), .advance 2, .advance 2, .advance 1]

/-- The combo stays in the set of its leg, where no removal finds it. And while a combo is registered
for the first time, it is in the set of a leg before its own set is written. -/
theorem registry_orphan : (∃ s : RegistryRun, Reaches registryStep noCandidates s ∧
      s.underWay = [] ∧ (candidateLegKey "market" "yes" .buy, "buyer") ∈ s.system.shared ∧
      (comboLegsKey "buyer", candidateLegKey "market" "yes" .buy) ∉ s.system.shared) ∧
    ∃ s : RegistryRun, Reaches registryStep noCandidates s ∧ s.operations = [.register buyCombo] ∧
      (candidateLegKey "market" "yes" .buy, "buyer") ∈ s.system.shared ∧
      (comboLegsKey "buyer", candidateLegKey "market" "yes" .buy) ∉ s.system.shared := by
  have hmem : (candidateLegKey "market" "yes" .buy, "buyer") ∈
      [(candidateLegKey "market" "yes" .buy, "buyer")] := mem_singleton_self _
  have hnot : (comboLegsKey "buyer", candidateLegKey "market" "yes" .buy) ∉
      [(candidateLegKey "market" "yes" .buy, "buyer")] := by
    decide +kernel
  constructor
  · have hplayed : (play registryStep (fun _ _ => True) registersWhileRemoved noCandidates).map
        (fun s => (s.underWay, s.system.shared)) =
          some ([], [(candidateLegKey "market" "yes" .buy, "buyer")]) := by
      decide +kernel
    obtain ⟨s, hplay, hs⟩ := Option.map_eq_some_iff.mp hplayed
    obtain ⟨hidle, hshared⟩ := Prod.mk.inj hs
    refine ⟨s, Run.of_play _ hplay, hidle, ?_⟩
    rw [hshared]
    exact ⟨hmem, hnot⟩
  · have hplayed : (play registryStep (fun _ _ => True)
        [.start (.register buyCombo), .advance 0] noCandidates).map
        (fun s => (s.operations, s.system.shared)) =
          some ([.register buyCombo], [(candidateLegKey "market" "yes" .buy, "buyer")]) := by
      decide +kernel
    obtain ⟨s, hplay, hs⟩ := Option.map_eq_some_iff.mp hplayed
    obtain ⟨hoperations, hshared⟩ := Prod.mk.inj hs
    refine ⟨s, Run.of_play _ hplay, hoperations, ?_⟩
    rw [hshared]
    exact ⟨hmem, hnot⟩

end LotusRfq.Combo
