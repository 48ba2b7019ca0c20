import LotusRfq.Common.Exposure
import LotusRfq.Common.Js
import LotusRfq.Lib.Labelled
import LotusRfq.Lib.OrderedMap

/-!
# LotusRfq — the registry of netting candidates

For every side of an outcome the registry keeps the set of combos with such a leg, and for every
combo the keys of its sets. Both are sets in Redis, and every command is a request of its own.

* **`legKey_ne_comboLegsKey`**, **`comboLegsKey_injective`** — the two kinds of key, and the keys of
  two combos, are apart;
* **`run_findCandidateCombos`** — what is found: the other members of the opposite sets.
-/

namespace LotusRfq.Combo

open Processes List
open OrderedMap (addNew mem_foldl_addNew delete)

/-! ## Keys -/

structure ComboNettingCandidateLeg where
  id : String
  marketId : String
  outcomeId : String
  side : Side
  deriving DecidableEq

structure ComboNettingCandidateCombo where
  id : String
  legs : List ComboNettingCandidateLeg
  deriving DecidableEq

def sideText : Side → String
  | .buy => "buy"
  | .sell => "sell"

def candidateLegKey (marketId outcomeId : String) (side : Side) : String :=
  "combo_net:leg:" ++ (marketId ++ ":" ++ outcomeId ++ ":" ++ sideText side)

def comboLegsKey (comboId : String) : String := "combo_net:combo:" ++ (comboId ++ ":legs")

/-- `[...new Set(keys)]`. -/
def unique (keys : List String) : List String := keys.foldl addNew []

def ComboNettingCandidateLeg.key (leg : ComboNettingCandidateLeg) : String :=
  candidateLegKey leg.marketId leg.outcomeId leg.side

def ComboNettingCandidateLeg.oppositeKey (leg : ComboNettingCandidateLeg) : String :=
  candidateLegKey leg.marketId leg.outcomeId leg.side.opposite

def uniqueLegKeys (legs : List ComboNettingCandidateLeg) : List String :=
  unique (legs.map (·.key))

def uniqueOppositeKeys (legs : List ComboNettingCandidateLeg) : List String :=
  unique (legs.map (·.oppositeKey))

/-- An id is not empty, a combo has a leg, and nothing else is asked for. -/
def parseCombo (combo : ComboNettingCandidateCombo) : Option ComboNettingCandidateCombo :=
  if combo.id ≠ "" ∧ combo.legs ≠ [] ∧
      ∀ leg ∈ combo.legs, leg.id ≠ "" ∧ leg.marketId ≠ "" ∧ leg.outcomeId ≠ "" then some combo
  else none

theorem parseCombo_eq {combo parsed : ComboNettingCandidateCombo}
    (h : parseCombo combo = some parsed) : parsed = combo := by
  unfold parseCombo at h
  split at h <;> cases h
  rfl

def IsLegKey (key : String) : Prop :=
  ∃ marketId outcomeId side, key = candidateLegKey marketId outcomeId side

theorem ComboNettingCandidateLeg.isLegKey (leg : ComboNettingCandidateLeg) : IsLegKey leg.key :=
  ⟨_, _, _, rfl⟩

variable {key : String} {entry : String × String}

theorem legKey_ne_comboLegsKey (hkey : IsLegKey key) (comboId : String) :
    key ≠ comboLegsKey comboId := by
  obtain ⟨marketId, outcomeId, side, rfl⟩ := hkey
  intro heq
  have hlists := congrArg (fun text => (text.toList)[10]?) heq
  simp [candidateLegKey, comboLegsKey] at hlists

theorem comboLegsKey_injective {left right : String} (h : comboLegsKey left = comboLegsKey right) :
    left = right := by
  unfold comboLegsKey at h
  exact (String.append_left_inj _).mp ((String.append_right_inj _).mp h)

theorem mem_uniqueLegKeys {legs : List ComboNettingCandidateLeg} :
    key ∈ uniqueLegKeys legs ↔ ∃ leg ∈ legs, leg.key = key := by
  unfold uniqueLegKeys unique
  rw [mem_foldl_addNew, mem_map]
  simp

theorem uniqueLegKeys_ne_nil {combo parsed : ComboNettingCandidateCombo}
    (h : parseCombo combo = some parsed) : uniqueLegKeys combo.legs ≠ [] := by
  unfold parseCombo at h
  split at h
  next hvalid =>
    obtain ⟨leg, hleg⟩ := exists_mem_of_ne_nil _ hvalid.2.1
    exact ne_nil_of_mem (mem_uniqueLegKeys.mpr ⟨leg, hleg, rfl⟩)
  next => cases h

theorem mem_uniqueOppositeKeys {legs : List ComboNettingCandidateLeg} :
    key ∈ uniqueOppositeKeys legs ↔ ∃ leg ∈ legs, leg.oppositeKey = key := by
  unfold uniqueOppositeKeys unique
  rw [mem_foldl_addNew, mem_map]
  simp

/-! ## Commands -/

/-- A member of the set under a key; a set without members has no key. -/
abbrev Memberships : Type := List (String × String)

def smembersOf (key : String) (memberships : Memberships) : List String :=
  (memberships.filter fun entry => entry.1 = key).map Prod.snd

variable {memberships : Memberships}

@[simp] theorem mem_smembersOf {member : String} :
    member ∈ smembersOf key memberships ↔ (key, member) ∈ memberships := by
  unfold smembersOf
  simp

inductive RegistryRequest where
  | sadd (key : String) (members : List String)
  | srem (key : String) (member : String)
  | smembers (key : String)
  | del (key : String)

@[reducible] def RegistryRequest.Answer : RegistryRequest → Type
  | .sadd _ _ | .srem _ _ | .del _ => ℕ
  | .smembers _ => List String

/-- A command changes the sets, and counts what it changed. -/
def redis : (e : RegistryRequest) → Memberships → e.Answer × Memberships
  | .sadd key members, memberships =>
    let added := (members.map fun member => (key, member)).foldl addNew memberships
    (added.length - memberships.length, added)
  | .srem key member, memberships =>
    (if (key, member) ∈ memberships then 1 else 0, delete memberships (key, member))
  | .smembers key, memberships => (smembersOf key memberships, memberships)
  | .del key, memberships =>
    (if smembersOf key memberships = [] then 0 else 1,
      memberships.filter fun entry => entry.1 ≠ key)

theorem mem_sadd {members : List String} : entry ∈ (redis (.sadd key members) memberships).2 ↔
      entry ∈ memberships ∨ entry.1 = key ∧ entry.2 ∈ members := by
  show entry ∈ List.foldl _ _ _ ↔ _
  rw [mem_foldl_addNew, mem_map]
  constructor
  · rintro (h | ⟨member, hmember, rfl⟩)
    · exact Or.inl h
    · exact Or.inr ⟨rfl, hmember⟩
  · rintro (h | ⟨hkey, hmember⟩)
    · exact Or.inl h
    · exact Or.inr ⟨entry.2, hmember, by rw [← hkey]⟩

theorem mem_srem {member : String} : entry ∈ (redis (.srem key member) memberships).2 ↔
      entry ∈ memberships ∧ entry ≠ (key, member) := by
  show entry ∈ delete memberships (key, member) ↔ _
  simp [delete]

theorem mem_del :
    entry ∈ (redis (.del key) memberships).2 ↔ entry ∈ memberships ∧ entry.1 ≠ key := by
  show entry ∈ List.filter _ _ ↔ _
  simp

/-! ## Operations -/

abbrev RegistryCode (α : Type) : Type := Code RegistryRequest RegistryRequest.Answer α

structure RegisteredComboCandidate where
  comboId : String
  registeredKeys : List String

structure UnregisterComboCandidateResult where
  comboId : String
  removedFromKeys : List String
  removed : Bool

def saddEach (comboId : String) : List String → RegistryCode Unit
  | [] => pure ()
  | key :: keys => request (RegistryRequest.sadd key [comboId]) >>= fun _ => saddEach comboId keys

/-- The combo is removed from the set of every key; how often it was there. -/
def sremEach (comboId : String) : List String → RegistryCode (List ℕ)
  | [] => pure []
  | key :: keys => do
    let count ← request (RegistryRequest.srem key comboId)
    let counts ← sremEach comboId keys
    return count :: counts

def smembersEach : List String → RegistryCode (List (List String))
  | [] => pure []
  | key :: keys => do
    let members ← request (RegistryRequest.smembers key)
    let groups ← smembersEach keys
    return members :: groups

/-- `none` where the method throws. -/
def registerComboCandidate (combo : ComboNettingCandidateCombo) :
    RegistryCode (Option RegisteredComboCandidate) := do
  match parseCombo combo with
  | none => return none
  | some parsedCombo =>
    let legKeys := uniqueLegKeys parsedCombo.legs
    let reverseKey := comboLegsKey parsedCombo.id
    if legKeys = [] then return none
    else
      saddEach parsedCombo.id legKeys
      let _ ← request (RegistryRequest.sadd reverseKey legKeys)
      return some ⟨parsedCombo.id, legKeys⟩

def unregisterComboCandidate (comboId : String) :
    RegistryCode (Option UnregisterComboCandidateResult) := do
  if !Js.hasText comboId then return none
  else
    let reverseKey := comboLegsKey comboId
    let legKeys : List String ← request (RegistryRequest.smembers reverseKey)
    if legKeys = [] then return some ⟨comboId, [], false⟩
    else
      let removalCounts ← sremEach comboId legKeys
      let _ ← request (RegistryRequest.del reverseKey)
      let removedFromKeys :=
        ((legKeys.zip removalCounts).filter fun (_, count) => 0 < count).map Prod.fst
      return some ⟨comboId, removedFromKeys, removedFromKeys ≠ []⟩

def candidatesOf (comboId : String) (memberGroups : List (List String)) : List String :=
  (memberGroups.flatten.filter fun member => member ≠ comboId).foldl addNew []

def findCandidateCombos (incomingCombo : ComboNettingCandidateCombo) :
    RegistryCode (Option (List String)) := do
  match parseCombo incomingCombo with
  | none => return none
  | some parsedCombo =>
    let oppositeKeys := uniqueOppositeKeys parsedCombo.legs
    if oppositeKeys = [] then return some []
    else
      let memberGroups ← smembersEach oppositeKeys
      return some (candidatesOf parsedCombo.id memberGroups)

/-! ## Alone -/

theorem run_smembersEach (keys : List String) (memberships : Memberships) :
    (smembersEach keys).run redis memberships =
      (keys.map fun key => smembersOf key memberships, memberships) := by
  induction keys with
  | nil => rfl
  | cons key keys ih =>
    show ((smembersEach keys >>= fun groups =>
      pure (smembersOf key memberships :: groups)).run redis memberships) = _
    rw [run_bind, ih]
    rfl

def Found (incomingCombo : ComboNettingCandidateCombo) (memberships : Memberships)
    (comboId : String) : Prop :=
  comboId ≠ incomingCombo.id ∧ ∃ leg ∈ incomingCombo.legs, (leg.oppositeKey, comboId) ∈ memberships

/-- **What is found**, each once, and nothing is changed. -/
theorem run_findCandidateCombos {incomingCombo : ComboNettingCandidateCombo}
    (hparsed : (parseCombo incomingCombo).isSome) (memberships : Memberships) :
    ∃ comboIds, (findCandidateCombos incomingCombo).run redis memberships =
        (some comboIds, memberships) ∧
      comboIds.Nodup ∧ ∀ comboId, comboId ∈ comboIds ↔ Found incomingCombo memberships comboId := by
  obtain ⟨parsedCombo, hparsed⟩ := Option.isSome_iff_exists.mp hparsed
  have hsame := parseCombo_eq hparsed
  subst hsame
  unfold findCandidateCombos
  rw [hparsed]
  by_cases hempty : uniqueOppositeKeys parsedCombo.legs = []
  · refine ⟨[], by simp only [hempty]; rfl, nodup_nil, fun comboId => ?_⟩
    refine ⟨fun h => absurd h not_mem_nil, fun ⟨_, leg, hleg, _⟩ => ?_⟩
    have hkey := mem_uniqueOppositeKeys.mpr ⟨leg, hleg, rfl⟩
    rw [hempty] at hkey
    cases hkey
  · refine ⟨candidatesOf parsedCombo.id ((uniqueOppositeKeys parsedCombo.legs).map fun key =>
      smembersOf key memberships), ?_, ?_, fun comboId => ?_⟩
    · simp only [if_neg hempty]
      rw [run_bind, run_smembersEach]
      rfl
    · exact OrderedMap.nodup_foldl_addNew _ nodup_nil
    · unfold candidatesOf Found
      rw [mem_foldl_addNew, mem_filter, mem_flatten]
      constructor
      · rintro (h | ⟨⟨members, hmembers, hmember⟩, hother⟩)
        · cases h
        · obtain ⟨key, hkey, rfl⟩ := mem_map.mp hmembers
          obtain ⟨leg, hleg, rfl⟩ := mem_uniqueOppositeKeys.mp hkey
          exact ⟨of_decide_eq_true hother, leg, hleg, mem_smembersOf.mp hmember⟩
      · rintro ⟨hother, leg, hleg, hmember⟩
        refine Or.inr ⟨⟨_, mem_map.mpr ⟨leg.oppositeKey, ?_, rfl⟩, ?_⟩, decide_eq_true hother⟩
        · exact mem_uniqueOppositeKeys.mpr ⟨leg, hleg, rfl⟩
        · exact mem_smembersOf.mpr hmember

end LotusRfq.Combo
