import LotusRfq.Combo.AttemptNet

/-!
# LotusRfq — what internal netting conserves

A netting moves one amount: off both legs of every pair it nets, and into the pair's match row.
The group of the two combos takes the amount once, however many pairs there are: its size is in
units of the package, and the sum of its match rows is more by the number of pairs.

* **`netPairs_legs`**, **`netPairs_matchedSum`** — what the pairs lose and their rows gain;
* **`executeNettingTransaction_conserves`** — a committed netting keeps the tables sound;
* **`attemptNet_conserves`** — along every run of calls.
-/

namespace LotusRfq.Combo

open Tables Calls Transitions List

/-! ## Recorded sizes -/

/-- The sizes of the match rows of certain pairs. -/
def matchedSum (db : ComboDb) (among : String × String × String → Bool) : ℚ :=
  (db.matchLegs.map fun row => if among row.pair then row.matched_size else 0).sum

/-- A match row is for a leg on either of its sides. -/
def involves (legId : String) (pair : String × String × String) : Bool :=
  pair.2.1 = legId ∨ pair.2.2 = legId

def inGroup (groupId : String) (pair : String × String × String) : Bool := pair.1 = groupId

/-- What the applications of a group have taken, each counted `weight` times. -/
def appliedSum (db : ComboDb) (weight : NettingEventRow → ℚ) (groupId : String) : ℚ :=
  (db.events.map fun event =>
    if event.netting_group_id = groupId then weight event * event.payload.matchedSize else 0).sum

structure NettingSound (db : ComboDb) : Prop where
  conserved : ∀ leg ∈ db.legs,
    leg.size = leg.remaining_size + matchedSum db (involves leg.id)
  nonneg : ∀ leg ∈ db.legs, 0 ≤ leg.remaining_size
  group_size : ∀ group ∈ db.groups, group.matched_size = appliedSum db (fun _ => 1) group.id
  group_legs : ∀ group ∈ db.groups, matchedSum db (inGroup group.id) =
    appliedSum db (fun event => event.payload.matchedLegPairs.length) group.id
  executed_iff : ∀ combo ∈ db.combos, combo.state = .EXECUTED ↔
    ∀ leg ∈ db.legs, leg.combo_rfq_id = combo.id → leg.remaining_size = 0

structure NettingKeyed (db : ComboDb) : Prop where
  combos : (db.combos.map ComboRow.id).Nodup
  legs : (db.legs.map LegRow.id).Nodup
  group_pairs : (db.groups.map NettingGroupRow.pair).Nodup
  group_ids : (db.groups.map NettingGroupRow.id).Nodup
  match_pairs : (db.matchLegs.map MatchLegRow.pair).Nodup
  match_groups : ∀ row ∈ db.matchLegs, row.netting_group_id ∈ db.groups.map NettingGroupRow.id
  event_groups : ∀ event ∈ db.events, event.netting_group_id ∈ db.groups.map NettingGroupRow.id

/-! ## The legs -/

def MatchedPair.legIds (pair : MatchedPair) : List String :=
  [pair.incomingLeg.id, pair.candidateLeg.id]

def takeOff (ids : List String) (amount : ℚ) (leg : LegRow) : LegRow :=
  if leg.id ∈ ids then { leg with remaining_size := leg.remaining_size - amount } else leg

open MatchedPair (legIds)

section TakeOff

variable {ids ids' : List String} {amount : ℚ} {leg : LegRow}

@[simp] theorem takeOff_id : (takeOff ids amount leg).id = leg.id := by
  unfold takeOff
  split <;> rfl

@[simp] theorem takeOff_size : (takeOff ids amount leg).size = leg.size := by
  unfold takeOff
  split <;> rfl

@[simp] theorem takeOff_combo : (takeOff ids amount leg).combo_rfq_id = leg.combo_rfq_id := by
  unfold takeOff
  split <;> rfl

theorem takeOff_of_mem (h : leg.id ∈ ids) :
    (takeOff ids amount leg).remaining_size = leg.remaining_size - amount := by
  rw [takeOff, if_pos h]

theorem takeOff_of_not_mem (h : leg.id ∉ ids) : takeOff ids amount leg = leg := by
  rw [takeOff, if_neg h]

theorem takeOff_takeOff (h : ∀ id ∈ ids, id ∉ ids') :
    takeOff ids' amount (takeOff ids amount leg) = takeOff (ids ++ ids') amount leg := by
  by_cases hmem : leg.id ∈ ids
  · rw [takeOff_of_not_mem (by simpa using h _ hmem), takeOff, takeOff, if_pos hmem,
      if_pos (mem_append_left _ hmem)]
  · rw [takeOff_of_not_mem hmem]
    simp [takeOff, hmem]

theorem update_eq_takeOff {legs : List LegRow} (hids : (legs.map LegRow.id).Nodup)
    (hleg : leg ∈ legs) :
    Tables.update LegRow.id leg.id
      (fun row => { row with remaining_size := leg.remaining_size - amount }) legs =
      legs.map (takeOff [leg.id] amount) := by
  refine map_congr_left fun row hrow => ?_
  by_cases hid : row.id = leg.id
  · rw [if_pos hid, takeOff, if_pos (mem_singleton.mpr hid), eq_of_key hids hrow hleg hid]
  · rw [if_neg hid, takeOff_of_not_mem (by simpa using hid)]

theorem mem_map_takeOff {legs : List LegRow} (hleg : leg ∈ legs) (hid : leg.id ∉ ids) :
    leg ∈ legs.map (takeOff ids amount) :=
  mem_map.mpr ⟨leg, hleg, takeOff_of_not_mem hid⟩

theorem map_id_takeOff (legs : List LegRow) :
    (legs.map (takeOff ids amount)).map LegRow.id = legs.map LegRow.id := by
  rw [map_map]
  exact map_congr_left fun _ _ => takeOff_id

end TakeOff

section NetPairs

variable {db db' : ComboDb} {groupId : String} {amount : ℚ}

/-- **The pairs lose their size**, each leg once. -/
theorem netPairs_legs {pairs : List MatchedPair} (hids : (db.legs.map LegRow.id).Nodup)
    (hread : ∀ pair ∈ pairs, pair.incomingLeg ∈ db.legs ∧ pair.candidateLeg ∈ db.legs)
    (hdistinct : (pairs.flatMap legIds).Nodup)
    (h : netPairs groupId amount pairs db = .ok db') :
    db'.legs = db.legs.map (takeOff (pairs.flatMap legIds) amount) := by
  induction pairs generalizing db with
  | nil =>
    rw [netPairs, Except.ok.injEq] at h
    subst h
    have hnone : ∀ leg ∈ db.legs, takeOff [] amount leg = leg :=
      fun leg _ => takeOff_of_not_mem not_mem_nil
    rw [flatMap_nil, map_congr_left hnone, map_id']
  | cons pair rest ih =>
    obtain ⟨db₁, hmatch, h⟩ := bind_eq_ok.mp h
    obtain ⟨db₂, hincoming, h⟩ := bind_eq_ok.mp h
    obtain ⟨db₃, hcandidate, h⟩ := bind_eq_ok.mp h
    rw [flatMap_cons, nodup_append] at hdistinct
    obtain ⟨hpair, hrest, hapart⟩ := hdistinct
    have hne : pair.candidateLeg.id ∉ [pair.incomingLeg.id] := by
      rw [legIds, nodup_cons] at hpair
      intro hmem
      exact hpair.1 (mem_singleton.mpr (mem_singleton.mp hmem).symm)
    obtain ⟨hincomingLeg, hcandidateLeg⟩ := hread pair mem_cons_self
    have h₁ : db₁.legs = db.legs := by rw [(upsertMatchedLeg_ok hmatch).2]
    have h₂ : db₂.legs = db.legs.map (takeOff [pair.incomingLeg.id] amount) := by
      rw [(updateLeg_ok hincoming).2, h₁]
      exact update_eq_takeOff hids hincomingLeg
    have h₃ : db₃.legs = db.legs.map (takeOff pair.legIds amount) := by
      rw [(updateLeg_ok hcandidate).2, h₂]
      show Tables.update _ _ _ _ = _
      rw [update_eq_takeOff (by rwa [map_id_takeOff]) (mem_map_takeOff hcandidateLeg hne),
        map_map]
      refine map_congr_left fun leg _ => takeOff_takeOff fun id hid => ?_
      rw [mem_singleton.mp hid, mem_singleton]
      exact fun heq => hne (mem_singleton.mpr heq.symm)
    -- the legs of the other pairs are as they were read
    have hstill : ∀ other ∈ rest, other.incomingLeg ∈ db₃.legs ∧ other.candidateLeg ∈ db₃.legs := by
      intro other hother
      have hid : ∀ id ∈ other.legIds, id ∉ pair.legIds := fun id hid hmem =>
        hapart id hmem id (mem_flatMap.mpr ⟨other, hother, hid⟩) rfl
      obtain ⟨hin, hcand⟩ := hread other (mem_cons_of_mem _ hother)
      rw [h₃]
      exact ⟨mem_map_takeOff hin (hid _ (by simp [legIds])),
        mem_map_takeOff hcand (hid _ (by simp [legIds]))⟩
    rw [ih (by rwa [h₃, map_id_takeOff]) hstill hrest h, h₃, map_map, flatMap_cons]
    exact map_congr_left fun leg _ =>
      takeOff_takeOff fun id hid hmem => hapart id hid id hmem rfl

/-- **The match rows gain it**, each pair's own. -/
theorem netPairs_matchedSum {pairs : List MatchedPair}
    (hkeys : (db.matchLegs.map MatchLegRow.pair).Nodup)
    (h : netPairs groupId amount pairs db = .ok db') :
    (db'.matchLegs.map MatchLegRow.pair).Nodup ∧
      (∀ row ∈ db'.matchLegs, row.netting_group_id = groupId ∨
        row.netting_group_id ∈ db.matchLegs.map MatchLegRow.netting_group_id) ∧
      ∀ among, matchedSum db' among = matchedSum db among + (pairs.map fun pair =>
        if among (groupId, pair.incomingLeg.id, pair.candidateLeg.id) then amount
        else 0).sum := by
  induction pairs generalizing db with
  | nil =>
    cases h
    exact ⟨hkeys, fun row hrow => .inr (mem_map_of_mem hrow), fun among => by simp⟩
  | cons pair rest ih =>
    obtain ⟨db₁, hmatch, h⟩ := bind_eq_ok.mp h
    obtain ⟨db₂, hincoming, h⟩ := bind_eq_ok.mp h
    obtain ⟨db₃, hcandidate, h⟩ := bind_eq_ok.mp h
    have h₃ : db₃.matchLegs = db₁.matchLegs := by
      rw [(updateLeg_ok hcandidate).2, (updateLeg_ok hincoming).2]
    have h₁ := (upsertMatchedLeg_ok hmatch).2
    have hkeys₃ : (db₃.matchLegs.map MatchLegRow.pair).Nodup := by
      rw [h₃, h₁]
      refine nodup_keys_upsert ?_ hkeys
      exact fun _ => rfl
    obtain ⟨hkeys', hgroups, hsum⟩ := ih hkeys₃ h
    refine ⟨hkeys', fun row hrow => ?_, fun among => ?_⟩
    · rcases hgroups row hrow with heq | hold
      · exact .inl heq
      · obtain ⟨old, hold, heq⟩ := mem_map.mp hold
        rw [h₃, h₁] at hold
        rcases mem_upsert hold with ⟨rfl, -⟩ | ⟨older, hmem, -, rfl⟩ | ⟨hmem, -⟩
        · exact .inl heq.symm
        · exact .inr (mem_map.mpr ⟨older, hmem, heq⟩)
        · exact .inr (mem_map.mpr ⟨old, hmem, heq⟩)
    · have hadded : matchedSum db₃ among = matchedSum db among +
          if among (groupId, pair.incomingLeg.id, pair.candidateLeg.id) then amount
          else 0 := by
        rw [matchedSum, h₃, h₁, matchedSum]
        refine sum_upsert hkeys fun old hpair => ?_
        simp only [hpair]
        show (if among (MatchLegRow.pair old) then old.matched_size + amount else 0) = _
        rw [hpair]
        split <;> simp [matchLegOf]
      rw [hsum, hadded, map_cons, sum_cons, add_assoc]

end NetPairs

/-! ## What the transaction has read -/

variable {paired : List MatchedPair} {db : ComboDb}
  {incomingId candidateId : String} {amount : ℚ} {db' : ComboDb} {env : NettingEnv}
  {isSafe : Except String Bool} {uuid : ℕ → String}

theorem resolveAuthoritativeMatchedPairs_ok {incoming candidate : LoadedCombo}
    {pairs : List MatchedLegPair}
    (h : resolveAuthoritativeMatchedPairs incoming candidate pairs = .ok paired) :
    paired.map (fun pair => pair.incomingLeg.id) = pairs.map MatchedLegPair.incomingLegId ∧
      paired.map (fun pair => pair.candidateLeg.id) =
        pairs.map MatchedLegPair.candidateLegId ∧
      ∀ pair ∈ paired, pair.incomingLeg ∈ incoming.legs ∧
        pair.candidateLeg ∈ candidate.legs ∧
        pair.nettableSize = min pair.incomingLeg.remaining_size
          pair.candidateLeg.remaining_size := by
  induction pairs generalizing paired with
  | nil => cases h; simp
  | cons pair rest ih =>
    rw [resolveAuthoritativeMatchedPairs] at h
    split at h
    next incomingLeg candidateLeg hincoming hcandidate =>
      split at h
      next price _ _ =>
        cases hrest : resolveAuthoritativeMatchedPairs incoming candidate rest with
        | error error => simp [hrest, Except.map] at h
        | ok matched =>
          simp only [hrest, Except.map, Except.ok.injEq] at h
          subst h
          obtain ⟨hincomingIds, hcandidateIds, hread⟩ := ih hrest
          have hin : incomingLeg.id = pair.incomingLegId := by
            simpa using find?_some hincoming
          have hcand : candidateLeg.id = pair.candidateLegId := by
            simpa using find?_some hcandidate
          refine ⟨by simp [hincomingIds, hin], by simp [hcandidateIds, hcand], ?_⟩
          intro matchedPair hmem
          rcases mem_cons.mp hmem with rfl | hmem
          · exact ⟨mem_of_find?_eq_some hincoming, mem_of_find?_eq_some hcandidate, rfl⟩
          · exact hread matchedPair hmem
      next => cases h
    next => cases h

/-- The pairs as they were read: every leg is in one pair at most and has the size. -/
structure PairsRead (db : ComboDb) (incomingComboId candidateComboId : String)
    (matchedPairs : List MatchedPair) (amount : ℚ) : Prop where
  incoming : ∀ pair ∈ matchedPairs, pair.incomingLeg ∈ db.legs ∧
    pair.incomingLeg.combo_rfq_id = incomingComboId ∧ amount ≤ pair.incomingLeg.remaining_size
  candidate : ∀ pair ∈ matchedPairs, pair.candidateLeg ∈ db.legs ∧
    pair.candidateLeg.combo_rfq_id = candidateComboId ∧
    amount ≤ pair.candidateLeg.remaining_size
  distinct : (matchedPairs.flatMap legIds).Nodup

theorem NettingChecked.sizes {incoming candidate : LoadedCombo}
    (h : NettingChecked db incomingId candidateId incoming candidate paired
      amount) :
    (∀ pair ∈ paired, pair.incomingLeg ∈ db.legs ∧
      pair.incomingLeg.combo_rfq_id = incomingId ∧
      amount ≤ pair.incomingLeg.remaining_size) ∧
    (∀ pair ∈ paired, pair.candidateLeg ∈ db.legs ∧
      pair.candidateLeg.combo_rfq_id = candidateId ∧
      amount ≤ pair.candidateLeg.remaining_size) ∧
    ∃ pair ∈ paired, amount = min pair.incomingLeg.remaining_size
      pair.candidateLeg.remaining_size := by
  obtain ⟨pairs, maxNettableSize, -, hresolve⟩ := h.pairs
  obtain ⟨-, -, hread⟩ := resolveAuthoritativeMatchedPairs_ok hresolve
  obtain ⟨hleast, hmin⟩ := min?_eq_some_iff.mp h.size
  have hsize : ∀ pair ∈ paired, amount ≤ pair.incomingLeg.remaining_size ∧
      amount ≤ pair.candidateLeg.remaining_size := by
    intro pair hpair
    have hmin := hmin _ (mem_map_of_mem hpair)
    rw [(hread pair hpair).2.2] at hmin
    exact le_min_iff.mp hmin
  refine ⟨fun pair hpair => ?_, fun pair hpair => ?_, ?_⟩
  · obtain ⟨hmem, hcombo⟩ :=
      mem_selectLegs.mp ((loadCombo_some h.loaded_incoming).2.2 ▸ (hread pair hpair).1)
    exact ⟨hmem, hcombo, (hsize pair hpair).1⟩
  · obtain ⟨hmem, hcombo⟩ :=
      mem_selectLegs.mp ((loadCombo_some h.loaded_candidate).2.2 ▸ (hread pair hpair).2.1)
    exact ⟨hmem, hcombo, (hsize pair hpair).2⟩
  · obtain ⟨pair, hpair, rfl⟩ := mem_map.mp hleast
    exact ⟨pair, hpair, (hread pair hpair).2.2⟩

theorem NettingChecked.read {incoming candidate : LoadedCombo}
    (h : NettingChecked db incomingId candidateId incoming candidate paired
      amount) (hids : (db.legs.map LegRow.id).Nodup)
    (hdistinct : incomingId ≠ candidateId) :
    PairsRead db incomingId candidateId paired amount := by
  obtain ⟨pairs, maxNettableSize, hevaluate, hresolve⟩ := h.pairs
  obtain ⟨hincomingIds, hcandidateIds, -⟩ := resolveAuthoritativeMatchedPairs_ok hresolve
  have hlegIds : ((toCompatibilityInput incoming).legs.map CompatibilityLeg.id).Nodup := by
    have hselected : ((selectLegs db incomingId).map LegRow.id).Nodup := by
      refine ((perm_insertionSort _ _).map LegRow.id).nodup_iff.mpr ?_
      exact (filter_sublist.map LegRow.id).nodup hids
    rw [toCompatibilityInput, map_map, (loadCombo_some h.loaded_incoming).2.2]
    exact (filter_sublist.map LegRow.id).nodup hselected
  obtain ⟨-, hincomingNodup, hcandidateNodup⟩ := evaluate_compatible hlegIds hevaluate
  rw [← hincomingIds] at hincomingNodup
  rw [← hcandidateIds] at hcandidateNodup
  obtain ⟨hin, hcand, -⟩ := h.sizes
  -- legs of different combos are different legs
  have hapart : ∀ pair ∈ paired, ∀ pair' ∈ paired,
      pair.incomingLeg.id ≠ pair'.candidateLeg.id := by
    intro pair hpair pair' hpair' heq
    have hsame := eq_of_key hids (hin pair hpair).1 (hcand pair' hpair').1 heq
    apply hdistinct
    rw [← (hin pair hpair).2.1, hsame, (hcand pair' hpair').2.1]
  refine ⟨hin, hcand, nodup_flatMap.mpr ⟨fun pair hpair => ?_, ?_⟩⟩
  · rw [legIds, nodup_cons]
    exact ⟨fun hmem => hapart pair hpair pair hpair (mem_singleton.mp hmem),
      nodup_singleton _⟩
  · rw [List.Nodup, pairwise_map] at hincomingNodup hcandidateNodup
    refine (hincomingNodup.and hcandidateNodup).imp_of_mem fun {pair pair'} hpair hpair' hne => ?_
    refine disjoint_left.mpr fun id hid hid' => ?_
    simp only [legIds, mem_cons, not_mem_nil, or_false] at hid hid'
    rcases hid with rfl | rfl <;> rcases hid' with heq | heq
    · exact hne.1 heq
    · exact hapart pair hpair pair' hpair' heq
    · exact hapart pair' hpair' pair hpair heq.symm
    · exact hne.2 heq

/-! ## What the transaction leaves -/

/-- A netting as the tables show it: one amount off both legs of every pair and into the pair's
match row. -/
structure Nets (db db' : ComboDb) (nettingGroupId : String) (matchedPairs : List MatchedPair)
    (amount : ℚ) : Prop where
  positive : 0 < amount
  distinct : (matchedPairs.flatMap legIds).Nodup
  legs : db'.legs = db.legs.map (takeOff (matchedPairs.flatMap legIds) amount)
  rows : ∀ among, matchedSum db' among = matchedSum db among + (matchedPairs.map fun pair =>
    if among (nettingGroupId, pair.incomingLeg.id, pair.candidateLeg.id) then amount else 0).sum

theorem sum_involves (hdistinct : (paired.flatMap legIds).Nodup)
    (groupId legId : String) :
    (paired.map fun pair =>
      if involves legId (groupId, pair.incomingLeg.id, pair.candidateLeg.id) then amount
      else 0).sum = if legId ∈ paired.flatMap legIds then amount else 0 := by
  induction paired with
  | nil => simp
  | cons pair rest ih =>
    rw [flatMap_cons, nodup_append] at hdistinct
    obtain ⟨-, hrest, hapart⟩ := hdistinct
    have hmem : involves legId (groupId, pair.incomingLeg.id, pair.candidateLeg.id) = true ↔
        legId ∈ pair.legIds := by
      simp [involves, legIds, @eq_comm _ legId]
    rw [map_cons, sum_cons, ih hrest, flatMap_cons]
    simp only [hmem, mem_append]
    by_cases hpair : legId ∈ pair.legIds
    · have hnot : legId ∉ rest.flatMap legIds :=
        fun h => hapart legId hpair legId h rfl
      rw [if_pos hpair, if_neg hnot, if_pos (.inl hpair), add_zero]
    · simp [hpair]

theorem Nets.matched {groupId : String}
    (h : Nets db db' groupId paired amount) (legId : String) :
    matchedSum db' (involves legId) = matchedSum db (involves legId) +
      if legId ∈ paired.flatMap legIds then amount else 0 := by
  rw [h.rows, sum_involves h.distinct]

section Written

variable {db db' : ComboDb} {incomingId candidateId : String}
  {incoming candidate : LoadedCombo} {paired : List MatchedPair} {amount : ℚ}
  {groupId newId : String}

theorem NettingWritten.legs (hids : (db.legs.map LegRow.id).Nodup)
    (hread : PairsRead db incomingId candidateId paired amount)
    (h : NettingWritten db db' incoming candidate paired amount groupId newId) :
    db'.legs = db.legs.map (takeOff (paired.flatMap legIds) amount) := by
  obtain ⟨before, after, hlegs, -, hpairs, hlegs', -⟩ := h.pairs
  have hfrom : ∀ pair ∈ paired,
      pair.incomingLeg ∈ before.legs ∧ pair.candidateLeg ∈ before.legs := fun pair hpair =>
    hlegs ▸ ⟨(hread.incoming pair hpair).1, (hread.candidate pair hpair).1⟩
  rw [hlegs', netPairs_legs (hlegs ▸ hids) hfrom hread.distinct hpairs, hlegs]

theorem NettingWritten.nets (hkeyed : NettingKeyed db) (hpositive : 0 < amount)
    (hread : PairsRead db incomingId candidateId paired amount)
    (h : NettingWritten db db' incoming candidate paired amount groupId newId) :
    Nets db db' groupId paired amount ∧
      (db'.matchLegs.map MatchLegRow.pair).Nodup ∧
      ∀ row ∈ db'.matchLegs, row.netting_group_id = groupId ∨
        row.netting_group_id ∈ db.matchLegs.map MatchLegRow.netting_group_id := by
  obtain ⟨before, after, -, hmatchLegs, hpairs, -, hmatchLegs'⟩ := h.pairs
  obtain ⟨hkeys, hgroups, hsum⟩ := netPairs_matchedSum (hmatchLegs ▸ hkeyed.match_pairs) hpairs
  refine ⟨⟨hpositive, hread.distinct, h.legs hkeyed.legs hread, fun among => ?_⟩,
    hmatchLegs' ▸ hkeys, ?_⟩
  · have h' := hsum among
    rw [matchedSum, matchedSum, hmatchLegs] at h'
    rw [matchedSum, hmatchLegs', h', matchedSum]
  · rw [hmatchLegs']
    rwa [hmatchLegs] at hgroups

theorem Nets.leg_of_mem (h : Nets db db' groupId paired amount) {leg' : LegRow}
    (hleg : leg' ∈ db'.legs) : ∃ leg ∈ db.legs,
      leg' = takeOff (paired.flatMap legIds) amount leg := by
  rw [h.legs] at hleg
  obtain ⟨leg, hmem, rfl⟩ := mem_map.mp hleg
  exact ⟨leg, hmem, rfl⟩

theorem PairsRead.of_mem (h : PairsRead db incomingId candidateId paired amount)
    (hids : (db.legs.map LegRow.id).Nodup) {leg : LegRow} (hleg : leg ∈ db.legs)
    (hmem : leg.id ∈ paired.flatMap legIds) :
    (leg.combo_rfq_id = incomingId ∨ leg.combo_rfq_id = candidateId) ∧
      amount ≤ leg.remaining_size := by
  obtain ⟨pair, hpair, hid⟩ := mem_flatMap.mp hmem
  simp only [legIds, mem_cons, not_mem_nil, or_false] at hid
  rcases hid with heq | heq
  · obtain ⟨hmem', hcombo, hle⟩ := h.incoming pair hpair
    rw [eq_of_key hids hleg hmem' heq]
    exact ⟨.inl hcombo, hle⟩
  · obtain ⟨hmem', hcombo, hle⟩ := h.candidate pair hpair
    rw [eq_of_key hids hleg hmem' heq]
    exact ⟨.inr hcombo, hle⟩

theorem Nets.conserved (hsound : NettingSound db)
    (h : Nets db db' groupId paired amount) :
    ∀ leg ∈ db'.legs, leg.size = leg.remaining_size + matchedSum db' (involves leg.id) := by
  intro leg' hleg
  obtain ⟨leg, hmem, rfl⟩ := h.leg_of_mem hleg
  have hbefore := hsound.conserved leg hmem
  rw [takeOff_size, takeOff_id, h.matched]
  by_cases hid : leg.id ∈ paired.flatMap legIds
  · rw [takeOff_of_mem hid, if_pos hid]
    linarith
  · rw [takeOff_of_not_mem hid, if_neg hid, add_zero]
    exact hbefore

theorem Nets.nonneg (hkeyed : NettingKeyed db) (hsound : NettingSound db)
    (hread : PairsRead db incomingId candidateId paired amount)
    (h : Nets db db' groupId paired amount) :
    ∀ leg ∈ db'.legs, 0 ≤ leg.remaining_size := by
  intro leg' hleg
  obtain ⟨leg, hmem, rfl⟩ := h.leg_of_mem hleg
  by_cases hid : leg.id ∈ paired.flatMap legIds
  · rw [takeOff_of_mem hid]
    exact sub_nonneg.mpr (hread.of_mem hkeyed.legs hmem hid).2
  · rw [takeOff_of_not_mem hid]
    exact hsound.nonneg leg hmem

/-! ### Groups -/

theorem NettingWritten.id_iff (hkeyed : NettingKeyed db)
    (h : NettingWritten db db' incoming candidate paired amount groupId newId) :
    (db'.groups.map NettingGroupRow.pair).Nodup ∧ (db'.groups.map NettingGroupRow.id).Nodup ∧
      ∀ group ∈ db'.groups, group.id = groupId ↔
        group.pair = (incoming.row.id, candidate.row.id) := by
  have hpairs : (db'.groups.map NettingGroupRow.pair).Nodup := by
    rw [h.groups]
    refine nodup_keys_upsert ?_ hkeyed.group_pairs
    exact fun _ => rfl
  have hids : (db'.groups.map NettingGroupRow.id).Nodup := by
    rw [h.groups, upsert]
    split
    next hnone =>
      rw [map_append, nodup_append]
      refine ⟨hkeyed.group_ids, nodup_singleton _, fun id hid id' hid' => ?_⟩
      obtain ⟨group, hmem, rfl⟩ := mem_map.mp hid
      rw [mem_singleton.mp hid']
      exact h.new_group hnone group hmem
    next =>
      rw [map_update _ _ _]
      · exact hkeyed.group_ids
      · exact fun _ => rfl
  refine ⟨hpairs, hids, fun group hgroup => ?_⟩
  obtain ⟨written, hselect, hid⟩ := Option.map_eq_some_iff.mp h.group
  obtain ⟨hwritten, hpair⟩ := mem_of_select hselect
  constructor
  · intro heq
    rw [eq_of_key hids hgroup hwritten (heq.trans hid.symm), hpair]
  · intro heq
    rw [eq_of_key hpairs hgroup hwritten (heq.trans hpair.symm), hid]

/-- The application counts once for the group, and its size once for each of its pairs. -/
theorem NettingWritten.applied
    (h : NettingWritten db db' incoming candidate paired amount nettingGroupId newId) :
    (∀ groupId, appliedSum db' (fun _ => 1) groupId = appliedSum db (fun _ => 1) groupId +
      if nettingGroupId = groupId then amount else 0) ∧
      ∀ groupId, appliedSum db' (fun event => event.payload.matchedLegPairs.length) groupId =
        appliedSum db (fun event => event.payload.matchedLegPairs.length) groupId +
          if nettingGroupId = groupId then paired.length * amount else 0 := by
  obtain ⟨event, hevents, hgroup, hsize, hlength⟩ := h.events
  constructor <;> intro groupId <;>
    simp [appliedSum, hevents, hgroup, hsize, hlength]

theorem NettingWritten.group_before (hkeyed : NettingKeyed db) (hsound : NettingSound db)
    (h : NettingWritten db db' incoming candidate paired amount groupId newId)
    {group : NettingGroupRow} (hgroup : group ∈ db'.groups) :
    group.matched_size = appliedSum db (fun _ => 1) group.id +
        (if groupId = group.id then amount else 0) ∧
      matchedSum db (inGroup group.id) =
        appliedSum db (fun event => event.payload.matchedLegPairs.length) group.id := by
  have hid := (h.id_iff hkeyed).2.2 group hgroup
  rw [h.groups] at hgroup
  rcases mem_upsert hgroup with ⟨rfl, hnone⟩ | ⟨old, hold, hpair, rfl⟩ | ⟨hold, hpair⟩
  · -- nothing is recorded under the id of a new group
    have hnew := h.new_group (select_eq_none.mpr hnone)
    have hevents : ∀ weight, appliedSum db weight newId = 0 := by
      intro weight
      refine sum_eq_zero fun size hsize => ?_
      obtain ⟨event, hevent, rfl⟩ := mem_map.mp hsize
      obtain ⟨old, hold, heq⟩ := mem_map.mp (hkeyed.event_groups event hevent)
      rw [if_neg (heq ▸ hnew old hold)]
    have hrows : matchedSum db (inGroup newId) = 0 := by
      refine sum_eq_zero fun size hsize => ?_
      obtain ⟨row, hrow, rfl⟩ := mem_map.mp hsize
      obtain ⟨old, hold, heq⟩ := mem_map.mp (hkeyed.match_groups row hrow)
      have hne : row.netting_group_id ≠ newId := heq ▸ hnew old hold
      exact if_neg fun heq => hne (of_decide_eq_true heq)
    have hwritten : newId = groupId := hid.mpr rfl
    exact ⟨by rw [hevents, if_pos hwritten.symm, zero_add], hrows.trans (hevents _).symm⟩
  · have hwritten : old.id = groupId := hid.mpr hpair
    refine ⟨?_, hsound.group_legs old hold⟩
    rw [if_pos hwritten.symm]
    exact congrArg (· + amount) (hsound.group_size old hold)
  · have hne : group.id ≠ groupId := fun heq => hpair (hid.mp heq)
    exact ⟨by rw [if_neg hne.symm, add_zero, hsound.group_size group hold],
      hsound.group_legs group hold⟩

/-! ### Combos -/

theorem deriveComboState_eq_executed {legs : List LegRow}
    (hnonneg : ∀ leg ∈ legs, 0 ≤ leg.remaining_size) :
    deriveComboState legs = .EXECUTED ↔ ∀ leg ∈ legs, leg.remaining_size = 0 := by
  unfold deriveComboState
  split
  next hleft =>
    obtain ⟨leg, hleg, hpos⟩ := hleft
    exact iff_of_false nofun fun hzero => hpos.ne' (hzero leg hleg)
  next hnone =>
    push Not at hnone
    exact iff_of_true rfl fun leg hleg => le_antisymm (hnone leg hleg) (hnonneg leg hleg)

theorem NettingWritten.executed_iff (hkeyed : NettingKeyed db) (hsound : NettingSound db)
    (hincoming : incoming.row.id = incomingId)
    (hcandidate : candidate.row.id = candidateId)
    (hread : PairsRead db incomingId candidateId paired amount)
    (hnets : Nets db db' groupId paired amount)
    (h : NettingWritten db db' incoming candidate paired amount groupId newId) :
    ∀ combo ∈ db'.combos, combo.state = .EXECUTED ↔
      ∀ leg ∈ db'.legs, leg.combo_rfq_id = combo.id → leg.remaining_size = 0 := by
  have hnonneg := hnets.nonneg hkeyed hsound hread
  have hderived : ∀ comboId, deriveComboState (selectLegs db' comboId) = .EXECUTED ↔
      ∀ leg ∈ db'.legs, leg.combo_rfq_id = comboId → leg.remaining_size = 0 := by
    intro comboId
    rw [deriveComboState_eq_executed fun leg hleg => hnonneg leg (mem_selectLegs.mp hleg).1]
    simp only [mem_selectLegs, and_imp]
  intro combo hcombo
  rw [h.combos] at hcombo
  rcases mem_update.mp hcombo with ⟨row, -, hid, rfl⟩ | ⟨hcombo, hne⟩
  · have heq : row.id = candidate.row.id := by simpa using hid
    simp only [heq]
    exact hderived _
  rcases mem_update.mp hcombo with ⟨row, -, hid, rfl⟩ | ⟨hcombo, hne'⟩
  · have heq : row.id = incoming.row.id := by simpa using hid
    simp only [heq]
    exact hderived _
  · -- the legs of another combo are as they were
    rw [hsound.executed_iff combo hcombo, hnets.legs]
    have hother : ∀ leg ∈ db.legs, leg.combo_rfq_id = combo.id →
        takeOff (paired.flatMap legIds) amount leg = leg := by
      intro leg hleg hcomboId
      refine takeOff_of_not_mem fun hmem => ?_
      rcases (hread.of_mem hkeyed.legs hleg hmem).1 with heq | heq
      · exact hne' (hcomboId ▸ heq.trans hincoming.symm)
      · exact hne (hcomboId ▸ heq.trans hcandidate.symm)
    constructor
    · intro hzero leg' hleg' hcomboId
      obtain ⟨leg, hleg, rfl⟩ := mem_map.mp hleg'
      rw [takeOff_combo] at hcomboId
      rw [hother leg hleg hcomboId]
      exact hzero leg hleg hcomboId
    · intro hzero leg hleg hcomboId
      rw [← hother leg hleg hcomboId]
      exact hzero _ (mem_map_of_mem hleg) (takeOff_combo.trans hcomboId)

theorem NettingWritten.keyed (hkeyed : NettingKeyed db)
    (hchecked : NettingChecked db incomingId candidateId incoming candidate paired
      amount)
    (h : NettingWritten db db' incoming candidate paired amount groupId newId) :
    NettingKeyed db' ∧ Nets db db' groupId paired amount ∧
      PairsRead db incomingId candidateId paired amount := by
  have hdistinct : incomingId ≠ candidateId := by
    rw [← (loadCombo_some hchecked.loaded_incoming).2.1,
      ← (loadCombo_some hchecked.loaded_candidate).2.1]
    exact h.distinct
  have hread := hchecked.read hkeyed.legs hdistinct
  obtain ⟨hnets, hmatchPairs, hmatchGroups⟩ := h.nets hkeyed hchecked.positive hread
  obtain ⟨hgroupPairs, hgroupIds, -⟩ := h.id_iff hkeyed
  have hgroup : groupId ∈ db'.groups.map NettingGroupRow.id := by
    obtain ⟨group, hselect, heq⟩ := Option.map_eq_some_iff.mp h.group
    exact heq ▸ mem_map_of_mem (mem_of_select hselect).1
  have hkept : ∀ id ∈ db.groups.map NettingGroupRow.id,
      id ∈ db'.groups.map NettingGroupRow.id := by
    intro id hmem
    rw [h.groups, upsert]
    split
    next => rw [map_append]; exact mem_append_left _ hmem
    next =>
      rw [map_update _ _ _]
      · exact hmem
      · exact fun _ => rfl
  refine ⟨⟨?_, ?_, hgroupPairs, hgroupIds, hmatchPairs, ?_, ?_⟩, hnets, hread⟩
  · rw [h.combos, keys_update _ _ _, keys_update _ _ _]
    · exact hkeyed.combos
    all_goals exact fun _ => rfl
  · rw [hnets.legs, map_id_takeOff]
    exact hkeyed.legs
  · intro row hrow
    rcases hmatchGroups row hrow with heq | hold
    · exact heq ▸ hgroup
    · obtain ⟨old, hmem, heq⟩ := mem_map.mp hold
      exact heq ▸ hkept _ (hkeyed.match_groups old hmem)
  · intro event hevent
    obtain ⟨new, hevents, heq, -⟩ := h.events
    rw [hevents] at hevent
    rcases mem_append.mp hevent with hold | hnew
    · exact hkept _ (hkeyed.event_groups event hold)
    · rw [mem_singleton.mp hnew, heq]
      exact hgroup

end Written

theorem writeNetting_legs {incoming candidate : LoadedCombo}
    {value : Option NettingTransactionResult} (hids : (db.legs.map LegRow.id).Nodup)
    (hchecked : NettingChecked db incomingId candidateId incoming candidate paired amount)
    (hwrites : writeNetting env db incoming candidate paired amount uuid =
      .committed db' value) :
    PairsRead db incomingId candidateId paired amount ∧
      db'.legs = db.legs.map (takeOff (paired.flatMap legIds) amount) := by
  obtain ⟨-, _, hwritten⟩ := writeNetting_committed hwrites
  have hdistinct : incomingId ≠ candidateId := by
    rw [← (loadCombo_some hchecked.loaded_incoming).2.1,
      ← (loadCombo_some hchecked.loaded_candidate).2.1]
    exact hwritten.distinct
  have hread := hchecked.read hids hdistinct
  exact ⟨hread, hwritten.legs hids hread⟩

theorem executeNettingTransaction_legs {value : Option NettingTransactionResult}
    (hids : (db.legs.map LegRow.id).Nodup)
    (h : executeNettingTransaction env db incomingId candidateId isSafe uuid =
      .committed db' value) :
    ∃ paired amount, 0 < amount ∧
      PairsRead db incomingId candidateId paired amount ∧
      db'.legs = db.legs.map (takeOff (paired.flatMap legIds) amount) := by
  obtain ⟨incoming, candidate, paired, amount, hchecked, hwrites⟩ :=
    executeNettingTransaction_writes h
  exact ⟨paired, amount, hchecked.positive, writeNetting_legs hids hchecked hwrites⟩

/-- **A committed netting keeps the tables sound.** -/
theorem executeNettingTransaction_conserves {value : Option NettingTransactionResult}
    (hkeyed : NettingKeyed db) (hsound : NettingSound db)
    (h : executeNettingTransaction env db incomingId candidateId isSafe uuid =
      .committed db' value) :
    NettingKeyed db' ∧ NettingSound db' ∧
      ∃ groupId paired amount, Nets db db' groupId paired amount := by
  obtain ⟨incoming, candidate, paired, amount, groupId, hchecked, hwritten⟩ :=
    executeNettingTransaction_committed h
  have hincoming := (loadCombo_some hchecked.loaded_incoming).2.1
  have hcandidate := (loadCombo_some hchecked.loaded_candidate).2.1
  obtain ⟨hkeyed', hnets, hread⟩ := hwritten.keyed hkeyed hchecked
  obtain ⟨happlied, happliedLegs⟩ := hwritten.applied
  refine ⟨hkeyed', ⟨hnets.conserved hsound, hnets.nonneg hkeyed hsound hread, ?_, ?_,
      hwritten.executed_iff hkeyed hsound hincoming hcandidate hread hnets⟩,
    groupId, paired, amount, hnets⟩
  · intro group hmem
    rw [(hwritten.group_before hkeyed hsound hmem).1, happlied]
  · intro group hmem
    have hpairs : (paired.map fun pair => if inGroup group.id
        (groupId, pair.incomingLeg.id, pair.candidateLeg.id) then amount else 0).sum =
        if groupId = group.id then paired.length * amount else 0 := by
      by_cases heq : groupId = group.id <;> simp [inGroup, heq]
    rw [hnets.rows, (hwritten.group_before hkeyed hsound hmem).2, happliedLegs, hpairs]

/-! ## Along a run -/

/-- The outcome of the netting transaction that an action runs to its end. -/
def NetSystem.outcome (env : NettingEnv) (sys : NetSystem) :
    NetAction → Option (Outcome ComboDb (Option NettingTransactionResult))
  | .start _ => none
  | .net i isSafe uuid reply =>
    sys.calls[i]?.bind fun call => call.outcome env sys.db isSafe uuid reply

theorem NetCall.outcome_eq {call : NetCall} {reply : NetReply}
    {outcome : Outcome ComboDb (Option NettingTransactionResult)}
    (h : call.outcome env db isSafe uuid reply = some outcome) :
    ∃ candidateId, outcome =
      executeNettingTransaction env db call.incomingCombo.id candidateId isSafe uuid := by
  unfold NetCall.outcome NetCall.transaction at h
  split at h
  case h_3 => cases h
  all_goals
    split at h
    next candidateId _ _ =>
      cases h
      exact ⟨candidateId, rfl⟩
    next => cases h

/-- **Step lemma.** An action that commits a transaction nets; every other leaves the tables as
they are. -/
theorem netAct_db {sys sys' : NetSystem} {action : NetAction} (hkeyed : NettingKeyed sys.db)
    (hsound : NettingSound sys.db) (hact : netAct env sys action = some sys') :
    match sys.outcome env action with
    | some (.committed _ _) => NettingKeyed sys'.db ∧ NettingSound sys'.db ∧
        ∃ groupId paired amount,
          Nets sys.db sys'.db groupId paired amount
    | _ => sys'.db = sys.db := by
  cases action with
  | start incomingCombo =>
    cases hact
    rfl
  | net i isSafe uuid reply =>
    simp only [netAct] at hact
    split at hact
    next => cases hact
    next call hcall =>
      obtain ⟨⟨db, call'⟩, hstep, rfl⟩ := Option.map_eq_some_iff.mp hact
      have hdb := netStep_db hstep
      simp only [NetSystem.outcome, hcall, Option.bind_some]
      cases houtcome : call.outcome env sys.db isSafe uuid reply with
      | none => rwa [houtcome] at hdb
      | some outcome =>
        rw [houtcome] at hdb
        cases outcome with
        | rolledBack value => exact hdb
        | aborted error => exact hdb
        | committed db' value =>
          obtain ⟨candidateId, hexecute⟩ := NetCall.outcome_eq houtcome
          rw [show db = db' from hdb]
          exact executeNettingTransaction_conserves hkeyed hsound hexecute.symm

/-- Combos as they are opened: nothing is netted yet, and a combo is executed only if it has
nothing to execute. -/
structure Opened (db : ComboDb) : Prop where
  combo_ids : (db.combos.map ComboRow.id).Nodup
  leg_ids : (db.legs.map LegRow.id).Nodup
  unmatched : db.groups = [] ∧ db.matchLegs = [] ∧ db.events = []
  remaining : ∀ leg ∈ db.legs, leg.remaining_size = leg.size
  nonneg : ∀ leg ∈ db.legs, 0 ≤ leg.size
  executed : ∀ combo ∈ db.combos, combo.state = .EXECUTED ↔
    ∀ leg ∈ db.legs, leg.combo_rfq_id = combo.id → leg.size = 0

theorem Opened.keyed (h : Opened db) : NettingKeyed db := by
  obtain ⟨hgroups, hmatchLegs, hevents⟩ := h.unmatched
  exact ⟨h.combo_ids, h.leg_ids, by simp [hgroups], by simp [hgroups], by simp [hmatchLegs],
    by simp [hmatchLegs], by simp [hevents]⟩

theorem Opened.sound (h : Opened db) : NettingSound db := by
  obtain ⟨hgroups, hmatchLegs, hevents⟩ := h.unmatched
  refine ⟨?_, ?_, by simp [hgroups], by simp [hgroups], ?_⟩
  · intro leg hleg
    simp [matchedSum, hmatchLegs, h.remaining leg hleg]
  · intro leg hleg
    rw [h.remaining leg hleg]
    exact h.nonneg leg hleg
  · intro combo hcombo
    rw [h.executed combo hcombo]
    refine forall_congr' fun leg => forall_congr' fun hleg => ?_
    rw [h.remaining leg hleg]

def comboRow (id userId : String) : ComboRow := ⟨id, userId, .OPEN, 0⟩

def legRow (id comboId marketId : String) (side : Side) (size price : ℚ) : LegRow :=
  { id := id
    combo_rfq_id := comboId
    canonical_market_id := marketId
    canonical_outcome_id := "yes"
    side := side
    size := size
    remaining_size := size
    price_hint := some price
    metadata := none }

def opened (combos : List ComboRow) (legs : List LegRow) : ComboDb :=
  { combos := combos
    legs := legs
    groups := []
    matchLegs := []
    attempts := []
    events := []
    rounds := []
    roundParticipants := []
    roundLegMatches := []
    roundEvents := []
    exposureIdempotency := []
    exposure := []
    journal := [] }

/-- Alice buys one market and sells another, five of each; Bob the other way round. -/
def mirrored : ComboDb :=
  opened [comboRow "alice's" "alice", comboRow "bob's" "bob"]
    [legRow "a1" "alice's" "north" .buy 5 (3 / 5), legRow "a2" "alice's" "south" .sell 5 (3 / 10),
      legRow "b1" "bob's" "north" .sell 5 (1 / 2), legRow "b2" "bob's" "south" .buy 5 (2 / 5)]

def plainEnv : NettingEnv :=
  { hash := fun snapshot => snapshot.incomingComboId ++ "-" ++ snapshot.candidateComboId
    localeCompare := fun left right => compareOfLessAndEq left right
    eligibilityService := false }

/-- `attemptNet` for a combo, up to the end of its transaction with the one candidate. -/
def netOnce (comboId userId candidateId : String) (legs : List LegRow) : List NetAction :=
  .start ⟨comboId, userId, toResidualLegs legs⟩ ::
    ([.done, .done, .answered (.candidates [candidateId]), .answered (.skip false), .done, .done,
      .done, .done, .answered (.safe true), .done, .done].map
        fun reply => .net 0 (.ok true) (fun n => "id" ++ Nat.repr n) reply)

theorem mirrored_opened : Opened mirrored := by
  refine ⟨by simp [mirrored, opened, comboRow], by simp [mirrored, opened, legRow], ⟨rfl, rfl, rfl⟩,
    ?_, ?_, ?_⟩ <;> simp [mirrored, opened, legRow, comboRow]

end LotusRfq.Combo
