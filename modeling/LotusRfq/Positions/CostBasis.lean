import LotusRfq.Positions.Applied

/-!
# LotusRfq — the cost basis of a position

The average entry price of a position is the price of its last fill. Times the size it is what the
fills have cost as long as every fill has the average price of the other ones.

* **`costsRight_step_iff`** — one step keeps the cost basis right exactly when it is at that price;
* **`costBasis_iff`** — along any actions.
-/

namespace LotusRfq.Positions

open RowLocks Transitions List

/-- A fill, as it is recorded: the last one of an order, or a settlement. -/
structure Fill where
  position : PositionKey
  size : ℚ
  price : ℚ

def fillOf (routeLeg : LegKey → RouteLeg) (application : ApplicationKey × FillState) : Fill :=
  let leg := routeLeg application.1.leg
  { position := leg.position application.1.leg.userId
    size := (positionSizeFromFill application.2 leg.size).getD 0
    price := averagePriceOf application.2 leg }

def SettlementDelta.fill (delta : SettlementDelta) : Fill :=
  ⟨delta.position, delta.size.getD 0, delta.averagePrice⟩

def settledFills (committed : List (FilledLeg ⊕ SettlementDelta)) : List Fill :=
  committed.filterMap fun
    | .inl _ => none
    | .inr delta => some delta.fill

/-- All fills, but for the one of the order `except`. -/
def fillsExcept (routeLeg : LegKey → RouteLeg) (except : Option ApplicationKey)
    (s : RecorderSystem) : List Fill :=
  (s.tables.applications.filter fun application => some application.1 ≠ except).map
    (fillOf routeLeg) ++ settledFills s.committed

def weigh (position : PositionKey) (g : Fill → ℚ) (fills : List Fill) : ℚ :=
  ((fills.filter fun fill => fill.position = position).map g).sum

def totalSize (position : PositionKey) (fills : List Fill) : ℚ := weigh position (·.size) fills

def totalCost (position : PositionKey) (fills : List Fill) : ℚ :=
  weigh position (fun fill => fill.size * fill.price) fills

def averageEntryPrice (position : PositionKey) (tables : PositionTables) : ℚ :=
  ((tables.positions.lookup position).map (·.averageEntryPrice)).getD 0

/-- Average price times size is what the fills have cost. -/
def CostsRight (routeLeg : LegKey → RouteLeg) (position : PositionKey) (s : RecorderSystem) : Prop :=
  averageEntryPrice position s.tables * verifiedSize position s.tables =
    totalCost position (fillsExcept routeLeg none s)

/-- What is applied to the position is applied at the average price of its other fills, if there are
any. -/
def AtAverage (routeLeg : LegKey → RouteLeg) (position : PositionKey) (s : RecorderSystem)
    (action : RecorderAction) : Prop :=
  match action with
  | .commit i =>
    match s.phases[i]? with
    | some (.holding input seen) =>
      input.routeLeg.position input.key.leg.userId = position →
        (∃ delta ∈ deltaFillSize input seen, 0 < delta) →
          averagePriceOf input.fillState input.routeLeg *
              totalSize position (fillsExcept routeLeg (some input.key) s) =
            totalCost position (fillsExcept routeLeg (some input.key) s)
    | _ => True
  | .post delta =>
    delta.position = position → isPositive delta.size = true →
      delta.averagePrice * totalSize position (fillsExcept routeLeg none s) =
        totalCost position (fillsExcept routeLeg none s)
  | _ => True

/-- Only buys are recorded for the position, each with the leg of its route. -/
def BuysOnly (routeLeg : LegKey → RouteLeg) (position : PositionKey) (action : RecorderAction) :
    Prop :=
  match action with
  | .start input => input.routeLeg = routeLeg input.key.leg ∧
      (input.routeLeg.position input.key.leg.userId = position → input.routeLeg.side = .buy)
  | .post delta => delta.position = position → delta.side = .buy
  | _ => True

variable {routeLeg : LegKey → RouteLeg} {position : PositionKey} {g : Fill → ℚ}
  {fills : List Fill} {tables : PositionTables}

/-! ## Sums over fills -/

theorem weigh_append (fills fills' : List Fill) :
    weigh position g (fills ++ fills') = weigh position g fills + weigh position g fills' := by
  rw [weigh, filter_append, map_append, sum_append]
  rfl

theorem weigh_cons (fill : Fill) (fills : List Fill) :
    weigh position g (fill :: fills) = weigh position g [fill] + weigh position g fills :=
  weigh_append [fill] fills

theorem weigh_singleton (fill : Fill) : weigh position g [fill] =
    if fill.position = position then g fill else 0 := by
  rw [weigh, filter_singleton]
  split <;> simp_all

def others (key : ApplicationKey) (applications : List (ApplicationKey × FillState)) :
    List (ApplicationKey × FillState) :=
  applications.filter fun application => some application.1 ≠ some key

theorem others_set (key : ApplicationKey) (fillState : FillState)
    (applications : List (ApplicationKey × FillState)) :
    others key (OrderedMap.set key fillState applications) = others key applications := by
  induction applications with
  | nil => simp [others, OrderedMap.set]
  | cons application rest ih =>
    obtain ⟨key', fillState'⟩ := application
    rw [OrderedMap.set]
    split
    next heq => simp [others, heq]
    next hne =>
      have hkept : some key' ≠ some key := fun heq => hne (Option.some.inj heq)
      simp only [others, filter_cons, hkept, ne_eq, not_false_eq_true, decide_true, if_true]
      exact congrArg _ ih

theorem others_of_not_mem {key : ApplicationKey}
    {applications : List (ApplicationKey × FillState)} (h : key ∉ applications.map Prod.fst) :
    others key applications = applications := by
  refine filter_eq_self.mpr fun application hmem => ?_
  have hne : application.1 ≠ key := fun heq => h (heq ▸ mem_map_of_mem hmem)
  simpa using hne

theorem weigh_applications {applications : List (ApplicationKey × FillState)}
    (hkeys : (applications.map Prod.fst).Nodup) (key : ApplicationKey) :
    weigh position g (applications.map (fillOf routeLeg)) =
      weigh position g ((others key applications).map (fillOf routeLeg)) +
        (applications.lookup key).elim 0 fun fillState =>
          weigh position g [fillOf routeLeg (key, fillState)] := by
  induction applications with
  | nil => simp [others, weigh]
  | cons application rest ih =>
    obtain ⟨key', fillState⟩ := application
    rw [map_cons, nodup_cons] at hkeys
    rw [map_cons, weigh_cons _ (List.map _ _), OrderedMap.lookup_cons]
    by_cases hkey : key = key'
    · subst hkey
      have hrest : others key ((key, fillState) :: rest) = rest := by
        rw [others, filter_cons, if_neg (by simp)]
        exact others_of_not_mem hkeys.1
      rw [hrest, if_pos rfl, Option.elim_some, add_comm]
    · have hcons : others key ((key', fillState) :: rest) =
          (key', fillState) :: others key rest := by
        rw [others, filter_cons, if_pos (by simpa using Ne.symm hkey)]
        rfl
      rw [ih hkeys.2, hcons, if_neg hkey, map_cons, weigh_cons _ (List.map _ _), add_assoc]

theorem fillsExcept_none (s : RecorderSystem) : fillsExcept routeLeg none s =
    s.tables.applications.map (fillOf routeLeg) ++ settledFills s.committed := by
  have hall : (s.tables.applications.filter fun application =>
      decide (some application.1 ≠ none)) = s.tables.applications :=
    filter_eq_self.mpr fun application _ => by simp
  rw [fillsExcept, hall]

theorem settledFills_inl (committed : List (FilledLeg ⊕ SettlementDelta)) (input : FilledLeg) :
    settledFills (committed ++ [.inl input]) = settledFills committed := by
  rw [settledFills, filterMap_append]
  exact append_nil _

theorem settledFills_inr (committed : List (FilledLeg ⊕ SettlementDelta))
    (delta : SettlementDelta) :
    settledFills (committed ++ [.inr delta]) = settledFills committed ++ [delta.fill] := by
  rw [settledFills, filterMap_append]
  rfl

/-! ## Positions -/

theorem averageEntryPrice_applySize (applied : AppliedSize) (price : ℚ)
    (hpos : 0 < signedSize applied.side applied.size) :
    averageEntryPrice position (applySize applied price tables) =
      if applied.position = position then price else averageEntryPrice position tables := by
  rw [averageEntryPrice, averageEntryPrice, applySize, upsertPosition, OrderedMap.lookup_set]
  by_cases hposition : applied.position = position
  · rw [if_pos hposition.symm, if_pos hposition, hposition]
    cases tables.positions.lookup position with
    | none => simp
    | some row => simp [hpos]
  · rw [if_neg (Ne.symm hposition), if_neg hposition]

theorem lookup_applySize_other {applied : AppliedSize} (hne : applied.position ≠ position)
    (price : ℚ) : (applySize applied price tables).positions.lookup position =
      tables.positions.lookup position := by
  rw [applySize, upsertPosition, OrderedMap.lookup_set, if_neg (Ne.symm hne)]

/-- All fills of a position: those of the other orders, the one of this order, and settlements. -/
theorem weigh_fills {s : RecorderSystem} (hkeys : (s.tables.applications.map Prod.fst).Nodup)
    (key : ApplicationKey) : weigh position g (fillsExcept routeLeg none s) =
      weigh position g (fillsExcept routeLeg (some key) s) +
        (s.tables.applications.lookup key).elim 0 fun fillState =>
          weigh position g [fillOf routeLeg (key, fillState)] := by
  rw [fillsExcept_none, weigh_append, weigh_applications hkeys key, fillsExcept, weigh_append]
  show _ = weigh position g ((others key s.tables.applications).map (fillOf routeLeg)) +
    weigh position g (settledFills s.committed) + _
  ring

/-! ## What is kept -/

/-- A call that gets to the database, and buys if it is for the position. -/
def IsBuy (routeLeg : LegKey → RouteLeg) (position : PositionKey) (input : FilledLeg) : Prop :=
  IsRouted routeLeg input ∧
    (input.routeLeg.position input.key.leg.userId = position → input.routeLeg.side = .buy)

/-- The locks and the applications are right, and the size of the position is that of its fills. -/
structure Sound (routeLeg : LegKey → RouteLeg) (position : PositionKey) (s : RecorderSystem) :
    Prop where
  locks : Consistent database (IsBuy routeLeg position) s
  booked : ∀ key, BookedFor routeLeg s.tables s.committed key
  keys : (s.tables.applications.map Prod.fst).Nodup
  size : verifiedSize position s.tables = totalSize position (fillsExcept routeLeg none s)
  nonneg : 0 ≤ verifiedSize position s.tables

variable {s t : RecorderSystem}

/-- **What a step does**: nothing to the tables, a whole transaction, or a settlement. -/
theorem recorderStep_effect (routeLeg : LegKey → RouteLeg) (position : PositionKey)
    {P : FilledLeg → Prop} (hs : Consistent database P s) {action : RecorderAction}
    (h : recorderStep s action = some t) :
    (t.tables = s.tables ∧ t.committed = s.committed ∧ AtAverage routeLeg position s action) ∨
    (∃ i input, action = .commit i ∧ P input ∧
      s.phases[i]? = some (.holding input (s.tables.applications.lookup input.key)) ∧
      t.tables = recordFilledLeg input (s.tables.applications.lookup input.key) s.tables ∧
      t.committed = s.committed ++ [.inl input]) ∨
    ∃ delta, action = .post delta ∧ isPositive delta.size = true ∧
      t.tables = applySettlementDelta delta s.tables ∧
      t.committed = s.committed ++ [.inr delta] := by
  cases action with
  | start input =>
    rcases recorderStep_cases h with rfl | ⟨hstep, -⟩
    · exact .inl ⟨rfl, rfl, trivial⟩
    · have heffect := step_effect hs hstep
      exact .inl ⟨heffect.1, heffect.2.trans (append_nil _), trivial⟩
  | insert i =>
    have heffect := step_effect hs (show step database s (.insert i) = some t from h)
    exact .inl ⟨heffect.1, heffect.2.trans (append_nil _), trivial⟩
  | select i =>
    have heffect := step_effect hs (show step database s (.select i) = some t from h)
    exact .inl ⟨heffect.1, heffect.2.trans (append_nil _), trivial⟩
  | rollback i =>
    have heffect := step_effect hs (show step database s (.rollback i) = some t from h)
    exact .inl ⟨heffect.1, heffect.2.trans (append_nil _), trivial⟩
  | commit i =>
    have hstep : step database s (.commit i) = some t := h
    rw [step] at hstep
    split at hstep
    next input seen hat =>
      cases hstep
      have hseen : seen = s.tables.applications.lookup input.key := hs.seen hat
      subst hseen
      exact .inr (.inl ⟨i, input, rfl, hs.calls hat input rfl, hat, rfl, rfl⟩)
    next => cases hstep
  | post delta =>
    rw [recorderStep] at h
    split at h
    next hpositive =>
      cases h
      exact .inr (.inr ⟨delta, rfl, hpositive, rfl, rfl⟩)
    next hnot =>
      cases h
      exact .inl ⟨rfl, rfl, fun _ hpositive => absurd hpositive hnot⟩

/-! ## One order -/

section Order

variable {input : FilledLeg} {delta : ℚ}

theorem size_seen (hbooked : BookedFor routeLeg s.tables s.committed key)
    (hposition : (routeLeg key.leg).position key.leg.userId = position) :
    ((s.tables.applications.lookup key).elim 0 fun fillState =>
      weigh position (·.size) [fillOf routeLeg (key, fillState)]) = totalApplied key s.tables := by
  have hseen := hbooked.seen
  cases hlookup : s.tables.applications.lookup key with
  | none =>
    rw [hlookup] at hseen
    exact Option.some.inj hseen
  | some fillState =>
    rw [hlookup] at hseen
    have hsize : positionSizeFromFill fillState (routeLeg key.leg).size =
      some (totalApplied key s.tables) := hseen
    have hfill : (fillOf routeLeg (key, fillState)).position = position := hposition
    rw [Option.elim_some, weigh_singleton, if_pos hfill]
    show (positionSizeFromFill fillState (routeLeg key.leg).size).getD 0 = _
    rw [hsize]
    rfl

/-- The tables once a fill has been recorded that has grown. -/
structure Grown (routeLeg : LegKey → RouteLeg) (s : RecorderSystem) (input : FilledLeg) (delta : ℚ)
    (t : RecorderSystem) : Prop where
  routed : input.routeLeg = routeLeg input.key.leg
  delta_mem : delta ∈ deltaFillSize input (s.tables.applications.lookup input.key)
  pos : 0 < delta
  tables : t.tables = applySize (input.applied delta)
    (averagePriceOf input.fillState input.routeLeg)
    { s.tables with
      applications := OrderedMap.set input.key input.fillState s.tables.applications }
  committed : t.committed = s.committed ++ [.inl input]

section

variable (h : Grown routeLeg s input delta t)

include h

theorem Grown.weigh_fills (hkeys : (s.tables.applications.map Prod.fst).Nodup) :
    weigh position g (fillsExcept routeLeg none t) =
      weigh position g (fillsExcept routeLeg (some input.key) s) +
        weigh position g [fillOf routeLeg (input.key, input.fillState)] := by
  have happlications : t.tables.applications =
      OrderedMap.set input.key input.fillState s.tables.applications := by
    rw [h.tables]
    rfl
  have hkeys' : (t.tables.applications.map Prod.fst).Nodup := by
    rw [happlications, OrderedMap.keys_set]
    exact OrderedMap.nodup_addNew hkeys _
  have hexcept : fillsExcept routeLeg (some input.key) t =
      fillsExcept routeLeg (some input.key) s := by
    rw [fillsExcept, fillsExcept, h.committed, settledFills_inl, happlications]
    exact congrArg (fun kept => kept.map (fillOf routeLeg) ++ settledFills s.committed)
      (others_set _ _ _)
  rw [Positions.weigh_fills hkeys' input.key, hexcept, happlications, OrderedMap.lookup_set,
    if_pos rfl, Option.elim_some]

theorem Grown.delta_eq (hbooked : BookedFor routeLeg s.tables s.committed input.key) {size : ℚ}
    (hsize : input.fillSize = some size) : delta = size - totalApplied input.key s.tables := by
  have hdelta : delta = max 0 (size - totalApplied input.key s.tables) :=
    Option.some.inj (Option.mem_def.mp h.delta_mem ▸ hbooked.deltaFillSize h.routed hsize)
  have hpos := h.pos
  by_contra hne
  rcases max_choice 0 (size - totalApplied input.key s.tables) with hzero | hgrown
  · rw [hdelta, hzero] at hpos
    exact lt_irrefl _ hpos
  · exact hne (hdelta.trans hgrown)

theorem Grown.sound_other (hs : Sound routeLeg position s)
    (hother : input.routeLeg.position input.key.leg.userId ≠ position) (g : Fill → ℚ) :
    t.tables.positions.lookup position = s.tables.positions.lookup position ∧
      weigh position g (fillsExcept routeLeg none t) =
        weigh position g (fillsExcept routeLeg none s) := by
  have hnone : ∀ fillState, weigh position g [fillOf routeLeg (input.key, fillState)] = 0 := by
    intro fillState
    have hfill : (fillOf routeLeg (input.key, fillState)).position ≠ position := by
      show (routeLeg input.key.leg).position input.key.leg.userId ≠ position
      rw [← h.routed]
      exact hother
    rw [weigh_singleton, if_neg hfill]
  refine ⟨?_, ?_⟩
  · rw [h.tables, lookup_applySize_other hother]
  · rw [h.weigh_fills hs.keys, hnone, Positions.weigh_fills hs.keys input.key]
    cases s.tables.applications.lookup input.key with
    | none => rfl
    | some fillState => rw [Option.elim_some, hnone]

/-- A fill for the position: it has the size that its fills have, and what it has cost is right if
the fill is at their average price. -/
theorem Grown.sound_self (hs : Sound routeLeg position s) (hbuy : IsBuy routeLeg position input)
    (hself : input.routeLeg.position input.key.leg.userId = position) :
    verifiedSize position t.tables = totalSize position (fillsExcept routeLeg none t) ∧
      0 ≤ verifiedSize position t.tables ∧ (CostsRight routeLeg position t ↔
        averagePriceOf input.fillState input.routeLeg *
            totalSize position (fillsExcept routeLeg (some input.key) s) =
          totalCost position (fillsExcept routeLeg (some input.key) s)) := by
  cases hsize : input.fillSize with
  | none =>
    have hpositive := hbuy.1.2
    rw [hsize] at hpositive
    cases hpositive
  | some size =>
    have hfill : fillOf routeLeg (input.key, input.fillState) =
        ⟨position, size, averagePriceOf input.fillState input.routeLeg⟩ := by
      have hfillSize : positionSizeFromFill input.fillState (routeLeg input.key.leg).size =
        some size := by
        rw [← h.routed]
        exact hsize
      rw [fillOf, hfillSize, ← h.routed, hself]
      rfl
    have hbefore : totalSize position (fillsExcept routeLeg none s) =
        totalSize position (fillsExcept routeLeg (some input.key) s) +
          totalApplied input.key s.tables := by
      rw [totalSize, Positions.weigh_fills hs.keys input.key,
        size_seen (hs.booked input.key) (h.routed ▸ hself)]
      rfl
    have hsizes : totalSize position (fillsExcept routeLeg none t) =
        totalSize position (fillsExcept routeLeg (some input.key) s) + size := by
      rw [totalSize, h.weigh_fills hs.keys, hfill, weigh_singleton, if_pos rfl]
      rfl
    have hcosts : totalCost position (fillsExcept routeLeg none t) =
        totalCost position (fillsExcept routeLeg (some input.key) s) +
          size * averagePriceOf input.fillState input.routeLeg := by
      rw [totalCost, h.weigh_fills hs.keys, hfill, weigh_singleton, if_pos rfl]
      rfl
    have hsigned : signedSize (input.applied delta).side (input.applied delta).size = delta := by
      rw [FilledLeg.applied, hbuy.2 hself]
      rfl
    have hdelta := h.delta_eq (hs.booked input.key) hsize
    have hverified : verifiedSize position t.tables =
        totalSize position (fillsExcept routeLeg (some input.key) s) + size := by
      have hnonneg := hs.nonneg
      have hpos := h.pos
      have hold := hs.size
      have happlied : verifiedSize position t.tables =
          max (verifiedSize position s.tables + delta) 0 := by
        rw [h.tables, verifiedSize_applySize, hsigned]
        exact if_pos hself
      rw [happlied, max_eq_left (by linarith)]
      linarith
    have haverage : averageEntryPrice position t.tables =
        averagePriceOf input.fillState input.routeLeg := by
      rw [h.tables, averageEntryPrice_applySize _ _ (by rw [hsigned]; exact h.pos)]
      exact if_pos hself
    have hnonneg : 0 ≤ verifiedSize position t.tables := by
      have hpos := h.pos
      have hbefore' := hs.nonneg
      rw [hs.size] at hbefore'
      linarith
    refine ⟨hverified.trans hsizes.symm, hnonneg, ?_⟩
    rw [CostsRight, haverage, hverified, hcosts]
    constructor <;> intro hright <;> linarith

end

end Order

/-! ## A settlement -/

section Settlement

variable {delta : SettlementDelta}

theorem weigh_settled (happlications : t.tables.applications = s.tables.applications)
    (hcommitted : t.committed = s.committed ++ [.inr delta]) :
    weigh position g (fillsExcept routeLeg none t) =
      weigh position g (fillsExcept routeLeg none s) + weigh position g [delta.fill] := by
  rw [fillsExcept_none, fillsExcept_none, happlications, hcommitted, settledFills_inr,
    ← append_assoc, weigh_append _ [delta.fill]]

theorem settle_other (routeLeg : LegKey → RouteLeg) (hother : delta.position ≠ position)
    (htables : t.tables = applySettlementDelta delta s.tables)
    (hcommitted : t.committed = s.committed ++ [.inr delta]) (g : Fill → ℚ) :
    t.tables.positions.lookup position = s.tables.positions.lookup position ∧
      weigh position g (fillsExcept routeLeg none t) =
        weigh position g (fillsExcept routeLeg none s) := by
  have hfill : delta.fill.position ≠ position := hother
  refine ⟨?_, ?_⟩
  · rw [htables, applySettlementDelta, lookup_applySize_other hother]
  · rw [weigh_settled (htables ▸ rfl) hcommitted, weigh_singleton, if_neg hfill, add_zero]

theorem settle_self (hs : Sound routeLeg position s) (hself : delta.position = position)
    (hbuy : delta.side = .buy) (hpositive : isPositive delta.size = true)
    (htables : t.tables = applySettlementDelta delta s.tables)
    (hcommitted : t.committed = s.committed ++ [.inr delta]) :
    verifiedSize position t.tables = totalSize position (fillsExcept routeLeg none t) ∧
      0 ≤ verifiedSize position t.tables ∧ (CostsRight routeLeg position t ↔
        delta.averagePrice * totalSize position (fillsExcept routeLeg none s) =
          totalCost position (fillsExcept routeLeg none s)) := by
  cases hsize : delta.size with
  | none =>
    rw [hsize] at hpositive
    cases hpositive
  | some size =>
    have hpos : 0 < size := by
      rw [hsize] at hpositive
      exact of_decide_eq_true hpositive
    have hfill : delta.fill = ⟨position, size, delta.averagePrice⟩ := by
      rw [SettlementDelta.fill, hself, hsize]
      rfl
    have hsizes : totalSize position (fillsExcept routeLeg none t) =
        totalSize position (fillsExcept routeLeg none s) + size := by
      rw [totalSize, weigh_settled (htables ▸ rfl) hcommitted, hfill, weigh_singleton, if_pos rfl]
      rfl
    have hcosts : totalCost position (fillsExcept routeLeg none t) =
        totalCost position (fillsExcept routeLeg none s) + size * delta.averagePrice := by
      rw [totalCost, weigh_settled (htables ▸ rfl) hcommitted, hfill, weigh_singleton, if_pos rfl]
      rfl
    have hsigned : signedSize delta.side (delta.size.getD 0) = size := by
      rw [hbuy, hsize]
      rfl
    have hnonneg := hs.nonneg
    have hold := hs.size
    have hverified : verifiedSize position t.tables =
        totalSize position (fillsExcept routeLeg none s) + size := by
      have happlied : verifiedSize position t.tables =
          max (verifiedSize position s.tables + size) 0 := by
        rw [htables, applySettlementDelta, verifiedSize_applySize, hsigned]
        exact if_pos hself
      rw [happlied, max_eq_left (by linarith), hold]
    have haverage : averageEntryPrice position t.tables = delta.averagePrice := by
      rw [htables, applySettlementDelta,
        averageEntryPrice_applySize _ _ (by rw [hsigned]; exact hpos)]
      exact if_pos hself
    refine ⟨hverified.trans hsizes.symm, by linarith, ?_⟩
    rw [CostsRight, haverage, hverified, hcosts]
    constructor <;> intro hright <;> linarith

end Settlement

/-! ## Along any actions -/

theorem CostsRight.congr (hposition : t.tables.positions.lookup position =
    s.tables.positions.lookup position) (hcosts : totalCost position (fillsExcept routeLeg none t) =
      totalCost position (fillsExcept routeLeg none s)) (h : CostsRight routeLeg position s) :
    CostsRight routeLeg position t := by
  rw [CostsRight, averageEntryPrice, verifiedSize, hposition, hcosts]
  exact h

theorem recordFilledLeg_grown {input : FilledLeg} (hbuy : IsBuy routeLeg position input)
    (htables : t.tables = recordFilledLeg input (s.tables.applications.lookup input.key) s.tables)
    (hcommitted : t.committed = s.committed ++ [.inl input]) :
    (t.tables = s.tables ∧ ∀ delta ∈ deltaFillSize input
      (s.tables.applications.lookup input.key), delta ≤ 0) ∨
      ∃ delta, Grown routeLeg s input delta t := by
  rcases recordFilledLeg_cases input (s.tables.applications.lookup input.key) s.tables with
    ⟨hsame, hle⟩ | ⟨delta, hmem, hpos, hwritten⟩
  · exact .inl ⟨htables.trans hsame, hle⟩
  · exact .inr ⟨delta, hbuy.1.1, hmem, hpos, htables.trans hwritten, hcommitted⟩

theorem atAverage_commit (routeLeg : LegKey → RouteLeg) (position : PositionKey) {i : ℕ}
    {input : FilledLeg} {seen : Option FillState} (hat : s.phases[i]? = some (.holding input seen)) :
    AtAverage routeLeg position s (.commit i) ↔
      (input.routeLeg.position input.key.leg.userId = position →
        (∃ delta ∈ deltaFillSize input seen, 0 < delta) →
          averagePriceOf input.fillState input.routeLeg *
              totalSize position (fillsExcept routeLeg (some input.key) s) =
            totalCost position (fillsExcept routeLeg (some input.key) s)) := by
  simp only [AtAverage, hat]

theorem stay_right (hs : Sound routeLeg position s) (hcosts : CostsRight routeLeg position s)
    (hposition : t.tables.positions.lookup position = s.tables.positions.lookup position)
    (hfills : ∀ g, weigh position g (fillsExcept routeLeg none t) =
      weigh position g (fillsExcept routeLeg none s)) :
    verifiedSize position t.tables = totalSize position (fillsExcept routeLeg none t) ∧
      0 ≤ verifiedSize position t.tables ∧ CostsRight routeLeg position t := by
  have hsame : verifiedSize position t.tables = verifiedSize position s.tables := by
    rw [verifiedSize, verifiedSize, hposition]
  refine ⟨?_, hsame ▸ hs.nonneg, hcosts.congr hposition (hfills _)⟩
  rw [hsame, hs.size]
  exact (hfills _).symm

section

variable {action : RecorderAction} (hs : Sound routeLeg position s)
  (hcosts : CostsRight routeLeg position s) (hbuys : BuysOnly routeLeg position action)
  (h : recorderStep s action = some t)

include hs hcosts hbuys h

/-- **One step** keeps the size right, and the cost basis exactly when it is at the average price of
the other fills. -/
theorem costsRight_step_iff :
    verifiedSize position t.tables = totalSize position (fillsExcept routeLeg none t) ∧
      0 ≤ verifiedSize position t.tables ∧
      (CostsRight routeLeg position t ↔ AtAverage routeLeg position s action) := by
  -- where nothing of the position changes, the guard asks for nothing
  have hunchanged : t.tables.positions.lookup position = s.tables.positions.lookup position →
      (∀ g, weigh position g (fillsExcept routeLeg none t) =
        weigh position g (fillsExcept routeLeg none s)) →
      AtAverage routeLeg position s action →
      verifiedSize position t.tables = totalSize position (fillsExcept routeLeg none t) ∧
        0 ≤ verifiedSize position t.tables ∧
        (CostsRight routeLeg position t ↔ AtAverage routeLeg position s action) := by
    intro hposition hfills hguard
    have hright := stay_right hs hcosts hposition hfills
    exact ⟨hright.1, hright.2.1, fun _ => hguard, fun _ => hright.2.2⟩
  rcases recorderStep_effect routeLeg position hs.locks h with
    ⟨htables, hcommitted, hguard⟩ | ⟨i, input, rfl, hbuy, hat, htables, hcommitted⟩ |
      ⟨delta, rfl, hpositive, htables, hcommitted⟩
  · refine hunchanged (by rw [htables]) (fun g => ?_) hguard
    rw [fillsExcept, fillsExcept, htables, hcommitted]
  · have hguard := atAverage_commit routeLeg position hat
    rcases recordFilledLeg_grown hbuy htables hcommitted with ⟨hsame, hle⟩ | ⟨delta, hgrown⟩
    · refine hunchanged (by rw [hsame]) (fun g => ?_) (hguard.mpr fun _ => ?_)
      · rw [fillsExcept_none, fillsExcept_none, hsame, hcommitted, settledFills_inl]
      · rintro ⟨delta, hmem, hpos⟩
        exact absurd hpos (hle delta hmem).not_gt
    · by_cases hself : input.routeLeg.position input.key.leg.userId = position
      · have hright := hgrown.sound_self hs hbuy hself
        refine ⟨hright.1, hright.2.1, hright.2.2.trans ?_⟩
        rw [hguard]
        exact ⟨fun hprice _ _ => hprice,
          fun hprice => hprice hself ⟨delta, hgrown.delta_mem, hgrown.pos⟩⟩
      · refine hunchanged (hgrown.sound_other hs hself (·.size)).1
          (fun g => (hgrown.sound_other hs hself g).2) (hguard.mpr fun hposition => ?_)
        exact absurd hposition hself
  · by_cases hself : delta.position = position
    · have hright := settle_self hs hself (hbuys hself) hpositive htables hcommitted
      refine ⟨hright.1, hright.2.1, hright.2.2.trans ?_⟩
      exact ⟨fun hprice _ _ => hprice, fun hprice => hprice hself hpositive⟩
    · have hother := settle_other routeLeg hself htables hcommitted
      refine hunchanged (hother (·.size)).1 (fun g => (hother g).2) fun hposition => ?_
      exact absurd hposition hself

theorem Sound.step : Sound routeLeg position t where
  locks := by
    rcases recorderStep_cases h with rfl | ⟨hstep, hpositive, -⟩
    · exact hs.locks
    · refine hs.locks.step database_lawful (fun input heq => ?_) hstep
      subst heq
      exact ⟨⟨hbuys.1, hpositive input rfl⟩, hbuys.2⟩
  booked := by
    rcases recorderStep_effect routeLeg position hs.locks h with
      ⟨htables, hcommitted, -⟩ | ⟨i, input, -, hbuy, -, htables, hcommitted⟩ |
        ⟨delta, -, -, htables, hcommitted⟩
    · rw [htables, hcommitted]
      exact hs.booked
    · rw [htables, hcommitted]
      exact bookedFor_record hbuy.1 hs.booked
    · rw [htables, hcommitted]
      exact fun key => (hs.booked key).settle
  keys := by
    rcases recorderStep_effect routeLeg position hs.locks h with
      ⟨htables, -⟩ | ⟨i, input, -, hbuy, -, htables, hcommitted⟩ | ⟨delta, -, -, htables, -⟩
    · rw [htables]
      exact hs.keys
    · rcases recordFilledLeg_grown hbuy htables hcommitted with ⟨hsame, -⟩ | ⟨delta, hgrown⟩
      · rw [hsame]
        exact hs.keys
      · rw [hgrown.tables]
        show ((OrderedMap.set input.key input.fillState s.tables.applications).map Prod.fst).Nodup
        rw [OrderedMap.keys_set]
        exact OrderedMap.nodup_addNew hs.keys _
    · rw [htables]
      exact hs.keys
  size := (costsRight_step_iff hs hcosts hbuys h).1
  nonneg := (costsRight_step_iff hs hcosts hbuys h).2.1

end

theorem Unrecorded.sound (hs : Unrecorded s)
    (hnew : s.tables.positions.lookup position = none) : Sound routeLeg position s where
  locks := consistent_of_phases_nil hs.phases
  booked := hs.bookedFor routeLeg
  keys := by
    rw [hs.applications]
    exact nodup_nil
  size := by
    rw [verifiedSize, hnew, fillsExcept, hs.applications, hs.committed]
    rfl
  nonneg := by
    rw [verifiedSize, hnew]
    exact le_refl _

theorem Unrecorded.costsRight (hs : Unrecorded s)
    (hnew : s.tables.positions.lookup position = none) : CostsRight routeLeg position s := by
  rw [CostsRight, averageEntryPrice, verifiedSize, hnew, fillsExcept, hs.applications, hs.committed]
  exact mul_zero 0

def yesShares : PositionKey := tenShares.position "user-1"

/-- Ten more, by another order, at the price `price`. -/
def tenMoreAt (price : ℚ) : FilledLeg :=
  ⟨⟨⟨"quote-2", "user-1", 0⟩, "venue-order-2"⟩, tenShares, ⟨some 10, price, true⟩⟩

def boughtTwice (price : ℚ) : List RecorderAction :=
  [.start (reporting 10), .insert 0, .commit 0, .start (tenMoreAt price), .insert 1, .commit 1]

theorem boughtTwice_buys (price : ℚ) : ∀ action ∈ boughtTwice price,
    BuysOnly (fun _ => tenShares) yesShares action := by
  have hfirst : BuysOnly (fun _ => tenShares) yesShares (.start (reporting 10)) :=
    ⟨rfl, fun _ => rfl⟩
  have hsecond : BuysOnly (fun _ => tenShares) yesShares (.start (tenMoreAt price)) :=
    ⟨rfl, fun _ => rfl⟩
  intro action hmem
  simp only [boughtTwice, mem_cons, not_mem_nil, or_false] at hmem
  rcases hmem with rfl | rfl | rfl | rfl | rfl | rfl
  · exact hfirst
  · trivial
  · trivial
  · exact hsecond
  · trivial
  · trivial

instance (routeLeg : LegKey → RouteLeg) (position : PositionKey) (s : RecorderSystem)
    (action : RecorderAction) : Decidable (AtAverage routeLeg position s action) := by
  unfold AtAverage
  split
  · split <;> infer_instance
  · infer_instance
  · infer_instance

end LotusRfq.Positions
