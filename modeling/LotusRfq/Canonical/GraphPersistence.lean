import LotusRfq.Lib.PooledTransactions
import LotusRfq.Lib.Tables
import LotusRfq.Canonical.ExecutableMarkets

/-!
# LotusRfq — persisting the canonical graph

`CanonicalGraphRepository.persistSnapshot` sends `BEGIN`, an upsert for every item of the snapshot
and `COMMIT` through the pool, each on whatever connection the pool chooses. The members of an
executable market are deleted by the id of the market and inserted anew; the table has one row for
each profile, and an insert that meets the profile's row does nothing.

Columns that are only ever written are a parameter. Checks of the database are statements that
fail. Other users of the pool do not write to these tables.

* **`owner_persisted`** — the market a profile is stored in, after all of the snapshot;
* **`persistSnapshot_atomic_iff`** — on a connection of its own, the call is all or nothing, and
  leaves every profile in its market exactly where no row of another one was in the way.
-/

namespace LotusRfq.Canonical

open PooledTransactions Transitions List

/-! ## The tables -/

structure EventRow (V : Type) where
  id : String
  columns : V
  deriving DecidableEq

structure ProfileRow (V : Type) where
  id : String
  venue : CanonicalVenue
  venueMarketId : String
  columns : V
  deriving DecidableEq

/-- A fingerprint, a resolution profile or a settlement profile: one for each market profile. -/
structure DetailRow (V : Type) where
  id : String
  venueMarketProfileId : String
  columns : V
  deriving DecidableEq

structure EdgeRow (V : Type) where
  id : String
  canonicalEventId : String
  marketAProfileId : String
  marketBProfileId : String
  scoringVersion : String
  columns : V
  deriving DecidableEq

structure ExecutableMarketRow where
  id : String
  canonicalEventId : String
  displayName : String
  marketClass : CanonicalMarketClass
  compatibilityPolicy : CompatibilityPolicy
  riskClass : CompatibilityClass
  memberCount : ℕ
  metadata : MarketMetadata
  deriving DecidableEq

structure MemberRow where
  canonicalExecutableMarketId : String
  venueMarketProfileId : String
  deriving DecidableEq

/-- `canonical_executable_market_members`; `venue_market_profile_id` is unique. -/
structure MemberTable where
  rows : List MemberRow
  unique : (rows.map (·.venueMarketProfileId)).Nodup

structure GraphTables (V : Type) where
  canonicalEvents : List (EventRow V)
  venueMarketProfiles : List (ProfileRow V)
  propositionFingerprints : List (DetailRow V)
  venueResolutionProfiles : List (DetailRow V)
  venueSettlementProfiles : List (DetailRow V)
  compatibilityEdges : List (EdgeRow V)
  executableMarkets : List ExecutableMarketRow
  members : MemberTable

/-- `DELETE … WHERE canonical_executable_market_id = $1`. -/
def MemberTable.delete (table : MemberTable) (marketId : String) : MemberTable where
  rows := table.rows.filter fun row => row.canonicalExecutableMarketId ≠ marketId
  unique := table.unique.sublist (filter_sublist.map _)

/-- `INSERT … ON CONFLICT DO NOTHING`. -/
def MemberTable.insert (table : MemberTable) (marketId profileId : String) : MemberTable :=
  if h : profileId ∈ table.rows.map (·.venueMarketProfileId) then table
  else
    { rows := table.rows ++ [⟨marketId, profileId⟩]
      unique := by
        rw [map_append]
        exact table.unique.append (nodup_singleton _)
          (disjoint_singleton.mpr h) }

def MemberTable.owner (table : MemberTable) (profileId : String) : Option String :=
  (Tables.select MemberRow.venueMarketProfileId profileId table.rows).map
    (·.canonicalExecutableMarketId)

/-! ## The statements -/

inductive Statement (V : Type) where
  | upsertCanonicalEvent (event : EventRow V)
  | upsertVenueMarketProfile (profile : ProfileRow V)
  | upsertPropositionFingerprint (fingerprint : DetailRow V)
  | upsertVenueResolutionProfile (profile : DetailRow V)
  | upsertVenueSettlementProfile (profile : DetailRow V)
  | upsertExecutableMarket (market : ExecutableMarketRow)
  | deleteExecutableMarketMembers (marketId : String)
  | insertExecutableMarketMember (marketId profileId : String)
  | upsertCompatibilityEdge (edge : EdgeRow V)
  deriving DecidableEq

variable {V : Type}

def ProfileRow.listing (profile : ProfileRow V) : CanonicalVenue × String :=
  (profile.venue, profile.venueMarketId)

/-- `ON CONFLICT (venue, venue_market_id) DO UPDATE`: the row keeps its id. -/
def upsertProfile (profile : ProfileRow V) : List (ProfileRow V) → List (ProfileRow V) :=
  Tables.upsert ProfileRow.listing profile fun old => { profile with id := old.id }

def EdgeRow.pair (edge : EdgeRow V) : String × String × String × String :=
  (edge.canonicalEventId, edge.marketAProfileId, edge.marketBProfileId, edge.scoringVersion)

/-- `ON CONFLICT (canonical_event_id, …, scoring_version) DO UPDATE`: the row keeps its id. -/
def upsertEdge (edge : EdgeRow V) : List (EdgeRow V) → List (EdgeRow V) :=
  Tables.upsert EdgeRow.pair edge fun old => { edge with id := old.id }

/-- `ON CONFLICT (venue_market_profile_id) DO UPDATE`: the row keeps its id. -/
def upsertDetail (detail : DetailRow V) : List (DetailRow V) → List (DetailRow V) :=
  Tables.upsert DetailRow.venueMarketProfileId detail fun old => { detail with id := old.id }

def Statement.apply (statement : Statement V) (tables : GraphTables V) : GraphTables V :=
  match statement with
  | .upsertCanonicalEvent event =>
    { tables with canonicalEvents :=
        Tables.upsert EventRow.id event (fun _ => event) tables.canonicalEvents }
  | .upsertVenueMarketProfile profile =>
    { tables with venueMarketProfiles := upsertProfile profile tables.venueMarketProfiles }
  | .upsertPropositionFingerprint fingerprint =>
    { tables with propositionFingerprints :=
        upsertDetail fingerprint tables.propositionFingerprints }
  | .upsertVenueResolutionProfile profile =>
    { tables with venueResolutionProfiles := upsertDetail profile tables.venueResolutionProfiles }
  | .upsertVenueSettlementProfile profile =>
    { tables with venueSettlementProfiles := upsertDetail profile tables.venueSettlementProfiles }
  | .upsertExecutableMarket market =>
    { tables with executableMarkets :=
        Tables.upsert ExecutableMarketRow.id market (fun _ => market) tables.executableMarkets }
  | .deleteExecutableMarketMembers marketId =>
    { tables with members := tables.members.delete marketId }
  | .insertExecutableMarketMember marketId profileId =>
    { tables with members := tables.members.insert marketId profileId }
  | .upsertCompatibilityEdge edge =>
    { tables with compatibilityEdges := upsertEdge edge tables.compatibilityEdges }

open Statement (apply)

structure CanonicalGraphSnapshot (V : Type) where
  canonicalEvents : List (EventRow V)
  venueMarketProfiles : List (ProfileRow V)
  propositionFingerprints : List (DetailRow V)
  resolutionProfiles : List (DetailRow V)
  settlementProfiles : List (DetailRow V)
  compatibilityEdges : List (EdgeRow V)
  executableMarkets : List CanonicalExecutableMarket

def CanonicalExecutableMarket.row (market : CanonicalExecutableMarket) : ExecutableMarketRow where
  id := market.id
  canonicalEventId := market.canonicalEventId
  displayName := market.displayName
  marketClass := market.marketClass
  compatibilityPolicy := market.compatibilityPolicy
  riskClass := market.riskClass
  memberCount := market.memberProfileIds.length
  metadata := market.metadata

def replaceExecutableMarketMembers (market : CanonicalExecutableMarket) : List (Statement V) :=
  .deleteExecutableMarketMembers market.id ::
    market.memberProfileIds.map (.insertExecutableMarketMember market.id)

/-- The writes of `persistSnapshot`, in its order. -/
def persistSnapshot (snapshot : CanonicalGraphSnapshot V) : List (Statement V) :=
  snapshot.canonicalEvents.map .upsertCanonicalEvent ++
  snapshot.venueMarketProfiles.map .upsertVenueMarketProfile ++
  snapshot.propositionFingerprints.map .upsertPropositionFingerprint ++
  snapshot.resolutionProfiles.map .upsertVenueResolutionProfile ++
  snapshot.settlementProfiles.map .upsertVenueSettlementProfile ++
  (snapshot.executableMarkets.flatMap fun market =>
    .upsertExecutableMarket market.row :: replaceExecutableMarketMembers market) ++
  snapshot.compatibilityEdges.map .upsertCompatibilityEdge

def persisted (snapshot : CanonicalGraphSnapshot V) (tables : GraphTables V) : GraphTables V :=
  applyAll apply (persistSnapshot snapshot) tables

/-! ## What the call is for -/

/-- The one market of the snapshot that lists the profile, with those before and after it. -/
structure Assigns (snapshot : CanonicalGraphSnapshot V) (profileId : String)
    (earlier : List CanonicalExecutableMarket) (market : CanonicalExecutableMarket)
    (later : List CanonicalExecutableMarket) : Prop where
  markets : snapshot.executableMarkets = earlier ++ market :: later
  member : profileId ∈ market.memberProfileIds
  others : ∀ other ∈ earlier ++ later, profileId ∉ other.memberProfileIds

/-- Every profile of the snapshot is a member of one stored market, which is its own. -/
def Current (snapshot : CanonicalGraphSnapshot V) (tables : GraphTables V) : Prop :=
  ∀ profile ∈ snapshot.venueMarketProfiles, ∃ earlier market later,
    Assigns snapshot profile.id earlier market later ∧
      market.id ∈ tables.executableMarkets.map (·.id) ∧
      ∀ marketId, ⟨marketId, profile.id⟩ ∈ tables.members.rows ↔ marketId = market.id

/-- A call that has not returned has left the tables as they were; one that has, all applied and
current. -/
def AtomicAndCurrent (snapshot : CanonicalGraphSnapshot V) (before : GraphTables V)
    (s : System (Statement V) (GraphTables V)) : Prop :=
  match s.phase with
  | .returned => s.pool.tables = persisted snapshot before ∧ Current snapshot s.pool.tables
  | _ => s.pool.tables = before

/-- No row is in the way: where a profile is stored, it is in its own market, or in one the
snapshot lists before that; and no market listed later has the id of its own. -/
def NotInTheWay (snapshot : CanonicalGraphSnapshot V) (before : GraphTables V) : Prop :=
  ∀ profile ∈ snapshot.venueMarketProfiles, ∃ earlier market later,
    Assigns snapshot profile.id earlier market later ∧
      (∀ marketId, ⟨marketId, profile.id⟩ ∈ before.members.rows →
        marketId = market.id ∨ marketId ∈ earlier.map (·.id)) ∧
      market.id ∉ later.map (·.id)

/-! ## One profile's row -/

section

variable {table : MemberTable} {profileId marketId : String}

theorem owner_eq_some : table.owner profileId = some marketId ↔
    ⟨marketId, profileId⟩ ∈ table.rows := by
  unfold MemberTable.owner
  rw [Option.map_eq_some_iff]
  constructor
  · intro ⟨row, hrow, hmarket⟩
    obtain ⟨hmem, hprofile⟩ := Tables.mem_of_select hrow
    have hrow : row = ⟨marketId, profileId⟩ := by
      rw [← hmarket, ← hprofile]
    exact hrow ▸ hmem
  · intro hmem
    exact ⟨_, (Tables.select_eq_some table.unique).mpr ⟨hmem, rfl⟩, rfl⟩

theorem owner_eq_none : table.owner profileId = none ↔
    profileId ∉ table.rows.map (·.venueMarketProfileId) := by
  unfold MemberTable.owner
  rw [Option.map_eq_none_iff, Tables.select_eq_none]
  simp

theorem owner_delete (marketId : String) : (table.delete marketId).owner profileId =
    if table.owner profileId = some marketId then none else table.owner profileId := by
  have hrows : ∀ other, ⟨other, profileId⟩ ∈ (table.delete marketId).rows ↔
      ⟨other, profileId⟩ ∈ table.rows ∧ other ≠ marketId := by
    intro other
    simp [MemberTable.delete]
  ext other
  rw [owner_eq_some, hrows, ← owner_eq_some]
  split
  next h =>
    rw [h]
    simp only [Option.some.injEq, reduceCtorEq, iff_false]
    exact fun hall => hall.2 hall.1.symm
  next h =>
    refine ⟨And.left, fun hother => ⟨hother, ?_⟩⟩
    intro heq
    exact h (heq ▸ hother)

theorem owner_insert (marketId inserted : String) :
    (table.insert marketId inserted).owner profileId =
      if profileId = inserted then (table.owner profileId).or (some marketId)
      else table.owner profileId := by
  unfold MemberTable.insert
  split
  next h =>
    split
    next heq =>
      subst heq
      cases howner : table.owner profileId with
      | none => exact absurd h (owner_eq_none.mp howner)
      | some other => rfl
    next => rfl
  next h =>
    unfold MemberTable.owner
    simp only [Tables.select, find?_append]
    split
    next heq =>
      subst heq
      have hnone : table.rows.find? (fun row => decide (row.venueMarketProfileId = profileId)) =
          none := by
        have howner := owner_eq_none.mpr h
        unfold MemberTable.owner at howner
        exact Option.map_eq_none_iff.mp howner
      rw [hnone]
      simp
    next heq =>
      have hother : ¬ inserted = profileId := fun h => heq h.symm
      simp [hother]

end

/-- What a market of the snapshot does to the market a profile is stored in. -/
def ownerAfter (profileId : String) (owner : Option String) (market : CanonicalExecutableMarket) :
    Option String :=
  let owner := if owner = some market.id then none else owner
  if profileId ∈ market.memberProfileIds then owner.or (some market.id) else owner

/-! ## The statements, one after another -/

section

variable {tables : GraphTables V} {profileId : String}

theorem applyAll_append (writes more : List (Statement V)) :
    applyAll apply (writes ++ more) tables = applyAll apply more (applyAll apply writes tables) :=
  foldl_append ..

theorem members_applyAll {writes : List (Statement V)}
    (h : ∀ w ∈ writes, ∀ tables : GraphTables V, (w.apply tables).members = tables.members) :
    (applyAll apply writes tables).members = tables.members := by
  induction writes generalizing tables with
  | nil => rfl
  | cons w writes ih =>
    have hrest := fun other hmem => h other (mem_cons_of_mem w hmem)
    exact (ih hrest).trans (h w mem_cons_self tables)

theorem members_map {α : Type} {items : List α} {f : α → Statement V}
    (h : ∀ item, ∀ tables : GraphTables V, ((f item).apply tables).members = tables.members) :
    (applyAll apply (items.map f) tables).members = tables.members := by
  refine members_applyAll ?_
  intro w hw
  obtain ⟨item, -, rfl⟩ := mem_map.mp hw
  exact h item

/-- The inserts of a market: a profile it lists comes into it, unless it has a row already. -/
theorem owner_inserts (marketId : String) (members : List String) :
    (applyAll apply (members.map (.insertExecutableMarketMember marketId))
        tables).members.owner profileId =
      if profileId ∈ members then (tables.members.owner profileId).or (some marketId)
      else tables.members.owner profileId := by
  induction members generalizing tables with
  | nil => rfl
  | cons member members ih =>
    show (applyAll apply (members.map (.insertExecutableMarketMember marketId))
      { tables with members := tables.members.insert marketId member }).members.owner profileId = _
    rw [ih, owner_insert]
    by_cases hmember : profileId = member
    · have hlisted : profileId ∈ member :: members := hmember ▸ mem_cons_self
      rw [if_pos hmember, if_pos hlisted]
      split
      · cases tables.members.owner profileId <;> rfl
      · rfl
    · rw [if_neg hmember]
      simp [hmember]

theorem owner_market (market : CanonicalExecutableMarket) :
    (applyAll apply (.upsertExecutableMarket market.row ::
        replaceExecutableMarketMembers market) tables).members.owner profileId =
      ownerAfter profileId (tables.members.owner profileId) market := by
  let opened : GraphTables V := apply (.deleteExecutableMarketMembers market.id)
      (apply (.upsertExecutableMarket market.row) tables)
  show (applyAll apply
    (market.memberProfileIds.map (.insertExecutableMarketMember market.id)) opened).members.owner
      profileId = _
  have hopened : opened.members.owner profileId =
      if tables.members.owner profileId = some market.id then none
      else tables.members.owner profileId := owner_delete market.id
  rw [owner_inserts, hopened]
  rfl

theorem owner_markets (markets : List CanonicalExecutableMarket) :
    (applyAll apply (markets.flatMap fun market =>
        .upsertExecutableMarket market.row :: replaceExecutableMarketMembers market)
        tables).members.owner profileId =
      markets.foldl (ownerAfter profileId) (tables.members.owner profileId) := by
  induction markets generalizing tables with
  | nil => rfl
  | cons market markets ih =>
    rw [flatMap_cons, applyAll_append, ih, owner_market, foldl_cons]

theorem owner_persisted (snapshot : CanonicalGraphSnapshot V) :
    (persisted snapshot tables).members.owner profileId =
      snapshot.executableMarkets.foldl (ownerAfter profileId) (tables.members.owner profileId) := by
  unfold persisted persistSnapshot
  simp only [applyAll_append]
  rw [members_map fun _ _ => rfl, owner_markets, members_map fun _ _ => rfl,
    members_map fun _ _ => rfl, members_map fun _ _ => rfl, members_map fun _ _ => rfl,
    members_map fun _ _ => rfl]

end

variable {profileId : String} {snapshot : CanonicalGraphSnapshot V}

theorem foldl_ownerAfter_others {markets : List CanonicalExecutableMarket}
    (h : ∀ market ∈ markets, profileId ∉ market.memberProfileIds) (owner : Option String) :
    markets.foldl (ownerAfter profileId) owner =
      owner.filter fun marketId => decide (marketId ∉ markets.map (·.id)) := by
  induction markets generalizing owner with
  | nil => cases owner <;> rfl
  | cons market markets ih =>
    have hmarket := h market mem_cons_self
    have hrest := fun other hmem => h other (mem_cons_of_mem market hmem)
    rw [foldl_cons, ih hrest]
    unfold ownerAfter
    rw [if_neg hmarket]
    cases owner with
    | none => rfl
    | some marketId =>
      by_cases hid : marketId = market.id
      · simp [Option.filter, hid]
      · have hsome : ¬ some marketId = some market.id := fun heq => hid (Option.some.inj heq)
        rw [if_neg hsome]
        simp [Option.filter, hid]

theorem ends_in_own_iff {earlier later : List CanonicalExecutableMarket}
    {market : CanonicalExecutableMarket} (h : Assigns snapshot profileId earlier market later)
    (owner : Option String) :
    snapshot.executableMarkets.foldl (ownerAfter profileId) owner = some market.id ↔
      (∀ marketId, owner = some marketId →
        marketId = market.id ∨ marketId ∈ earlier.map (·.id)) ∧ market.id ∉ later.map (·.id) := by
  have hearlier := fun other hmem => h.others other (mem_append_left later hmem)
  have hlater := fun other hmem => h.others other (mem_append_right earlier hmem)
  rw [h.markets, foldl_append, foldl_cons, foldl_ownerAfter_others hearlier,
    foldl_ownerAfter_others hlater]
  unfold ownerAfter
  rw [if_pos h.member]
  -- what is left of the old row when the market's turn comes
  have hfiltered : ∀ kept : Option String,
      ((if kept = some market.id then none else kept).or (some market.id)).filter
          (fun marketId => decide (marketId ∉ later.map (·.id))) = some market.id ↔
        (∀ marketId, kept = some marketId → marketId = market.id) ∧
          market.id ∉ later.map (·.id) := by
    intro kept
    cases kept with
    | none => simp [Option.filter]
    | some marketId =>
      by_cases hid : marketId = market.id
      · simp [hid, Option.filter]
      · have hsome : ¬ some marketId = some market.id := fun heq => hid (Option.some.inj heq)
        rw [if_neg hsome]
        simp only [Option.some_or, Option.filter_eq_some_iff, Option.some.injEq]
        refine iff_of_false (fun hall => hid hall.1) ?_
        exact fun hall => hid (hall.1 marketId rfl)
  rw [hfiltered]
  refine and_congr_left fun _ => forall_congr' fun marketId => ?_
  simp only [Option.filter_eq_some_iff, decide_eq_true_eq]
  constructor
  · intro hkept howner
    by_cases hlisted : marketId ∈ earlier.map (·.id)
    · exact .inr hlisted
    · exact .inl (hkept ⟨howner, hlisted⟩)
  · intro howner hkept
    exact (howner hkept.1).resolve_right hkept.2

theorem stale_kept {tables : GraphTables V} {marketId : String}
    (hrow : ⟨marketId, profileId⟩ ∈ tables.members.rows)
    (hgone : marketId ∉ snapshot.executableMarkets.map (·.id)) :
    ⟨marketId, profileId⟩ ∈ (persisted snapshot tables).members.rows := by
  rw [← owner_eq_some] at hrow ⊢
  rw [owner_persisted, hrow]
  generalize snapshot.executableMarkets = markets at hgone
  induction markets with
  | nil => rfl
  | cons market markets ih =>
    rw [map_cons, mem_cons, not_or] at hgone
    have hkept : ownerAfter profileId (some marketId) market = some marketId := by
      have hsome : ¬ some marketId = some market.id := fun heq => hgone.1 (Option.some.inj heq)
      unfold ownerAfter
      rw [if_neg hsome]
      split <;> rfl
    rw [foldl_cons, hkept]
    exact ih hgone.2

/-! ## The markets themselves -/

section

variable {tables : GraphTables V}

theorem ids_upsert (market : ExecutableMarketRow) (rows : List ExecutableMarketRow) (id : String) :
    id ∈ (Tables.upsert ExecutableMarketRow.id market (fun _ => market) rows).map (·.id) ↔
      id = market.id ∨ id ∈ rows.map (·.id) := by
  unfold Tables.upsert
  cases hrow : Tables.select ExecutableMarketRow.id market.id rows with
  | none => simp [or_comm]
  | some row =>
    have hids : (Tables.update ExecutableMarketRow.id market.id (fun _ => market) rows).map
        (·.id) = rows.map (·.id) := by
      unfold Tables.update
      rw [map_map]
      refine map_congr_left fun other _ => ?_
      by_cases hother : other.id = market.id <;> simp [hother]
    have hmem := Tables.mem_of_select hrow
    rw [hids]
    refine ⟨.inr, fun h => h.elim ?_ fun hid => hid⟩
    rintro rfl
    exact mem_map.mpr ⟨row, hmem.1, hmem.2⟩

theorem ids_apply {id : String} (w : Statement V) (h : id ∈ tables.executableMarkets.map (·.id)) :
    id ∈ (w.apply tables).executableMarkets.map (·.id) := by
  cases w with
  | upsertExecutableMarket market => exact (ids_upsert market _ id).mpr (.inr h)
  | _ => exact h

theorem ids_persisted {market : CanonicalExecutableMarket}
    (h : market ∈ snapshot.executableMarkets) :
    market.id ∈ (persisted snapshot tables).executableMarkets.map (·.id) := by
  have hwrite : .upsertExecutableMarket market.row ∈ persistSnapshot snapshot := by
    unfold persistSnapshot
    refine mem_append_left _ (mem_append_right _ ?_)
    exact mem_flatMap.mpr ⟨market, h, mem_cons_self⟩
  refine applyAll_of_mem (P := fun tables : GraphTables V =>
    market.id ∈ tables.executableMarkets.map (·.id)) hwrite ?_ (fun w _ => ids_apply w) tables
  exact fun _ => (ids_upsert market.row _ market.id).mpr (.inl rfl)

theorem current_iff (snapshot : CanonicalGraphSnapshot V) :
    Current snapshot (persisted snapshot tables) ↔ NotInTheWay snapshot tables := by
  refine forall_congr' fun profile => forall_congr' fun _ => ?_
  refine exists_congr fun earlier => exists_congr fun market => exists_congr fun later => ?_
  refine and_congr_right fun hassigns => ?_
  have hstored : market ∈ snapshot.executableMarkets := by
    rw [hassigns.markets]
    exact mem_append_right _ mem_cons_self
  have hone : (∀ marketId, ⟨marketId, profile.id⟩ ∈ (persisted snapshot tables).members.rows ↔
      marketId = market.id) ↔
      (persisted snapshot tables).members.owner profile.id = some market.id := by
    simp only [← owner_eq_some]
    constructor
    · exact fun h => (h market.id).mpr rfl
    · intro h marketId
      rw [h, Option.some.injEq, eq_comm]
  rw [hone, owner_persisted, ends_in_own_iff hassigns]
  simp only [owner_eq_some]
  exact and_iff_right (ids_persisted hstored)

end

/-- A call that has a connection out of a transaction for itself is all or nothing, and leaves
every profile in its own market exactly where no row was in the way. -/
theorem persistSnapshot_atomic_iff (snapshot : CanonicalGraphSnapshot V)
    {pool : Pool (Statement V) (GraphTables V)} {c : ℕ}
    {t : System (Statement V) (GraphTables V)} (hheld : ∀ d, pool.held d = [])
    (hnone : pool.transaction c = none)
    (hrun : Run (step apply (persistSnapshot snapshot)) (Alone c) ⟨pool, .beginning⟩ t) :
    AtomicAndCurrent snapshot pool.tables t ↔
      (t.phase = .returned → NotInTheWay snapshot pool.tables) := by
  have htables := tables_of_run hheld hnone hrun
  unfold AtomicAndCurrent
  cases hphase : t.phase with
  | returned =>
    rw [hphase] at htables
    show t.pool.tables = _ ∧ _ ↔ _
    have hpersisted : t.pool.tables = persisted snapshot pool.tables := htables
    rw [hpersisted, current_iff]
    simp
  | beginning | writing | rollingBack | threw =>
    rw [hphase] at htables
    exact iff_of_true htables nofun

/-! ### Two profiles that are equivalent no longer -/

def rainA : VenueMarketProfile := ⟨"a", .POLYMARKET, "rain", .BINARY⟩

def rainB : VenueMarketProfile := ⟨"b", .LIMITLESS, "rain", .BINARY⟩

def rainMarket (profile : VenueMarketProfile) (component : List String) :
    CanonicalExecutableMarket :=
  executableMarket compare id "e" [rainA, rainB] profile component

def rainSnapshot (markets : List CanonicalExecutableMarket) : CanonicalGraphSnapshot Unit where
  canonicalEvents := [⟨"e", ()⟩]
  venueMarketProfiles := [⟨"a", .POLYMARKET, "1", ()⟩, ⟨"b", .LIMITLESS, "2", ()⟩]
  propositionFingerprints := []
  resolutionProfiles := []
  settlementProfiles := []
  compatibilityEdges := []
  executableMarkets := markets

def joinedRain : CanonicalGraphSnapshot Unit := rainSnapshot [rainMarket rainA ["a", "b"]]

def partedRain : CanonicalGraphSnapshot Unit :=
  rainSnapshot [rainMarket rainA ["a"], rainMarket rainB ["b"]]

def noTables : GraphTables Unit where
  canonicalEvents := []
  venueMarketProfiles := []
  propositionFingerprints := []
  venueResolutionProfiles := []
  venueSettlementProfiles := []
  compatibilityEdges := []
  executableMarkets := []
  members := ⟨[], nodup_nil⟩

def starting (tables : GraphTables Unit) : System (Statement Unit) (GraphTables Unit) :=
  ⟨⟨tables, fun _ => none⟩, .beginning⟩

def onOne (writes : ℕ) : List Action := List.replicate (writes + 2) (.own 0 false)

/-- The `BEGIN` on one connection and the first write on another one, before a write fails. -/
def misrouted : List Action :=
  [.own 0 false, .own 1 false, .own 0 true, .own 0 false]

/-- From tables without rows, the joined snapshot is persisted and current. -/
theorem joinedRain_persisted :
    ∃ t, Run (step apply (persistSnapshot joinedRain)) (Alone 0) (starting noTables) t ∧
      t.phase = .returned ∧ AtomicAndCurrent joinedRain noTables t := by
  have hplay : (play (step apply (persistSnapshot joinedRain)) (Alone 0) (onOne 7)
      (starting noTables)).map (·.phase) = some .returned := by decide +kernel
  obtain ⟨t, ht, hphase⟩ := Option.map_eq_some_iff.mp hplay
  have hrun := Run.of_play (onOne 7) ht
  refine ⟨t, hrun, hphase, ?_⟩
  refine (persistSnapshot_atomic_iff joinedRain (fun _ => rfl) rfl hrun).mpr fun _ => ?_
  intro profile hprofile
  refine ⟨[], rainMarket rainA ["a", "b"], [], ⟨rfl, ?_, nofun⟩, nofun, nofun⟩
  revert profile
  decide

/-- A write that lands on another connection stays where the call throws; and after the joined
snapshot, the parted one leaves both profiles in the market they were in. -/
theorem partedRain_not_persisted :
    (∃ t, Reaches (step apply (persistSnapshot partedRain)) (starting noTables) t ∧
      t.phase = .threw ∧ ¬ AtomicAndCurrent partedRain noTables t) ∧
    ∃ t, Reaches (step apply (persistSnapshot partedRain))
        (starting (persisted joinedRain noTables)) t ∧
      t.phase = .returned ∧ ¬ AtomicAndCurrent partedRain (persisted joinedRain noTables) t := by
  constructor
  · have hplay : (play (step apply (persistSnapshot partedRain)) (fun _ _ => True)
        misrouted (starting noTables)).map (fun t => (t.phase, t.pool.tables.canonicalEvents)) =
        some (.threw, [⟨"e", ()⟩]) := by decide +kernel
    obtain ⟨t, ht, hends⟩ := Option.map_eq_some_iff.mp hplay
    have hphase : t.phase = .threw := congrArg Prod.fst hends
    have hevents : t.pool.tables.canonicalEvents = [⟨"e", ()⟩] := congrArg Prod.snd hends
    refine ⟨t, Run.of_play misrouted ht, hphase, ?_⟩
    intro hatomic
    unfold AtomicAndCurrent at hatomic
    rw [hphase] at hatomic
    have htables : t.pool.tables = noTables := hatomic
    rw [htables] at hevents
    exact absurd hevents (by decide)
  · have hplay : (play (step apply (persistSnapshot partedRain)) (fun _ _ => True)
        (onOne 9) (starting (persisted joinedRain noTables))).map (·.phase) = some .returned := by
      decide +kernel
    obtain ⟨t, ht, hphase⟩ := Option.map_eq_some_iff.mp hplay
    refine ⟨t, Run.of_play (onOne 9) ht, hphase, ?_⟩
    intro hatomic
    unfold AtomicAndCurrent at hatomic
    rw [hphase] at hatomic
    have hcurrent : Current partedRain (persisted partedRain (persisted joinedRain noTables)) :=
      hatomic.1 ▸ hatomic.2
    -- the row of the first profile is the one the joined snapshot left
    have hstale : ⟨(rainMarket rainA ["a", "b"]).id, "a"⟩ ∈
        (persisted partedRain (persisted joinedRain noTables)).members.rows :=
      stale_kept (by decide +kernel) (by decide +kernel)
    obtain ⟨earlier, market, later, hassigns, -, hone⟩ :=
      hcurrent ⟨"a", .POLYMARKET, "1", ()⟩ mem_cons_self
    have hid := (hone _).mp hstale
    have hmarket : market.id ∈ partedRain.executableMarkets.map (·.id) := by
      rw [hassigns.markets]
      exact mem_map_of_mem (mem_append_right _ mem_cons_self)
    rw [← hid] at hmarket
    revert hmarket
    decide +kernel

end LotusRfq.Canonical
