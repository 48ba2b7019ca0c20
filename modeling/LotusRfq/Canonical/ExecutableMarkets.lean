import LotusRfq.Lib.Components
import LotusRfq.Lib.OrderedMap
import LotusRfq.Common.Js

/-!
# LotusRfq — canonical executable markets

`CanonicalExecutableMarketBuilder.build`: venue market profiles are grouped into executable
markets by walking the `EQUIVALENT` compatibility edges between them.

The walk is `Components.walk` with the empty identifier as the skipped node, because the loop
of `walkComponent` drops a popped identifier that is falsy. Two runtime functions stay
parameters: `localeCompare`, and the digest behind `buildStableTextId`. Timestamps are left
out.

* **`edge_adjacency`** — what the adjacency map holds, in terms of profiles and edges;
* **`memberProfileIds_build`** — the member lists of the markets are the sorted components.
-/

namespace LotusRfq.Canonical

open LotusRfq.Js Components List

/-! ## Data -/

/-- `compatibilityClassValues`. -/
inductive CompatibilityClass where
  | EQUIVALENT
  | COMPATIBLE_WITH_CAUTION
  | DISTINCT
  | DO_NOT_POOL
  deriving DecidableEq

/-- `canonicalMarketClassValues`. -/
inductive CanonicalMarketClass where
  | BINARY
  | CATEGORICAL
  | SCALAR
  | MULTI_OUTCOME
  | UNKNOWN
  deriving DecidableEq

/-- `canonicalVenueValues`. -/
inductive CanonicalVenue where
  | POLYMARKET
  | LIMITLESS
  | OPINION
  | MYRIAD
  | PREDICT
  deriving DecidableEq

/-- The only `compatibilityPolicy` of an executable market. -/
inductive CompatibilityPolicy where
  | EQUIVALENT_ONLY
  deriving DecidableEq

structure VenueMarketProfile where
  id : String
  venue : CanonicalVenue
  title : String
  marketClass : CanonicalMarketClass

/-- A scored edge between two profiles. -/
structure CompatibilityEdge where
  marketAProfileId : String
  marketBProfileId : String
  compatibilityClass : CompatibilityClass
  deriving DecidableEq

structure MarketMetadata where
  memberCount : ℕ
  venues : List CanonicalVenue
  deriving DecidableEq

structure CanonicalExecutableMarket where
  id : String
  canonicalEventId : String
  displayName : String
  marketClass : CanonicalMarketClass
  compatibilityPolicy : CompatibilityPolicy
  riskClass : CompatibilityClass
  memberProfileIds : List String
  metadata : MarketMetadata

/-! ## The builder -/

/-- `adjacency.set(profile.id, new Set([profile.id]))` for every profile. -/
def profileNodes (profiles : List VenueMarketProfile) : Adjacency String :=
  profiles.foldl (fun adjacency profile => OrderedMap.set profile.id [profile.id] adjacency) []

/-- One round of the edge loop: both `adjacency.get(..)?.add(..)`, or `continue`. -/
def addEdge (adjacency : Adjacency String) (edge : CompatibilityEdge) : Adjacency String :=
  if edge.compatibilityClass ≠ .EQUIVALENT then adjacency
  else
    let adjacency := OrderedMap.modify edge.marketAProfileId
      (OrderedMap.addNew · edge.marketBProfileId) adjacency
    OrderedMap.modify edge.marketBProfileId
      (OrderedMap.addNew · edge.marketAProfileId) adjacency

/-- The adjacency map `build` walks. -/
def adjacencyOf (profiles : List VenueMarketProfile) (edges : List CompatibilityEdge) :
    Adjacency String :=
  edges.foldl addEdge (profileNodes profiles)

/-- `!current`: the empty string is falsy. -/
def falsy (id : String) : Bool := id == ""

/-- `walkComponent`, with the visited set it leaves behind. -/
def walkComponent (rootId : String) (adjacency : Adjacency String) (visited : List String) :
    List String × List String :=
  let members := walk falsy adjacency [rootId] visited
  (members, visited ++ members)

/-- `buildStableTextId`: the prefix and 24 characters of the digest. -/
def buildStableTextId (stableHash : String → String) (idPrefix input : String) : String :=
  idPrefix ++ String.ofList ((stableHash input).toList.take 24)

section Build

variable (localeCompare : String → String → Ordering) (stableHash : String → String)
variable (canonicalEventId : String) (profiles : List VenueMarketProfile)

/-- The market pushed for one component; `profile` is the one whose turn it is. -/
def executableMarket (profile : VenueMarketProfile) (component : List String) :
    CanonicalExecutableMarket :=
  let sortedMembers := sortWith localeCompare component
  let representative :=
    (profiles.find? fun candidate => some candidate.id = sortedMembers.head?).getD profile
  { id := buildStableTextId stableHash "cem_"
      (canonicalEventId ++ "|" ++ "|".intercalate sortedMembers)
    canonicalEventId := canonicalEventId
    displayName := representative.title
    marketClass := representative.marketClass
    compatibilityPolicy := .EQUIVALENT_ONLY
    riskClass := .EQUIVALENT
    memberProfileIds := sortedMembers
    metadata :=
      { memberCount := sortedMembers.length
        venues := sortedMembers.filterMap fun memberId =>
          (profiles.find? fun candidate => candidate.id = memberId).map (·.venue) } }

/-- One round of the profile loop, over the visited set and the markets pushed so far. -/
def buildStep (adjacency : Adjacency String)
    (state : List String × List CanonicalExecutableMarket) (profile : VenueMarketProfile) :
    List String × List CanonicalExecutableMarket :=
  let (visited, executableMarkets) := state
  if profile.id ∈ visited then (visited, executableMarkets)
  else
    let (component, visited) := walkComponent profile.id adjacency visited
    (visited, executableMarkets ++
      [executableMarket localeCompare stableHash canonicalEventId profiles profile component])

/-- `CanonicalExecutableMarketBuilder.build`. -/
def build (edges : List CompatibilityEdge) : List CanonicalExecutableMarket :=
  let adjacency := adjacencyOf profiles edges
  let ordered := sortWith (fun left right => localeCompare left.id right.id) profiles
  (ordered.foldl (buildStep localeCompare stableHash canonicalEventId profiles adjacency)
    ([], [])).2

end Build

/-! ## What the adjacency map holds -/

/-- An `EQUIVALENT` edge between `x` and `y`, in either direction. -/
def EquivalentEdge (edges : List CompatibilityEdge) (x y : String) : Prop :=
  ∃ edge ∈ edges, edge.compatibilityClass = .EQUIVALENT ∧
    (edge.marketAProfileId = x ∧ edge.marketBProfileId = y ∨
      edge.marketBProfileId = x ∧ edge.marketAProfileId = y)

variable (profiles : List VenueMarketProfile)

theorem lookup_profileNodes (x : String) :
    (profileNodes profiles).lookup x = if x ∈ profiles.map (·.id) then some [x] else none := by
  -- the fold is read back to front: the last write of a key is the one that is seen
  induction profiles using List.reverseRecOn with
  | nil => simp [profileNodes]
  | append_singleton profiles profile ih =>
    rw [profileNodes, foldl_append, foldl_cons, foldl_nil,
      OrderedMap.lookup_set, ← profileNodes, ih]
    by_cases h : x = profile.id <;> simp [h]

theorem edge_addEdge (adjacency : Adjacency String) (edge : CompatibilityEdge) (x y : String) :
    Edge (addEdge adjacency edge) x y ↔
      Edge adjacency x y ∨ ((adjacency.lookup x).isSome = true ∧ EquivalentEdge [edge] x y) := by
  by_cases hclass : edge.compatibilityClass = .EQUIVALENT
  · simp only [Edge, addEdge, hclass, ne_eq, not_true_eq_false, if_false,
      OrderedMap.lookup_modify, EquivalentEdge, mem_singleton, exists_eq_left, true_and]
    rcases hx : adjacency.lookup x with _ | ns
    · by_cases hb : x = edge.marketBProfileId <;> by_cases ha : x = edge.marketAProfileId <;> grind
    · by_cases hb : x = edge.marketBProfileId <;> by_cases ha : x = edge.marketAProfileId <;>
        grind [OrderedMap.mem_addNew]
  · simp [Edge, addEdge, EquivalentEdge, hclass]

theorem isSome_lookup_addEdge (adjacency : Adjacency String) (edge : CompatibilityEdge)
    (x : String) : ((addEdge adjacency edge).lookup x).isSome = (adjacency.lookup x).isSome := by
  rw [addEdge]
  split
  · rfl
  · rw [OrderedMap.lookup_modify, OrderedMap.lookup_modify, OrderedMap.lookup_modify]
    split_ifs <;> simp_all

theorem isSome_lookup_adjacencyOf
    (edges : List CompatibilityEdge) (x : String) :
    ((adjacencyOf profiles edges).lookup x).isSome = true ↔ x ∈ profiles.map (·.id) := by
  induction edges using List.reverseRecOn with
  | nil =>
    rw [adjacencyOf, foldl_nil, lookup_profileNodes]
    split_ifs <;> simp_all
  | append_singleton edges edge ih =>
    rw [adjacencyOf, foldl_append, foldl_cons, foldl_nil, isSome_lookup_addEdge]
    exact ih

/-- **The adjacency map.** A profile is its own neighbour and the neighbour of whatever an
`EQUIVALENT` edge joins it to; nothing else has neighbours. -/
theorem edge_adjacency (edges : List CompatibilityEdge)
    (x y : String) : Edge (adjacencyOf profiles edges) x y ↔
      x ∈ profiles.map (·.id) ∧ (x = y ∨ EquivalentEdge edges x y) := by
  induction edges using List.reverseRecOn with
  | nil =>
    rw [adjacencyOf, foldl_nil, Edge, lookup_profileNodes]
    split_ifs with h <;> simp [h, EquivalentEdge, eq_comm]
  | append_singleton edges edge ih =>
    have hsplit : EquivalentEdge (edges ++ [edge]) x y ↔
        EquivalentEdge edges x y ∨ EquivalentEdge [edge] x y := by
      simp [EquivalentEdge, or_and_right, exists_or]
    rw [adjacencyOf, foldl_append, foldl_cons, foldl_nil, edge_addEdge,
      ← adjacencyOf, ih, isSome_lookup_adjacencyOf, hsplit]
    tauto

/-! ## What the profile loop pushes -/

section Build

variable (localeCompare : String → String → Ordering) (stableHash : String → String)
variable (canonicalEventId : String) (profiles : List VenueMarketProfile)

/-- Before sorting, the member lists are the components found from the profiles in turn. -/
theorem memberProfileIds_foldl (adjacency : Adjacency String)
    (ordered : List VenueMarketProfile) (visited : List String)
    (markets : List CanonicalExecutableMarket) :
    (ordered.foldl (buildStep localeCompare stableHash canonicalEventId profiles adjacency)
        (visited, markets)).2.map (·.memberProfileIds) =
      markets.map (·.memberProfileIds) ++
        (components falsy adjacency (ordered.map (·.id)) visited).map (sortWith localeCompare) := by
  induction ordered generalizing visited markets with
  | nil => simp [components]
  | cons profile ordered ih =>
    rw [foldl_cons, map_cons, components]
    by_cases hvisited : profile.id ∈ visited
    · simp only [buildStep, if_pos hvisited, ih]
    · simp only [buildStep, if_neg hvisited, walkComponent, ih]
      simp [executableMarket]

theorem memberProfileIds_build (edges : List CompatibilityEdge) :
    (build localeCompare stableHash canonicalEventId profiles edges).map (·.memberProfileIds) =
      (components falsy (adjacencyOf profiles edges)
        ((sortWith (fun left right => localeCompare left.id right.id) profiles).map (·.id))
        []).map (sortWith localeCompare) := by
  rw [build, memberProfileIds_foldl]
  simp

theorem mem_foldl_buildStep (adjacency : Adjacency String)
    (ordered : List VenueMarketProfile) (visited : List String)
    (markets : List CanonicalExecutableMarket) : ∀ market ∈ (ordered.foldl
        (buildStep localeCompare stableHash canonicalEventId profiles adjacency)
        (visited, markets)).2,
      market ∈ markets ∨ ∃ profile ∈ ordered, ∃ component,
        market = executableMarket localeCompare stableHash canonicalEventId profiles profile
          component := by
  induction ordered generalizing visited markets with
  | nil => exact fun market h => Or.inl h
  | cons profile ordered ih =>
    intro market hmarket
    rw [foldl_cons, buildStep] at hmarket
    split at hmarket
    · rcases ih _ _ market hmarket with h | ⟨p, hp, c, h⟩
      · exact Or.inl h
      · exact Or.inr ⟨p, mem_cons_of_mem _ hp, c, h⟩
    · rcases ih _ _ market hmarket with h | ⟨p, hp, c, h⟩
      · rcases mem_append.mp h with h | h
        · exact Or.inl h
        · exact Or.inr ⟨profile, mem_cons_self, _, mem_singleton.mp h⟩
      · exact Or.inr ⟨p, mem_cons_of_mem _ hp, c, h⟩

theorem mem_build (edges : List CompatibilityEdge) :
    ∀ market ∈ build localeCompare stableHash canonicalEventId profiles edges,
      ∃ profile ∈ profiles, ∃ component,
        market = executableMarket localeCompare stableHash canonicalEventId profiles profile
          component := by
  intro market hmarket
  rcases mem_foldl_buildStep _ _ _ _ _ _ _ _ market hmarket with h | ⟨p, hp, c, h⟩
  · simp at h
  · exact ⟨p, mem_sortWith.mp hp, c, h⟩

end Build

end LotusRfq.Canonical
