import LotusRfq.Canonical.ExecutableMarkets

/-!
# LotusRfq — are executable markets pairwise equivalent?

An executable market carries the policy `EQUIVALENT_ONLY`, yet it is a connected component of
the `EQUIVALENT` edges, and the scored classes are not transitive. The curated path refuses a
market with a non-equivalent pair; this builder does not look.

* **`partition_build`** — the partition is the set of connectivity classes of the profiles;
* **`partition_perm`** — hence it depends on neither order;
* **`pairwiseEquivalent_iff`** — the markets are what their policy says exactly when no edge of
  a lesser class joins two profiles that `EQUIVALENT` edges connect.
-/

namespace LotusRfq.Canonical

open LotusRfq.Js Components List

/-- The member sets of a list of markets, with all order forgotten. -/
def partition (markets : List CanonicalExecutableMarket) : Set (Set String) :=
  {members | ∃ market ∈ markets, members = {id | id ∈ market.memberProfileIds}}

def EdgesBetween (profiles : List VenueMarketProfile) (edges : List CompatibilityEdge) : Prop :=
  ∀ edge ∈ edges, edge.marketAProfileId ∈ profiles.map (·.id) ∧
    edge.marketBProfileId ∈ profiles.map (·.id)

/-- What the policy of an executable market promises of the whole output: every profile is
listed once, the partition ignores the order of the input, and no market holds both ends of an
edge of a lesser class. -/
structure PairwiseEquivalent (localeCompare : String → String → Ordering)
    (stableHash : String → String) (canonicalEventId : String)
    (profiles : List VenueMarketProfile) (edges : List CompatibilityEdge) : Prop where
  exactlyOne : ∀ profile ∈ profiles,
    ((build localeCompare stableHash canonicalEventId profiles edges).flatMap
      (·.memberProfileIds)).count profile.id = 1
  orderFree : ∀ profiles' edges', profiles'.Perm profiles → edges'.Perm edges →
    partition (build localeCompare stableHash canonicalEventId profiles' edges') =
      partition (build localeCompare stableHash canonicalEventId profiles edges)
  noLesserEdge : ∀ market ∈ build localeCompare stableHash canonicalEventId profiles edges,
    market.compatibilityPolicy = .EQUIVALENT_ONLY ∧ market.riskClass = .EQUIVALENT ∧
      ∀ edge ∈ edges, edge.compatibilityClass ≠ .EQUIVALENT →
        edge.marketAProfileId ≠ edge.marketBProfileId →
        ¬ (edge.marketAProfileId ∈ market.memberProfileIds ∧
            edge.marketBProfileId ∈ market.memberProfileIds)

variable (localeCompare : String → String → Ordering) (stableHash : String → String)
variable (canonicalEventId : String)

/-! ## Connectivity of profiles -/

variable {edges : List CompatibilityEdge} {x y : String} {profiles : List VenueMarketProfile}

theorem EquivalentEdge.symm (h : EquivalentEdge edges x y) : EquivalentEdge edges y x := by
  obtain ⟨edge, hedge, hclass, hends⟩ := h
  exact ⟨edge, hedge, hclass, hends.symm.imp And.symm And.symm⟩

section

variable {profiles : List VenueMarketProfile} {edges : List CompatibilityEdge}
  (hbetween : EdgesBetween profiles edges)

include hbetween

theorem EdgesBetween.right_mem (h : EquivalentEdge edges x y) : y ∈ profiles.map (·.id) := by
  obtain ⟨edge, hedge, -, ⟨-, rfl⟩ | ⟨-, rfl⟩⟩ := h
  · exact (hbetween edge hedge).2
  · exact (hbetween edge hedge).1

theorem step_symm (x y : String) (h : Step falsy (adjacencyOf profiles edges) x y) :
    Step falsy (adjacencyOf profiles edges) y x := by
  obtain ⟨hx, hy, hedge⟩ := h
  rw [edge_adjacency] at hedge
  refine ⟨hy, hx, (edge_adjacency ..).mpr ?_⟩
  obtain ⟨hmem, rfl | hedge⟩ := hedge
  · exact ⟨hmem, Or.inl rfl⟩
  · exact ⟨hbetween.right_mem hedge, Or.inr hedge.symm⟩

/-- Without empty identifiers, the walk's connectivity from a profile is connectivity along
`EQUIVALENT` edges. -/
theorem connected_iff (hids : ∀ profile ∈ profiles, profile.id ≠ "")
    (hx : x ∈ profiles.map (·.id)) : Connected falsy (adjacencyOf profiles edges) x y ↔
      Relation.ReflTransGen (EquivalentEdge edges) x y := by
  have htruthy : ∀ z ∈ profiles.map (·.id), falsy z = false := by
    intro z hz
    obtain ⟨profile, hprofile, rfl⟩ := mem_map.mp hz
    simpa [falsy] using hids profile hprofile
  constructor
  · intro h
    induction h with
    | refl => exact .refl
    | tail _ hstep ih =>
      obtain ⟨-, rfl | hedge⟩ := (edge_adjacency ..).mp hstep.2.2
      · exact ih
      · exact ih.tail hedge
  · intro h
    -- along the path every node is a profile, so no step is skipped
    suffices hboth : y ∈ profiles.map (·.id) ∧
        Connected falsy (adjacencyOf profiles edges) x y from hboth.2
    induction h with
    | refl => exact ⟨hx, .refl⟩
    | tail _ hedge ih =>
      have hz := hbetween.right_mem hedge
      refine ⟨hz, ih.2.tail ⟨htruthy _ ih.1, htruthy _ hz, ?_⟩⟩
      exact (edge_adjacency ..).mpr ⟨ih.1, Or.inr hedge⟩

end

/-! ## The partition -/

theorem mem_map_memberProfileIds {members : List String} :
    (∃ market ∈ build localeCompare stableHash canonicalEventId profiles edges,
        market.memberProfileIds = members) ↔
      ∃ c ∈ components falsy (adjacencyOf profiles edges)
        ((sortWith (fun left right => localeCompare left.id right.id) profiles).map (·.id)) [],
        sortWith localeCompare c = members := by
  have h := memberProfileIds_build localeCompare stableHash canonicalEventId profiles edges
  have hmem := congrArg (members ∈ ·) h
  simpa only [mem_map, eq_iff_iff] using hmem

theorem mem_sorted_ids :
    x ∈ (sortWith (fun left right => localeCompare left.id right.id) profiles).map (·.id) ↔
      x ∈ profiles.map (·.id) := by
  simp

/-- **The partition.** One block for each profile: what the walk connects it to. -/
theorem partition_build (hbetween : EdgesBetween profiles edges) :
    partition (build localeCompare stableHash canonicalEventId profiles edges) =
      {members | ∃ id ∈ profiles.map (·.id), members =
        {x | falsy id = false ∧ Connected falsy (adjacencyOf profiles edges) id x}} := by
  have hsymm := step_symm hbetween
  have hclosed : Closed falsy (adjacencyOf profiles edges) [] := fun x hx => by simp at hx
  ext members
  constructor
  · rintro ⟨market, hmarket, rfl⟩
    obtain ⟨c, hc, hsorted⟩ :=
      (mem_map_memberProfileIds localeCompare stableHash canonicalEventId).mp ⟨market, hmarket, rfl⟩
    obtain ⟨id, hid, hclass⟩ := components_sound hsymm _ hclosed c hc
    refine ⟨id, (mem_sorted_ids localeCompare).mp hid, ?_⟩
    ext x
    rw [Set.mem_ofPred_eq, Set.mem_ofPred_eq, ← hsorted, mem_sortWith]
    exact hclass x
  · rintro ⟨id, hid, rfl⟩
    obtain ⟨c, hc, hclass⟩ := components_total hsymm _ hclosed
      ((mem_sorted_ids localeCompare).mpr hid) (by simp)
    obtain ⟨market, hmarket, hsorted⟩ :=
      (mem_map_memberProfileIds localeCompare stableHash canonicalEventId).mpr ⟨c, hc, rfl⟩
    refine ⟨market, hmarket, ?_⟩
    ext x
    rw [Set.mem_ofPred_eq, Set.mem_ofPred_eq, hsorted, mem_sortWith]
    exact (hclass x).symm

/-- The walk's edges depend on which profiles and edges there are, not on their order. -/
theorem step_perm {profiles' : List VenueMarketProfile} {edges' : List CompatibilityEdge}
    (hprofiles : profiles'.Perm profiles) (hedges : edges'.Perm edges) :
    Step falsy (adjacencyOf profiles' edges') = Step falsy (adjacencyOf profiles edges) := by
  have hequiv : ∀ x y, EquivalentEdge edges' x y ↔ EquivalentEdge edges x y := by
    intro x y
    simp only [EquivalentEdge, hedges.mem_iff]
  ext x y
  simp only [Step, edge_adjacency, (hprofiles.map (·.id)).mem_iff, hequiv]

/-- **Order is irrelevant.** Permuting profiles and edges leaves the partition as it is. -/
theorem partition_perm {profiles' : List VenueMarketProfile} {edges' : List CompatibilityEdge}
    (hbetween : EdgesBetween profiles edges) (hprofiles : profiles'.Perm profiles)
    (hedges : edges'.Perm edges) :
    partition (build localeCompare stableHash canonicalEventId profiles' edges') =
      partition (build localeCompare stableHash canonicalEventId profiles edges) := by
  have hids : ∀ id, id ∈ profiles'.map (·.id) ↔ id ∈ profiles.map (·.id) := fun _ =>
    (hprofiles.map (·.id)).mem_iff
  have hbetween' : EdgesBetween profiles' edges' := fun edge hedge =>
    have h := hbetween edge (hedges.mem_iff.mp hedge)
    ⟨(hids _).mpr h.1, (hids _).mpr h.2⟩
  rw [partition_build _ _ _ hbetween', partition_build _ _ _ hbetween]
  simp only [Connected, step_perm hprofiles hedges, hids]

/-! ## Membership in a market -/

theorem count_build (profiles : List VenueMarketProfile) (edges : List CompatibilityEdge)
    (id : String) : ((build localeCompare stableHash canonicalEventId profiles edges).flatMap
        (·.memberProfileIds)).count id =
      (components falsy (adjacencyOf profiles edges)
        ((sortWith (fun left right => localeCompare left.id right.id) profiles).map (·.id))
        []).flatten.count id := by
  rw [flatMap_def, memberProfileIds_build]
  -- sorting inside the blocks does not change what they list
  generalize components falsy (adjacencyOf profiles edges) _ _ = cs
  induction cs with
  | nil => rfl
  | cons c cs ih =>
    rw [map_cons, flatten_cons, flatten_cons, count_append,
      count_append, ih, (sortWith_perm localeCompare c).count_eq]

section

variable {profiles : List VenueMarketProfile} {edges : List CompatibilityEdge}
  (hbetween : EdgesBetween profiles edges)

include hbetween

theorem empty_not_mem : ∀ market ∈ build localeCompare stableHash canonicalEventId profiles edges,
      "" ∉ market.memberProfileIds := by
  intro market hmarket hmem
  have hblock : {id | id ∈ market.memberProfileIds} ∈
      partition (build localeCompare stableHash canonicalEventId profiles edges) :=
    ⟨market, hmarket, rfl⟩
  rw [partition_build _ _ _ hbetween] at hblock
  obtain ⟨id, -, hmembers⟩ := hblock
  have hempty : "" ∈ {id | id ∈ market.memberProfileIds} := hmem
  rw [hmembers] at hempty
  obtain ⟨hskip, hconn⟩ := hempty
  -- a path ends at a node that is not skipped, unless it is the root itself
  rcases Relation.ReflTransGen.cases_tail hconn with rfl | ⟨z, -, hstep⟩
  · simp [falsy] at hskip
  · simpa [falsy] using hstep.2.1

theorem share_market_iff (hids : ∀ profile ∈ profiles, profile.id ≠ "")
    (hx : x ∈ profiles.map (·.id)) :
    (∃ market ∈ build localeCompare stableHash canonicalEventId profiles edges,
        x ∈ market.memberProfileIds ∧ y ∈ market.memberProfileIds) ↔
      Relation.ReflTransGen (EquivalentEdge edges) x y := by
  have hpart := partition_build localeCompare stableHash canonicalEventId hbetween
  have hsymm := step_symm hbetween
  constructor
  · rintro ⟨market, hmarket, hxm, hym⟩
    have hblock : {id | id ∈ market.memberProfileIds} ∈
        partition (build localeCompare stableHash canonicalEventId profiles edges) :=
      ⟨market, hmarket, rfl⟩
    rw [hpart] at hblock
    obtain ⟨id, -, hmembers⟩ := hblock
    have hx' : x ∈ {id | id ∈ market.memberProfileIds} := hxm
    have hy' : y ∈ {id | id ∈ market.memberProfileIds} := hym
    rw [hmembers] at hx' hy'
    exact (connected_iff hbetween hids hx).mp ((hx'.2.symm hsymm).trans hy'.2)
  · intro hconn
    have hconn' := (connected_iff hbetween hids hx).mpr hconn
    have hskip : falsy x = false := by
      obtain ⟨profile, hprofile, rfl⟩ := mem_map.mp hx
      simpa [falsy] using hids profile hprofile
    have hblock : {z | falsy x = false ∧ Connected falsy (adjacencyOf profiles edges) x z} ∈
        partition (build localeCompare stableHash canonicalEventId profiles edges) := by
      rw [hpart]
      exact ⟨x, hx, rfl⟩
    obtain ⟨market, hmarket, hmembers⟩ := hblock
    have hmem : ∀ z, falsy x = false ∧ Connected falsy (adjacencyOf profiles edges) x z →
        z ∈ market.memberProfileIds := by
      intro z hz
      have hz' : z ∈ {w | falsy x = false ∧ Connected falsy (adjacencyOf profiles edges) x w} := hz
      rw [hmembers] at hz'
      exact hz'
    exact ⟨market, hmarket, hmem x ⟨hskip, .refl⟩, hmem y ⟨hskip, hconn'⟩⟩

theorem count_profile {profile : VenueMarketProfile} (hprofile : profile ∈ profiles)
    (hid : profile.id ≠ "") :
    ((build localeCompare stableHash canonicalEventId profiles edges).flatMap
      (·.memberProfileIds)).count profile.id = 1 := by
  rw [count_build]
  refine count_flatten_components (step_symm hbetween) _ (fun x hx => by simp at hx)
    (r := profile.id) ?_ (by simpa [falsy] using hid) .refl (by simp)
  exact (mem_sorted_ids localeCompare).mpr (mem_map_of_mem hprofile)

end

/-! ## Exactly when the policy holds -/

/-- **Pairwise equivalence.** The output is what the market policy promises if and only if no
profile has the empty identifier and no edge of a lesser class joins two profiles that a chain
of `EQUIVALENT` edges connects. -/
theorem pairwiseEquivalent_iff (profiles : List VenueMarketProfile)
    (edges : List CompatibilityEdge) (hbetween : EdgesBetween profiles edges) :
    PairwiseEquivalent localeCompare stableHash canonicalEventId profiles edges ↔
      (∀ profile ∈ profiles, profile.id ≠ "") ∧
        ∀ edge ∈ edges, edge.compatibilityClass ≠ .EQUIVALENT →
          edge.marketAProfileId ≠ edge.marketBProfileId →
          ¬ Relation.ReflTransGen (EquivalentEdge edges)
              edge.marketAProfileId edge.marketBProfileId := by
  constructor
  · intro h
    have hids : ∀ profile ∈ profiles, profile.id ≠ "" := by
      intro profile hprofile hid
      -- the empty identifier is never listed, so it is not listed once
      have hone := h.exactlyOne profile hprofile
      have hmem := count_pos_iff.mp (by rw [hone]; exact Nat.one_pos)
      obtain ⟨market, hmarket, hmem⟩ := mem_flatMap.mp hmem
      exact empty_not_mem _ _ _ hbetween market hmarket (hid ▸ hmem)
    refine ⟨hids, fun edge hedge hclass hne hconn => ?_⟩
    obtain ⟨market, hmarket, hboth⟩ :=
      (share_market_iff localeCompare stableHash canonicalEventId hbetween hids
        (hbetween edge hedge).1).mpr hconn
    exact (h.noLesserEdge market hmarket).2.2 edge hedge hclass hne hboth
  · rintro ⟨hids, hlesser⟩
    refine ⟨fun profile hprofile => ?_, fun profiles' edges' hp he => ?_,
      fun market hmarket => ?_⟩
    · exact count_profile _ _ _ hbetween hprofile (hids profile hprofile)
    · exact partition_perm _ _ _ hbetween hp he
    · obtain ⟨profile, -, component, hpushed⟩ := mem_build _ _ _ _ _ market hmarket
      have hpolicy : market.compatibilityPolicy = .EQUIVALENT_ONLY ∧
          market.riskClass = .EQUIVALENT := by
        subst hpushed
        exact ⟨rfl, rfl⟩
      refine ⟨hpolicy.1, hpolicy.2, ?_⟩
      intro edge hedge hclass hne hboth
      exact hlesser edge hedge hclass hne
        ((share_market_iff localeCompare stableHash canonicalEventId hbetween hids
          (hbetween edge hedge).1).mp ⟨market, hmarket, hboth⟩)

/-! ## Three profiles in a chain

`pm` resolves a day before `ll` and `ll` a day before `op`: each neighbouring pair scores
`EQUIVALENT`, the outer pair is too far apart and scores `COMPATIBLE_WITH_CAUTION`. -/

def chainProfiles : List VenueMarketProfile :=
  [⟨"pm", .POLYMARKET, "Rate cut in June", .BINARY⟩,
   ⟨"ll", .LIMITLESS, "June rate cut", .BINARY⟩,
   ⟨"op", .OPINION, "Rates cut in June", .BINARY⟩]

def chainEdges : List CompatibilityEdge :=
  [⟨"ll", "pm", .EQUIVALENT⟩, ⟨"ll", "op", .EQUIVALENT⟩, ⟨"op", "pm", .COMPATIBLE_WITH_CAUTION⟩]

theorem chain_edgesBetween : EdgesBetween chainProfiles chainEdges := by
  unfold EdgesBetween
  decide

/-- The chain becomes one market, which holds both ends of the caution edge. -/
theorem chain_not_pairwiseEquivalent :
    ¬ PairwiseEquivalent compare id "event" chainProfiles chainEdges := by
  intro h
  have hop : EquivalentEdge chainEdges "op" "ll" :=
    ⟨⟨"ll", "op", .EQUIVALENT⟩, by decide, rfl, Or.inr ⟨rfl, rfl⟩⟩
  have hpm : EquivalentEdge chainEdges "ll" "pm" :=
    ⟨⟨"ll", "pm", .EQUIVALENT⟩, by decide, rfl, Or.inl ⟨rfl, rfl⟩⟩
  obtain ⟨market, hmarket, hboth⟩ :=
    (share_market_iff compare id "event" chain_edgesBetween (by decide) (by decide)).mpr
      ((Relation.ReflTransGen.single hop).tail hpm)
  exact (h.noLesserEdge market hmarket).2.2 ⟨"op", "pm", .COMPATIBLE_WITH_CAUTION⟩
    (by decide) (by decide) (by decide) hboth

/-- Without the outer edge the same markets are pairwise equivalent. -/
theorem pairwiseEquivalent_chain :
    PairwiseEquivalent compare id "event" chainProfiles (chainEdges.take 2) := by
  refine (pairwiseEquivalent_iff compare id "event" chainProfiles (chainEdges.take 2)
    (by unfold EdgesBetween; decide)).mpr ⟨by decide, ?_⟩
  intro edge hedge hclass
  have hequivalent : ∀ edge ∈ chainEdges.take 2, edge.compatibilityClass = .EQUIVALENT := by
    decide
  exact absurd (hequivalent edge hedge) hclass

end LotusRfq.Canonical
