import Mathlib.Data.List.Nodup
import Mathlib.Data.List.Count
import Mathlib.Logic.Relation

/-!
# Connected components by a stack walk

A walk over an adjacency table with an explicit stack and a set of visited nodes, and the
partition it yields when it is started from every node of a list in turn.

A node may be marked as skipped: the walk pops it and forgets it, without visiting it and
without following its edges. `Step` is therefore an edge between two nodes that are *not*
skipped, and `Connected` its reflexive transitive closure.

* **`mem_walk_iff`** — a walk from a fresh root into a closed visited set returns exactly the
  nodes connected to the root;
* **`components_sound`**, **`components_total`** — the components are the connectivity classes
  of the roots;
* **`count_flatten_components`** — a node connected to some root occurs exactly once.

Symmetry of `Step` is the one assumption, and it is only needed to know that a fresh root
reaches no visited node.
-/

namespace Components

open List

variable {α : Type*} [DecidableEq α]

/-- An adjacency table: the neighbours of each key. -/
abbrev Adjacency (α : Type*) := List (α × List α)

/-- The number of entries whose key has not been visited: what the walk uses up. -/
def unvisited (adj : Adjacency α) (visited : List α) : ℕ :=
  (adj.map Prod.fst).countP (· ∉ visited)

theorem unvisited_append_le (adj : Adjacency α) (visited : List α) (x : α) :
    unvisited adj (visited ++ [x]) ≤ unvisited adj visited := by
  refine countP_mono_left fun k _ hk => ?_
  simp only [decide_eq_true_eq, mem_append, not_or] at hk ⊢
  exact hk.1

variable {x : α} {visited : List α} {y r : α}

theorem unvisited_append_lt {adj : Adjacency α} {ns : List α} (hkey : adj.lookup x = some ns)
    (hx : x ∉ visited) : unvisited adj (visited ++ [x]) < unvisited adj visited := by
  have hmem : x ∈ adj.map Prod.fst := by
    have := lookup_eq_some_iff.mp hkey
    obtain ⟨pre, post, rfl, -⟩ := this
    simp
  obtain ⟨pre, post, hsplit⟩ := append_of_mem hmem
  have hpre : pre.countP (· ∉ visited ++ [x]) ≤ pre.countP (· ∉ visited) :=
    countP_mono_left fun k _ hk => by simp_all
  have hpost : post.countP (· ∉ visited ++ [x]) ≤ post.countP (· ∉ visited) :=
    countP_mono_left fun k _ hk => by simp_all
  rw [unvisited, unvisited, hsplit]
  simp only [countP_append, countP_cons]
  simp only [mem_append, mem_singleton, or_true, not_true_eq_false, decide_false,
    Bool.false_eq_true, if_false, hx, not_false_eq_true, decide_true, if_true]
  simp only [mem_append, mem_singleton] at hpre hpost
  omega

/-- The neighbours of `x` still to be pushed, last one on top of the stack. -/
def pushed (adj : Adjacency α) (visited : List α) (x : α) : List α :=
  (((adj.lookup x).getD []).filter (· ∉ visited)).reverse

/-- The walk: the nodes it visits, in the order it visits them. -/
def walk (skip : α → Bool) (adj : Adjacency α) : List α → List α → List α
  | [], _ => []
  | current :: stack, visited =>
    if skip current = true ∨ current ∈ visited then walk skip adj stack visited
    else current ::
      walk skip adj (pushed adj (visited ++ [current]) current ++ stack) (visited ++ [current])
termination_by stack visited => (unvisited adj visited, stack.length)
decreasing_by
  · exact Prod.Lex.right _ (by simp)
  · rename_i hfresh
    rcases hkey : adj.lookup current with _ | ns
    · -- a node without an entry pushes nothing: the stack gets shorter
      have hle := unvisited_append_le adj visited current
      rcases Nat.lt_or_eq_of_le hle with hlt | heq
      · exact Prod.Lex.left _ _ hlt
      · rw [heq]
        exact Prod.Lex.right _ (by simp [pushed, hkey])
    · exact Prod.Lex.left _ _ (unvisited_append_lt hkey (fun h => hfresh (Or.inr h)))

/-! ## The graph the walk explores -/

/-- `y` is listed among the neighbours of `x`. -/
def Edge (adj : Adjacency α) (x y : α) : Prop := y ∈ (adj.lookup x).getD []

/-- An edge the walk follows: neither end is skipped. -/
def Step (skip : α → Bool) (adj : Adjacency α) (x y : α) : Prop :=
  skip x = false ∧ skip y = false ∧ Edge adj x y

/-- Joined by a path of followed edges. -/
def Connected (skip : α → Bool) (adj : Adjacency α) : α → α → Prop :=
  Relation.ReflTransGen (Step skip adj)

/-- No followed edge leaves the set. -/
def Closed (skip : α → Bool) (adj : Adjacency α) (visited : List α) : Prop :=
  ∀ x ∈ visited, ∀ y, Step skip adj x y → y ∈ visited

variable {skip : α → Bool} {adj : Adjacency α}

theorem mem_pushed : y ∈ pushed adj visited x ↔ Edge adj x y ∧ y ∉ visited := by
  simp [pushed, Edge]

theorem Closed.connected (hclosed : Closed skip adj visited) (hxy : Connected skip adj x y)
    (hx : x ∈ visited) : y ∈ visited := by
  induction hxy with
  | refl => exact hx
  | tail _ hstep ih => exact hclosed _ ih _ hstep

theorem Connected.symm (hsymm : ∀ x y, Step skip adj x y → Step skip adj y x)
    (hxy : Connected skip adj x y) : Connected skip adj y x := by
  induction hxy with
  | refl => exact .refl
  | tail _ hstep ih => exact Relation.ReflTransGen.head (hsymm _ _ hstep) ih

/-! ## One walk -/

theorem walk_fresh (skip : α → Bool) (adj : Adjacency α) (stack visited : List α) :
    (walk skip adj stack visited).Nodup ∧
      ∀ x ∈ walk skip adj stack visited, x ∉ visited ∧ skip x = false := by
  induction stack, visited using walk.induct skip adj with
  | case1 visited => simp [walk]
  | case2 current stack visited hskip ih => rw [walk, if_pos hskip]; exact ih
  | case3 current stack visited hskip ih =>
    rw [walk, if_neg hskip]
    obtain ⟨hnodup, hfresh⟩ := ih
    have hcur : current ∉ visited ∧ skip current = false :=
      ⟨fun h => hskip (Or.inr h), by simpa using fun h => hskip (Or.inl h)⟩
    refine ⟨nodup_cons.mpr ⟨fun h => (hfresh _ h).1 (by simp), hnodup⟩, ?_⟩
    intro x hx
    rcases mem_cons.mp hx with rfl | hx
    · exact hcur
    · exact ⟨fun h => (hfresh x hx).1 (mem_append_left _ h), (hfresh x hx).2⟩

/-- **Soundness.** Every node the walk visits is connected to some node of the stack. -/
theorem walk_sound (stack visited : List α) :
    ∀ x ∈ walk skip adj stack visited, ∃ s ∈ stack, skip s = false ∧ Connected skip adj s x := by
  induction stack, visited using walk.induct skip adj with
  | case1 visited => simp [walk]
  | case2 current stack visited hskip ih =>
    rw [walk, if_pos hskip]
    intro x hx
    obtain ⟨s, hs, hconn⟩ := ih x hx
    exact ⟨s, mem_cons_of_mem _ hs, hconn⟩
  | case3 current stack visited hskip ih =>
    rw [walk, if_neg hskip]
    have hcur : skip current = false := by simpa using fun h => hskip (Or.inl h)
    intro x hx
    rcases mem_cons.mp hx with rfl | hx
    · exact ⟨x, mem_cons_self, hcur, .refl⟩
    · obtain ⟨s, hs, hskips, hconn⟩ := ih x hx
      rcases mem_append.mp hs with hs | hs
      · -- `s` was pushed as a neighbour of `current`: prepend that edge to the path
        have hedge : Step skip adj current s := ⟨hcur, hskips, (mem_pushed.mp hs).1⟩
        exact ⟨current, mem_cons_self, hcur, Relation.ReflTransGen.head hedge hconn⟩
      · exact ⟨s, mem_cons_of_mem _ hs, hskips, hconn⟩

/-- **Completeness.** If every edge out of `visited` leads into `visited` or onto the stack,
the walk ends in a closed set that holds the whole stack. -/
theorem walk_complete (skip : α → Bool) (adj : Adjacency α) (stack visited : List α)
    (hfrontier : ∀ x ∈ visited, ∀ y, Step skip adj x y → y ∈ visited ∨ y ∈ stack) :
    Closed skip adj (visited ++ walk skip adj stack visited) ∧
      ∀ s ∈ stack, skip s = false → s ∈ visited ++ walk skip adj stack visited := by
  induction stack, visited using walk.induct skip adj with
  | case1 visited =>
    refine ⟨?_, by simp⟩
    intro x hx y hxy
    simpa [walk] using hfrontier x (by simpa [walk] using hx) y hxy
  | case2 current stack visited hskip ih =>
    rw [walk, if_pos hskip]
    -- the popped node is skipped or visited already, so the frontier does not need it
    have hdrop : ∀ y, skip y = false → y ∈ visited ∨ y ∈ current :: stack →
        y ∈ visited ∨ y ∈ stack := by
      intro y hy hmem
      rcases hmem with h | h
      · exact Or.inl h
      · rcases mem_cons.mp h with rfl | h
        · rcases hskip with hs | hv
          · simp [hs] at hy
          · exact Or.inl hv
        · exact Or.inr h
    obtain ⟨hclosed, hstack⟩ := ih fun x hx y hxy => hdrop y hxy.2.1 (hfrontier x hx y hxy)
    refine ⟨hclosed, fun s hs hskips => ?_⟩
    rcases hdrop s hskips (Or.inr hs) with h | h
    · exact mem_append_left _ h
    · exact hstack s h hskips
  | case3 current stack visited hskip ih =>
    rw [walk, if_neg hskip]
    have hfrontier' : ∀ x ∈ visited ++ [current], ∀ y, Step skip adj x y →
        y ∈ visited ++ [current] ∨ y ∈ pushed adj (visited ++ [current]) current ++ stack := by
      intro x hx y hxy
      by_cases hy : y ∈ visited ++ [current]
      · exact Or.inl hy
      · refine Or.inr (mem_append.mpr ?_)
        rcases mem_append.mp hx with hx | hx
        · rcases hfrontier x hx y hxy with h | h
          · exact absurd (mem_append_left _ h) hy
          · rcases mem_cons.mp h with rfl | h
            · exact absurd (by simp) hy
            · exact Or.inr h
        · obtain rfl : x = current := by simpa using hx
          exact Or.inl (mem_pushed.mpr ⟨hxy.2.2, hy⟩)
    obtain ⟨hclosed, hstack⟩ := ih hfrontier'
    simp only [append_assoc, singleton_append] at hclosed hstack
    refine ⟨hclosed, fun s hs hskips => ?_⟩
    rcases mem_cons.mp hs with rfl | hs
    · simp
    · exact hstack s (mem_append_right _ hs) hskips

/-- **One component.** From a fresh root into a closed set the walk returns exactly the nodes
connected to the root. -/
theorem mem_walk_iff (hsymm : ∀ x y, Step skip adj x y → Step skip adj y x)
    (hclosed : Closed skip adj visited) (hr : r ∉ visited) (x : α) :
    x ∈ walk skip adj [r] visited ↔ skip r = false ∧ Connected skip adj r x := by
  constructor
  · intro hx
    obtain ⟨s, hs, hskip, hconn⟩ := walk_sound [r] visited x hx
    obtain rfl : s = r := by simpa using hs
    exact ⟨hskip, hconn⟩
  · rintro ⟨hskip, hconn⟩
    obtain ⟨hclosed', hstack⟩ := walk_complete skip adj [r] visited
      fun y hy z hyz => Or.inl (hclosed y hy z hyz)
    have hroot := hstack r (by simp) hskip
    have hx := hclosed'.connected hconn hroot
    rcases mem_append.mp hx with hx | hx
    · -- a visited node connected to the root would put the root in the closed set
      exact absurd (hclosed.connected (hconn.symm hsymm) hx) hr
    · exact hx

/-! ## The partition -/

/-- Walk from every root that no earlier walk has visited. -/
def components (skip : α → Bool) (adj : Adjacency α) : List α → List α → List (List α)
  | [], _ => []
  | r :: rs, visited =>
    if r ∈ visited then components skip adj rs visited
    else
      let members := walk skip adj [r] visited
      members :: components skip adj rs (visited ++ members)

theorem Closed.walk (hclosed : Closed skip adj visited) (r : α) :
    Closed skip adj (visited ++ walk skip adj [r] visited) :=
  (walk_complete skip adj [r] visited fun x hx y hxy => Or.inl (hclosed x hx y hxy)).1

theorem components_fresh (rs visited : List α) :
    ∀ c ∈ components skip adj rs visited, ∀ x ∈ c, x ∉ visited := by
  induction rs generalizing visited with
  | nil => simp [components]
  | cons r rs ih =>
    intro c hc x hx
    rw [components] at hc
    split at hc
    · exact ih visited c hc x hx
    · rcases mem_cons.mp hc with rfl | hc
      · exact ((walk_fresh skip adj [r] visited).2 x hx).1
      · exact fun h => ih _ c hc x hx (mem_append_left _ h)

theorem components_nodup (skip : α → Bool) (adj : Adjacency α) (rs visited : List α) :
    ∀ c ∈ components skip adj rs visited, c.Nodup := by
  induction rs generalizing visited with
  | nil => simp [components]
  | cons r rs ih =>
    intro c hc
    rw [components] at hc
    split at hc
    · exact ih visited c hc
    · rcases mem_cons.mp hc with rfl | hc
      · exact (walk_fresh skip adj [r] visited).1
      · exact ih _ c hc

section Symmetric

variable (hsymm : ∀ x y, Step skip adj x y → Step skip adj y x)
include hsymm

section

variable {visited : List α} (rs : List α) (hclosed : Closed skip adj visited)

include rs hclosed

theorem components_sound : ∀ c ∈ components skip adj rs visited,
      ∃ r ∈ rs, ∀ x, x ∈ c ↔ skip r = false ∧ Connected skip adj r x := by
  induction rs generalizing visited with
  | nil => simp [components]
  | cons r rs ih =>
    intro c hc
    rw [components] at hc
    split at hc
    · obtain ⟨s, hs, h⟩ := ih hclosed c hc
      exact ⟨s, mem_cons_of_mem _ hs, h⟩
    · rename_i hr
      rcases mem_cons.mp hc with rfl | hc
      · exact ⟨r, mem_cons_self, mem_walk_iff hsymm hclosed hr⟩
      · obtain ⟨s, hs, h⟩ := ih (hclosed.walk r) c hc
        exact ⟨s, mem_cons_of_mem _ hs, h⟩

/-- Every fresh root that is not skipped has its connectivity class among the components. -/
theorem components_total (hr : r ∈ rs) (hfresh : r ∉ visited) :
    ∃ c ∈ components skip adj rs visited, ∀ x, x ∈ c ↔ skip r = false ∧ Connected skip adj r x := by
  induction rs generalizing visited with
  | nil => simp at hr
  | cons r' rs ih =>
    rw [components]
    split
    · rename_i hr'
      rcases mem_cons.mp hr with rfl | hr
      · exact absurd hr' hfresh
      · exact ih hclosed hr hfresh
    · rename_i hr'
      have hwalk := mem_walk_iff hsymm hclosed hr'
      rcases mem_cons.mp hr with rfl | hr
      · exact ⟨_, mem_cons_self, hwalk⟩
      · by_cases hmem : r ∈ walk skip adj [r'] visited
        · -- `r` lies in the class of `r'`, so the two classes are one
          refine ⟨_, mem_cons_self, fun x => ?_⟩
          obtain ⟨hskip', hconn⟩ := (hwalk r).mp hmem
          have hskip := ((walk_fresh skip adj [r'] visited).2 r hmem).2
          rw [hwalk x]
          exact ⟨fun h => ⟨hskip, (hconn.symm hsymm).trans h.2⟩,
            fun h => ⟨hskip', hconn.trans h.2⟩⟩
        · obtain ⟨c, hc, h⟩ := ih (hclosed.walk r') hr (by simp [hfresh, hmem])
          exact ⟨c, mem_cons_of_mem _ hc, h⟩

/-- **Exactly one.** A fresh node connected to one of the roots lies in one component. -/
theorem countP_components (hr : r ∈ rs) (hskip : skip r = false) (hconn : Connected skip adj r x)
    (hx : x ∉ visited) : (components skip adj rs visited).countP (x ∈ ·) = 1 := by
  induction rs generalizing visited r with
  | nil => simp at hr
  | cons r' rs ih =>
    rw [components]
    split
    · rename_i hr'
      rcases mem_cons.mp hr with rfl | hr
      · exact absurd (hclosed.connected hconn hr') hx
      · exact ih hclosed hr hskip hconn hx
    · rename_i hr'
      have hwalk := mem_walk_iff hsymm hclosed hr' x
      by_cases hmem : x ∈ walk skip adj [r'] visited
      · -- found here, and the later components avoid what this walk visited
        have hlater : (components skip adj rs (visited ++ walk skip adj [r'] visited)).countP
            (x ∈ ·) = 0 := by
          refine countP_eq_zero.mpr fun c hc => ?_
          simp only [decide_eq_true_eq]
          exact fun hxc => components_fresh rs _ c hc x hxc (mem_append_right _ hmem)
        simp [hmem, hlater]
      · have hrest : r ∈ rs := by
          rcases mem_cons.mp hr with rfl | hr
          · exact absurd (hwalk.mpr ⟨hskip, hconn⟩) hmem
          · exact hr
        have := ih (hclosed.walk r') hrest hskip hconn (by simp [hx, hmem])
        simp [hmem, this]

theorem count_flatten_components (hr : r ∈ rs) (hskip : skip r = false)
    (hconn : Connected skip adj r x) (hx : x ∉ visited) :
    (components skip adj rs visited).flatten.count x = 1 := by
  rw [← countP_components hsymm rs hclosed hr hskip hconn hx]
  have hnodup := components_nodup skip adj rs visited
  generalize components skip adj rs visited = cs at hnodup
  induction cs with
  | nil => simp
  | cons c cs ih =>
    have hc := hnodup c mem_cons_self
    have hcs := ih fun c' h => hnodup c' (mem_cons_of_mem _ h)
    rw [flatten_cons, count_append, hcs, countP_cons, hc.count]
    by_cases h : x ∈ c <;> simp [h, Nat.add_comm]

end

end Symmetric

end Components
