/-
  Breadth-first search over labelled graphs.

  A graph is given by its adjacency: the neighbours of a vertex, each with the edge that leads to
  it.  `Walk` says what a path is, and `Reached` what lies within a distance of some starts.  Two
  searches, as programs write them:

  * a queue of partial paths (`pathSearch`): `pathSearch_spec` — what it returns is a shortest walk,
    or there is none; `pathSearch_fuel` — it ends;
  * level by level with a frontier (`sweep`, `sweepAll`), collecting each edge that it meets under a
    key: `Swept` is the invariant, `sweep_swept` keeps it, and `sweepAll_spec` says that the search
    without a depth ends and has reached everything.

  A frontier is a set, so the order in which a level goes over it is any (`SetOrder`).
-/
import Mathlib.Data.List.Basic
import Mathlib.Data.List.Nodup

namespace NuSelf.Lib

variable {V E κ : Type}

/-- The neighbours of each vertex, with the edges that lead to them. -/
abbrev Adjacency (V E : Type) := V → List (V × E)

/-! ## Walks -/

/-- The edges of a walk from one vertex to another. -/
inductive Walk (adj : Adjacency V E) : V → List E → V → Prop where
  | nil (u : V) : Walk adj u [] u
  | cons {u w v : V} {e : E} {es : List E} (head : (w, e) ∈ adj u) (tail : Walk adj w es v) :
      Walk adj u (e :: es) v

namespace Walk

variable {adj : Adjacency V E} {u v w : V} {e : E} {es : List E}

theorem snoc (h : Walk adj u es v) (hstep : (w, e) ∈ adj v) : Walk adj u (es ++ [e]) w := by
  induction h with
  | nil u => exact .cons hstep (.nil w)
  | cons head _ ih => exact .cons head (ih hstep)

theorem eq_of_nil (h : Walk adj u [] v) : u = v := by
  cases h
  rfl

theorem last (h : Walk adj u es v) (hne : es ≠ []) :
    ∃ x e fs, Walk adj u fs x ∧ (v, e) ∈ adj x ∧ es = fs ++ [e] := by
  induction h with
  | nil u => exact absurd rfl hne
  | @cons u w v e es head tail ih =>
    by_cases hes : es = []
    · subst hes
      obtain rfl := tail.eq_of_nil
      exact ⟨u, e, [], .nil u, head, rfl⟩
    · obtain ⟨x, e', fs, hwalk, hlast, rfl⟩ := ih hes
      exact ⟨x, e', e :: fs, .cons head hwalk, hlast, rfl⟩

/-- **A walk that leaves a set has a first step out of it.** -/
theorem exists_step_out {P : V → Prop} (h : Walk adj u es v) (hu : P u) (hv : ¬ P v) :
    ∃ x y e fs, Walk adj u fs x ∧ P x ∧ (y, e) ∈ adj x ∧ ¬ P y ∧ fs.length < es.length := by
  induction h with
  | nil u => exact absurd hu hv
  | @cons u w v e es head _ ih =>
    by_cases hw : P w
    · obtain ⟨x, y, e', fs, hwalk, hx, hstep, hy, hlength⟩ := ih hw hv
      exact ⟨x, y, e', e :: fs, .cons head hwalk, hx, hstep, hy, Nat.succ_lt_succ hlength⟩
    · exact ⟨u, w, e, [], .nil u, hu, head, hw, Nat.succ_pos _⟩

end Walk

/-- A walk of less than `n` edges leads there from one of the starts. -/
def Reached (adj : Adjacency V E) (starts : List V) (n : Nat) (v : V) : Prop :=
  ∃ u ∈ starts, ∃ es, Walk adj u es v ∧ es.length < n

namespace Reached

variable {adj : Adjacency V E} {starts : List V} {n m : Nat} {v : V}

theorem zero : ¬ Reached adj starts 0 v := by
  rintro ⟨u, _, es, _, hlength⟩
  exact absurd hlength (Nat.not_lt_zero _)

theorem mono (h : Reached adj starts n v) (hnm : n ≤ m) : Reached adj starts m v := by
  obtain ⟨u, hu, es, hwalk, hlength⟩ := h
  exact ⟨u, hu, es, hwalk, by omega⟩

theorem of_mem (h : v ∈ starts) : Reached adj starts (n + 1) v :=
  ⟨v, h, [], .nil v, Nat.succ_pos n⟩

/-- **One level more**: a start, or a neighbour of what was reached. -/
theorem succ_iff : Reached adj starts (n + 1) v ↔
    v ∈ starts ∨ ∃ u e, Reached adj starts n u ∧ (v, e) ∈ adj u := by
  constructor
  · rintro ⟨u, hu, es, hwalk, hlength⟩
    by_cases hes : es = []
    · subst hes
      obtain rfl := hwalk.eq_of_nil
      exact Or.inl hu
    · obtain ⟨x, e, fs, hx, hlast, rfl⟩ := hwalk.last hes
      rw [List.length_append, List.length_singleton] at hlength
      exact Or.inr ⟨x, e, ⟨u, hu, fs, hx, by omega⟩, hlast⟩
  · rintro (hv | ⟨x, e, ⟨u, hu, es, hwalk, hlength⟩, hstep⟩)
    · exact of_mem hv
    · refine ⟨u, hu, es ++ [e], hwalk.snoc hstep, ?_⟩
      rw [List.length_append, List.length_singleton]
      omega

theorem of_closed (hclosed : ∀ w, Reached adj starts (n + 1) w → Reached adj starts n w)
    {u : V} {es : List E} (hu : u ∈ starts) (hwalk : Walk adj u es v) :
    Reached adj starts n v := by
  have hstart : Reached adj starts n u := hclosed u (of_mem hu)
  by_contra hv
  obtain ⟨x, y, e, _, _, hx, hstep, hy, _⟩ := hwalk.exists_step_out hstart hv
  exact hy (hclosed y (succ_iff.mpr (Or.inr ⟨x, e, hx, hstep⟩)))

end Reached

/-! ## The first of each key -/

section Firsts

variable [DecidableEq κ]

/-- Take an element unless its key is there. -/
def addFirst (key : E → κ) (taken : List E) (e : E) : List E :=
  if key e ∈ taken.map key then taken else taken ++ [e]

variable {key : E → κ}

theorem mem_addFirst {taken : List E} {e x : E} (h : x ∈ addFirst key taken e) :
    x ∈ taken ∨ x = e := by
  unfold addFirst at h
  split at h
  · exact Or.inl h
  · rcases List.mem_append.mp h with h | h
    · exact Or.inl h
    · exact Or.inr (List.mem_singleton.mp h)

theorem key_mem_addFirst {taken : List E} {e : E} {k : κ} :
    k ∈ (addFirst key taken e).map key ↔ k ∈ taken.map key ∨ k = key e := by
  unfold addFirst
  split
  · rename_i hmem
    constructor
    · exact Or.inl
    · rintro (h | rfl)
      · exact h
      · exact hmem
  · rw [List.map_append, List.mem_append, List.map_singleton, List.mem_singleton]

theorem nodup_addFirst {taken : List E} {e : E} (h : (taken.map key).Nodup) :
    ((addFirst key taken e).map key).Nodup := by
  unfold addFirst
  split
  · exact h
  · rename_i hnew
    rw [List.map_append, List.map_singleton, List.nodup_append']
    exact ⟨h, List.nodup_singleton _, fun k hk hk' => hnew (List.mem_singleton.mp hk' ▸ hk)⟩

/-- What is taken is among what was met, one of each key, and every key is there. -/
structure FirstsOf (key : E → κ) (met : E → Prop) (taken : List E) : Prop where
  nodup : (taken.map key).Nodup
  of_met : ∀ e ∈ taken, met e
  every : ∀ e, met e → key e ∈ taken.map key

omit [DecidableEq κ] in
/-- **What is taken is exactly what was met when no two of it share a key.** -/
theorem FirstsOf.exact_iff {met : E → Prop} {taken : List E} (h : FirstsOf key met taken) :
    (∀ e, e ∈ taken ↔ met e) ↔ ∀ a b, met a → met b → key a = key b → a = b := by
  constructor
  · intro hexact a b ha hb hkey
    exact List.inj_on_of_nodup_map h.nodup ((hexact a).mpr ha) ((hexact b).mpr hb) hkey
  · intro hinj e
    constructor
    · exact h.of_met e
    · intro he
      obtain ⟨e', he', hkey⟩ := List.mem_map.mp (h.every e he)
      obtain rfl := hinj e' e (h.of_met e' he') he hkey
      exact he'

omit [DecidableEq κ] in
theorem FirstsOf.congr {met met' : E → Prop} {taken : List E} (h : FirstsOf key met taken)
    (hmet : ∀ e, met e ↔ met' e) : FirstsOf key met' taken where
  nodup := h.nodup
  of_met e he := (hmet e).mp (h.of_met e he)
  every e he := h.every e ((hmet e).mpr he)

theorem FirstsOf.add {met met' : E → Prop} {taken : List E} {e : E}
    (h : FirstsOf key met taken) (hmet : ∀ x, met' x ↔ met x ∨ x = e) :
    FirstsOf key met' (addFirst key taken e) where
  nodup := nodup_addFirst h.nodup
  of_met x hx := by
    rcases mem_addFirst hx with hx | rfl
    · exact (hmet x).mpr (Or.inl (h.of_met x hx))
    · exact (hmet x).mpr (Or.inr rfl)
  every x hx := by
    rcases (hmet x).mp hx with hx | rfl
    · exact key_mem_addFirst.mpr (Or.inl (h.every x hx))
    · exact key_mem_addFirst.mpr (Or.inr rfl)

end Firsts

/-! ## Vertices not yet visited -/

section Unvisited

variable [DecidableEq V]

/-- How many of the vertices are not visited. -/
def unvisited (vertices visited : List V) : Nat := (vertices.filter (· ∉ visited)).length

theorem unvisited_le_length (vertices visited : List V) :
    unvisited vertices visited ≤ vertices.length :=
  List.length_filter_le _ _

theorem filter_unvisited {vertices visited visited' : List V}
    (hsub : ∀ v ∈ visited, v ∈ visited') :
    vertices.filter (· ∉ visited') = (vertices.filter (· ∉ visited)).filter (· ∉ visited') := by
  rw [List.filter_filter]
  refine List.filter_congr fun v _ => ?_
  by_cases hv : v ∈ visited'
  · simp [hv]
  · have hold : v ∉ visited := fun h => hv (hsub v h)
    simp [hv, hold]

theorem unvisited_lt {vertices visited visited' : List V} {v : V}
    (hsub : ∀ v ∈ visited, v ∈ visited') (hv : v ∈ vertices) (hold : v ∉ visited)
    (hnew : v ∈ visited') : unvisited vertices visited' < unvisited vertices visited := by
  rw [unvisited, unvisited, filter_unvisited hsub, List.length_filter_lt_length_iff_exists]
  exact ⟨v, List.mem_filter.mpr ⟨hv, by simpa using hold⟩, by simpa using hnew⟩

end Unvisited

/-! ## A queue of partial paths -/

/-- What waits, each with the edges that led to it, and what has been put there so far. -/
structure PathQueue (V E : Type) where
  queue : List (V × List E)
  visited : List V

section PathSearch

variable [DecidableEq V]

/-- Put a neighbour behind the queue, unless it has been there. -/
def discover (path : List E) (s : PathQueue V E) (n : V × E) : PathQueue V E :=
  if n.1 ∈ s.visited then s
  else ⟨s.queue ++ [(n.1, path ++ [n.2])], s.visited ++ [n.1]⟩

/-- Take the first of the queue until it is the target; `none` is a search that has not ended. -/
def pathSearch (adj : Adjacency V E) (target : V) : Nat → PathQueue V E → Option (List E)
  | 0, _ => none
  | _ + 1, ⟨[], _⟩ => some []
  | fuel + 1, ⟨(u, path) :: rest, visited⟩ =>
    if u = target then some path
    else pathSearch adj target fuel ((adj u).foldl (discover path) ⟨rest, visited⟩)

variable {adj : Adjacency V E} {start target : V}

/-- The invariant of the search: what waits is at the end of a shortest walk, nearest first and at
    most one level apart, and what no longer waits has only visited neighbours. -/
structure Queued (adj : Adjacency V E) (start target : V) (s : PathQueue V E) : Prop where
  walk : ∀ x ∈ s.queue, Walk adj start x.2 x.1
  shortest : ∀ x ∈ s.queue, ∀ es, Walk adj start es x.1 → x.2.length ≤ es.length
  levels : s.queue.Pairwise fun x y => x.2.length ≤ y.2.length ∧ y.2.length ≤ x.2.length + 1
  closed : ∀ v ∈ s.visited, (∃ path, (v, path) ∈ s.queue) ∨
    v ≠ target ∧ ∀ w e, (w, e) ∈ adj v → w ∈ s.visited
  start_visited : start ∈ s.visited

omit [DecidableEq V] in
theorem Queued.initial : Queued adj start target ⟨[(start, [])], [start]⟩ where
  walk x hx := by
    obtain rfl := List.mem_singleton.mp hx
    exact .nil start
  shortest x hx es _ := by
    obtain rfl := List.mem_singleton.mp hx
    exact Nat.zero_le _
  levels := List.pairwise_singleton _ _
  closed v hv := by
    obtain rfl := List.mem_singleton.mp hv
    exact Or.inl ⟨[], List.mem_singleton_self _⟩
  start_visited := List.mem_singleton_self _

omit [DecidableEq V] in
theorem Queued.far {u w : V} {path : List E} {rest : List (V × List E)} {visited : List V}
    (h : Queued adj start target ⟨(u, path) :: rest, visited⟩) (hw : w ∉ visited)
    {es : List E} (hwalk : Walk adj start es w) : path.length < es.length := by
  obtain ⟨x, y, e, fs, hx, hvisited, hstep, hy, hlength⟩ :=
    hwalk.exists_step_out (P := (· ∈ visited)) h.start_visited hw
  rcases h.closed x hvisited with ⟨path', hqueued⟩ | ⟨_, hall⟩
  · have hshort : path'.length ≤ fs.length := h.shortest _ hqueued fs hx
    have hfirst : path.length ≤ path'.length := by
      rcases List.mem_cons.mp hqueued with heq | hrest
      · cases heq
        exact Nat.le_refl _
      · exact ((List.pairwise_cons.mp h.levels).1 _ hrest).1
    omega
  · exact absurd (hall y e hstep) hy

theorem Queued.discover {u : V} {path : List E} {s : PathQueue V E} {n : V × E}
    (h : Queued adj start target ⟨(u, path) :: s.queue, s.visited⟩) (hn : n ∈ adj u) :
    Queued adj start target
      ⟨(u, path) :: (discover path s n).queue, (discover path s n).visited⟩ := by
  unfold Lib.discover
  split
  · exact h
  · rename_i hnew
    have hwalk : Walk adj start (path ++ [n.2]) n.1 := (h.walk _ List.mem_cons_self).snoc hn
    have hlength : (path ++ [n.2]).length = path.length + 1 := List.length_append
    have hmem : ∀ x, x ∈ (u, path) :: (s.queue ++ [(n.1, path ++ [n.2])]) ↔
        x ∈ (u, path) :: s.queue ∨ x = (n.1, path ++ [n.2]) := fun x => by
      rw [← List.cons_append, List.mem_append, List.mem_singleton]
    refine ⟨fun x hx => ?_, fun x hx es hes => ?_, ?_, fun v hv => ?_, ?_⟩
    · rcases (hmem x).mp hx with hx | rfl
      · exact h.walk x hx
      · exact hwalk
    · rcases (hmem x).mp hx with hx | rfl
      · exact h.shortest x hx es hes
      · have hfar := h.far hnew hes
        dsimp only
        omega
    · show ((u, path) :: s.queue ++ [(n.1, path ++ [n.2])]).Pairwise _
      refine List.pairwise_append.mpr ⟨h.levels, List.pairwise_singleton _ _, fun x hx y hy => ?_⟩
      obtain rfl := List.mem_singleton.mp hy
      dsimp only
      rcases List.mem_cons.mp hx with rfl | hx
      · dsimp only
        omega
      · have hlevel := (List.pairwise_cons.mp h.levels).1 x hx
        dsimp only at hlevel
        omega
    · rcases List.mem_append.mp hv with hv | hv
      · rcases h.closed v hv with ⟨path', hqueued⟩ | ⟨hne, hall⟩
        · exact Or.inl ⟨path', (hmem _).mpr (Or.inl hqueued)⟩
        · exact Or.inr ⟨hne, fun w e he => List.mem_append_left _ (hall w e he)⟩
      · obtain rfl := List.mem_singleton.mp hv
        exact Or.inl ⟨_, (hmem _).mpr (Or.inr rfl)⟩
    · exact List.mem_append_left _ h.start_visited

theorem visited_discover {path : List E} {s : PathQueue V E} {n : V × E} {v : V} :
    v ∈ (discover path s n).visited ↔ v ∈ s.visited ∨ v = n.1 := by
  unfold discover
  split
  · rename_i hold
    constructor
    · exact Or.inl
    · rintro (h | rfl)
      · exact h
      · exact hold
  · rw [List.mem_append, List.mem_singleton]

theorem Queued.scan {u : V} {path : List E} : ∀ {ns : List (V × E)} {s : PathQueue V E},
    Queued adj start target ⟨(u, path) :: s.queue, s.visited⟩ → (∀ n ∈ ns, n ∈ adj u) →
    Queued adj start target ⟨(u, path) :: (ns.foldl (Lib.discover path) s).queue,
        (ns.foldl (Lib.discover path) s).visited⟩ ∧
      (∀ v ∈ s.visited, v ∈ (ns.foldl (Lib.discover path) s).visited) ∧
      ∀ n ∈ ns, n.1 ∈ (ns.foldl (Lib.discover path) s).visited
  | [], s, h, _ => ⟨h, fun _ hv => hv, fun _ hn => nomatch hn⟩
  | n :: ns, s, h, hns => by
    obtain ⟨hn, hrest⟩ := List.forall_mem_cons.mp hns
    obtain ⟨hscan, hkept, hall⟩ := Queued.scan (h.discover hn) hrest
    refine ⟨hscan, fun v hv => hkept v (visited_discover.mpr (Or.inl hv)), ?_⟩
    refine List.forall_mem_cons.mpr ⟨hkept _ (visited_discover.mpr (Or.inr rfl)), hall⟩

/-- **One turn of the search keeps the invariant.** -/
theorem Queued.turn {u : V} {path : List E} {rest : List (V × List E)} {visited : List V}
    (h : Queued adj start target ⟨(u, path) :: rest, visited⟩) (hu : u ≠ target) :
    Queued adj start target ((adj u).foldl (Lib.discover path) ⟨rest, visited⟩) := by
  obtain ⟨hscan, -, hall⟩ := @Queued.scan V E _ adj start target u path (adj u) ⟨rest, visited⟩ h
    fun _ hn => hn
  generalize (adj u).foldl (Lib.discover path) ⟨rest, visited⟩ = s at hscan hall ⊢
  refine ⟨fun x hx => hscan.walk x (List.mem_cons_of_mem _ hx),
    fun x hx => hscan.shortest x (List.mem_cons_of_mem _ hx),
    (List.pairwise_cons.mp hscan.levels).2, fun v hv => ?_, hscan.start_visited⟩
  rcases hscan.closed v hv with ⟨path', hqueued⟩ | hdone
  · rcases List.mem_cons.mp hqueued with heq | hqueued
    · cases heq
      exact Or.inr ⟨hu, fun w e he => hall (w, e) he⟩
    · exact Or.inl ⟨path', hqueued⟩
  · exact Or.inr hdone

omit [DecidableEq V] in
theorem Queued.no_walk {visited : List V} (h : Queued adj start target ⟨[], visited⟩)
    (es : List E) : ¬ Walk adj start es target := by
  intro hwalk
  have hdone : ∀ v ∈ visited, v ≠ target ∧ ∀ w e, (w, e) ∈ adj v → w ∈ visited := by
    intro v hv
    rcases h.closed v hv with ⟨path, hqueued⟩ | hdone
    · cases hqueued
    · exact hdone
  have htarget : target ∉ visited := fun hv => (hdone target hv).1 rfl
  obtain ⟨x, y, e, _, _, hx, hstep, hy, _⟩ :=
    hwalk.exists_step_out (P := (· ∈ visited)) h.start_visited htarget
  exact hy ((hdone x hx).2 y e hstep)

/-- What a search for the target is to return. -/
structure ShortestWalk (adj : Adjacency V E) (start target : V) (es : List E) : Prop where
  walk : Walk adj start es target
  shortest : ∀ es', Walk adj start es' target → es.length ≤ es'.length

/-- **What the search returns is a shortest walk, or nothing when there is none.** -/
theorem pathSearch_spec : ∀ {fuel : Nat} {s : PathQueue V E} {es : List E},
    Queued adj start target s → pathSearch adj target fuel s = some es →
    ShortestWalk adj start target es ∨ es = [] ∧ ∀ es', ¬ Walk adj start es' target
  | 0, s, es, _, hrun => by
    rw [pathSearch] at hrun
    cases hrun
  | fuel + 1, ⟨[], visited⟩, es, h, hrun => by
    rw [pathSearch] at hrun
    cases hrun
    exact Or.inr ⟨rfl, h.no_walk⟩
  | fuel + 1, ⟨(u, path) :: rest, visited⟩, es, h, hrun => by
    rw [pathSearch] at hrun
    split at hrun
    · rename_i hu
      subst hu
      cases hrun
      exact Or.inl ⟨h.walk _ List.mem_cons_self, h.shortest _ List.mem_cons_self⟩
    · rename_i hu
      exact pathSearch_spec (h.turn hu) hrun

/-- The turns that are left at most. -/
def PathQueue.budget (vertices : List V) (s : PathQueue V E) : Nat :=
  s.queue.length + unvisited vertices s.visited

theorem budget_discover {vertices : List V} {path : List E} {s : PathQueue V E} {n : V × E}
    (hn : n.1 ∈ vertices) : (discover path s n).budget vertices ≤ s.budget vertices := by
  unfold discover
  split
  · exact Nat.le_refl _
  · rename_i hnew
    have hlt : unvisited vertices (s.visited ++ [n.1]) < unvisited vertices s.visited :=
      unvisited_lt (fun v hv => List.mem_append_left _ hv) hn hnew
        (List.mem_append_right _ (List.mem_singleton_self _))
    show (s.queue ++ [(n.1, path ++ [n.2])]).length + unvisited vertices (s.visited ++ [n.1]) ≤
      s.queue.length + unvisited vertices s.visited
    rw [List.length_append, List.length_singleton]
    omega

theorem budget_scan {vertices : List V} {path : List E} : ∀ {ns : List (V × E)}
    {s : PathQueue V E}, (∀ n ∈ ns, n.1 ∈ vertices) →
    (ns.foldl (discover path) s).budget vertices ≤ s.budget vertices
  | [], _, _ => Nat.le_refl _
  | n :: ns, s, hns => by
    obtain ⟨hn, hrest⟩ := List.forall_mem_cons.mp hns
    exact Nat.le_trans (budget_scan (s := discover path s n) hrest) (budget_discover hn)

/-- **The search ends**: it returns the same with any fuel beyond its budget. -/
theorem pathSearch_fuel {vertices : List V} (hvertices : ∀ u w e, (w, e) ∈ adj u → w ∈ vertices) :
    ∀ (n : Nat) (s : PathQueue V E), s.budget vertices ≤ n →
      ∃ es, ∀ fuel, n < fuel → pathSearch adj target fuel s = some es := by
  intro n
  induction n with
  | zero =>
    rintro ⟨queue, visited⟩ hbudget
    cases queue with
    | nil =>
      refine ⟨[], fun fuel hfuel => ?_⟩
      obtain ⟨fuel, rfl⟩ := Nat.exists_eq_add_one.mpr hfuel
      rw [pathSearch]
    | cons x rest =>
      rw [PathQueue.budget, List.length_cons] at hbudget
      omega
  | succ n ih =>
    rintro ⟨queue, visited⟩ hbudget
    cases queue with
    | nil =>
      refine ⟨[], fun fuel hfuel => ?_⟩
      obtain ⟨fuel, rfl⟩ := Nat.exists_eq_add_one.mpr (Nat.zero_lt_of_lt hfuel)
      rw [pathSearch]
    | cons x rest =>
      obtain ⟨u, path⟩ := x
      by_cases hu : u = target
      · refine ⟨path, fun fuel hfuel => ?_⟩
        obtain ⟨fuel, rfl⟩ := Nat.exists_eq_add_one.mpr (Nat.zero_lt_of_lt hfuel)
        rw [pathSearch, if_pos hu]
      · have hscan : ((adj u).foldl (discover path) ⟨rest, visited⟩).budget vertices ≤
            (⟨rest, visited⟩ : PathQueue V E).budget vertices :=
          budget_scan fun n hn => hvertices u n.1 n.2 hn
        have hless : (⟨rest, visited⟩ : PathQueue V E).budget vertices ≤ n := by
          rw [PathQueue.budget, List.length_cons] at hbudget
          rw [PathQueue.budget]
          dsimp only at hbudget ⊢
          omega
        obtain ⟨es, hes⟩ := ih _ (Nat.le_trans hscan hless)
        refine ⟨es, fun fuel hfuel => ?_⟩
        obtain ⟨fuel, rfl⟩ := Nat.exists_eq_add_one.mpr (Nat.zero_lt_of_lt hfuel)
        rw [pathSearch, if_neg hu]
        exact hes fuel (by omega)

end PathSearch

/-! ## Level by level -/

/-- The order in which a set is gone over. -/
structure SetOrder (V : Type) where
  order : List V → List V
  perm : ∀ l, (order l).Perm l

/-- What a search has visited, the level that it goes over next, and the edges it has met. -/
structure Sweep (V E : Type) where
  visited : List V
  frontier : List V
  edges : List E := []

section Sweeps

variable [DecidableEq V] [DecidableEq κ]

/-- One neighbour: it is visited, belongs to the next level if it is new, and its edge is kept
    unless one with its key is there. -/
def Sweep.meet (key : E → κ) (s : Sweep V E) (n : V × E) : Sweep V E where
  visited := if n.1 ∈ s.visited then s.visited else s.visited ++ [n.1]
  frontier := if n.1 ∈ s.visited then s.frontier else s.frontier ++ [n.1]
  edges := addFirst key s.edges n.2

variable (adj : Adjacency V E) (key : E → κ) (o : SetOrder V)

/-- One level. -/
def Sweep.level (s : Sweep V E) : Sweep V E :=
  (o.order s.frontier).foldl (fun s u => (adj u).foldl (Sweep.meet key) s) { s with frontier := [] }

/-- A search to a depth. -/
def sweep : Nat → Sweep V E → Sweep V E
  | 0, s => s
  | depth + 1, s => sweep depth (s.level adj key o)

/-- A search to the end; `none` is one that has not ended. -/
def sweepAll : Nat → Sweep V E → Option (Sweep V E)
  | 0, s => if s.frontier = [] then some s else none
  | fuel + 1, s => if s.frontier = [] then some s else sweepAll fuel (s.level adj key o)

variable {adj key o}

/-- An edge that leaves what lies within a distance. -/
def MetWithin (adj : Adjacency V E) (starts : List V) (n : Nat) (e : E) : Prop :=
  ∃ u w, Reached adj starts n u ∧ (w, e) ∈ adj u

/-- The invariant: after `n` levels the search has visited what lies within the distance `n`, the
    frontier is what lies no nearer, and the edges are those that leave what lies nearer. -/
structure Swept (adj : Adjacency V E) (key : E → κ) (starts : List V) (n : Nat)
    (s : Sweep V E) : Prop where
  visited : ∀ v, v ∈ s.visited ↔ Reached adj starts (n + 1) v
  frontier : ∀ v, v ∈ s.frontier ↔ Reached adj starts (n + 1) v ∧ ¬ Reached adj starts n v
  nodup : s.visited.Nodup
  edges : FirstsOf key (MetWithin adj starts n) s.edges

omit [DecidableEq V] [DecidableEq κ] in
theorem Swept.initial {starts : List V} (h : starts.Nodup) :
    Swept adj key starts 0 ⟨starts, starts, []⟩ where
  visited v := by
    rw [Reached.succ_iff]
    constructor
    · exact Or.inl
    · rintro (hv | ⟨u, e, hu, _⟩)
      · exact hv
      · exact absurd hu Reached.zero
  frontier v := by
    rw [Reached.succ_iff]
    constructor
    · exact fun hv => ⟨Or.inl hv, Reached.zero⟩
    · rintro ⟨hv | ⟨u, e, hu, _⟩, _⟩
      · exact hv
      · exact absurd hu Reached.zero
  nodup := h
  edges := by
    refine ⟨List.nodup_nil, fun e he => (nomatch he), ?_⟩
    rintro e ⟨u, w, hu, _⟩
    exact absurd hu Reached.zero

theorem visited_foldl_meet : ∀ {ns : List (V × E)} {s : Sweep V E} {v : V},
    v ∈ (ns.foldl (Sweep.meet key) s).visited ↔ v ∈ s.visited ∨ ∃ e, (v, e) ∈ ns
  | [], s, v => by simp
  | n :: ns, s, v => by
    have hmeet : v ∈ (s.meet key n).visited ↔ v ∈ s.visited ∨ v = n.1 := by
      show v ∈ (if n.1 ∈ s.visited then s.visited else s.visited ++ [n.1]) ↔ _
      split
      · rename_i hold
        constructor
        · exact Or.inl
        · rintro (h | rfl)
          · exact h
          · exact hold
      · rw [List.mem_append, List.mem_singleton]
    rw [List.foldl_cons, visited_foldl_meet, hmeet, or_assoc]
    refine or_congr_right ?_
    constructor
    · rintro (rfl | ⟨e, he⟩)
      · exact ⟨n.2, List.mem_cons_self⟩
      · exact ⟨e, List.mem_cons_of_mem _ he⟩
    · rintro ⟨e, he⟩
      rcases List.mem_cons.mp he with rfl | he
      · exact Or.inl rfl
      · exact Or.inr ⟨e, he⟩

theorem frontier_foldl_meet : ∀ {ns : List (V × E)} {s : Sweep V E} {v : V},
    v ∈ (ns.foldl (Sweep.meet key) s).frontier ↔
      v ∈ s.frontier ∨ v ∉ s.visited ∧ ∃ e, (v, e) ∈ ns
  | [], s, v => by simp
  | n :: ns, s, v => by
    rw [List.foldl_cons, frontier_foldl_meet]
    by_cases hn : n.1 ∈ s.visited
    · have hsame : (s.meet key n).frontier = s.frontier := if_pos hn
      have hvisited : (s.meet key n).visited = s.visited := if_pos hn
      rw [hsame, hvisited]
      refine or_congr_right (and_congr_right fun hv => ?_)
      constructor
      · rintro ⟨e, he⟩
        exact ⟨e, List.mem_cons_of_mem _ he⟩
      · rintro ⟨e, he⟩
        rcases List.mem_cons.mp he with rfl | he
        · exact absurd hn hv
        · exact ⟨e, he⟩
    · have hfrontier : (s.meet key n).frontier = s.frontier ++ [n.1] := if_neg hn
      have hvisited : (s.meet key n).visited = s.visited ++ [n.1] := if_neg hn
      rw [hfrontier, hvisited, List.mem_append, List.mem_append, List.mem_singleton, or_assoc]
      refine or_congr_right ?_
      constructor
      · rintro (rfl | ⟨hv, e, he⟩)
        · exact ⟨hn, n.2, List.mem_cons_self⟩
        · exact ⟨fun h => hv (Or.inl h), e, List.mem_cons_of_mem _ he⟩
      · rintro ⟨hv, e, he⟩
        rcases List.mem_cons.mp he with rfl | he
        · exact Or.inl rfl
        · by_cases hvn : v = n.1
          · exact Or.inl hvn
          · exact Or.inr ⟨fun h => h.elim hv hvn, e, he⟩

theorem nodup_foldl_meet : ∀ {ns : List (V × E)} {s : Sweep V E}, s.visited.Nodup →
    (ns.foldl (Sweep.meet key) s).visited.Nodup
  | [], _, h => h
  | n :: ns, s, h => by
    refine @nodup_foldl_meet ns (s.meet key n) ?_
    show (if n.1 ∈ s.visited then s.visited else s.visited ++ [n.1]).Nodup
    split
    · exact h
    · rename_i hnew
      exact List.nodup_append'.mpr ⟨h, List.nodup_singleton _,
        fun v hv hv' => hnew (List.mem_singleton.mp hv' ▸ hv)⟩

theorem edges_foldl_meet : ∀ {ns : List (V × E)} {s : Sweep V E} {met : E → Prop},
    FirstsOf key met s.edges →
    FirstsOf key (fun e => met e ∨ ∃ v, (v, e) ∈ ns) (ns.foldl (Sweep.meet key) s).edges
  | [], s, met, h => by
    refine ⟨h.nodup, fun e he => Or.inl (h.of_met e he), ?_⟩
    rintro e (he | ⟨v, hv⟩)
    · exact h.every e he
    · cases hv
  | n :: ns, s, met, h => by
    have hadd : FirstsOf key (fun e => met e ∨ e = n.2) (s.meet key n).edges :=
      h.add fun _ => Iff.rfl
    have hrest : FirstsOf key (fun e => (met e ∨ e = n.2) ∨ ∃ v, (v, e) ∈ ns)
        (ns.foldl (Sweep.meet key) (s.meet key n)).edges := edges_foldl_meet hadd
    have hmet : ∀ e, ((met e ∨ e = n.2) ∨ ∃ v, (v, e) ∈ ns) ↔ met e ∨ ∃ v, (v, e) ∈ n :: ns := by
      intro e
      rw [or_assoc]
      refine or_congr_right ?_
      constructor
      · rintro (rfl | ⟨v, hv⟩)
        · exact ⟨n.1, List.mem_cons_self⟩
        · exact ⟨v, List.mem_cons_of_mem _ hv⟩
      · rintro ⟨v, hv⟩
        rcases List.mem_cons.mp hv with rfl | hv
        · exact Or.inl rfl
        · exact Or.inr ⟨v, hv⟩
    exact hrest.congr hmet

theorem level_eq (s : Sweep V E) : s.level adj key o =
    ((o.order s.frontier).flatMap adj).foldl (Sweep.meet key) { s with frontier := [] } := by
  rw [Sweep.level, List.foldl_flatMap]

omit [DecidableEq V] in
theorem mem_neighbours {s : Sweep V E} {n : V × E} :
    n ∈ (o.order s.frontier).flatMap adj ↔ ∃ u ∈ s.frontier, n ∈ adj u := by
  rw [List.mem_flatMap]
  simp only [(o.perm s.frontier).mem_iff]

/-- **A level keeps the invariant.** -/
theorem Swept.level {starts : List V} {n : Nat} {s : Sweep V E} (h : Swept adj key starts n s) :
    Swept adj key starts (n + 1) (s.level adj key o) := by
  have hnew : ∀ v, (∃ e, (v, e) ∈ (o.order s.frontier).flatMap adj) ↔
      ∃ u e, (Reached adj starts (n + 1) u ∧ ¬ Reached adj starts n u) ∧ (v, e) ∈ adj u := by
    intro v
    simp only [mem_neighbours, h.frontier]
    constructor
    · rintro ⟨e, u, hu, he⟩
      exact ⟨u, e, hu, he⟩
    · rintro ⟨u, e, hu, he⟩
      exact ⟨e, u, hu, he⟩
  -- a neighbour of what lies nearer than the frontier was visited before
  have hstep : ∀ v, (Reached adj starts (n + 1) v ∨
      ∃ e, (v, e) ∈ (o.order s.frontier).flatMap adj) ↔ Reached adj starts (n + 2) v := by
    intro v
    rw [hnew, Reached.succ_iff (n := n + 1)]
    constructor
    · rintro (hv | ⟨u, e, hu, he⟩)
      · exact Reached.succ_iff.mp (hv.mono (Nat.le_succ _))
      · exact Or.inr ⟨u, e, hu.1, he⟩
    · rintro (hv | ⟨u, e, hu, he⟩)
      · exact Or.inl (Reached.of_mem hv)
      · by_cases hnear : Reached adj starts n u
        · exact Or.inl (Reached.succ_iff.mpr (Or.inr ⟨u, e, hnear, he⟩))
        · exact Or.inr ⟨u, e, ⟨hu, hnear⟩, he⟩
  rw [level_eq]
  refine ⟨fun v => ?_, fun v => ?_, nodup_foldl_meet h.nodup, ?_⟩
  · rw [visited_foldl_meet, h.visited, hstep]
  · rw [frontier_foldl_meet, h.visited, ← hstep v]
    constructor
    · rintro (hv | ⟨hv, he⟩)
      · cases hv
      · exact ⟨Or.inr he, hv⟩
    · rintro ⟨hv | he, hnot⟩
      · exact absurd hv hnot
      · exact Or.inr ⟨hnot, he⟩
  · have hedges : FirstsOf key (fun e => MetWithin adj starts n e ∨
          ∃ v, (v, e) ∈ (o.order s.frontier).flatMap adj)
        (((o.order s.frontier).flatMap adj).foldl (Sweep.meet key)
          { s with frontier := [] }).edges :=
      edges_foldl_meet (s := { s with frontier := [] }) h.edges
    have hmet : ∀ e, (MetWithin adj starts n e ∨
        ∃ v, (v, e) ∈ (o.order s.frontier).flatMap adj) ↔ MetWithin adj starts (n + 1) e := by
      intro e
      simp only [mem_neighbours, h.frontier]
      constructor
      · rintro (⟨u, w, hu, he⟩ | ⟨v, u, hu, he⟩)
        · exact ⟨u, w, hu.mono (Nat.le_succ _), he⟩
        · exact ⟨u, v, hu.1, he⟩
      · rintro ⟨u, w, hu, he⟩
        by_cases hnear : Reached adj starts n u
        · exact Or.inl ⟨u, w, hnear, he⟩
        · exact Or.inr ⟨w, u, ⟨hu, hnear⟩, he⟩
    exact hedges.congr hmet

/-- **A search to a depth.** -/
theorem sweep_swept {starts : List V} : ∀ (depth : Nat) {n : Nat} {s : Sweep V E},
    Swept adj key starts n s → Swept adj key starts (n + depth) (sweep adj key o depth s)
  | 0, _, _, h => h
  | depth + 1, n, s, h => by
    have hrest := sweep_swept depth (h.level (o := o))
    rw [Nat.add_right_comm, Nat.add_assoc] at hrest
    exact hrest

/-- Reached in any number of steps. -/
def ReachedAll (adj : Adjacency V E) (starts : List V) (v : V) : Prop :=
  ∃ u ∈ starts, ∃ es, Walk adj u es v

omit [DecidableEq V] [DecidableEq κ] in
theorem Swept.all {starts : List V} {n : Nat} {s : Sweep V E} (h : Swept adj key starts n s)
    (hempty : s.frontier = []) (v : V) : Reached adj starts n v ↔ ReachedAll adj starts v := by
  have hclosed : ∀ w, Reached adj starts (n + 1) w → Reached adj starts n w := by
    intro w hw
    by_contra hnot
    have hfrontier := (h.frontier w).mpr ⟨hw, hnot⟩
    rw [hempty] at hfrontier
    cases hfrontier
  constructor
  · rintro ⟨u, hu, es, hwalk, _⟩
    exact ⟨u, hu, es, hwalk⟩
  · rintro ⟨u, hu, es, hwalk⟩
    exact Reached.of_closed hclosed hu hwalk

theorem visited_level {s : Sweep V E} {v : V} (h : v ∈ s.visited) :
    v ∈ (s.level adj key o).visited := by
  rw [level_eq]
  exact visited_foldl_meet.mpr (Or.inl h)

theorem frontier_level {s : Sweep V E} {v : V} (h : v ∈ (s.level adj key o).frontier) :
    v ∉ s.visited ∧ v ∈ (s.level adj key o).visited ∧ ∃ u e, (v, e) ∈ adj u := by
  rw [level_eq] at h ⊢
  rcases frontier_foldl_meet.mp h with h | ⟨hv, e, he⟩
  · cases h
  · obtain ⟨u, -, hu⟩ := mem_neighbours.mp he
    exact ⟨hv, visited_foldl_meet.mpr (Or.inr ⟨e, he⟩), u, e, hu⟩

theorem sweepAll_done {s : Sweep V E} (h : s.frontier = []) (fuel : Nat) :
    sweepAll adj key o fuel s = some s := by
  cases fuel with
  | zero => rw [sweepAll, if_pos h]
  | succ fuel => rw [sweepAll, if_pos h]

/-- **A search without a depth ends**, with an empty frontier. -/
theorem sweepAll_spec {vertices starts : List V}
    (hvertices : ∀ u w e, (w, e) ∈ adj u → w ∈ vertices) (budget : Nat) :
    ∀ (n : Nat) (s : Sweep V E), unvisited vertices s.visited ≤ budget →
      Swept adj key starts n s →
      ∃ s', (∀ fuel, budget < fuel → sweepAll adj key o fuel s = some s') ∧
        s'.frontier = [] ∧ ∃ m, Swept adj key starts m s' := by
  induction budget using Nat.strongRecOn with
  | _ budget ih =>
    intro n s hbudget h
    by_cases hempty : s.frontier = []
    · exact ⟨s, fun fuel _ => sweepAll_done hempty fuel, hempty, n, h⟩
    have hturn : ∀ fuel, budget < fuel →
        ∃ rest, fuel = rest + 1 ∧ sweepAll adj key o fuel s =
          sweepAll adj key o rest (s.level adj key o) := by
      intro fuel hfuel
      obtain ⟨rest, rfl⟩ := Nat.exists_eq_add_one.mpr (Nat.zero_lt_of_lt hfuel)
      exact ⟨rest, rfl, by rw [sweepAll, if_neg hempty]⟩
    by_cases hnext : (s.level adj key o).frontier = []
    · refine ⟨s.level adj key o, fun fuel hfuel => ?_, hnext, n + 1, h.level⟩
      obtain ⟨rest, -, heq⟩ := hturn fuel hfuel
      rw [heq, sweepAll_done hnext]
    · obtain ⟨v, hv⟩ := List.exists_mem_of_ne_nil _ hnext
      obtain ⟨hold, hnew, u, e, he⟩ := frontier_level hv
      have hless := unvisited_lt (fun w hw => visited_level hw) (hvertices u v e he) hold hnew
      obtain ⟨s', hrun, hend⟩ := ih _ (Nat.lt_of_lt_of_le hless hbudget) (n + 1)
        (s.level adj key o) (Nat.le_refl _) h.level
      refine ⟨s', fun fuel hfuel => ?_, hend⟩
      obtain ⟨rest, hrest, heq⟩ := hturn fuel hfuel
      rw [heq]
      exact hrun rest (by omega)

end Sweeps
end NuSelf.Lib
