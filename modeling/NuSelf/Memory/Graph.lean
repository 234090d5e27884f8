/-
  The symbolic graph of memory: search around a match, shortest paths and closures.

  Every entry is a node, and every target that it lists under a relation of the registry an edge; a
  target that does not exist is a vertex without a node.  An edge is known by an id string,
  `source:relation:target`.  The three searches are breadth-first (`NuSelf.Lib.Graph`).

  1. `mem_graphAdjacency` — the neighbours that the adjacency lists are those the edges say;
  2. `findPath_shortest` — a path of least length, or nothing when there is none;
  3. `graphSearch_exact_iff` — both searches give exactly the nodes and the edges in reach, each
     once, unless two edges that they meet have the same id string.

  The iteration order of a set is a parameter (`SetOrder`), and `casefold` is Unicode case folding.
-/
import Mathlib.Data.List.Dedup
import Mathlib.Data.List.Infix
import NuSelf.Lib.Graph
import NuSelf.Memory.Staging

namespace NuSelf.Memory

open NuSelf.Lib

/-! ## Relations -/

structure RelationDescriptor where
  name : String
  source_field : String
  symmetric : Bool := false
  transitive : Bool := false
  inverse : Option String := none
  retrieval_rule : String := "include_direct_neighbors"
  deriving DecidableEq

/-- `RelationDescriptorRegistry`: the descriptors under their names. -/
abbrev RelationDescriptorRegistry := Shelf RelationDescriptor.name fun _ => true

/-- `default_relation_descriptor_registry()`. -/
def defaultRelationDescriptorRegistry : RelationDescriptorRegistry :=
  Shelf.empty.putAll
    [⟨{ name := "supersedes", source_field := "supersedes", inverse := some "superseded_by",
        retrieval_rule := "include_both_current_and_superseded" }, rfl⟩,
      ⟨{ name := "related_to", source_field := "related_to", symmetric := true,
         inverse := some "related_to" }, rfl⟩,
      ⟨{ name := "supports", source_field := "supports", inverse := some "supported_by" }, rfl⟩,
      ⟨{ name := "contradicts", source_field := "contradicts",
         inverse := some "contradicted_by" }, rfl⟩,
      ⟨{ name := "refines", source_field := "refines", inverse := some "refined_by" }, rfl⟩,
      ⟨{ name := "depends_on", source_field := "depends_on", transitive := true,
         inverse := some "required_by" }, rfl⟩]

/-- `entry.relations.get(descriptor.source_field, [])`. -/
def relationTargets (entry : MemoryEntry) (descriptor : RelationDescriptor) : List String :=
  (entry.relations.get descriptor.source_field).getD []

/-! ## The graph -/

structure SymbolicGraphNode where
  id : String
  kind : String := "Memory"
  type : String
  label : String
  body : String
  tags : List String
  deriving DecidableEq

structure SymbolicGraphEdge where
  id : String
  relation : String
  source : String
  target : String
  confidence : BitVec 64
  deriving DecidableEq

/-- `_symbolic_node_record`. -/
def symbolicNode (entry : MemoryEntry) : SymbolicGraphNode where
  id := entry.id
  type := entry.type
  label := entry.title
  body := entry.body
  tags := entry.tags

/-- `_symbolic_edge_record`. -/
def symbolicEdge (entry : MemoryEntry) (descriptor : RelationDescriptor) (target_id : String) :
    SymbolicGraphEdge where
  id := entry.id ++ ":" ++ descriptor.name ++ ":" ++ target_id
  relation := descriptor.name
  source := entry.id
  target := target_id
  confidence := entry.confidence

/-- What tells one edge from another. -/
def SymbolicGraphEdge.triple (e : SymbolicGraphEdge) : String × String × String :=
  (e.source, e.relation, e.target)

/-- `_relation_index_records`, as edges. -/
def relationEdges (registry : RelationDescriptorRegistry) (entry : MemoryEntry) :
    List SymbolicGraphEdge :=
  registry.records.flatMap fun descriptor =>
    (relationTargets entry descriptor).map (symbolicEdge entry descriptor)

structure SymbolicGraph where
  nodes : List SymbolicGraphNode
  edges : List SymbolicGraphEdge

def computeGraph (registry : RelationDescriptorRegistry) (t : MemoryTables) : SymbolicGraph where
  nodes := (listEntries t).map symbolicNode
  edges := (listEntries t).flatMap (relationEdges registry)

structure SymbolicGraphSearchResult where
  nodes : List SymbolicGraphNode
  edges : List SymbolicGraphEdge
  deriving DecidableEq

/-! ## The adjacency -/

abbrev GraphAdjacency := Table String (List (String × SymbolicGraphEdge))

/-- `adjacency.get(node_id, [])`. -/
def GraphAdjacency.neighbours (adjacency : GraphAdjacency) : Adjacency String SymbolicGraphEdge :=
  fun node_id => (adjacency.get node_id).getD []

/-- `adjacency.setdefault(node_id, []).append(neighbour)`. -/
def GraphAdjacency.append (adjacency : GraphAdjacency) (node_id : String)
    (neighbour : String × SymbolicGraphEdge) : GraphAdjacency :=
  adjacency.set node_id (adjacency.neighbours node_id ++ [neighbour])

/-- Whether an edge of the relation may be followed backwards. -/
def backwards (registry : RelationDescriptorRegistry) (bidirectional : Bool) (relation : String) :
    Bool :=
  bidirectional || (registry.get relation).any RelationDescriptor.symmetric

/-- One edge of `_build_graph_adjacency`. -/
def addEdge (registry : RelationDescriptorRegistry) (relation : Option String)
    (bidirectional : Bool) (adjacency : GraphAdjacency) (edge : SymbolicGraphEdge) :
    GraphAdjacency :=
  if relation.any (fun name => decide (edge.relation ≠ name)) = true then adjacency
  else
    let adjacency := adjacency.append edge.source (edge.target, edge)
    if backwards registry bidirectional edge.relation = true then
      adjacency.append edge.target (edge.source, edge)
    else adjacency

def buildGraphAdjacency (registry : RelationDescriptorRegistry) (relation : Option String)
    (bidirectional : Bool) (edges : List SymbolicGraphEdge) : GraphAdjacency :=
  edges.foldl (addEdge registry relation bidirectional) Table.empty

/-! ## The searches -/

section

variable (casefold : String → String) (registry : RelationDescriptorRegistry)

/-- `needle in text`. -/
def textIn (needle text : String) : Bool := decide (needle.toList <:+: text.toList)

def matchesGraphText (node : SymbolicGraphNode) (query : String) : Bool :=
  let normalized := strip (casefold query)
  if normalized = "" then true
  else
    textIn normalized (casefold node.label) || textIn normalized (casefold node.body) ||
      node.tags.any fun tag => textIn normalized (casefold tag)

/-- The nodes that match, as many as the limit allows. -/
def matchedNodes (nodes : List SymbolicGraphNode) (query : String) (node_type : Option String)
    (limit : Int) : List SymbolicGraphNode :=
  slice (nodes.filter fun node =>
    node_type.all (fun type => decide (node.type = type)) &&
      matchesGraphText casefold node query) 0 limit

/-- `{node.id: node for node in nodes}.get(node_id)`. -/
def nodeById (nodes : List SymbolicGraphNode) (node_id : String) : Option SymbolicGraphNode :=
  nodes.reverse.find? fun node => decide (node.id = node_id)

/-- The nodes of a set of ids, in id order. -/
def sortedNodes (nodes : List SymbolicGraphNode) (ids : List String) : List SymbolicGraphNode :=
  (ids.insertionSort fun a b => a ≤ b).filterMap (nodeById nodes)

variable (o : SetOrder String)

/-- `search_graph`.  `result_node_ids` is the same set as `visited`, and `seen_edge_ids` the ids of
    `result_edges`. -/
def searchGraph (t : MemoryTables) (query : String) (node_type : Option String)
    (limit depth : Int) : SymbolicGraphSearchResult :=
  let graph := computeGraph registry t
  let matched_nodes := matchedNodes casefold graph.nodes query node_type limit
  if depth ≤ 0 then { nodes := matched_nodes, edges := [] }
  else
    let adjacency := buildGraphAdjacency registry none true graph.edges
    let matched_ids := (matched_nodes.map SymbolicGraphNode.id).dedup
    let found := sweep adjacency.neighbours SymbolicGraphEdge.id o depth.toNat
      ⟨matched_ids, matched_ids, []⟩
    { nodes := matched_nodes ++
        sortedNodes graph.nodes (found.visited.filter fun id => decide (id ∉ matched_ids))
      edges := found.edges }

/-- `find_path`; `none` is a search that has not ended. -/
def findPath (t : MemoryTables) (fuel : Nat) (from_id to_id : String) :
    Option (List SymbolicGraphEdge) :=
  let adjacency := buildGraphAdjacency registry none true (computeGraph registry t).edges
  if adjacency.contains from_id = false then some []
  else pathSearch adjacency.neighbours to_id fuel ⟨[(from_id, [])], [from_id]⟩

/-- `transitive_closure_from`; `none` is a search that has not ended. -/
def transitiveClosureFrom (graph : SymbolicGraph) (fuel : Nat) (node_id relation : String) :
    Option SymbolicGraphSearchResult :=
  let adjacency := buildGraphAdjacency registry (some relation) false graph.edges
  (sweepAll adjacency.neighbours SymbolicGraphEdge.id o fuel ⟨[node_id], [node_id], []⟩).map
    fun found => { nodes := sortedNodes graph.nodes found.visited, edges := found.edges }

def transitiveClosure (t : MemoryTables) (fuel : Nat) (node_id relation : String) :
    Option SymbolicGraphSearchResult :=
  transitiveClosureFrom registry o (computeGraph registry t) fuel node_id relation

end

/-! ## What the adjacency says -/

/-- An edge that leads from one vertex to another, forwards, or backwards where that is allowed. -/
def Follows (registry : RelationDescriptorRegistry) (relation : Option String)
    (bidirectional : Bool) (edges : List SymbolicGraphEdge) (e : SymbolicGraphEdge)
    (u w : String) : Prop :=
  e ∈ edges ∧ (∀ name, relation = some name → e.relation = name) ∧
    (e.source = u ∧ e.target = w ∨
      backwards registry bidirectional e.relation = true ∧ e.target = u ∧ e.source = w)

section

variable {registry : RelationDescriptorRegistry} {relation : Option String} {bidirectional : Bool}

theorem neighbours_append (adjacency : GraphAdjacency) (u v : String)
    (n : String × SymbolicGraphEdge) : (adjacency.append u n).neighbours v =
      if v = u then adjacency.neighbours u ++ [n] else adjacency.neighbours v := by
  unfold GraphAdjacency.neighbours GraphAdjacency.append
  rw [Table.get_set]
  by_cases hv : v = u
  · rw [if_pos hv, if_pos hv]
    rfl
  · rw [if_neg hv, if_neg hv]

theorem mem_neighbours_append {adjacency : GraphAdjacency} {u v : String}
    {n m : String × SymbolicGraphEdge} : m ∈ (adjacency.append u n).neighbours v ↔
      m ∈ adjacency.neighbours v ∨ v = u ∧ m = n := by
  rw [neighbours_append]
  by_cases hv : v = u
  · subst hv
    rw [if_pos rfl, List.mem_append, List.mem_singleton]
    exact or_congr_right (and_iff_right rfl).symm
  · rw [if_neg hv]
    constructor
    · exact Or.inl
    · rintro (h | ⟨h, -⟩)
      · exact h
      · exact absurd h hv

theorem mem_addEdge {adjacency : GraphAdjacency} {edge e : SymbolicGraphEdge} {u w : String} :
    (w, e) ∈ (addEdge registry relation bidirectional adjacency edge).neighbours u ↔
      (w, e) ∈ adjacency.neighbours u ∨ Follows registry relation bidirectional [edge] e u w := by
  unfold addEdge Follows
  by_cases hother : relation.any (fun name => decide (edge.relation ≠ name)) = true
  · rw [if_pos hother]
    constructor
    · exact Or.inl
    · rintro (h | ⟨he, hall, -⟩)
      · exact h
      · rw [List.mem_singleton.mp he] at hall
        cases relation with
        | none => cases hother
        | some name => exact absurd (hall name rfl) (of_decide_eq_true hother)
  · have hall : ∀ name, relation = some name → edge.relation = name := by
      intro name hname
      by_contra hne
      refine hother ?_
      rw [hname]
      exact decide_eq_true hne
    rw [if_neg hother]
    dsimp only
    have hsingle : (e ∈ [edge] ∧ (∀ name, relation = some name → e.relation = name) ∧
        (e.source = u ∧ e.target = w ∨
          backwards registry bidirectional e.relation = true ∧ e.target = u ∧ e.source = w)) ↔
        e = edge ∧ (edge.source = u ∧ edge.target = w ∨
          backwards registry bidirectional edge.relation = true ∧
            edge.target = u ∧ edge.source = w) := by
      rw [List.mem_singleton]
      constructor
      · rintro ⟨rfl, -, h⟩
        exact ⟨rfl, h⟩
      · rintro ⟨rfl, h⟩
        exact ⟨rfl, hall, h⟩
    rw [hsingle]
    by_cases hback : backwards registry bidirectional edge.relation = true
    · rw [if_pos hback, mem_neighbours_append, mem_neighbours_append, or_assoc]
      refine or_congr_right ?_
      constructor
      · rintro (⟨rfl, h⟩ | ⟨rfl, h⟩)
        · cases h
          exact ⟨rfl, Or.inl ⟨rfl, rfl⟩⟩
        · cases h
          exact ⟨rfl, Or.inr ⟨hback, rfl, rfl⟩⟩
      · rintro ⟨rfl, ⟨rfl, rfl⟩ | ⟨-, rfl, rfl⟩⟩
        · exact Or.inl ⟨rfl, rfl⟩
        · exact Or.inr ⟨rfl, rfl⟩
    · rw [if_neg hback, mem_neighbours_append]
      refine or_congr_right ?_
      constructor
      · rintro ⟨rfl, h⟩
        cases h
        exact ⟨rfl, Or.inl ⟨rfl, rfl⟩⟩
      · rintro ⟨rfl, ⟨rfl, rfl⟩ | ⟨h, -⟩⟩
        · exact ⟨rfl, rfl⟩
        · exact absurd h hback

theorem mem_foldl_addEdge : ∀ {edges : List SymbolicGraphEdge} {adjacency : GraphAdjacency}
    {e : SymbolicGraphEdge} {u w : String},
    (w, e) ∈ (edges.foldl (addEdge registry relation bidirectional) adjacency).neighbours u ↔
      (w, e) ∈ adjacency.neighbours u ∨ Follows registry relation bidirectional edges e u w
  | [], adjacency, e, u, w => by
    constructor
    · exact Or.inl
    · rintro (h | ⟨he, -⟩)
      · exact h
      · cases he
  | edge :: rest, adjacency, e, u, w => by
    rw [List.foldl_cons, mem_foldl_addEdge, mem_addEdge, or_assoc]
    refine or_congr_right ?_
    have hcons : e ∈ edge :: rest ↔ e = edge ∨ e ∈ rest := List.mem_cons
    unfold Follows
    rw [hcons, List.mem_singleton, ← or_and_right]

/-- **The neighbours that the adjacency lists are those the edges say.** -/
theorem mem_graphAdjacency {edges : List SymbolicGraphEdge} {e : SymbolicGraphEdge}
    {u w : String} :
    (w, e) ∈ (buildGraphAdjacency registry relation bidirectional edges).neighbours u ↔
      Follows registry relation bidirectional edges e u w := by
  rw [buildGraphAdjacency, mem_foldl_addEdge]
  constructor
  · rintro (h | h)
    · cases h
    · exact h
  · exact Or.inr

end

/-! ## Paths -/

section

variable (edges : List SymbolicGraphEdge)

/-- The edge joins the two vertices, in either direction. -/
def Joins (e : SymbolicGraphEdge) (u w : String) : Prop :=
  e ∈ edges ∧ (e.source = u ∧ e.target = w ∨ e.target = u ∧ e.source = w)

/-- The edge leads from one vertex to another along a relation, in both directions when it is
    symmetric. -/
def Along (symmetric : Bool) (relation : String) (e : SymbolicGraphEdge) (u w : String) : Prop :=
  e ∈ edges ∧ e.relation = relation ∧
    (e.source = u ∧ e.target = w ∨ symmetric = true ∧ e.target = u ∧ e.source = w)

end

/-- The edges of a contiguous path from one vertex to another. -/
def GraphPath (follows : SymbolicGraphEdge → String → String → Prop) :
    String → List SymbolicGraphEdge → String → Prop
  | u, [], v => u = v
  | u, e :: es, v => ∃ w, follows e u w ∧ GraphPath follows w es v

/-- `descriptor is not None and descriptor.symmetric`. -/
def RelationDescriptorRegistry.symmetric (registry : RelationDescriptorRegistry)
    (relation : String) : Bool :=
  (registry.get relation).any RelationDescriptor.symmetric

section

variable {registry : RelationDescriptorRegistry} {edges : List SymbolicGraphEdge}

theorem mem_undirected {e : SymbolicGraphEdge} {u w : String} :
    (w, e) ∈ (buildGraphAdjacency registry none true edges).neighbours u ↔ Joins edges e u w := by
  rw [mem_graphAdjacency, Follows, Joins]
  refine and_congr_right fun _ => ?_
  constructor
  · rintro ⟨-, h | ⟨-, h⟩⟩
    · exact Or.inl h
    · exact Or.inr h
  · rintro (h | h)
    · exact ⟨fun _ hname => (nomatch hname), Or.inl h⟩
    · exact ⟨fun _ hname => (nomatch hname), Or.inr ⟨rfl, h⟩⟩

theorem mem_along {relation : String} {e : SymbolicGraphEdge} {u w : String} :
    (w, e) ∈ (buildGraphAdjacency registry (some relation) false edges).neighbours u ↔
      Along edges (registry.symmetric relation) relation e u w := by
  rw [mem_graphAdjacency, Follows, Along]
  refine and_congr_right fun _ => ?_
  constructor
  · rintro ⟨hname, h⟩
    have hrelation := hname relation rfl
    rw [hrelation] at h
    exact ⟨hrelation, h⟩
  · rintro ⟨rfl, h⟩
    exact ⟨fun _ hname => Option.some.inj hname, h⟩

theorem walk_iff {adj : Adjacency String SymbolicGraphEdge}
    {follows : SymbolicGraphEdge → String → String → Prop}
    (h : ∀ u w e, (w, e) ∈ adj u ↔ follows e u w) : ∀ {es : List SymbolicGraphEdge} {u v : String},
    Walk adj u es v ↔ GraphPath follows u es v
  | [], u, v => by
    constructor
    · exact Walk.eq_of_nil
    · rintro rfl
      exact .nil _
  | e :: es, u, v => by
    constructor
    · intro hwalk
      cases hwalk with
      | cons head tail => exact ⟨_, (h _ _ _).mp head, (walk_iff h).mp tail⟩
    · rintro ⟨w, hstep, hrest⟩
      exact .cons ((h _ _ _).mpr hstep) ((walk_iff h).mpr hrest)

/-- The vertices of the edges. -/
def endpoints (edges : List SymbolicGraphEdge) : List String :=
  edges.flatMap fun e => [e.source, e.target]

theorem mem_endpoints {relation : Option String} {bidirectional : Bool} (u w : String)
    (e : SymbolicGraphEdge)
    (h : (w, e) ∈ (buildGraphAdjacency registry relation bidirectional edges).neighbours u) :
    w ∈ endpoints edges := by
  obtain ⟨he, -, ⟨-, rfl⟩ | ⟨-, -, rfl⟩⟩ := mem_graphAdjacency.mp h
  · exact List.mem_flatMap.mpr ⟨e, he, List.mem_cons_of_mem _ (List.mem_singleton_self _)⟩
  · exact List.mem_flatMap.mpr ⟨e, he, List.mem_cons_self⟩

end

/-! ## Shortest paths -/

/-- A path of least length between two vertices, in either direction of the edges. -/
structure ShortestPath (edges : List SymbolicGraphEdge) (from_id to_id : String)
    (path : List SymbolicGraphEdge) : Prop where
  nonempty : path ≠ []
  joined : GraphPath (Joins edges) from_id path to_id
  shortest : ∀ other, GraphPath (Joins edges) from_id other to_id → path.length ≤ other.length

theorem contains_iff_neighbours {registry : RelationDescriptorRegistry} {relation : Option String}
    {bidirectional : Bool} {edges : List SymbolicGraphEdge} {u : String}
    (h : (buildGraphAdjacency registry relation bidirectional edges).contains u = false) :
    (buildGraphAdjacency registry relation bidirectional edges).neighbours u = [] := by
  unfold GraphAdjacency.neighbours
  unfold Table.contains at h
  rw [Option.isSome_eq_false_iff, Option.isNone_iff_eq_none] at h
  rw [h]
  rfl

/-- **`find_path` ends, with a shortest path between two different ids or, when there is no path,
    with nothing.** -/
theorem findPath_shortest (registry : RelationDescriptorRegistry) (t : MemoryTables)
    (from_id to_id : String) (hne : from_id ≠ to_id) :
    ∃ path n, (∀ fuel, n < fuel → findPath registry t fuel from_id to_id = some path) ∧
      (ShortestPath (computeGraph registry t).edges from_id to_id path ∨
        path = [] ∧ ∀ other,
          ¬ GraphPath (Joins (computeGraph registry t).edges) from_id other to_id) := by
  generalize hedges : (computeGraph registry t).edges = edges
  have hwalk : ∀ {es : List SymbolicGraphEdge} {u v : String},
      Walk (buildGraphAdjacency registry none true edges).neighbours u es v ↔
        GraphPath (Joins edges) u es v :=
    walk_iff fun _ _ _ => mem_undirected
  unfold findPath
  rw [hedges]
  dsimp only
  by_cases hknown :
      (buildGraphAdjacency registry none true edges).contains from_id = false
  · refine ⟨[], 0, fun fuel _ => if_pos hknown, Or.inr ⟨rfl, fun other hother => ?_⟩⟩
    cases hwalk.mpr hother with
    | nil => exact hne rfl
    | cons head _ =>
      rw [contains_iff_neighbours hknown] at head
      cases head
  · have hends : ∀ u w e, (w, e) ∈ (buildGraphAdjacency registry none true edges).neighbours u →
        w ∈ endpoints edges := mem_endpoints
    let start : PathQueue String SymbolicGraphEdge := ⟨[(from_id, [])], [from_id]⟩
    obtain ⟨path, hpath⟩ : ∃ path, ∀ fuel, start.budget (endpoints edges) < fuel →
        pathSearch (buildGraphAdjacency registry none true edges).neighbours to_id fuel start =
          some path := pathSearch_fuel hends _ start (Nat.le_refl _)
    refine ⟨path, _, fun fuel hfuel => (if_neg hknown).trans (hpath fuel hfuel), ?_⟩
    rcases pathSearch_spec Queued.initial (hpath _ (Nat.lt_succ_self _)) with hfound | ⟨hnil, hnone⟩
    · refine Or.inl ⟨?_, hwalk.mp hfound.walk, fun other hother =>
        hfound.shortest other (hwalk.mpr hother)⟩
      rintro rfl
      exact hne hfound.walk.eq_of_nil
    · exact Or.inr ⟨hnil, fun other hother => hnone other (hwalk.mpr hother)⟩

/-! ## Nodes -/

theorem listEntries_perm (t : MemoryTables) : (listEntries t).Perm t.entries.records :=
  List.perm_insertionSort _ _

theorem listEntries_ids (t : MemoryTables) : ((listEntries t).map MemoryEntry.id).Nodup := by
  rw [((listEntries_perm t).map _).nodup_iff]
  exact t.entries.nodup_keys

theorem graphNodes_ids (registry : RelationDescriptorRegistry) (t : MemoryTables) :
    ((computeGraph registry t).nodes.map SymbolicGraphNode.id).Nodup := by
  show (((listEntries t).map symbolicNode).map SymbolicGraphNode.id).Nodup
  rw [List.map_map]
  exact listEntries_ids t

section

variable {nodes : List SymbolicGraphNode}

theorem nodeById_iff (hnodup : (nodes.map SymbolicGraphNode.id).Nodup) {node_id : String}
    {n : SymbolicGraphNode} : nodeById nodes node_id = some n ↔ n ∈ nodes ∧ n.id = node_id := by
  unfold nodeById
  constructor
  · intro h
    have hid := List.find?_some h
    exact ⟨List.mem_reverse.mp (List.mem_of_find?_eq_some h), by simpa using hid⟩
  · rintro ⟨hn, rfl⟩
    cases hfind : nodes.reverse.find? fun node => decide (node.id = n.id) with
    | none =>
      have hnot := List.find?_eq_none.mp hfind n (List.mem_reverse.mpr hn)
      exact absurd (decide_eq_true rfl) hnot
    | some m =>
      have hm : m ∈ nodes := List.mem_reverse.mp (List.mem_of_find?_eq_some hfind)
      have hid := List.find?_some hfind
      rw [List.inj_on_of_nodup_map hnodup hm hn (by simpa using hid)]

theorem mem_sortedNodes (hnodup : (nodes.map SymbolicGraphNode.id).Nodup) {ids : List String}
    {n : SymbolicGraphNode} : n ∈ sortedNodes nodes ids ↔ n ∈ nodes ∧ n.id ∈ ids := by
  unfold sortedNodes
  rw [List.mem_filterMap]
  constructor
  · rintro ⟨id, hid, hfound⟩
    obtain ⟨hn, rfl⟩ := (nodeById_iff hnodup).mp hfound
    exact ⟨hn, (List.mem_insertionSort _).mp hid⟩
  · rintro ⟨hn, hid⟩
    exact ⟨n.id, (List.mem_insertionSort _).mpr hid, (nodeById_iff hnodup).mpr ⟨hn, rfl⟩⟩

theorem sortedNodes_pairwise (hnodup : (nodes.map SymbolicGraphNode.id).Nodup)
    {ids : List String} (hids : ids.Nodup) :
    (sortedNodes nodes ids).Pairwise fun a b => a.id < b.id := by
  have hsorted : (ids.insertionSort fun a b => a ≤ b).Pairwise (· ≤ ·) :=
    List.pairwise_insertionSort _ _
  have hdistinct : (ids.insertionSort fun a b => a ≤ b).Pairwise (· ≠ ·) :=
    (List.perm_insertionSort _ _).nodup_iff.mpr hids
  have hstrict : (ids.insertionSort fun a b => a ≤ b).Pairwise (· < ·) :=
    (hsorted.and hdistinct).imp fun h => by
      by_contra hnot
      exact h.2 (String.le_antisymm h.1 (String.not_lt.mp hnot))
  refine hstrict.filterMap _ fun a b hab n hn m hm => ?_
  rw [((nodeById_iff hnodup).mp hn).2, ((nodeById_iff hnodup).mp hm).2]
  exact hab

end

/-! ## Exact searches -/

section

variable (edges : List SymbolicGraphEdge)

/-- No farther from the starts than the distance, in either direction of the edges. -/
def WithinDistance (starts : List String) (distance : Int) (v : String) : Prop :=
  ∃ u ∈ starts, ∃ es, GraphPath (Joins edges) u es v ∧ (es.length : Int) ≤ distance

/-- The edges around the starts: an endpoint lies within the distance. -/
def Around (starts : List String) (distance : Int) (e : SymbolicGraphEdge) : Prop :=
  e ∈ edges ∧ (WithinDistance edges starts distance e.source ∨
    WithinDistance edges starts distance e.target)

/-- Reachable along a relation. -/
def ReachableAlong (symmetric : Bool) (relation start v : String) : Prop :=
  ∃ es, GraphPath (Along edges symmetric relation) start es v

/-- The edges of the relation that leave what is reachable. -/
def LeavesReachable (symmetric : Bool) (relation start : String) (e : SymbolicGraphEdge) : Prop :=
  e ∈ edges ∧ e.relation = relation ∧ (ReachableAlong edges symmetric relation start e.source ∨
    symmetric = true ∧ ReachableAlong edges symmetric relation start e.target)

end

/-- Exactly the edges in question, one for each source, relation and target. -/
structure EdgesExact (wanted : SymbolicGraphEdge → Prop) (edges : List SymbolicGraphEdge) :
    Prop where
  once : (edges.map SymbolicGraphEdge.triple).Nodup
  exact : ∀ e, e ∈ edges ↔ wanted e

/-- No two different edges in question have the same id string. -/
def IdsApart (wanted : SymbolicGraphEdge → Prop) : Prop :=
  ∀ a b, wanted a → wanted b → a.id = b.id → a.triple = b.triple

/-- An edge of the graph is made from its entry, its relation and its target. -/
theorem mem_graphEdges {registry : RelationDescriptorRegistry} {t : MemoryTables}
    {e : SymbolicGraphEdge} : e ∈ (computeGraph registry t).edges ↔
      ∃ entry ∈ listEntries t, ∃ descriptor ∈ registry.records,
        ∃ target_id ∈ relationTargets entry descriptor,
          e = symbolicEdge entry descriptor target_id := by
  show e ∈ (listEntries t).flatMap (relationEdges registry) ↔ _
  rw [List.mem_flatMap]
  refine exists_congr fun entry => and_congr_right fun _ => ?_
  rw [relationEdges, List.mem_flatMap]
  refine exists_congr fun descriptor => and_congr_right fun _ => ?_
  rw [List.mem_map]
  refine exists_congr fun target_id => and_congr_right fun _ => ?_
  exact eq_comm

/-- The source, the relation and the target say which edge of the graph it is. -/
theorem triple_inj {registry : RelationDescriptorRegistry} {t : MemoryTables}
    {a b : SymbolicGraphEdge} (ha : a ∈ (computeGraph registry t).edges)
    (hb : b ∈ (computeGraph registry t).edges) (h : a.triple = b.triple) : a = b := by
  obtain ⟨entry, hentry, descriptor, -, target_id, -, rfl⟩ := mem_graphEdges.mp ha
  obtain ⟨entry', hentry', descriptor', -, target_id', -, rfl⟩ := mem_graphEdges.mp hb
  have hid : entry.id = entry'.id := congrArg Prod.fst h
  have hname : descriptor.name = descriptor'.name := congrArg (fun x => x.2.1) h
  have htarget : target_id = target_id' := congrArg (fun x => x.2.2) h
  have hsame : entry = entry' := List.inj_on_of_nodup_map (listEntries_ids t) hentry hentry' hid
  unfold symbolicEdge
  rw [hsame, hname, htarget]

theorem edgesExact_iff {wanted : SymbolicGraphEdge → Prop} {edges : List SymbolicGraphEdge}
    (hinj : ∀ a b, wanted a → wanted b → a.triple = b.triple → a = b)
    (h : FirstsOf SymbolicGraphEdge.id wanted edges) :
    EdgesExact wanted edges ↔ IdsApart wanted := by
  have honce : (edges.map SymbolicGraphEdge.triple).Nodup := by
    refine (List.nodup_map_iff_inj_on ?_).mpr ?_
    · exact List.Nodup.of_map _ h.nodup
    · intro a ha b hb htriple
      exact hinj a b (h.of_met a ha) (h.of_met b hb) htriple
  constructor
  · intro hedges a b ha hb hab
    rw [h.exact_iff.mp hedges.exact a b ha hb hab]
  · intro hapart
    exact ⟨honce, h.exact_iff.mpr fun a b ha hb hab => hinj a b ha hb (hapart a b ha hb hab)⟩

/-- What `search_graph` is to return: the first matching nodes, the others within the distance in id
    order, and the edges one level nearer. -/
structure GraphSearchExact (graph : SymbolicGraph) (first : List SymbolicGraphNode) (depth : Int)
    (result : SymbolicGraphSearchResult) : Prop where
  nodes : ∃ expanded, result.nodes = first ++ expanded ∧
    (expanded.Pairwise fun a b => a.id < b.id) ∧
    ∀ n, n ∈ expanded ↔ n ∈ graph.nodes ∧ n.id ∉ first.map SymbolicGraphNode.id ∧
      WithinDistance graph.edges (first.map SymbolicGraphNode.id) depth n.id
  edges : EdgesExact
    (Around graph.edges (first.map SymbolicGraphNode.id) (depth - 1)) result.edges

/-- What `transitive_closure` is to return. -/
structure ClosureExact (graph : SymbolicGraph) (symmetric : Bool) (relation start : String)
    (result : SymbolicGraphSearchResult) : Prop where
  sorted : result.nodes.Pairwise fun a b => a.id < b.id
  nodes : ∀ n, n ∈ result.nodes ↔
    n ∈ graph.nodes ∧ ReachableAlong graph.edges symmetric relation start n.id
  edges : EdgesExact (LeavesReachable graph.edges symmetric relation start) result.edges

section

variable {registry : RelationDescriptorRegistry} {edges : List SymbolicGraphEdge}
  {starts : List String}

theorem reached_iff_within {distance : Int} {v : String} {n : Nat}
    (hn : n = (distance + 1).toNat) :
    Reached (buildGraphAdjacency registry none true edges).neighbours starts n v ↔
      WithinDistance edges starts distance v := by
  refine exists_congr fun u => and_congr_right fun _ => exists_congr fun es => ?_
  rw [walk_iff fun _ _ _ => mem_undirected]
  refine and_congr_right fun _ => ?_
  omega

theorem metWithin_iff_around {distance : Int} {e : SymbolicGraphEdge} {n : Nat}
    (hn : n = (distance + 1).toNat) :
    MetWithin (buildGraphAdjacency registry none true edges).neighbours starts n e ↔
      Around edges starts distance e := by
  unfold MetWithin Around
  simp only [reached_iff_within hn, mem_undirected]
  constructor
  · rintro ⟨u, w, hu, he, ⟨rfl, -⟩ | ⟨rfl, -⟩⟩
    · exact ⟨he, Or.inl hu⟩
    · exact ⟨he, Or.inr hu⟩
  · rintro ⟨he, hu | hu⟩
    · exact ⟨_, _, hu, he, Or.inl ⟨rfl, rfl⟩⟩
    · exact ⟨_, _, hu, he, Or.inr ⟨rfl, rfl⟩⟩

theorem around_nothing {distance : Int} (hdistance : distance < 0) (e : SymbolicGraphEdge) :
    ¬ Around edges starts distance e := by
  rintro ⟨-, ⟨u, -, es, -, h⟩ | ⟨u, -, es, -, h⟩⟩
  · omega
  · omega

end

theorem exact_of_shallow {graph : SymbolicGraph} {first : List SymbolicGraphNode} {depth : Int}
    (hdepth : depth ≤ 0) : GraphSearchExact graph first depth { nodes := first, edges := [] } := by
  refine ⟨⟨[], (List.append_nil _).symm, List.Pairwise.nil, fun n => ?_⟩, List.nodup_nil,
    fun e => ?_⟩
  · constructor
    · exact fun hn => (nomatch hn)
    · rintro ⟨-, hnot, u, hu, es, hpath, hlength⟩
      have hes : es = [] := List.length_eq_zero_iff.mp (by omega)
      subst hes
      obtain rfl : u = n.id := hpath
      exact absurd hu hnot
  · exact ⟨fun he => (nomatch he), fun he => absurd he (around_nothing (by omega) e)⟩

/-- **`search_graph` is exact unless two edges that it meets have the same id string.** -/
theorem searchGraph_exact_iff (casefold : String → String)
    (registry : RelationDescriptorRegistry) (o : SetOrder String) (t : MemoryTables)
    (query : String) (node_type : Option String) (limit : Int) (depth : Int) :
    let graph := computeGraph registry t
    let first := matchedNodes casefold graph.nodes query node_type limit
    GraphSearchExact graph first depth
        (searchGraph casefold registry o t query node_type limit depth) ↔
      IdsApart (Around graph.edges (first.map SymbolicGraphNode.id) (depth - 1)) := by
  intro graph first
  have hinj : ∀ a b, Around graph.edges (first.map SymbolicGraphNode.id) (depth - 1) a →
      Around graph.edges (first.map SymbolicGraphNode.id) (depth - 1) b →
      a.triple = b.triple → a = b := fun a b ha hb => triple_inj ha.1 hb.1
  by_cases hdepth : depth ≤ 0
  · have hresult : searchGraph casefold registry o t query node_type limit depth =
        { nodes := first, edges := [] } := if_pos hdepth
    rw [hresult]
    have hnone : ∀ e, ¬ Around graph.edges (first.map SymbolicGraphNode.id) (depth - 1) e :=
      around_nothing (by omega)
    exact iff_of_true (exact_of_shallow hdepth) fun a _ ha => absurd ha (hnone a)
  · let adjacency := buildGraphAdjacency registry none true graph.edges
    let matched_ids := (first.map SymbolicGraphNode.id).dedup
    let found := sweep adjacency.neighbours SymbolicGraphEdge.id o depth.toNat
      ⟨matched_ids, matched_ids, []⟩
    have hresult : searchGraph casefold registry o t query node_type limit depth =
        { nodes := first ++
            sortedNodes graph.nodes (found.visited.filter fun id => decide (id ∉ matched_ids))
          edges := found.edges } := if_neg hdepth
    have hstarts : ∀ {n v}, Reached adjacency.neighbours matched_ids n v ↔
        Reached adjacency.neighbours (first.map SymbolicGraphNode.id) n v := by
      intro n v
      unfold Reached
      simp only [matched_ids, List.mem_dedup]
    have hswept : Swept adjacency.neighbours SymbolicGraphEdge.id matched_ids
        (0 + depth.toNat) found := sweep_swept _ (Swept.initial (List.nodup_dedup _))
    rw [Nat.zero_add] at hswept
    have hmet : ∀ e, MetWithin adjacency.neighbours matched_ids depth.toNat e ↔
        Around graph.edges (first.map SymbolicGraphNode.id) (depth - 1) e := by
      intro e
      have haround : MetWithin adjacency.neighbours (first.map SymbolicGraphNode.id) depth.toNat e ↔
          Around graph.edges (first.map SymbolicGraphNode.id) (depth - 1) e :=
        metWithin_iff_around (by omega)
      rw [← haround]
      unfold MetWithin
      simp only [hstarts]
    have hwithin : ∀ v, Reached adjacency.neighbours (first.map SymbolicGraphNode.id)
        (depth.toNat + 1) v ↔
          WithinDistance graph.edges (first.map SymbolicGraphNode.id) depth v :=
      fun v => reached_iff_within (by omega)
    rw [hresult, ← edgesExact_iff hinj (hswept.edges.congr hmet)]
    constructor
    · exact GraphSearchExact.edges
    · intro hedges
      refine ⟨⟨_, rfl, sortedNodes_pairwise (graphNodes_ids registry t)
        (hswept.nodup.filter _), fun n => ?_⟩, hedges⟩
      rw [mem_sortedNodes (graphNodes_ids registry t), List.mem_filter, hswept.visited, hstarts,
        hwithin, decide_eq_true_eq, List.mem_dedup]
      exact and_congr_right fun _ => and_comm

theorem reachedAll_iff {registry : RelationDescriptorRegistry} {edges : List SymbolicGraphEdge}
    {relation start v : String} :
    ReachedAll (buildGraphAdjacency registry (some relation) false edges).neighbours [start] v ↔
      ReachableAlong edges (registry.symmetric relation) relation start v := by
  unfold ReachedAll ReachableAlong
  simp only [List.mem_singleton, exists_eq_left, walk_iff fun _ _ _ => mem_along]

/-- **The search for a closure ends.**  It has visited what is reachable, and met the edges that
    leave it. -/
theorem closure_found (registry : RelationDescriptorRegistry) (o : SetOrder String)
    (edges : List SymbolicGraphEdge) (start relation : String) :
    ∃ found,
      (∀ fuel, unvisited (endpoints edges) [start] < fuel →
        sweepAll (buildGraphAdjacency registry (some relation) false edges).neighbours
          SymbolicGraphEdge.id o fuel ⟨[start], [start], []⟩ = some found) ∧
      (∀ v, v ∈ found.visited ↔
        ReachableAlong edges (registry.symmetric relation) relation start v) ∧
      found.visited.Nodup ∧
      FirstsOf SymbolicGraphEdge.id
        (LeavesReachable edges (registry.symmetric relation) relation start) found.edges := by
  have hends : ∀ u w e,
      (w, e) ∈ (buildGraphAdjacency registry (some relation) false edges).neighbours u →
        w ∈ endpoints edges := mem_endpoints
  have hinitial : Swept (buildGraphAdjacency registry (some relation) false edges).neighbours
      SymbolicGraphEdge.id [start] 0 ⟨[start], [start], []⟩ :=
    Swept.initial (List.nodup_singleton start)
  obtain ⟨found, hrun, hempty, n, hswept⟩ := sweepAll_spec (o := o) hends _ 0
    ⟨[start], [start], []⟩ (Nat.le_refl _) hinitial
  have hreach : ∀ v, Reached (buildGraphAdjacency registry (some relation) false
      edges).neighbours [start] n v ↔
        ReachableAlong edges (registry.symmetric relation) relation start v :=
    fun v => (hswept.all hempty v).trans reachedAll_iff
  refine ⟨found, hrun, fun v => ?_, hswept.nodup, hswept.edges.congr fun e => ?_⟩
  · rw [hswept.visited, ← hreach]
    constructor
    · rintro ⟨u, hu, es, hwalk, -⟩
      exact (hswept.all hempty v).mpr ⟨u, hu, es, hwalk⟩
    · exact fun hv => hv.mono (Nat.le_succ _)
  · unfold MetWithin LeavesReachable
    simp only [hreach, mem_along]
    constructor
    · rintro ⟨u, w, hu, he, hrelation, ⟨rfl, -⟩ | ⟨hsymmetric, rfl, -⟩⟩
      · exact ⟨he, hrelation, Or.inl hu⟩
      · exact ⟨he, hrelation, Or.inr ⟨hsymmetric, hu⟩⟩
    · rintro ⟨he, hrelation, hu | ⟨hsymmetric, hu⟩⟩
      · exact ⟨_, _, hu, he, hrelation, Or.inl ⟨rfl, rfl⟩⟩
      · exact ⟨_, _, hu, he, hrelation, Or.inr ⟨hsymmetric, rfl, rfl⟩⟩

/-- **`transitive_closure` ends, and is exact unless two edges that it meets have the same id
    string.** -/
theorem transitiveClosure_exact_iff (registry : RelationDescriptorRegistry) (o : SetOrder String)
    (t : MemoryTables) (start relation : String) :
    let graph := computeGraph registry t
    let symmetric := registry.symmetric relation
    ∃ closure n,
      (∀ fuel, n < fuel → transitiveClosure registry o t fuel start relation = some closure) ∧
      (ClosureExact graph symmetric relation start closure ↔
        IdsApart (LeavesReachable graph.edges symmetric relation start)) := by
  intro graph symmetric
  obtain ⟨found, hrun, hvisited, hnodup, hedges⟩ :=
    closure_found registry o graph.edges start relation
  have hinj : ∀ a b, LeavesReachable graph.edges symmetric relation start a →
      LeavesReachable graph.edges symmetric relation start b → a.triple = b.triple → a = b :=
    fun a b ha hb => triple_inj ha.1 hb.1
  refine ⟨{ nodes := sortedNodes graph.nodes found.visited, edges := found.edges },
    unvisited (endpoints graph.edges) [start], fun fuel hfuel => ?_, ?_⟩
  · unfold transitiveClosure transitiveClosureFrom
    dsimp only
    rw [hrun fuel hfuel]
    rfl
  · rw [← edgesExact_iff hinj hedges]
    constructor
    · exact ClosureExact.edges
    · refine fun hexact => ⟨sortedNodes_pairwise (graphNodes_ids registry t) hnodup,
        fun n => ?_, hexact⟩
      rw [mem_sortedNodes (graphNodes_ids registry t), hvisited]

/-- **The searches are exact unless two edges that they meet have the same id string**, and both
    end. -/
theorem graphSearch_exact_iff (casefold : String → String)
    (registry : RelationDescriptorRegistry) (o : SetOrder String) (t : MemoryTables)
    (query : String) (node_type : Option String) (limit depth : Int) (start relation : String) :
    let graph := computeGraph registry t
    let first := matchedNodes casefold graph.nodes query node_type limit
    let symmetric := registry.symmetric relation
    (GraphSearchExact graph first depth
        (searchGraph casefold registry o t query node_type limit depth) ↔
      IdsApart (Around graph.edges (first.map SymbolicGraphNode.id) (depth - 1))) ∧
    ∃ closure n,
      (∀ fuel, n < fuel → transitiveClosure registry o t fuel start relation = some closure) ∧
      (ClosureExact graph symmetric relation start closure ↔
        IdsApart (LeavesReachable graph.edges symmetric relation start)) :=
  ⟨searchGraph_exact_iff casefold registry o t query node_type limit depth,
    transitiveClosure_exact_iff registry o t start relation⟩

/-! ## Two edges under one id -/

/-- An entry with nothing but links. -/
def linkedEntry (id : String) (related_to : List String) : MemoryEntry where
  type := "episode"
  title := "Tea"
  body := "Green"
  tags := []
  source_refs := []
  confidence := 0x0#64
  importance := 0x0#64
  privacy := .private
  review_state := .draft
  id := id
  created_at := "1"
  updated_at := "1"
  observed_at := none
  valid_from := none
  valid_until := none
  temporal_note := ""
  relations := Table.empty.set "related_to" related_to
  evidence := []

/-- Two entries whose links are joined to the same text. -/
def colonTables : MemoryTables where
  candidates := .empty
  entries := (Shelf.empty.put (linkedEntry "a" ["b:related_to:c"]) (by decide)).put
    (linkedEntry "a:related_to:b" ["c"]) (by decide)
  profile := .empty

/-- Sets in the order of their insertion. -/
def insertionOrder : SetOrder String := ⟨id, fun _ => List.Perm.refl _⟩

def colonEdge (source target : String) : SymbolicGraphEdge where
  id := source ++ ":" ++ "related_to" ++ ":" ++ target
  relation := "related_to"
  source := source
  target := target
  confidence := 0x0#64

theorem findPath_shortest_colons : "a" ≠ "b:related_to:c" ∧
    ∃ path n, (∀ fuel, n < fuel → findPath defaultRelationDescriptorRegistry colonTables fuel "a"
        "b:related_to:c" = some path) ∧
      (ShortestPath (computeGraph defaultRelationDescriptorRegistry colonTables).edges "a"
          "b:related_to:c" path ∨
        path = [] ∧ ∀ other,
          ¬ GraphPath (Joins (computeGraph defaultRelationDescriptorRegistry colonTables).edges)
            "a" other "b:related_to:c") :=
  ⟨by decide, findPath_shortest _ _ _ _ (by decide)⟩

/-- One of the two edges is lost. -/
theorem searchGraph_loses_edge :
    let graph := computeGraph defaultRelationDescriptorRegistry colonTables
    let first := matchedNodes id graph.nodes "" none 8
    ¬ GraphSearchExact graph first 1 (searchGraph id defaultRelationDescriptorRegistry
      insertionOrder colonTables "" none 8 1) := by
  intro graph first h
  have haround : ∀ e ∈ [colonEdge "a" "b:related_to:c", colonEdge "a:related_to:b" "c"],
      Around graph.edges (first.map SymbolicGraphNode.id) (1 - 1) e := by
    intro e he
    have hedge : e ∈ graph.edges := by
      revert e
      decide +kernel
    have hsource : e.source ∈ first.map SymbolicGraphNode.id := by
      revert e
      decide +kernel
    exact ⟨hedge, Or.inl ⟨e.source, hsource, [], rfl, by decide⟩⟩
  have hboth : ∀ e ∈ [colonEdge "a" "b:related_to:c", colonEdge "a:related_to:b" "c"],
      e ∈ (searchGraph id defaultRelationDescriptorRegistry insertionOrder colonTables "" none 8
        1).edges :=
    fun e he => (h.edges.exact e).mpr (haround e he)
  revert hboth
  decide +kernel

end NuSelf.Memory
