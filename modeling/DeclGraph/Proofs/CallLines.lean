import Mathlib
import DeclGraph.Proofs.GraphLabels
import DeclGraph.Proofs.TreeLevels

/-! The lines of calls are the same wherever they are read. A list of lines is told by two facts: it
is in order, and it holds the lines of the stored calls between two declarations, each as often as it
is stored. Callees, callers and single calls are read in three orders, but all of them put the lines
between two declarations in order; grouping takes nothing away and adds nothing; and trees and graphs
copy the lines of groups. -/
namespace DeclGraph

namespace NeighborGroup

def linesAt (groups : List NeighborGroup) (shared : Endpoint) : List UInt32 :=
  (groups.find? (·.key == shared)).elim [] (·.lines)

theorem linesAt_add (neighbor : Neighbor) (groups : List NeighborGroup) (shared : Endpoint) :
    linesAt (add neighbor groups) shared =
      linesAt groups shared ++ if neighbor.key = shared then [neighbor.line] else [] := by
  induction groups with
  | nil =>
      by_cases here : neighbor.key = shared
      · simp [linesAt, add, key, ← here, Neighbor.key]
      · simp [linesAt, add, key, here, ← Neighbor.key.eq_def]
  | cons group rest ih =>
      simp only [linesAt] at ih
      simp only [add]
      split
      next same =>
        have joined : group.key = neighbor.key := same
        have kept : key { group with lines := group.lines ++ [neighbor.line] } = group.key := rfl
        by_cases here : neighbor.key = shared
        · simp [linesAt, kept, joined, here]
        · simp [linesAt, kept, joined, here]
      next different =>
        have apart : group.key ≠ neighbor.key := different
        by_cases here : group.key = shared
        · have other : neighbor.key ≠ shared := fun same => apart (here.trans same.symm)
          simp [linesAt, here, other]
        · simpa [linesAt, here] using ih

theorem collect_concat (earlier : List Neighbor) (last : Neighbor) :
    collect (earlier ++ [last]) = add last (collect earlier) := by
  simp [collect_eq_foldl]

/-- A group has the lines of the calls of its endpoint, in their order. -/
theorem linesAt_collect (neighbors : List Neighbor) (shared : Endpoint) :
    linesAt (collect neighbors) shared =
      (neighbors.filter (·.key == shared)).map (·.line) := by
  induction neighbors using List.reverseRecOn with
  | nil => rfl
  | append_singleton earlier last ih =>
      rw [collect_concat, linesAt_add, ih, List.filter_append, List.map_append]
      by_cases here : last.key = shared <;> simp [here]

theorem collect_distinct (neighbors : List Neighbor) : ((collect neighbors).map key).Nodup := by
  induction neighbors using List.reverseRecOn with
  | nil => exact List.nodup_nil
  | append_singleton earlier last ih =>
      rw [collect_concat, add_keys]
      split
      next => exact ih
      next fresh => exact List.nodup_append_comm.1 (List.nodup_cons.2 ⟨fresh, ih⟩)

theorem lines_of_mem {neighbors : List Neighbor} {group : NeighborGroup}
    (member : group ∈ collect neighbors) :
    group.lines = (neighbors.filter (·.key == group.key)).map (·.line) := by
  have found := (find?_key_eq_some_iff (collect_distinct neighbors)).2 ⟨member, rfl⟩
  have lines : linesAt (collect neighbors) group.key = group.lines := by
    rw [linesAt, found]
    rfl
  rw [← lines, linesAt_collect]

theorem lines_of_mem_collect {neighbors : List Neighbor} {group : NeighborGroup} {id : Int}
    (member : group ∈ collect neighbors) (known : group.entityId = some id) :
    group.lines = (neighbors.filter (·.entityId == some id)).map (·.line) := by
  have keyed : group.key = .known id := endpoint_eq_known_iff.2 known
  rw [lines_of_mem member, keyed]
  congr 1
  apply List.filter_congr
  intro neighbor _
  rw [Bool.eq_iff_iff, beq_iff_eq, beq_iff_eq, Neighbor.key, endpoint_eq_known_iff]

end NeighborGroup

namespace Store
variable {store : Store} {caller callee id other : Int} {lines : List UInt32}

def callsBetween (store : Store) (caller callee : Int) : List CallRow :=
  store.calls.rows.filter fun row => row.callerId == caller && row.calleeId == some callee

/-- The lines of the calls from one declaration to another: in order, and none lost, repeated or taken
from another pair. -/
structure LinesBetween (store : Store) (caller callee : Int) (lines : List UInt32) : Prop where
  ascending : lines.Pairwise (· ≤ ·)
  complete : (lines.map fun line => (line.toNat : Int)).Perm
    ((store.callsBetween caller callee).map (·.line))

structure SiteLines (store : Store) (caller callee : Int) (lines : List UInt32) : Prop extends
    LinesBetween store caller callee lines where
  sites : ∃ calls, store.callSites caller callee = .ok calls ∧ calls.map (·.line) = lines

theorem LinesBetween.ofRows {rows : List CallRow}
    (read : (lines.map fun line => (line.toNat : Int)) = rows.map (·.line))
    (sorted : rows.Pairwise fun a b => a.line ≤ b.line)
    (all : rows.Perm (store.callsBetween caller callee)) :
    LinesBetween store caller callee lines where
  ascending := by
    have sorted := List.pairwise_map.2 sorted
    rw [← read] at sorted
    refine (List.pairwise_map.1 sorted).imp fun {a b} le => ?_
    rw [UInt32.le_iff_toNat_le]
    omega
  complete := by
    rw [read]
    exact all.map _

theorem LinesBetween.unique {lines' : List UInt32} (first : LinesBetween store caller callee lines)
    (second : LinesBetween store caller callee lines') : lines = lines' := by
  have injective : Function.Injective fun line : UInt32 => (line.toNat : Int) := by
    intro a b same
    exact UInt32.toNat_inj.1 (Int.ofNat_inj.1 same)
  have same : lines.Perm lines' :=
    (List.map_perm_map_iff injective).1 (first.complete.trans second.complete.symm)
  refine same.eq_of_pairwise (fun a b _ _ => ?_) first.ascending second.ascending
  exact UInt32.le_antisymm

/-- A list of calls is read by line. -/
theorem callSites_lines {calls : List Call} (success : store.callSites caller callee = .ok calls) :
    LinesBetween store caller callee (calls.map (·.line)) := by
  refine .ofRows ?_ (pairwise_mergeSort_key (fun _ _ => decide_eq_true_iff) _)
    (List.mergeSort_perm _ _)
  rw [List.map_map]
  refine map_read success fun row call success => ?_
  obtain ⟨line, read, same⟩ := bind_eq_ok.1 success
  cases same
  exact readLine_eq_ok read

/-- Lines that were read from the calls of a pair let these calls be read. -/
theorem LinesBetween.siteLines (between : LinesBetween store caller callee lines) :
    SiteLines store caller callee lines := by
  obtain ⟨calls, read⟩ : ∃ calls, store.callSites caller callee = .ok calls := by
    refine mapM_succeeds fun row member => ?_
    have listed : row.line ∈ (store.callsBetween caller callee).map (·.line) :=
      List.mem_map_of_mem (List.mem_mergeSort.1 member)
    obtain ⟨line, -, same⟩ := List.mem_map.1 (between.complete.mem_iff.2 listed)
    refine ⟨_, bind_eq_ok.2 ⟨line, ?_, rfl⟩⟩
    rw [← same]
    exact readLine_toNat line 4
  exact ⟨between, calls, read, (callSites_lines read).unique between⟩

theorem byLineAndCallee_iff (a b : CallRow) : byLineAndCallee a b = true ↔
    toLex (a.line, a.calleeSymbol) ≤ toLex (b.line, b.calleeSymbol) := by
  simp [byLineAndCallee, Prod.Lex.toLex_le_toLex]

theorem byCaller_iff (a b : String × CallRow) : byCaller a b = true ↔
    toLex (a.1, toLex (a.2.callerId, a.2.line)) ≤ toLex (b.1, toLex (b.2.callerId, b.2.line)) := by
  simp [byCaller, Prod.Lex.toLex_le_toLex]

theorem calleesOf_lines {neighbors : List Neighbor}
    (success : store.calleesOf id = .ok neighbors) :
    LinesBetween store id other
      ((neighbors.filter (·.entityId == some other)).map (·.line)) := by
  let calls := store.calls.rows.filter (·.callerId == id)
  have read : (((neighbors.filter (·.entityId == some other)).map (·.line)).map
        fun line => (line.toNat : Int)) =
      ((calls.mergeSort byLineAndCallee).filter (·.calleeId == some other)).map (·.line) := by
    rw [List.map_map]
    refine map_read (mapM_filter success fun row neighbor read => ?_) fun row neighbor read => ?_
    · obtain ⟨line, -, same⟩ := bind_eq_ok.1 read
      cases same
      rfl
    · obtain ⟨line, number, same⟩ := bind_eq_ok.1 read
      cases same
      exact readLine_eq_ok number
  refine .ofRows read ?_ ?_
  · have sorted := pairwise_mergeSort_key byLineAndCallee_iff calls
    exact (sorted.imp fun le => Prod.Lex.monotone_fst _ _ le).filter _
  · have all := (List.mergeSort_perm calls byLineAndCallee).filter (·.calleeId == some other)
    rw [List.filter_filter] at all
    simpa only [callsBetween, Bool.and_comm] using all

def callsTo (store : Store) (id : Int) : List (String × CallRow) :=
  store.calls.rows.filterMap fun row =>
    if row.calleeId == some id then
      (store.entities.find? row.callerId).map fun caller => (caller.symbol, row)
    else none

theorem mem_callsTo {pair : String × CallRow} (member : pair ∈ store.callsTo id) :
    (store.entities.find? pair.2.callerId).map (·.symbol) = some pair.1 := by
  obtain ⟨row, -, kept⟩ := List.mem_filterMap.1 member
  split at kept
  next =>
    obtain ⟨caller, found, same⟩ := Option.map_eq_some_iff.1 kept
    rw [← same, found]
    rfl
  next => cases kept

theorem callsTo_between (held : store.Holds other) :
    ((store.callsTo id).filter (·.2.callerId == other)).map (·.2) =
      store.callsBetween other id := by
  obtain ⟨caller, stored, numbered⟩ := held
  rw [callsTo, callsBetween, List.filter_filterMap, List.map_filterMap, ← List.filterMap_eq_filter]
  apply List.filterMap_congr
  intro row _
  by_cases called : row.calleeId = some id
  · by_cases from_other : row.callerId = other
    · have found : store.entities.find? other = some caller :=
        Table.find?_eq_some_iff.2 ⟨stored, numbered⟩
      simp [called, from_other, found]
    · cases store.entities.find? row.callerId <;>
        simp [called, from_other, Option.guard, Option.filter]
  · simp [called, Option.guard]

theorem callersOf_lines {neighbors : List Neighbor} (held : store.Holds other)
    (success : store.callersOf id = .ok neighbors) :
    LinesBetween store other id
      ((neighbors.filter (·.entityId == some other)).map (·.line)) := by
  have read : (((neighbors.filter (·.entityId == some other)).map (·.line)).map
        fun line => (line.toNat : Int)) =
      ((((store.callsTo id).mergeSort byCaller).filter (·.2.callerId == other)).map (·.2)).map
        (·.line) := by
    rw [List.map_map, List.map_map]
    refine map_read (mapM_filter success fun row neighbor read => ?_) fun row neighbor read => ?_
    · obtain ⟨line, -, same⟩ := bind_eq_ok.1 read
      cases same
      simp
    · obtain ⟨line, number, same⟩ := bind_eq_ok.1 read
      cases same
      exact readLine_eq_ok number
  refine .ofRows read ?_ ?_
  · rw [List.pairwise_map]
    have sorted := pairwise_mergeSort_key byCaller_iff (store.callsTo id)
    refine (sorted.filter _).imp_of_mem fun {a b} first second le => ?_
    -- Calls from one caller have one symbol, so their order is that of the lines.
    simp only [List.mem_filter, List.mem_mergeSort, beq_iff_eq] at first second
    have callers : a.2.callerId = b.2.callerId := first.2.trans second.2.symm
    have symbols : a.1 = b.1 := by
      have read := mem_callsTo first.1
      rw [callers, mem_callsTo second.1] at read
      exact (Option.some.inj read).symm
    simpa [Prod.Lex.toLex_le_toLex, callers, symbols] using le
  · have all := (List.mergeSort_perm (store.callsTo id) byCaller).filter (·.2.callerId == other)
    rw [← callsTo_between held]
    exact all.map _

/-- The lines of a group are those of the calls between a declaration and its neighbour. -/
theorem groups_lines {direction : Direction} {groups : List NeighborGroup} {group : NeighborGroup}
    (success : store.groups direction id = .ok groups) (member : group ∈ groups)
    (known : group.entityId = some other) :
    SiteLines store (CallGraph.ends ⟨id, direction⟩ other).1
      (CallGraph.ends ⟨id, direction⟩ other).2 group.lines := by
  obtain ⟨neighbors, read, same⟩ := bind_eq_ok.1 success
  cases direction with
  | callers =>
      obtain ⟨stored, known', held⟩ := groups_callers_stored success member
      cases known.symm.trans known'
      cases same
      rw [NeighborGroup.lines_of_mem_collect member known]
      exact (callersOf_lines held read).siteLines
  | callees =>
      cases same
      rw [NeighborGroup.lines_of_mem_collect member known]
      exact (calleesOf_lines read).siteLines

end Store

open Store (SiteLines)

namespace CallNode
variable {store : Store} {direction : Direction} {full : Prop}

theorem Lists.lines {last : Prop} {source : Int} {groups listed : List NeighborGroup}
    {node : CallNode} (lists : Lists store direction last full source groups listed node)
    {entity : Entity} {lines : List UInt32} {ending : Ending} {children : List CallNode}
    (member : known entity lines ending children ∈ node.children) :
    SiteLines store (CallGraph.ends ⟨source, direction⟩ entity.id).1
      (CallGraph.ends ⟨source, direction⟩ entity.id).2 lines := by
  obtain ⟨group, pair, shows⟩ := exists_left_of_mem lists.shown member
  have listed := lists.front.subset (List.of_mem_zip pair).1
  cases shows with
  | declared leads => exact Store.groups_lines lists.read listed leads

/-- A declaration under another one in a tree has the lines of the calls between the two. -/
theorem Occurs.lines {depth level : Nat} {source : Int} {above : List Int} {root : CallNode}
    {entity : Entity} {lines : List UInt32} {ending : Ending} {children : List CallNode}
    (grown : Grown store direction full depth [] root)
    (occurs : root.Occurs level (source :: above) (.known entity lines ending children)) :
    SiteLines store (CallGraph.ends ⟨source, direction⟩ entity.id).1
      (CallGraph.ends ⟨source, direction⟩ entity.id).2 lines := by
  cases occurs with
  | child parent member =>
      cases (parent.grown grown).2 with
      | loop => simp at member
      | unfolded _ _ _ lists _ => exact lists.lines member

end CallNode

namespace CallGraph
variable {store : Store}

structure Sited (store : Store) (edges : List GraphEdge) : Prop where
  distinct : (edges.map edgeEnds).Nodup
  lines : ∀ edge ∈ edges, SiteLines store edge.callerId edge.calleeId edge.lines

theorem connect_sited {sketch : Sketch} {visit : Visit} {distance : Nat} {other : Int}
    {lines : List UInt32} (sited : Sited store sketch.edges)
    (found : SiteLines store (ends visit other).1 (ends visit other).2 lines) :
    Sited store (sketch.connect visit distance other lines).edges where
  distinct := labelEdge_distinct sited.distinct
  lines := labelEdge_forall found sited.lines sited.lines

theorem Sketch.Follows.sited {visit : Visit} {distance : Nat} {sketch next : Sketch}
    {groups : List NeighborGroup} {group : NeighborGroup}
    (follows : Follows store visit distance sketch group next)
    (read : store.groups visit.direction visit.id = .ok groups) (member : group ∈ groups)
    (sited : Sited store sketch.edges) : Sited store next.edges := by
  cases follows with
  | stopped => exact sited
  | passed => exact sited
  | refused => exact sited
  | met _ known _ => exact connect_sited sited (Store.groups_lines read member known)
  | grown _ known _ _ _ => exact connect_sited sited (Store.groups_lines read member known)

theorem around_sited {limits : Limits} {projectId : Int} {symbol : String}
    {directions : List Direction} {maxDepth : Nat} {graph : CallGraph}
    (success : around store limits projectId symbol directions maxDepth = .ok (.found graph)) :
    Sited store graph.edges := by
  obtain ⟨root, -, built⟩ := around_found_iff.1 success
  obtain ⟨sketch, grown, rfl⟩ := build_eq_ok_iff.1 built
  refine Sketch.levels_preserves (P := fun _ sketch => Sited store sketch.edges)
    (fun _ _ sited => sited) ?_ ?_ grown
  · intro visit distance sketch groups group next read member follows sited
    exact follows.sited read member sited
  · exact ⟨List.nodup_nil, by simp [Sketch.ofRoot]⟩

end CallGraph

namespace Store

/-- Wherever the lines of calls are shown, they are those of the calls between two declarations: under
a node of a tree of callees or of callers, and on an edge of a graph, whichever way it was reached. -/
theorem call_lines_are_call_sites (store : Store) (limits : Limits) (projectId : Int)
    (symbol : String) (depth : UInt32) :
    (∀ tree, store.callTree limits projectId symbol .callees depth = .ok (.found tree) →
      ∀ level source above entity lines ending children,
        tree.root.Occurs level (source :: above) (.known entity lines ending children) →
          SiteLines store source entity.id lines) ∧
    (∀ tree, store.callTree limits projectId symbol .callers depth = .ok (.found tree) →
      ∀ level source above entity lines ending children,
        tree.root.Occurs level (source :: above) (.known entity lines ending children) →
          SiteLines store entity.id source lines) ∧
    (∀ graph, store.callGraph limits projectId symbol depth = .ok (.found graph) →
      CallGraph.Sited store graph.edges) ∧
    (∀ graph, store.reverseCallGraph limits projectId symbol depth = .ok (.found graph) →
      CallGraph.Sited store graph.edges) := by
  refine ⟨?_, ?_, fun graph => CallGraph.around_sited, fun graph => CallGraph.around_sited⟩
  · intro tree success level source above entity lines ending children occurs
    obtain ⟨root, -, -, grown⟩ := callTree_grown success
    exact occurs.lines grown
  · intro tree success level source above entity lines ending children occurs
    obtain ⟨root, -, -, grown⟩ := callTree_grown success
    exact occurs.lines grown

def mutualStore : Store :=
  let store := (empty.putEntities 1 1 (["even", "odd"].map recursiveDraft)).2
  (store.replaceCalls 1
    [⟨1, some 2, "odd", 9, none⟩, ⟨2, some 1, "even", 3, none⟩, ⟨1, some 2, "odd", 4, none⟩,
      ⟨1, some 2, "odd", 9, none⟩]).2

def mutualGraph : CallGraph where
  root := 1
  maxDepth := 2
  nodes :=
    [⟨⟨recursiveDraft "even", 1, 1⟩, ⟨some 0, some 0⟩⟩,
      ⟨⟨recursiveDraft "odd", 2, 1⟩, ⟨some 1, some 1⟩⟩]
  edges := [⟨2, 1, [3], ⟨some 1, some 2⟩⟩, ⟨1, 2, [4, 9, 9], ⟨some 2, some 1⟩⟩]
  truncated := false

def mutualReverse : CallGraph where
  root := 1
  maxDepth := 2
  nodes :=
    [⟨⟨recursiveDraft "even", 1, 1⟩, ⟨some 0, none⟩⟩, ⟨⟨recursiveDraft "odd", 2, 1⟩, ⟨some 1, none⟩⟩]
  edges := [⟨2, 1, [3], ⟨some 1, none⟩⟩, ⟨1, 2, [4, 9, 9], ⟨some 2, none⟩⟩]
  truncated := false

def mutualTree (direction : Direction) (down up : List UInt32) : CallTree where
  direction
  depth := 2
  root := .known ⟨recursiveDraft "even", 1, 1⟩ [] .whole
    [.known ⟨recursiveDraft "odd", 2, 1⟩ down .whole
      [.known ⟨recursiveDraft "even", 1, 1⟩ up .loop []]]
  nodeCount := 3

theorem mutual_call_lines :
    mutualStore.callTree {} 1 "even" .callees 2 =
        .ok (.found (mutualTree .callees [4, 9, 9] [3])) ∧
      mutualStore.callTree {} 1 "even" .callers 2 =
        .ok (.found (mutualTree .callers [3] [4, 9, 9])) ∧
      mutualStore.callGraph {} 1 "even" 2 = .ok (.found mutualGraph) ∧
      SiteLines mutualStore 1 2 [4, 9, 9] ∧ SiteLines mutualStore 2 1 [3] ∧
      CallGraph.Sited mutualStore mutualGraph.edges ∧
      mutualStore.reverseCallGraph {} 1 "even" 2 = .ok (.found mutualReverse) ∧
      CallGraph.Sited mutualStore mutualReverse.edges := by
  have down : mutualStore.callTree {} 1 "even" .callees 2 =
      .ok (.found (mutualTree .callees [4, 9, 9] [3])) := by
    cbv
  have up : mutualStore.callTree {} 1 "even" .callers 2 =
      .ok (.found (mutualTree .callers [3] [4, 9, 9])) := by
    cbv
  have around : mutualStore.callGraph {} 1 "even" 2 = .ok (.found mutualGraph) := by
    simp only [callGraph, CallGraph.around, CallGraph.build_eq_levels]
    cbv
  have toward : mutualStore.reverseCallGraph {} 1 "even" 2 = .ok (.found mutualReverse) := by
    simp only [reverseCallGraph, CallGraph.around, CallGraph.build_eq_levels]
    cbv
  obtain ⟨callees, callers, graph, reverse⟩ := call_lines_are_call_sites mutualStore {} 1 "even" 2
  have called : SiteLines mutualStore 1 2 [4, 9, 9] :=
    callees _ down _ _ _ _ _ _ _ (.child .root List.mem_cons_self)
  have calling : SiteLines mutualStore 2 1 [3] :=
    callers _ up _ _ _ _ _ _ _ (.child .root List.mem_cons_self)
  exact ⟨down, up, around, called, calling, graph _ around, toward, reverse _ toward⟩

end Store
end DeclGraph
