import Mathlib
import DeclGraph.Calls.Graph
import DeclGraph.Proofs.Reading

/-! An exploration takes visits from a queue, and the visits in it are of two distances at most: those
that are left of one level, and those of the next. So it goes level by level, and a graph can be
sketched without queue and index, by lists that are searched. -/
namespace DeclGraph

theorem Labels.put_of_set {labels : Labels} {direction : Direction} {count : Nat}
    (set : labels.get direction = some count) (distance : Nat) :
    labels.put direction distance = labels := by
  obtain ⟨caller, callee⟩ := labels
  cases direction with
  | callers =>
      cases set
      rfl
  | callees =>
      cases set
      rfl

namespace CallGraph

structure Sketch where
  nodes : List GraphNode
  edges : List GraphEdge
  frontier : List Visit
  budget : Budget
  full : Bool := false

def hasNode (nodes : List GraphNode) (id : Int) : Bool :=
  nodes.any (·.entity.id == id)

def nodeLabel (nodes : List GraphNode) (direction : Direction) (id : Int) : Option Nat :=
  (nodes.find? (·.entity.id == id)).bind (·.labels.get direction)

def labelNode (direction : Direction) (id : Int) (distance : Nat) (nodes : List GraphNode) :
    List GraphNode :=
  nodes.map fun node =>
    if node.entity.id == id then { node with labels := node.labels.put direction distance }
    else node

def labelEdge (direction : Direction) (callerId calleeId : Int) (lines : List UInt32)
    (distance : Nat) : List GraphEdge → List GraphEdge
  | [] => [⟨callerId, calleeId, lines, Labels.put {} direction distance⟩]
  | edge :: rest =>
    if edge.callerId = callerId ∧ edge.calleeId = calleeId then
      { edge with labels := edge.labels.put direction distance } :: rest
    else edge :: labelEdge direction callerId calleeId lines distance rest

namespace Sketch

def connect (sketch : Sketch) (visit : Visit) (distance : Nat) (other : Int)
    (lines : List UInt32) : Sketch :=
  let (callerId, calleeId) := ends visit other
  { sketch with
    nodes := labelNode visit.direction other distance sketch.nodes
    edges := labelEdge visit.direction callerId calleeId lines distance sketch.edges
    frontier :=
      if (nodeLabel sketch.nodes visit.direction other).isNone then
        sketch.frontier ++ [⟨other, visit.direction⟩]
      else sketch.frontier }

def follow (store : Store) (visit : Visit) (distance : Nat) (sketch : Sketch)
    (group : NeighborGroup) : Except Error Sketch :=
  if sketch.full then .ok sketch
  else
    match group.entityId with
    | none => .ok sketch
    | some other =>
      if hasNode sketch.nodes other then .ok (sketch.connect visit distance other group.lines)
      else do
        match ← store.entity? other with
        | none => .ok sketch
        | some entity =>
          match sketch.budget.take? with
          | none => .ok { sketch with full := true }
          | some budget =>
            let grown : Sketch := { sketch with nodes := sketch.nodes ++ [⟨entity, {}⟩], budget }
            .ok (grown.connect visit distance other group.lines)

def expand (store : Store) (distance : Nat) (sketch : Sketch) (visit : Visit) :
    Except Error Sketch :=
  if sketch.full then .ok sketch
  else do
    (← store.groups visit.direction visit.id).foldlM (follow store visit distance) sketch

def levels (store : Store) : Nat → Nat → Sketch → Except Error Sketch
  | 0, _, sketch => .ok sketch
  | remaining + 1, distance, sketch => do
    let next ← sketch.frontier.foldlM (expand store distance) { sketch with frontier := [] }
    levels store remaining (distance + 1) next

def ofRoot (directions : List Direction) (budget : Budget) (root : Entity) : Sketch where
  nodes := [⟨root, directions.foldl (fun labels direction => labels.put direction 0) {}⟩]
  edges := []
  frontier := directions.map fun direction => ⟨root.id, direction⟩
  budget := budget.take?.getD budget

end Sketch

def edgeEnds (edge : GraphEdge) : Int × Int :=
  (edge.callerId, edge.calleeId)

/-! The queue holds what is left of one level and, behind it, what has been found of the next. Taking its
first visit follows the same calls as the level does. -/

theorem labelNode_eq_modify {nodes : List GraphNode} {place : Nat} {node : GraphNode} {id : Int}
    (distinct : (nodes.map (·.entity.id)).Nodup) (here : nodes[place]? = some node)
    (named : node.entity.id = id) (direction : Direction) (distance : Nat) :
    labelNode direction id distance nodes =
      nodes.modify place (·.label direction distance) := by
  refine List.ext_getElem? fun position => ?_
  rw [labelNode, List.getElem?_map, List.getElem?_modify]
  cases there : nodes[position]? with
  | none => rfl
  | some other =>
      have same : other.entity.id = id ↔ place = position := by
        constructor
        · intro also
          have bound := (List.getElem?_eq_some_iff.1 here).1
          refine (List.getElem?_inj (by rwa [List.length_map]) distinct).1 ?_
          rw [List.getElem?_map, List.getElem?_map, here, there, Option.map_some, Option.map_some,
            named, also]
        · rintro rfl
          cases here.symm.trans there
          exact named
      by_cases found : place = position
      · simp [found, same.2 found, GraphNode.label]
      · simp [found, mt same.1 found]

theorem modify_of_fixed {α : Type} {entries : List α} {place : Nat} {entry : α} {change : α → α}
    (here : entries[place]? = some entry) (fixed : change entry = entry) :
    entries.modify place change = entries := by
  refine List.ext_getElem? fun position => ?_
  rw [List.getElem?_modify]
  by_cases same : place = position
  · subst same
    simp [here, fixed]
  · simp [same]

namespace Exploration

/-- An exploration and a sketch of the same graph. The visits `pending` are left of the level at the
distance; the frontier is queued behind them. -/
structure Simulates (pending : List Visit) (distance : Nat) (walk : Exploration) (sketch : Sketch) :
    Prop where
  nodes : walk.nodes.entries = sketch.nodes
  edges : walk.edges.entries = sketch.edges
  budget : walk.budget = sketch.budget
  full : walk.full = sketch.full
  queue : walk.queue = pending.map (⟨·, distance⟩) ++ sketch.frontier.map (⟨·, distance + 1⟩)
  nodesIndexed : walk.nodes.Faithful (·.entity.id)
  edgesIndexed : walk.edges.Faithful edgeEnds
  distinct : (sketch.nodes.map (·.entity.id)).Nodup

variable {store : Store} {pending : List Visit} {visit : Visit} {distance place : Nat} {other : Int}
  {walk : Exploration} {sketch : Sketch}

/-- The node of a declaration that has a place. -/
theorem Simulates.node (simulates : Simulates pending distance walk sketch)
    (placed : walk.nodes.place? other = some place) :
    ∃ node, sketch.nodes[place]? = some node ∧ node.entity.id = other ∧
      sketch.nodes.find? (·.entity.id == other) = some node := by
  have found : sketch.nodes.findIdx? (·.entity.id == other) = some place := by
    rw [← simulates.nodes, ← simulates.nodesIndexed other, placed]
  obtain ⟨bound, named, -⟩ := List.findIdx?_eq_some_iff_getElem.1 found
  have here := List.getElem?_eq_getElem bound
  refine ⟨_, here, beq_iff_eq.1 named, ?_⟩
  rw [List.find?_eq_bind_findIdx?_getElem?, found, Option.bind_some, here]

theorem Simulates.hasNode_iff (simulates : Simulates pending distance walk sketch) :
    hasNode sketch.nodes other = true ↔ ∃ place, walk.nodes.place? other = some place := by
  rw [simulates.nodesIndexed, simulates.nodes, ← Option.isSome_iff_exists, List.findIdx?_isSome]
  rfl

theorem Simulates.grow (simulates : Simulates pending distance walk sketch) {entity : Entity}
    (missing : walk.nodes.place? other = none) (read : store.entity? other = .ok (some entity))
    (budget : Budget) :
    Simulates pending distance
      { walk with nodes := walk.nodes.push other ⟨entity, {}⟩, budget }
      { sketch with nodes := sketch.nodes ++ [⟨entity, {}⟩], budget } := by
  have named : entity.id = other := Store.entity?_id read
  subst named
  have fresh : entity.id ∉ sketch.nodes.map (·.entity.id) := by
    intro member
    obtain ⟨node, listed, same⟩ := List.mem_map.1 member
    rw [simulates.nodesIndexed, simulates.nodes, List.findIdx?_eq_none_iff] at missing
    simpa [same] using missing node listed
  exact
    { simulates with
      nodes := congrArg (· ++ _) simulates.nodes
      budget := rfl
      nodesIndexed := simulates.nodesIndexed.push ⟨entity, {}⟩ missing
      distinct := by simpa [List.nodup_append] using ⟨simulates.distinct, by simpa using fresh⟩ }

theorem Simulates.connect (simulates : Simulates pending distance walk sketch)
    (placed : walk.nodes.place? other = some place) (visit : Visit) (lines : List UInt32) :
    Simulates pending distance (walk.connect ⟨visit, distance⟩ other lines place)
      (sketch.connect visit (distance + 1) other lines) := by
  obtain ⟨node, here, named, search⟩ := simulates.node placed
  have labelled := labelNode_eq_modify simulates.distinct here named visit.direction (distance + 1)
  have label : nodeLabel sketch.nodes visit.direction other = node.labels.get visit.direction := by
    rw [nodeLabel, search, Option.bind_some]
  rcases both : ends visit other with ⟨caller, callee⟩
  let fresh : GraphEdge := ⟨caller, callee, lines, Labels.put {} visit.direction (distance + 1)⟩
  have edges : (walk.edges.upsert (caller, callee) (·.label visit.direction (distance + 1))
      fresh).entries = labelEdge visit.direction caller callee lines (distance + 1) sketch.edges := by
    rw [← simulates.edges]
    refine simulates.edgesIndexed.upsert_entries
      (labelEdge visit.direction caller callee lines (distance + 1)) rfl fun edge rest => ?_
    simp only [labelEdge, edgeEnds, Prod.mk.injEq, GraphEdge.label]
  have indexed := simulates.edgesIndexed.upsert (·.label visit.direction (distance + 1))
    (fun _ => rfl) fresh
  simp only [Exploration.connect, Sketch.connect, both, simulates.nodes, here, label]
  cases set : node.labels.get visit.direction with
  | some count =>
      have kept : sketch.nodes.modify place (·.label visit.direction (distance + 1)) = sketch.nodes :=
        modify_of_fixed here (by rw [GraphNode.label, Labels.put_of_set set])
      exact
        { nodes := by rw [labelled, kept]; exact simulates.nodes
          edges
          budget := simulates.budget
          full := simulates.full
          queue := simulates.queue
          nodesIndexed := simulates.nodesIndexed
          edgesIndexed := indexed
          distinct := by rw [labelled, kept]; exact simulates.distinct }
  | none =>
      have ids : (sketch.nodes.modify place (·.label visit.direction (distance + 1))).map
          (·.entity.id) = sketch.nodes.map (·.entity.id) :=
        Indexed.map_modify_key (GraphNode.label · visit.direction (distance + 1)) (fun _ => rfl) place _
      exact
        { nodes := by rw [labelled, Indexed.modify, simulates.nodes]
          edges
          budget := simulates.budget
          full := simulates.full
          queue := by simp [simulates.queue]
          nodesIndexed := simulates.nodesIndexed.modify (·.label visit.direction (distance + 1))
            (fun _ => rfl) place
          edgesIndexed := indexed
          distinct := by rw [labelled, ids]; exact simulates.distinct }

theorem follow_simulates (simulates : Simulates pending distance walk sketch)
    (started : sketch.full = false) (visit : Visit) (group : NeighborGroup) :
    Alike (Simulates pending distance) (follow store ⟨visit, distance⟩ walk group)
      (sketch.follow store visit (distance + 1) group) := by
  rw [follow, Sketch.follow, if_neg (by simp [started])]
  cases group.entityId with
  | none => exact simulates
  | some other =>
      cases placed : walk.nodes.place? other with
      | some place =>
          have present := simulates.hasNode_iff.2 ⟨place, placed⟩
          simp only [placed, if_pos present]
          exact simulates.connect placed visit group.lines
      | none =>
          have absent : ¬ hasNode sketch.nodes other = true := by
            rintro present
            obtain ⟨place, found⟩ := simulates.hasNode_iff.1 present
            simp [placed] at found
          simp only [placed, if_neg absent]
          cases read : store.entity? other with
          | error => rfl
          | ok stored =>
              cases stored with
              | none => exact simulates
              | some entity =>
                  have same : walk.budget.take? = sketch.budget.take? := by rw [simulates.budget]
                  simp only [bind, Except.bind, same]
                  cases sketch.budget.take? with
                  | none => exact { simulates with full := rfl }
                  | some budget =>
                      exact (simulates.grow placed read budget).connect
                        (Indexed.place?_push walk.nodes other _) visit group.lines

theorem followAll_simulates (simulates : Simulates pending distance walk sketch)
    (started : sketch.full = false) (visit : Visit) (groups : List NeighborGroup) :
    Alike (Simulates pending distance) (followAll store ⟨visit, distance⟩ groups walk)
      (groups.foldlM (Sketch.follow store visit (distance + 1)) sketch) := by
  induction groups generalizing walk sketch with
  | nil => exact simulates
  | cons group rest ih =>
      rw [followAll, List.foldlM_cons]
      refine (follow_simulates simulates started visit group).bind fun next grown simulates => ?_
      cases full : grown.full with
      | false =>
          rw [if_neg (by simp [simulates.full, full])]
          exact ih simulates full
      | true =>
          have stands : rest.foldlM (Sketch.follow store visit (distance + 1)) grown = .ok grown :=
            foldlM_fixed fun _ _ => if_pos full
          rw [if_pos (by rw [simulates.full, full]), stands]
          exact simulates

theorem expand_simulates (simulates : Simulates pending distance walk sketch)
    (started : sketch.full = false) (visit : Visit) :
    Alike (Simulates pending distance) (expand store ⟨visit, distance⟩ walk)
      (sketch.expand store (distance + 1) visit) := by
  rw [expand, Sketch.expand, if_neg (by simp [started])]
  refine (Alike.refl _).bind fun groups _ same => ?_
  subst same
  exact followAll_simulates simulates started visit groups

theorem run_nil (store : Store) (maxDepth : Nat) (ended : walk.queue = []) :
    run store maxDepth walk = .ok walk := by
  rw [run]
  split
  next => rfl
  next queued => simp [ended] at queued

theorem run_cons (store : Store) (maxDepth : Nat) {arrival : Arrival} {rest : List Arrival}
    (queued : walk.queue = arrival :: rest) :
    run store maxDepth walk =
      if maxDepth ≤ arrival.distance then run store maxDepth { walk with queue := rest }
      else expand store arrival { walk with queue := rest } >>= fun next =>
        if next.full then .ok next else run store maxDepth next := by
  rw [run]
  split
  next ended => simp [queued] at ended
  next first others queued' =>
    cases queued.symm.trans queued'
    by_cases deep : maxDepth ≤ arrival.distance
    · rw [if_pos deep, if_pos deep]
    · rw [if_neg deep, if_neg deep]
      split
      next error failed =>
        rw [failed]
        rfl
      next next expanded =>
        rw [expanded]
        rfl

/-- Visits at the greatest depth are taken out of the queue and nothing else. -/
theorem run_last (store : Store) {maxDepth : Nat}
    (last : ∀ arrival ∈ walk.queue, maxDepth ≤ arrival.distance) :
    run store maxDepth walk = .ok { walk with queue := [] } := by
  obtain ⟨nodes, edges, queue, budget, full⟩ := walk
  induction queue with
  | nil => exact run_nil store maxDepth rfl
  | cons arrival rest ih =>
      rw [run_cons store maxDepth rfl, if_pos (last arrival List.mem_cons_self)]
      exact ih fun other member => last other (List.mem_cons_of_mem arrival member)

def Makes (walk : Exploration) (sketch : Sketch) : Prop :=
  walk.nodes.entries = sketch.nodes ∧ walk.edges.entries = sketch.edges ∧ walk.full = sketch.full

theorem Simulates.makes (simulates : Simulates pending distance walk sketch) : walk.Makes sketch :=
  ⟨simulates.nodes, simulates.edges, simulates.full⟩

/-- A sketch that is full stays as it is. -/
theorem levels_full (store : Store) (remaining distance : Nat) {sketch : Sketch}
    (full : sketch.full = true) (made : walk.Makes sketch) :
    Alike Makes (.ok walk) (sketch.levels store remaining distance) := by
  induction remaining generalizing distance sketch with
  | zero => exact made
  | succ remaining ih =>
      have stands : sketch.frontier.foldlM (Sketch.expand store distance)
          { sketch with frontier := [] } = .ok { sketch with frontier := [] } :=
        foldlM_fixed fun _ _ => if_pos full
      rw [Sketch.levels, stands]
      exact ih (distance + 1) full made

/-- A run takes the visits that are left of a level first. -/
theorem run_pending {maxDepth : Nat} (inside : distance < maxDepth)
    {next : Sketch → Except Error Sketch}
    (full : ∀ walk sketch, sketch.full = true → Makes walk sketch →
      Alike Makes (.ok walk) (next sketch))
    (rest : ∀ walk sketch, sketch.full = false → Simulates [] distance walk sketch →
      Alike Makes (run store maxDepth walk) (next sketch))
    (started : sketch.full = false) (simulates : Simulates pending distance walk sketch) :
    Alike Makes (run store maxDepth walk)
      (pending.foldlM (Sketch.expand store (distance + 1)) sketch >>= next) := by
  induction pending generalizing walk sketch with
  | nil => exact rest walk sketch started simulates
  | cons visit others ih =>
      let queue : List Arrival :=
        others.map (⟨·, distance⟩) ++ sketch.frontier.map (⟨·, distance + 1⟩)
      have popped : Simulates others distance { walk with queue } sketch :=
        { simulates with queue := rfl }
      rw [run_cons store maxDepth simulates.queue, if_neg (Nat.not_le.2 inside), List.foldlM_cons,
        bind_assoc]
      refine (expand_simulates popped started visit).bind fun next' grown simulates => ?_
      cases filled : grown.full with
      | false =>
          rw [if_neg (by simp [simulates.full, filled])]
          exact ih filled simulates
      | true =>
          have stands : others.foldlM (Sketch.expand store (distance + 1)) grown = .ok grown :=
            foldlM_fixed fun _ _ => if_pos filled
          rw [if_pos (by rw [simulates.full, filled]), stands]
          exact full next' grown filled simulates.makes

/-- A run goes through one level after the other. -/
theorem run_levels (store : Store) (remaining : Nat) (started : sketch.full = false)
    (simulates : Simulates pending distance walk sketch) :
    Alike Makes (run store (distance + 1 + remaining) walk)
      (pending.foldlM (Sketch.expand store (distance + 1)) sketch >>=
        Sketch.levels store remaining (distance + 2)) := by
  induction remaining generalizing pending distance walk sketch with
  | zero =>
      refine run_pending (Nat.lt_succ_self _) (fun _ _ => levels_full store 0 _)
        (fun walk sketch _ simulates => ?_) started simulates
      rw [run_last]
      · exact simulates.makes
      · intro arrival member
        rw [simulates.queue] at member
        obtain ⟨visit, -, rfl⟩ := List.mem_map.1 member
        exact Nat.le_refl _
  | succ remaining ih =>
      refine run_pending (by omega) (fun _ _ => levels_full store (remaining + 1) _)
        (fun walk sketch started simulates => ?_) started simulates
      have next : Simulates sketch.frontier (distance + 1) walk { sketch with frontier := [] } :=
        { simulates with queue := by simp [simulates.queue] }
      have deeper : distance + 1 + (remaining + 1) = distance + 1 + 1 + remaining := by omega
      rw [deeper]
      exact ih started next

theorem ofRoot_simulates (directions : List Direction) (budget : Budget) (root : Entity) :
    Simulates (Sketch.ofRoot directions budget root).frontier 0 (ofRoot directions budget root)
      { Sketch.ofRoot directions budget root with frontier := [] } where
  nodes := rfl
  edges := rfl
  budget := rfl
  full := rfl
  queue := by simp [ofRoot, Sketch.ofRoot, Function.comp_def]
  nodesIndexed := by
    have start : (⟨[], []⟩ : Indexed Int GraphNode).Faithful (·.entity.id) := fun _ => rfl
    exact start.push ⟨root, _⟩ rfl
  edgesIndexed := fun _ => rfl
  distinct := List.nodup_singleton _

theorem run_ofRoot (store : Store) (directions : List Direction) (maxDepth : Nat) (budget : Budget)
    (root : Entity) :
    Alike Makes ((ofRoot directions budget root).run store maxDepth)
      ((Sketch.ofRoot directions budget root).levels store maxDepth 1) := by
  have simulates := ofRoot_simulates directions budget root
  cases maxDepth with
  | zero =>
      rw [run_last store fun _ _ => Nat.zero_le _]
      exact simulates.makes
  | succ remaining =>
      have levels := run_levels store remaining rfl simulates
      rwa [Nat.zero_add, Nat.add_comm 1] at levels

end Exploration

/-- Graphs are built level by level. -/
theorem build_eq_levels (store : Store) (directions : List Direction) (maxDepth : Nat)
    (budget : Budget) (root : Entity) :
    build store directions maxDepth budget root =
      (Sketch.ofRoot directions budget root).levels store maxDepth 1 >>= fun sketch =>
        .ok
          { root := root.id
            maxDepth
            nodes := sketch.nodes
            edges := sketch.edges
            truncated := sketch.full } := by
  refine (Exploration.run_ofRoot store directions maxDepth budget root).bind_eq ?_
  rintro walk sketch ⟨nodes, edges, full⟩
  rw [nodes, edges, full]

theorem build_eq_ok_iff {store : Store} {directions : List Direction} {maxDepth : Nat}
    {budget : Budget} {root : Entity} {graph : CallGraph} :
    build store directions maxDepth budget root = .ok graph ↔
      ∃ sketch, (Sketch.ofRoot directions budget root).levels store maxDepth 1 = .ok sketch ∧
        graph = ⟨root.id, maxDepth, sketch.nodes, sketch.edges, sketch.full⟩ := by
  rw [build_eq_levels, bind_eq_ok]
  simp only [Except.ok.injEq, @eq_comm _ graph]

end CallGraph

end DeclGraph
