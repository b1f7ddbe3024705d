import Mathlib
import DeclGraph.Proofs.Distance
import DeclGraph.Proofs.Levels

/-! The labels of a call graph are distances. Both directions grow over the same nodes and edges, and
a label that is set is never set again. So what one call, one declaration and one level add is stated
in one form, `Sketch.Advance`: every label of the direction that was missing, and nothing else. Over
levels this makes the labels of a complete graph the distances from its root. -/
namespace DeclGraph

namespace Labels

@[simp] theorem get_empty (direction : Direction) : ({} : Labels).get direction = none := by
  cases direction <;> rfl

@[simp] theorem get_put (labels : Labels) (direction other : Direction) (distance : Nat) :
    (labels.put direction distance).get other =
      if other = direction then (labels.get other).or (some distance) else labels.get other := by
  cases direction <;> cases other <;> rfl

def Any (labels : Labels) : Prop :=
  ∃ direction, (labels.get direction).isSome

theorem any_put (labels : Labels) (direction : Direction) (distance : Nat) :
    (labels.put direction distance).Any :=
  ⟨direction, by simp⟩

theorem get_putAll (directions : List Direction) (labels : Labels) (direction : Direction) :
    (directions.foldl (fun labels direction => labels.put direction 0) labels).get direction =
      (labels.get direction).or (if direction ∈ directions then some 0 else none) := by
  induction directions generalizing labels with
  | nil => simp
  | cons first rest ih =>
      rw [List.foldl_cons, ih, get_put]
      by_cases same : direction = first
      · subst same
        cases labels.get direction <;> simp
      · simp [same]

end Labels

def Extends {κ : Type} (distance : Nat) (reached : κ → Prop) (before after : κ → Option Nat) : Prop :=
  ∀ key count, after key = some count ↔
    before key = some count ∨ before key = none ∧ count = distance ∧ reached key

namespace Extends
variable {κ : Type} {distance : Nat} {reached reached' : κ → Prop}
  {before between after : κ → Option Nat}

theorem refl (nothing : ∀ key, ¬ reached key) : Extends distance reached before before :=
  fun key count => by simp [nothing key]

theorem eq_none_iff (grown : Extends distance reached before after) (key : κ) :
    after key = none ↔ before key = none ∧ ¬ reached key := by
  cases old : before key with
  | some count =>
      have kept := (grown key count).2 (Or.inl old)
      simp [kept]
  | none =>
      cases new : after key with
      | none =>
          have unreached : ¬ reached key := fun hit => by
            have label := (grown key distance).2 (Or.inr ⟨old, rfl, hit⟩)
            simp [new] at label
          simp [unreached]
      | some count =>
          have hit := (grown key count).1 new
          simp only [old, reduceCtorEq, false_or] at hit
          simp [hit.2.2]

theorem trans (first : Extends distance reached before between)
    (second : Extends distance reached' between after) :
    Extends distance (fun key => reached key ∨ reached' key) before after := by
  intro key count
  rw [second key count, first key count, first.eq_none_iff key]
  tauto

theorem congr (grown : Extends distance reached before after)
    (same : ∀ key, reached key ↔ reached' key) : Extends distance reached' before after :=
  fun key count => by rw [grown key count, same key]

/-- A single label that is set unless it is there. -/
theorem single [DecidableEq κ] (target : κ)
    (set : ∀ key, after key = if key = target then (before key).or (some distance) else before key) :
    Extends distance (· = target) before after := by
  intro key count
  rw [set key]
  split
  next same => cases before key <;> simp [same, eq_comm]
  next other => simp [other]

end Extends

namespace CallGraph

theorem hasNode_iff {nodes : List GraphNode} {id : Int} :
    hasNode nodes id = true ↔ ∃ node ∈ nodes, node.entity.id = id := by
  simp [hasNode]

theorem labelNode_ids (direction : Direction) (id : Int) (distance : Nat) (nodes : List GraphNode) :
    (labelNode direction id distance nodes).map (·.entity.id) = nodes.map (·.entity.id) := by
  simp only [labelNode, List.map_map]
  refine List.map_congr_left fun node _ => ?_
  simp only [Function.comp_apply]
  split <;> rfl

theorem nodeLabel_labelNode (direction other : Direction) (id target : Int) (distance : Nat)
    (nodes : List GraphNode) (present : hasNode nodes target = true) :
    nodeLabel (labelNode direction target distance nodes) other id =
      if other = direction ∧ id = target then (nodeLabel nodes other id).or (some distance)
      else nodeLabel nodes other id := by
  have sameId : (fun node : GraphNode => node.entity.id == id) ∘ (fun node =>
      if node.entity.id == target then { node with labels := node.labels.put direction distance }
      else node) = fun node => node.entity.id == id := by
    funext node
    simp only [Function.comp_apply]
    split <;> rfl
  simp only [nodeLabel, labelNode, List.find?_map, sameId]
  cases found : nodes.find? (·.entity.id == id) with
  | none =>
      have absent : id ≠ target := by
        rintro rfl
        obtain ⟨node, member, same⟩ := hasNode_iff.1 present
        simpa [same] using List.find?_eq_none.1 found node member
      simp [absent]
  | some node =>
      have hit := List.find?_some found
      rw [beq_iff_eq] at hit
      subst hit
      by_cases same : node.entity.id = target
      · simp [same, Labels.get_put]
      · simp [same]

theorem nodeLabel_append_unlabelled (nodes : List GraphNode) (entity : Entity)
    (direction : Direction) (id : Int) :
    nodeLabel (nodes ++ [⟨entity, {}⟩]) direction id = nodeLabel nodes direction id := by
  simp only [nodeLabel, List.find?_append]
  cases nodes.find? (·.entity.id == id) with
  | some node => rfl
  | none =>
      by_cases same : entity.id = id
      · simp [same]
      · simp [same]

theorem labelNode_any {direction : Direction} {id : Int} {distance : Nat} {nodes : List GraphNode}
    (others : ∀ node ∈ nodes, node.entity.id = id ∨ node.labels.Any) :
    ∀ node ∈ labelNode direction id distance nodes, node.labels.Any := by
  intro node member
  obtain ⟨old, listed, rfl⟩ := List.mem_map.1 member
  split
  next => exact Labels.any_put _ _ _
  next different =>
    rcases others old listed with same | labelled
    · simp [same] at different
    · exact labelled

def edgeLabel (edges : List GraphEdge) (direction : Direction) (pair : Int × Int) : Option Nat :=
  (edges.find? (edgeEnds · == pair)).bind (·.labels.get direction)

theorem edgeLabel_labelEdge (direction other : Direction) (caller callee : Int)
    (lines : List UInt32) (distance : Nat) (edges : List GraphEdge) (pair : Int × Int) :
    edgeLabel (labelEdge direction caller callee lines distance edges) other pair =
      if other = direction ∧ pair = (caller, callee) then
        (edgeLabel edges other pair).or (some distance)
      else edgeLabel edges other pair := by
  induction edges with
  | nil =>
      by_cases here : (caller, callee) = pair
      · subst here
        by_cases same : other = direction <;> simp [labelEdge, edgeLabel, edgeEnds, same]
      · simp [labelEdge, edgeLabel, edgeEnds, here, Ne.symm here]
  | cons edge rest ih =>
      simp only [labelEdge]
      split
      next found =>
        obtain ⟨rfl, rfl⟩ := found
        by_cases here : (edge.callerId, edge.calleeId) = pair
        · subst here
          by_cases same : other = direction <;> simp [edgeLabel, edgeEnds, same]
        · simp [edgeLabel, edgeEnds, here, Ne.symm here]
      next different =>
        by_cases here : (edge.callerId, edge.calleeId) = pair
        · subst here
          have apart : (edge.callerId, edge.calleeId) ≠ (caller, callee) := by simpa using different
          simp [edgeLabel, edgeEnds, apart]
        · simpa [edgeLabel, edgeEnds, List.find?_cons, here] using ih

theorem labelEdge_ends (direction : Direction) (caller callee : Int) (lines : List UInt32)
    (distance : Nat) (edges : List GraphEdge) :
    (labelEdge direction caller callee lines distance edges).map edgeEnds =
      if (caller, callee) ∈ edges.map edgeEnds then edges.map edgeEnds
      else edges.map edgeEnds ++ [(caller, callee)] := by
  induction edges with
  | nil => simp [labelEdge, edgeEnds]
  | cons edge rest ih =>
      simp only [labelEdge]
      split
      next found => simp [edgeEnds, found]
      next different =>
        have apart : (caller, callee) ≠ edgeEnds edge := by
          simp only [edgeEnds, ne_eq, Prod.mk.injEq]
          tauto
        simp only [List.map_cons, ih, List.mem_cons, apart, false_or]
        split <;> simp

theorem labelEdge_distinct {direction : Direction} {caller callee : Int} {lines : List UInt32}
    {distance : Nat} {edges : List GraphEdge} (distinct : (edges.map edgeEnds).Nodup) :
    ((labelEdge direction caller callee lines distance edges).map edgeEnds).Nodup := by
  rw [labelEdge_ends]
  split
  next => exact distinct
  next fresh => exact List.nodup_append_comm.1 (List.nodup_cons.2 ⟨fresh, distinct⟩)

/-- What holds of the edges, of a new one and of one with a further label holds afterwards. -/
theorem labelEdge_forall {P : GraphEdge → Prop} {direction : Direction} {caller callee : Int}
    {lines : List UInt32} {distance : Nat} {edges : List GraphEdge}
    (new : P ⟨caller, callee, lines, Labels.put {} direction distance⟩)
    (relabelled : ∀ edge ∈ edges, P { edge with labels := edge.labels.put direction distance })
    (old : ∀ edge ∈ edges, P edge) :
    ∀ edge ∈ labelEdge direction caller callee lines distance edges, P edge := by
  induction edges with
  | nil => exact List.forall_mem_singleton.2 new
  | cons first rest ih =>
      rw [List.forall_mem_cons] at relabelled old
      simp only [labelEdge]
      split
      next => exact List.forall_mem_cons.2 ⟨relabelled.1, old.2⟩
      next => exact List.forall_mem_cons.2 ⟨old.1, ih relabelled.2 old.2⟩

theorem labelEdge_any {direction : Direction} {caller callee : Int} {lines : List UInt32}
    {distance : Nat} {edges : List GraphEdge} (labelled : ∀ edge ∈ edges, edge.labels.Any) :
    ∀ edge ∈ labelEdge direction caller callee lines distance edges, edge.labels.Any :=
  labelEdge_forall (Labels.any_put _ _ _) (fun _ _ => Labels.any_put _ _ _) labelled

def near : Direction → Int × Int → Int
  | .callers => Prod.snd
  | .callees => Prod.fst

namespace Sketch

def nodeLabels (sketch : Sketch) (visit : Visit) : Option Nat :=
  nodeLabel sketch.nodes visit.direction visit.id

def edgeLabels (sketch : Sketch) (key : Direction × Int × Int) : Option Nat :=
  edgeLabel sketch.edges key.1 key.2

structure Valid (store : Store) (sketch : Sketch) : Prop where
  nodes_distinct : (sketch.nodes.map (·.entity.id)).Nodup
  nodes_stored : ∀ node ∈ sketch.nodes, store.entity? node.entity.id = .ok (some node.entity)
  nodes_labelled : ∀ node ∈ sketch.nodes, node.labels.Any
  edges_distinct : (sketch.edges.map edgeEnds).Nodup
  edges_labelled : ∀ edge ∈ sketch.edges, edge.labels.Any

/-- What following the calls in `followed` adds to a graph: `followed visit other` holds for a call
found at `visit` that leads to `other`. -/
structure Advance (distance : Nat) (followed : Visit → Int → Prop) (before after : Sketch) :
    Prop where
  node_label : Extends distance (fun visit => ∃ source, followed ⟨source, visit.direction⟩ visit.id)
    before.nodeLabels after.nodeLabels
  edge_label : Extends distance
    (fun key => ∃ visit other, followed visit other ∧ (visit.direction, ends visit other) = key)
    before.edgeLabels after.edgeLabels
  frontier : ∀ visit, visit ∈ after.frontier ↔ visit ∈ before.frontier ∨
    before.nodeLabels visit = none ∧ ∃ source, followed ⟨source, visit.direction⟩ visit.id

namespace Advance
variable {distance : Nat} {followed followed' : Visit → Int → Prop} {before between after : Sketch}

theorem refl (nothing : ∀ visit other, ¬ followed visit other) :
    Advance distance followed before before where
  node_label := .refl fun _ ⟨_, hit⟩ => nothing _ _ hit
  edge_label := .refl fun _ ⟨_, _, hit, _⟩ => nothing _ _ hit
  frontier visit := by simp [nothing]

theorem trans (first : Advance distance followed before between)
    (second : Advance distance followed' between after) :
    Advance distance (fun visit other => followed visit other ∨ followed' visit other)
      before after where
  node_label := (first.node_label.trans second.node_label).congr fun _ => exists_or.symm
  edge_label := (first.edge_label.trans second.edge_label).congr fun key => by
    constructor
    · rintro (⟨visit, other, hit, same⟩ | ⟨visit, other, hit, same⟩)
      · exact ⟨visit, other, Or.inl hit, same⟩
      · exact ⟨visit, other, Or.inr hit, same⟩
    · rintro ⟨visit, other, hit | hit, same⟩
      · exact Or.inl ⟨visit, other, hit, same⟩
      · exact Or.inr ⟨visit, other, hit, same⟩
  frontier visit := by
    rw [second.frontier, first.frontier, first.node_label.eq_none_iff, exists_or]
    tauto

theorem congr (advance : Advance distance followed before after)
    (same : ∀ visit other, followed visit other ↔ followed' visit other) :
    Advance distance followed' before after := by
  have equal : followed = followed' := by
    funext visit other
    exact propext (same visit other)
  exact equal ▸ advance

end Advance

theorem followed_target_iff {visit key : Visit} {other : Int} :
    key = ⟨other, visit.direction⟩ ↔
      ∃ source, (⟨source, key.direction⟩ : Visit) = visit ∧ key.id = other := by
  cases key
  constructor
  · rintro ⟨⟩
    exact ⟨visit.id, rfl, rfl⟩
  · rintro ⟨source, same, rfl⟩
    cases same
    rfl

theorem connect_advance (sketch : Sketch) (visit : Visit) (distance : Nat) (other : Int)
    (lines : List UInt32) (present : hasNode sketch.nodes other = true) :
    Advance distance (fun visit' other' => visit' = visit ∧ other' = other) sketch
      (sketch.connect visit distance other lines) where
  node_label := by
    refine (Extends.single ⟨other, visit.direction⟩ fun key => ?_).congr fun _ =>
      followed_target_iff
    simp only [nodeLabels, connect, nodeLabel_labelNode _ _ _ _ _ _ present]
    cases key
    simp [and_comm]
  edge_label := by
    refine (Extends.single (visit.direction, ends visit other) fun key => ?_).congr fun key => ?_
    · simp only [edgeLabels, connect, edgeLabel_labelEdge, Prod.ext_iff]
    · constructor
      · rintro rfl
        exact ⟨visit, other, ⟨rfl, rfl⟩, rfl⟩
      · rintro ⟨_, _, ⟨rfl, rfl⟩, same⟩
        exact same.symm
  frontier key := by
    simp only [connect, ← followed_target_iff]
    split
    next missing =>
      rw [List.mem_append, List.mem_singleton]
      refine or_congr_right ⟨?_, And.right⟩
      rintro rfl
      exact ⟨Option.isNone_iff_eq_none.1 missing, rfl⟩
    next present =>
      refine ⟨Or.inl, ?_⟩
      rintro (old | ⟨missing, rfl⟩)
      · exact old
      · exact absurd (Option.isNone_iff_eq_none.2 missing) present

theorem connect_valid {store : Store} {sketch : Sketch} (visit : Visit) (distance : Nat)
    (other : Int) (lines : List UInt32)
    (nodes_distinct : (sketch.nodes.map (·.entity.id)).Nodup)
    (nodes_stored : ∀ node ∈ sketch.nodes, store.entity? node.entity.id = .ok (some node.entity))
    (nodes_labelled : ∀ node ∈ sketch.nodes, node.entity.id = other ∨ node.labels.Any)
    (edges_distinct : (sketch.edges.map edgeEnds).Nodup)
    (edges_labelled : ∀ edge ∈ sketch.edges, edge.labels.Any) :
    (sketch.connect visit distance other lines).Valid store where
  nodes_distinct := by
    simpa only [connect, labelNode_ids] using nodes_distinct
  nodes_stored := by
    intro node member
    obtain ⟨old, listed, rfl⟩ := List.mem_map.1 member
    have stored := nodes_stored old listed
    split <;> exact stored
  nodes_labelled := labelNode_any nodes_labelled
  edges_distinct := labelEdge_distinct edges_distinct
  edges_labelled := labelEdge_any edges_labelled

inductive Follows (store : Store) (visit : Visit) (distance : Nat) (sketch : Sketch)
    (group : NeighborGroup) : Sketch → Prop where
  | stopped (full : sketch.full = true) : Follows store visit distance sketch group sketch
  | passed (started : sketch.full = false)
      (missing : ∀ other, group.entityId = some other → ¬ store.Holds other) :
      Follows store visit distance sketch group sketch
  | refused : Follows store visit distance sketch group { sketch with full := true }
  | met (started : sketch.full = false) {other : Int} (known : group.entityId = some other)
      (present : hasNode sketch.nodes other = true) :
      Follows store visit distance sketch group
        (sketch.connect visit distance other group.lines)
  | grown (started : sketch.full = false) {other : Int} (known : group.entityId = some other)
      (absent : hasNode sketch.nodes other = false) {entity : Entity}
      (stored : store.entity? other = .ok (some entity)) {budget : Budget}
      (taken : sketch.budget.take? = some budget) :
      Follows store visit distance sketch group
        (connect { sketch with nodes := sketch.nodes ++ [⟨entity, {}⟩], budget } visit distance other
          group.lines)

theorem follow_cases {store : Store} {visit : Visit} {distance : Nat} {sketch next : Sketch}
    {group : NeighborGroup} (success : sketch.follow store visit distance group = .ok next) :
    Follows store visit distance sketch group next := by
  unfold follow at success
  split at success
  next full =>
    cases success
    exact .stopped full
  next started =>
    have started : sketch.full = false := by simpa using started
    split at success
    next unknown =>
      cases success
      exact .passed started fun other known => by simp [unknown] at known
    next other known =>
      split at success
      next present =>
        cases success
        exact .met started known present
      next absent =>
        obtain ⟨found, read, success⟩ := bind_eq_ok.1 success
        cases found with
        | none =>
            cases success
            refine .passed started fun other' known' => ?_
            obtain rfl : other = other' := Option.some.inj (known.symm.trans known')
            exact Store.entity?_eq_none_iff.1 read
        | some entity =>
            simp only at success
            split at success
            next =>
              cases success
              exact .refused
            next budget taken =>
              cases success
              exact .grown started known (by simpa using absent) read taken

/-- What following one neighbour preserves holds throughout the growth of a graph. It may depend on how
far the graph has come. -/
theorem levels_preserves {store : Store} {P : Nat → Sketch → Prop}
    (further : ∀ distance sketch, P distance sketch →
      P (distance + 1) { sketch with frontier := [] })
    (follows : ∀ visit distance sketch groups group next,
      store.groups visit.direction visit.id = .ok groups → group ∈ groups →
      Follows store visit distance sketch group next → P distance sketch → P distance next)
    {remaining distance : Nat} {before after : Sketch} (start : P distance before)
    (success : before.levels store remaining (distance + 1) = .ok after) :
    P (distance + remaining) after := by
  induction remaining generalizing distance before with
  | zero =>
      cases success
      exact start
  | succ remaining ih =>
      obtain ⟨next, level, others⟩ := bind_eq_ok.1 success
      have grown : P (distance + 1) next := by
        refine foldlM_preserves (fun visit _ sketch after expanded holds => ?_)
          (further distance before start) level
        unfold expand at expanded
        split at expanded
        next =>
          cases expanded
          exact holds
        next =>
          obtain ⟨groups, read, expanded⟩ := bind_eq_ok.1 expanded
          refine foldlM_preserves (fun group member sketch after followed => ?_) holds expanded
          exact follows visit _ sketch groups group after read member (follow_cases followed)
      have final := ih grown others
      rwa [Nat.add_right_comm] at final

section Grown
variable {store : Store} {visit : Visit} {distance : Nat} {sketch : Sketch} {other : Int}
  {entity : Entity} {budget : Budget} {lines : List UInt32}

theorem grown_valid (valid : sketch.Valid store) (absent : hasNode sketch.nodes other = false)
    (stored : store.entity? other = .ok (some entity)) :
    (connect { sketch with nodes := sketch.nodes ++ [⟨entity, {}⟩], budget } visit distance other
      lines).Valid store := by
  have numbered : entity.id = other := Store.entity?_id stored
  apply connect_valid
  · rw [List.map_append, List.map_singleton, numbered]
    refine List.nodup_append_comm.1 (List.nodup_cons.2 ⟨?_, valid.nodes_distinct⟩)
    intro listed
    obtain ⟨node, member, same⟩ := List.mem_map.1 listed
    rw [hasNode_iff.2 ⟨node, member, same⟩] at absent
    contradiction
  · intro node member
    rcases List.mem_append.1 member with old | new
    · exact valid.nodes_stored node old
    · rw [List.mem_singleton.1 new, numbered]
      exact stored
  · intro node member
    rcases List.mem_append.1 member with old | new
    · exact Or.inr (valid.nodes_labelled node old)
    · rw [List.mem_singleton.1 new]
      exact Or.inl numbered
  · exact valid.edges_distinct
  · exact valid.edges_labelled

theorem grown_advance (stored : store.entity? other = .ok (some entity)) :
    Advance distance (fun visit' other' => visit' = visit ∧ other' = other) sketch
      (connect { sketch with nodes := sketch.nodes ++ [⟨entity, {}⟩], budget } visit distance other
        lines) := by
  let wider : Sketch := { sketch with nodes := sketch.nodes ++ [⟨entity, {}⟩], budget }
  have present : hasNode wider.nodes other = true :=
    hasNode_iff.2 ⟨⟨entity, {}⟩, by simp [wider], Store.entity?_id stored⟩
  -- The new node has no label yet, so the labels are those of the graph without it.
  have same : wider.nodeLabels = sketch.nodeLabels := by
    funext key
    exact nodeLabel_append_unlabelled sketch.nodes entity key.direction key.id
  have advance := connect_advance wider visit distance other lines present
  exact ⟨same ▸ advance.node_label, advance.edge_label, same ▸ advance.frontier⟩

end Grown

def Leads (store : Store) (distance : Nat) (followed : Visit → Int → Prop)
    (before after : Sketch) : Prop :=
  before.Valid store → after.Valid store ∧
    (after.full = false → before.full = false ∧ Advance distance followed before after)

theorem eq_known_iff {store : Store} {group : NeighborGroup} {other other' : Int}
    (known : group.entityId = some other) (held : store.Holds other) :
    other' = other ↔ group.entityId = some other' ∧ store.Holds other' := by
  constructor
  · rintro rfl
    exact ⟨known, held⟩
  · rintro ⟨known', -⟩
    exact Option.some.inj (known'.symm.trans known)

theorem follow_leads {store : Store} {visit : Visit} {distance : Nat} {sketch next : Sketch}
    {group : NeighborGroup} (success : sketch.follow store visit distance group = .ok next) :
    Leads store distance
      (fun visit' other => visit' = visit ∧ group.entityId = some other ∧ store.Holds other)
      sketch next := by
  intro valid
  cases follow_cases success with
  | stopped full =>
      exact ⟨valid, fun complete => by simp [full] at complete⟩
  | passed started missing =>
      exact ⟨valid, fun _ => ⟨started, .refl fun _ other hit => missing other hit.2.1 hit.2.2⟩⟩
  | refused =>
      exact ⟨⟨valid.1, valid.2, valid.3, valid.4, valid.5⟩, fun complete => by simp at complete⟩
  | @met started other known present =>
      refine ⟨connect_valid visit distance other group.lines valid.nodes_distinct valid.nodes_stored
        (fun node member => Or.inr (valid.nodes_labelled node member)) valid.edges_distinct
        valid.edges_labelled, fun _ => ⟨started, ?_⟩⟩
      obtain ⟨node, member, same⟩ := hasNode_iff.1 present
      have held : store.Holds other :=
        same ▸ Store.holds_of_entity? (valid.nodes_stored node member)
      exact (connect_advance sketch visit distance other group.lines present).congr
        fun _ _ => and_congr_right fun _ => eq_known_iff known held
  | @grown started other known absent entity stored budget taken =>
      refine ⟨grown_valid valid absent stored, fun _ => ⟨started, ?_⟩⟩
      exact (grown_advance stored).congr fun _ _ => and_congr_right fun _ =>
        eq_known_iff known (Store.holds_of_entity? stored)

/-- Following one item after the other follows the calls of them all. -/
theorem foldlM_leads {α : Type} {store : Store} {distance : Nat}
    {step : Sketch → α → Except Error Sketch} {followed : α → Visit → Int → Prop} {items : List α}
    (each : ∀ item ∈ items, ∀ before after, step before item = .ok after →
      Leads store distance (followed item) before after)
    {before after : Sketch} (success : items.foldlM step before = .ok after) :
    Leads store distance (fun visit other => ∃ item ∈ items, followed item visit other)
      before after := by
  induction items generalizing before with
  | nil =>
      cases success
      exact fun valid => ⟨valid, fun complete => ⟨complete, .refl fun _ _ => by simp⟩⟩
  | cons item rest ih =>
      rw [List.foldlM_cons] at success
      obtain ⟨between, first, others⟩ := bind_eq_ok.1 success
      intro valid
      obtain ⟨validBetween, firstAdvance⟩ := each item List.mem_cons_self before between first valid
      obtain ⟨validAfter, othersAdvance⟩ :=
        ih (fun item' member => each item' (List.mem_cons_of_mem item member)) others validBetween
      refine ⟨validAfter, fun complete => ?_⟩
      obtain ⟨started, second⟩ := othersAdvance complete
      obtain ⟨start, first⟩ := firstAdvance started
      exact ⟨start, (first.trans second).congr fun _ _ => by simp⟩

theorem expand_leads {store : Store} {visit : Visit} {distance : Nat} {sketch next : Sketch}
    (success : sketch.expand store distance visit = .ok next) :
    Leads store distance
      (fun visit' other => visit' = visit ∧ store.Adjacent visit.direction visit.id other)
      sketch next := by
  unfold expand at success
  split at success
  next full =>
    cases success
    exact fun valid => ⟨valid, fun complete => by simp [full] at complete⟩
  next =>
    obtain ⟨groups, read, success⟩ := bind_eq_ok.1 success
    have leads := foldlM_leads (fun group _ _ _ first => follow_leads first) success
    intro valid
    obtain ⟨validNext, advance⟩ := leads valid
    refine ⟨validNext, fun complete => ?_⟩
    obtain ⟨started, advance⟩ := advance complete
    refine ⟨started, advance.congr fun visit' other => ?_⟩
    rw [← Store.groups_known read]
    constructor
    · rintro ⟨group, member, same, known, held'⟩
      exact ⟨same, ⟨group, member, known⟩, held'⟩
    · rintro ⟨same, ⟨group, member, known⟩, held'⟩
      exact ⟨group, member, same, known, held'⟩

/-! A level follows the calls of its frontier. What was exact up to a distance is then exact up to the
next one. -/

structure Exact (store : Store) (directions : List Direction) (root : Int) (depth : Nat)
    (sketch : Sketch) : Prop where
  node_label : ∀ visit count, sketch.nodeLabels visit = some count ↔
    visit.direction ∈ directions ∧ store.Distance visit.direction root visit.id count ∧
      count ≤ depth
  edge_label : ∀ direction pair label, sketch.edgeLabels (direction, pair) = some label ↔
    direction ∈ directions ∧ store.Calls pair.1 pair.2 ∧ ∃ count, label = count + 1 ∧
      store.Distance direction root (near direction pair) count ∧ count < depth
  frontier : ∀ visit, visit ∈ sketch.frontier ↔
    visit.direction ∈ directions ∧ store.Distance visit.direction root visit.id depth

section
variable {store : Store} {directions : List Direction} {root : Int} {depth : Nat}
  {before after : Sketch}

theorem arc_between_iff {frontier : List Visit} {direction : Direction} {pair : Int × Int} :
    (∃ visit other, (visit ∈ frontier ∧ store.Arc visit.direction visit.id other) ∧
        (visit.direction, ends visit other) = (direction, pair)) ↔
      ⟨near direction pair, direction⟩ ∈ frontier ∧ store.Calls pair.1 pair.2 := by
  constructor
  · rintro ⟨⟨id, direction'⟩, other, ⟨listed, arc⟩, same⟩
    cases direction' <;> cases same <;> exact ⟨listed, arc⟩
  · rintro ⟨listed, calls⟩
    cases direction with
    | callers => exact ⟨_, pair.1, ⟨listed, calls⟩, rfl⟩
    | callees => exact ⟨_, pair.2, ⟨listed, calls⟩, rfl⟩

theorem Exact.unlabelled_iff (exact : Exact store directions root depth before) (visit : Visit)
    (covered : visit.direction ∈ directions) : before.nodeLabels visit = none ↔
      ∀ nearer ≤ depth, ¬ store.Distance visit.direction root visit.id nearer := by
  rw [Option.eq_none_iff_forall_ne_some]
  refine forall_congr' fun count => ?_
  rw [ne_eq, exact.node_label]
  tauto

/-- What a level reaches for the first time is what is one step further than the level. -/
theorem Exact.reached_iff (exact : Exact store directions root depth before) (visit : Visit) :
    before.nodeLabels visit = none ∧ (∃ source, ⟨source, visit.direction⟩ ∈ before.frontier ∧
        store.Arc visit.direction source visit.id) ↔
      visit.direction ∈ directions ∧
        store.Distance visit.direction root visit.id (depth + 1) := by
  rw [Store.distance_succ_iff]
  constructor
  · rintro ⟨missing, source, listed, arc⟩
    obtain ⟨covered, distance⟩ := (exact.frontier _).1 listed
    exact ⟨covered, ⟨source, distance, arc⟩, (exact.unlabelled_iff visit covered).1 missing⟩
  · rintro ⟨covered, ⟨source, distance, arc⟩, far⟩
    exact ⟨(exact.unlabelled_iff visit covered).2 far, source,
      (exact.frontier _).2 ⟨covered, distance⟩, arc⟩

/-- One level further out. -/
theorem Exact.next (exact : Exact store directions root depth before)
    (advance : Advance (depth + 1)
      (fun visit other => visit ∈ before.frontier ∧ store.Arc visit.direction visit.id other)
      { before with frontier := [] } after) :
    Exact store directions root (depth + 1) after where
  node_label visit count := by
    rw [advance.node_label visit count, and_left_comm]
    refine (or_congr (exact.node_label visit count)
      (and_congr_right fun _ => exact.reached_iff visit)).trans ?_
    constructor
    · rintro (⟨covered, distance, bound⟩ | ⟨rfl, covered, distance⟩)
      · exact ⟨covered, distance, by omega⟩
      · exact ⟨covered, distance, Nat.le_refl _⟩
    · rintro ⟨covered, distance, bound⟩
      rcases Nat.le_succ_iff.1 bound with inner | rfl
      · exact Or.inl ⟨covered, distance, inner⟩
      · exact Or.inr ⟨rfl, covered, distance⟩
  edge_label direction pair label := by
    rw [advance.edge_label (direction, pair) label]
    refine (or_congr (exact.edge_label direction pair label)
      (and_congr_right fun _ => and_congr_right fun _ => arc_between_iff)).trans ?_
    constructor
    · rintro (⟨covered, calls, count, rfl, distance, bound⟩ | ⟨-, rfl, listed, calls⟩)
      · exact ⟨covered, calls, count, rfl, distance, by omega⟩
      · obtain ⟨covered, distance⟩ := (exact.frontier _).1 listed
        exact ⟨covered, calls, depth, rfl, distance, by omega⟩
    · rintro ⟨covered, calls, count, rfl, distance, bound⟩
      rcases Nat.lt_succ_iff_lt_or_eq.1 bound with inner | rfl
      · exact Or.inl ⟨covered, calls, count, rfl, distance, inner⟩
      · refine Or.inr ⟨?_, rfl, (exact.frontier _).2 ⟨covered, distance⟩, calls⟩
        -- An older label would put the near end on an inner level.
        by_contra labelled
        obtain ⟨label, old⟩ := Option.ne_none_iff_exists'.1 labelled
        obtain ⟨-, -, count', -, distance', inner⟩ := (exact.edge_label _ _ _).1 old
        have := distance.unique distance'
        omega
  frontier visit := by
    rw [advance.frontier visit]
    refine Iff.trans ?_ (exact.reached_iff visit)
    simp only [List.not_mem_nil, false_or]
    exact Iff.rfl

/-- Level after level, a graph that the budget does not stop stays exact. -/
theorem levels_exact {remaining : Nat} (held : store.Holds root) (valid : before.Valid store)
    (exact : before.full = false → Exact store directions root depth before)
    (success : before.levels store remaining (depth + 1) = .ok after) :
    after.Valid store ∧
      (after.full = false → Exact store directions root (depth + remaining) after) := by
  induction remaining generalizing before depth with
  | zero =>
      cases success
      exact ⟨valid, exact⟩
  | succ remaining ih =>
      obtain ⟨next, level, others⟩ := bind_eq_ok.1 success
      have leads := foldlM_leads (fun visit _ _ _ first => expand_leads first) level
      obtain ⟨validNext, advance⟩ := leads ⟨valid.1, valid.2, valid.3, valid.4, valid.5⟩
      have exactNext : next.full = false → Exact store directions root (depth + 1) next := by
        intro complete
        obtain ⟨started, advance⟩ := advance complete
        have exact := exact started
        refine exact.next (advance.congr fun visit other => ?_)
        constructor
        · rintro ⟨_, listed, rfl, adjacent⟩
          have held := ((exact.frontier visit).1 listed).2.holds held
          exact ⟨listed, (Store.adjacent_iff_arc held).1 adjacent⟩
        · rintro ⟨listed, arc⟩
          have held := ((exact.frontier visit).1 listed).2.holds held
          exact ⟨visit, listed, rfl, (Store.adjacent_iff_arc held).2 arc⟩
      have final := ih validNext exactNext others
      rwa [Nat.add_right_comm] at final

theorem ofRoot_valid {entity : Entity} {budget : Budget} (nonempty : directions ≠ [])
    (stored : store.entity? entity.id = .ok (some entity)) :
    (ofRoot directions budget entity).Valid store where
  nodes_distinct := by simp [ofRoot]
  nodes_stored := by simpa [ofRoot] using stored
  nodes_labelled := by
    intro node member
    obtain ⟨direction, listed⟩ := List.exists_mem_of_ne_nil directions nonempty
    rw [List.mem_singleton.1 member]
    exact ⟨direction, by simp [Labels.get_putAll, listed]⟩
  edges_distinct := List.nodup_nil
  edges_labelled := by simp [ofRoot]

theorem ofRoot_exact {entity : Entity} {budget : Budget} :
    Exact store directions entity.id 0 (ofRoot directions budget entity) where
  node_label visit count := by
    rw [Nat.le_zero]
    simp only [nodeLabels, nodeLabel, ofRoot, List.find?_singleton]
    by_cases here : visit.id = entity.id
    · by_cases covered : visit.direction ∈ directions
      · simp only [here, beq_self_eq_true, if_true, Option.bind_some, Labels.get_putAll, covered]
        simp only [Labels.get_empty, Option.none_or, Option.some.injEq]
        constructor
        · rintro rfl
          exact ⟨trivial, Store.distance_zero_iff.2 rfl, rfl⟩
        · rintro ⟨-, -, rfl⟩
          rfl
      · simp [here, Labels.get_putAll, covered]
    · simp only [beq_iff_eq, Ne.symm here, if_false, Option.bind_none, reduceCtorEq, false_iff]
      rintro ⟨-, distance, rfl⟩
      exact here (Store.distance_zero_iff.1 distance)
  edge_label := by simp [ofRoot, edgeLabels, edgeLabel]
  frontier visit := by
    rw [Store.distance_zero_iff]
    cases visit
    simp [ofRoot, eq_comm]

end

end Sketch

theorem nodeLabel_eq_some_iff {nodes : List GraphNode} {direction : Direction} {id : Int}
    {count : Nat} (distinct : (nodes.map (·.entity.id)).Nodup) :
    nodeLabel nodes direction id = some count ↔
      ∃ node ∈ nodes, node.entity.id = id ∧ node.labels.get direction = some count := by
  simp only [nodeLabel, Option.bind_eq_some_iff, find?_key_eq_some_iff distinct, and_assoc]

theorem edgeLabel_eq_some_iff {edges : List GraphEdge} {direction : Direction} {pair : Int × Int}
    {count : Nat} (distinct : (edges.map edgeEnds).Nodup) :
    edgeLabel edges direction pair = some count ↔
      ∃ edge ∈ edges, edgeEnds edge = pair ∧ edge.labels.get direction = some count := by
  simp only [edgeLabel, Option.bind_eq_some_iff, find?_key_eq_some_iff distinct, and_assoc]

/-- What the labels of a complete graph mean, for the directions it was built in. A node is labelled
with its distance from the root; an edge with one more than the distance of its near end, that is of
the callee towards the callers and of the caller towards the callees. There are no other nodes, edges
and labels. -/
structure LabelsExact (store : Store) (directions : List Direction) (graph : CallGraph) : Prop where
  nodes_distinct : (graph.nodes.map (·.entity.id)).Nodup
  nodes_stored : ∀ node ∈ graph.nodes, store.entity? node.entity.id = .ok (some node.entity)
  nodes_labelled : ∀ node ∈ graph.nodes, node.labels.Any
  node_label : ∀ direction id count,
    (∃ node ∈ graph.nodes, node.entity.id = id ∧ node.labels.get direction = some count) ↔
      direction ∈ directions ∧ store.Distance direction graph.root id count ∧ count ≤ graph.maxDepth
  edges_distinct : (graph.edges.map edgeEnds).Nodup
  edges_labelled : ∀ edge ∈ graph.edges, edge.labels.Any
  edge_label : ∀ direction caller callee label,
    (∃ edge ∈ graph.edges, edgeEnds edge = (caller, callee) ∧
        edge.labels.get direction = some label) ↔
      direction ∈ directions ∧ store.Calls caller callee ∧ ∃ count, label = count + 1 ∧
        store.Distance direction graph.root (near direction (caller, callee)) count ∧
        count < graph.maxDepth

theorem build_labels {store : Store} {directions : List Direction} {maxDepth : Nat}
    {budget : Budget} {root : Entity} {graph : CallGraph} (nonempty : directions ≠ [])
    (stored : store.entity? root.id = .ok (some root))
    (success : build store directions maxDepth budget root = .ok graph)
    (complete : graph.truncated = false) :
    graph.root = root.id ∧ graph.LabelsExact store directions := by
  obtain ⟨sketch, grown, rfl⟩ := build_eq_ok_iff.1 success
  obtain ⟨valid, exact⟩ := Sketch.levels_exact (Store.holds_of_entity? stored)
    (Sketch.ofRoot_valid nonempty stored) (fun _ => Sketch.ofRoot_exact) grown
  have exact := exact complete
  rw [Nat.zero_add] at exact
  refine ⟨rfl, ?_⟩
  exact
    { nodes_distinct := valid.nodes_distinct
      nodes_stored := valid.nodes_stored
      nodes_labelled := valid.nodes_labelled
      node_label := fun direction id count =>
        (nodeLabel_eq_some_iff valid.nodes_distinct).symm.trans
          (exact.node_label ⟨id, direction⟩ count)
      edges_distinct := valid.edges_distinct
      edges_labelled := valid.edges_labelled
      edge_label := fun direction caller callee label =>
        (edgeLabel_eq_some_iff valid.edges_distinct).symm.trans
          (exact.edge_label direction (caller, callee) label) }

/-- A graph is found by building it around the root of the symbol. -/
theorem around_found_iff {store : Store} {limits : Limits} {projectId : Int} {symbol : String}
    {directions : List Direction} {maxDepth : Nat} {graph : CallGraph} :
    around store limits projectId symbol directions maxDepth = .ok (.found graph) ↔
      ∃ root, store.root? projectId symbol = .ok (some root) ∧
        build store directions maxDepth (.ofLimit limits.maxNodes.toNat) root = .ok graph := by
  constructor
  · intro success
    obtain ⟨found, read, success⟩ := bind_eq_ok.1 success
    cases found with
    | none => cases success
    | some root =>
        obtain ⟨built, success, same⟩ := bind_eq_ok.1 success
        cases same
        exact ⟨root, read, success⟩
  · rintro ⟨root, read, built⟩
    exact bind_eq_ok.2 ⟨some root, read, bind_eq_ok.2 ⟨graph, built, rfl⟩⟩

theorem around_labels {store : Store} {limits : Limits} {projectId : Int} {symbol : String}
    {directions : List Direction} {maxDepth : Nat} {graph : CallGraph} (nonempty : directions ≠ [])
    (success : around store limits projectId symbol directions maxDepth = .ok (.found graph))
    (complete : graph.truncated = false) :
    ∃ root, store.root? projectId symbol = .ok (some root) ∧ graph.root = root.id ∧
      graph.LabelsExact store directions := by
  obtain ⟨root, read, built⟩ := around_found_iff.1 success
  exact ⟨root, read, build_labels nonempty (Store.root?_stored read) built complete⟩

end CallGraph

namespace Store
open CallGraph

/-- The labels of call graphs are shortest distances: in the graph of a symbol along callers and
callees, in the reverse graph along callers only, where no label along callees occurs. -/
theorem call_graph_labels_are_distances (store : Store) (limits : Limits) (projectId : Int)
    (symbol : String) (depth : UInt32) (graph : CallGraph) (complete : graph.truncated = false) :
    (store.callGraph limits projectId symbol depth = .ok (.found graph) →
      ∃ root, store.root? projectId symbol = .ok (some root) ∧ graph.root = root.id ∧
        graph.LabelsExact store [.callers, .callees]) ∧
    (store.reverseCallGraph limits projectId symbol depth = .ok (.found graph) →
      ∃ root, store.root? projectId symbol = .ok (some root) ∧ graph.root = root.id ∧
        graph.LabelsExact store [.callers]) :=
  ⟨fun success => around_labels (by simp) success complete,
    fun success => around_labels (by simp) success complete⟩

def recursiveGraph : CallGraph where
  root := 1
  maxDepth := 4
  nodes :=
    [⟨⟨recursiveDraft "even", 1, 1⟩, ⟨some 0, some 0⟩⟩,
      ⟨⟨recursiveDraft "main", 3, 1⟩, ⟨some 1, none⟩⟩,
      ⟨⟨recursiveDraft "odd", 2, 1⟩, ⟨some 1, some 1⟩⟩]
  edges :=
    [⟨1, 1, [3], ⟨some 1, some 1⟩⟩, ⟨3, 1, [6], ⟨some 1, none⟩⟩, ⟨2, 1, [5], ⟨some 1, some 2⟩⟩,
      ⟨1, 2, [2], ⟨some 2, some 1⟩⟩]
  truncated := false

def recursiveReverse : CallGraph where
  root := 1
  maxDepth := 4
  nodes :=
    [⟨⟨recursiveDraft "even", 1, 1⟩, ⟨some 0, none⟩⟩,
      ⟨⟨recursiveDraft "main", 3, 1⟩, ⟨some 1, none⟩⟩,
      ⟨⟨recursiveDraft "odd", 2, 1⟩, ⟨some 1, none⟩⟩]
  edges :=
    [⟨1, 1, [3], ⟨some 1, none⟩⟩, ⟨3, 1, [6], ⟨some 1, none⟩⟩, ⟨2, 1, [5], ⟨some 1, none⟩⟩,
      ⟨1, 2, [2], ⟨some 2, none⟩⟩]
  truncated := false

-- Runs are evaluated level by level: well-founded recursion hides the visit that is expanded.
theorem recursiveGraph_found :
    recursiveStore.callGraph {} 1 "even" 4 = .ok (.found recursiveGraph) := by
  simp only [callGraph, around, build_eq_levels]
  cbv

theorem recursiveReverse_found :
    recursiveStore.reverseCallGraph {} 1 "even" 4 = .ok (.found recursiveReverse) := by
  simp only [reverseCallGraph, around, build_eq_levels]
  cbv

theorem recursive_graph_labels :
    recursiveStore.callGraph {} 1 "even" 4 = .ok (.found recursiveGraph) ∧
      recursiveGraph.LabelsExact recursiveStore [.callers, .callees] ∧
      recursiveStore.reverseCallGraph {} 1 "even" 4 = .ok (.found recursiveReverse) ∧
      recursiveReverse.LabelsExact recursiveStore [.callers] := by
  obtain ⟨-, -, -, labels⟩ := (call_graph_labels_are_distances recursiveStore {} 1 "even" 4
    recursiveGraph rfl).1 recursiveGraph_found
  obtain ⟨-, -, -, reverse⟩ := (call_graph_labels_are_distances recursiveStore {} 1 "even" 4
    recursiveReverse rfl).2 recursiveReverse_found
  exact ⟨recursiveGraph_found, labels, recursiveReverse_found, reverse⟩

end Store
end DeclGraph
