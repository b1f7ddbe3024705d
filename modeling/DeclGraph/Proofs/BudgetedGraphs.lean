import Mathlib
import DeclGraph.Proofs.BudgetedTrees

/-! What a smaller budget leaves of a graph. A graph with less to spend grows in step with the larger one
until it is refused a node. From then on it stands still, in the middle of a level and of the calls of one
declaration, while the larger one puts more nodes and edges behind those that are there and sets labels
that are missing. So the smaller graph is the front of the larger one, and it is cut short exactly if the
larger one is, or is too large. -/
namespace DeclGraph

/-- Two states that are related stay so when both take the same steps. -/
theorem foldlM_simulates {ε α β : Type} {R : β → β → Prop} {step : β → α → Except ε β}
    (each : ∀ item whole part next, R whole part → step whole item = .ok next →
      ∃ next', step part item = .ok next' ∧ R next next')
    {items : List α} {whole part next : β} (related : R whole part)
    (success : items.foldlM step whole = .ok next) :
    ∃ next', items.foldlM step part = .ok next' ∧ R next next' := by
  induction items generalizing whole part with
  | nil =>
      cases success
      exact ⟨part, rfl, related⟩
  | cons item rest ih =>
      rw [List.foldlM_cons] at success
      obtain ⟨between, first, others⟩ := bind_eq_ok.1 success
      obtain ⟨between', first', related'⟩ := each item whole part between related first
      obtain ⟨next', others', final⟩ := ih related' others
      rw [List.foldlM_cons]
      exact ⟨next', bind_eq_ok.2 ⟨between', first', others'⟩, final⟩

inductive Front {α : Type} (R : α → α → Prop) : List α → List α → Prop
  | nil {whole : List α} : Front R [] whole
  | cons {a b : α} {part whole : List α} (first : R a b) (rest : Front R part whole) :
      Front R (a :: part) (b :: whole)

namespace Front
variable {α β : Type} {R : α → α → Prop} {part whole wider : List α}

theorem of_map {change : α → α} (kept : ∀ a, R a (change a)) (items : List α) :
    Front R items (items.map change) := by
  induction items with
  | nil => exact .nil
  | cons a rest ih => exact .cons (kept a) ih

theorem refl (reflexive : ∀ a, R a a) (items : List α) : Front R items items := by
  have kept : Front R items (items.map id) := of_map reflexive items
  rwa [List.map_id] at kept

theorem trans (transitive : ∀ a b c, R a b → R b c → R a c) (first : Front R part whole)
    (second : Front R whole wider) : Front R part wider := by
  induction first generalizing wider with
  | nil => exact .nil
  | cons here _ ih =>
      cases second with
      | cons here' rest' => exact .cons (transitive _ _ _ here here') (ih rest')

theorem append (front : Front R part whole) (more : List α) : Front R part (whole ++ more) := by
  induction front with
  | nil => exact .nil
  | cons here _ ih => exact .cons here ih

/-- What the relation keeps is a prefix. -/
theorem map_isPrefix {view : α → β} (kept : ∀ a b, R a b → view b = view a)
    (front : Front R part whole) : part.map view <+: whole.map view := by
  induction front with
  | nil => exact List.nil_prefix
  | cons here _ ih =>
      rw [List.map_cons, List.map_cons, kept _ _ here]
      exact List.cons_prefix_cons.2 ⟨rfl, ih⟩

theorem length_le (front : Front R part whole) : part.length ≤ whole.length := by
  induction front with
  | nil => exact Nat.zero_le _
  | cons _ _ ih => exact Nat.succ_le_succ ih

theorem exists_of_mem {a : α} (front : Front R part whole) (member : a ∈ part) :
    ∃ b ∈ whole, R a b := by
  induction front with
  | nil => cases member
  | cons here _ ih =>
      rcases List.mem_cons.1 member with rfl | later
      · exact ⟨_, List.mem_cons_self, here⟩
      · obtain ⟨b, found, related⟩ := ih later
        exact ⟨b, List.mem_cons_of_mem _ found, related⟩

end Front

def Labels.KeptIn (labels whole : Labels) : Prop :=
  ∀ direction label, labels.get direction = some label → whole.get direction = some label

theorem Labels.keptIn_put (labels : Labels) (direction : Direction) (distance : Nat) :
    labels.KeptIn (labels.put direction distance) := by
  intro other label here
  rw [get_put, here]
  split <;> rfl

structure GraphNode.KeptIn (node whole : GraphNode) : Prop where
  entity : whole.entity = node.entity
  labels : node.labels.KeptIn whole.labels

namespace GraphNode

theorem KeptIn.refl (node : GraphNode) : node.KeptIn node :=
  ⟨rfl, fun _ _ => id⟩

theorem KeptIn.trans (first second third : GraphNode) (early : first.KeptIn second)
    (late : second.KeptIn third) : first.KeptIn third :=
  ⟨late.entity.trans early.entity,
    fun direction label here => late.labels direction label (early.labels direction label here)⟩

end GraphNode

def GraphEdge.call (edge : GraphEdge) : Int × Int × List UInt32 :=
  (edge.callerId, edge.calleeId, edge.lines)

structure GraphEdge.KeptIn (edge whole : GraphEdge) : Prop where
  call : whole.call = edge.call
  labels : edge.labels.KeptIn whole.labels

namespace GraphEdge

theorem KeptIn.refl (edge : GraphEdge) : edge.KeptIn edge :=
  ⟨rfl, fun _ _ => id⟩

theorem KeptIn.trans (first second third : GraphEdge) (early : first.KeptIn second)
    (late : second.KeptIn third) : first.KeptIn third :=
  ⟨late.call.trans early.call,
    fun direction label here => late.labels direction label (early.labels direction label here)⟩

end GraphEdge

namespace CallGraph

theorem labelNode_front (direction : Direction) (id : Int) (distance : Nat)
    (nodes : List GraphNode) :
    Front GraphNode.KeptIn nodes (labelNode direction id distance nodes) := by
  apply Front.of_map
  intro node
  split
  · exact ⟨rfl, node.labels.keptIn_put direction distance⟩
  · exact .refl node

theorem labelEdge_front (direction : Direction) (callerId calleeId : Int) (lines : List UInt32)
    (distance : Nat) (edges : List GraphEdge) :
    Front GraphEdge.KeptIn edges
      (labelEdge direction callerId calleeId lines distance edges) := by
  induction edges with
  | nil => exact .nil
  | cons edge rest ih =>
      rw [labelEdge]
      split
      · exact .cons ⟨rfl, edge.labels.keptIn_put direction distance⟩ (.refl .refl rest)
      · exact .cons (.refl edge) ih

theorem hasNode_labelNode (direction : Direction) (id : Int) (distance : Nat)
    (nodes : List GraphNode) (other : Int) :
    hasNode (labelNode direction id distance nodes) other = hasNode nodes other := by
  have ids : ∀ nodes : List GraphNode,
      hasNode nodes other = (nodes.map (·.entity.id)).contains other := by
    intro nodes
    rw [Bool.eq_iff_iff, hasNode_iff, List.contains_iff_mem, List.mem_map]
  rw [ids, ids, labelNode_ids]

namespace Sketch
variable {store : Store} {visit : Visit} {distance remaining bound : Nat} {group : NeighborGroup}
  {sketch next whole part between : Sketch} {other : Int}

structure Growing (before after : Sketch) : Prop where
  nodes : Front GraphNode.KeptIn before.nodes after.nodes
  edges : Front GraphEdge.KeptIn before.edges after.edges
  full : before.full = true → after.full = true

theorem Growing.refl (sketch : Sketch) : Growing sketch sketch :=
  ⟨.refl .refl _, .refl .refl _, id⟩

theorem Growing.trans (first : Growing sketch between) (second : Growing between next) :
    Growing sketch next :=
  ⟨first.nodes.trans .trans second.nodes, first.edges.trans .trans second.edges,
    fun full => second.full (first.full full)⟩

theorem Growing.hasNode (growing : Growing sketch next)
    (present : hasNode sketch.nodes other = true) : hasNode next.nodes other = true := by
  obtain ⟨node, member, same⟩ := hasNode_iff.1 present
  obtain ⟨wider, found, kept⟩ := growing.nodes.exists_of_mem member
  exact hasNode_iff.2 ⟨wider, found, kept.entity ▸ same⟩

theorem connect_growing (sketch : Sketch) (visit : Visit) (distance : Nat) (other : Int)
    (lines : List UInt32) : Growing sketch (sketch.connect visit distance other lines) :=
  ⟨labelNode_front _ _ _ _, labelEdge_front _ _ _ _ _ _, id⟩

theorem Follows.growing (follows : Follows store visit distance sketch group next) :
    Growing sketch next := by
  cases follows with
  | stopped => exact .refl sketch
  | passed => exact .refl sketch
  | refused => exact ⟨.refl .refl _, .refl .refl _, fun _ => rfl⟩
  | met => exact connect_growing sketch visit distance _ _
  | grown =>
      apply Growing.trans _ (connect_growing _ visit distance _ _)
      exact ⟨(Front.refl .refl _).append _, .refl .refl _, id⟩

theorem expand_growing (success : sketch.expand store distance visit = .ok next) :
    Growing sketch next := by
  unfold expand at success
  split at success
  · cases success
    exact .refl sketch
  · obtain ⟨groups, -, success⟩ := bind_eq_ok.1 success
    refine foldlM_preserves (fun group _ before after followed growing => ?_) (.refl sketch) success
    exact growing.trans (follow_cases followed).growing

theorem level_growing {visits : List Visit}
    (success : visits.foldlM (expand store distance) sketch = .ok next) : Growing sketch next := by
  refine foldlM_preserves (fun visit _ before after expanded growing => ?_) (.refl sketch) success
  exact growing.trans (expand_growing expanded)

structure Joined (sketch : Sketch) : Prop where
  edges : ∀ edge ∈ sketch.edges,
    hasNode sketch.nodes edge.callerId = true ∧ hasNode sketch.nodes edge.calleeId = true
  frontier : ∀ visit ∈ sketch.frontier, hasNode sketch.nodes visit.id = true

theorem Joined.connect (joined : sketch.Joined) (here : hasNode sketch.nodes visit.id = true)
    (there : hasNode sketch.nodes other = true) (distance : Nat) (lines : List UInt32) :
    (sketch.connect visit distance other lines).Joined where
  edges := by
    simp only [Sketch.connect, hasNode_labelNode]
    refine labelEdge_forall ?_ joined.edges joined.edges
    unfold ends
    split
    · exact ⟨there, here⟩
    · exact ⟨here, there⟩
  frontier := by
    simp only [Sketch.connect, hasNode_labelNode]
    split
    · refine List.forall_mem_append.2 ⟨joined.frontier, ?_⟩
      exact List.forall_mem_singleton.2 there
    · exact joined.frontier

theorem Follows.joined (follows : Follows store visit distance sketch group next)
    (joined : sketch.Joined) (here : hasNode sketch.nodes visit.id = true) : next.Joined := by
  cases follows with
  | stopped => exact joined
  | passed => exact joined
  | refused => exact ⟨joined.edges, joined.frontier⟩
  | met _ _ present => exact joined.connect here present distance _
  | @grown _ other _ _ entity stored budget _ =>
      have wider : Growing sketch
          { sketch with nodes := sketch.nodes ++ [⟨entity, {}⟩], budget } :=
        ⟨(Front.refl .refl _).append _, .refl .refl _, id⟩
      have added : CallGraph.hasNode (sketch.nodes ++ [⟨entity, {}⟩]) other = true :=
        hasNode_iff.2 ⟨⟨entity, {}⟩, by simp, Store.entity?_id stored⟩
      have still : Joined { sketch with nodes := sketch.nodes ++ [⟨entity, {}⟩], budget } :=
        ⟨fun edge member =>
            ⟨wider.hasNode (joined.edges edge member).1, wider.hasNode (joined.edges edge member).2⟩,
          fun visit member => wider.hasNode (joined.frontier visit member)⟩
      exact still.connect (wider.hasNode here) added distance _

theorem expand_joined (joined : sketch.Joined) (here : hasNode sketch.nodes visit.id = true)
    (success : sketch.expand store distance visit = .ok next) : next.Joined := by
  unfold expand at success
  split at success
  · cases success
    exact joined
  · obtain ⟨groups, -, success⟩ := bind_eq_ok.1 success
    have both : next.Joined ∧ hasNode next.nodes visit.id = true := by
      refine foldlM_preserves (P := fun sketch => sketch.Joined ∧ hasNode sketch.nodes visit.id = true)
        (fun group _ before after followed holds => ?_) ⟨joined, here⟩ success
      have follows := follow_cases followed
      exact ⟨follows.joined holds.1 holds.2, follows.growing.hasNode holds.2⟩
    exact both.1

theorem levels_joined (joined : sketch.Joined)
    (success : sketch.levels store remaining distance = .ok next) : next.Joined := by
  induction remaining generalizing sketch distance with
  | zero =>
      cases success
      exact joined
  | succ remaining ih =>
      obtain ⟨between, level, others⟩ := bind_eq_ok.1 success
      -- All visits of the level are nodes when it begins, and nodes are not lost.
      have both : between.Joined ∧
          ∀ visit ∈ sketch.frontier, hasNode between.nodes visit.id = true := by
        refine foldlM_preserves
          (P := fun grown => grown.Joined ∧
            ∀ visit ∈ sketch.frontier, hasNode grown.nodes visit.id = true)
          (fun visit listed before after expanded holds => ?_)
          ⟨⟨joined.edges, by simp⟩, joined.frontier⟩ level
        refine ⟨expand_joined holds.1 (holds.2 visit listed) expanded, fun other member => ?_⟩
        exact (expand_growing expanded).hasNode (holds.2 other member)
      exact ih both.1 others

/-! A smaller budget lets a graph grow like a larger one until its nodes are used up, and then no more. -/

/-- A graph that grows with a budget of `bound` nodes, beside one with a larger budget: as far as that
one, or stopped with all its nodes taken. -/
inductive Narrowed (bound : Nat) (whole : Sketch) : Sketch → Prop
  | even (started : whole.full = false) (within : bound ≤ whole.budget.limit)
      (counted : whole.nodes.length = whole.budget.used) (room : whole.budget.used ≤ bound) :
      Narrowed bound whole { whole with budget := ⟨bound, whole.budget.used⟩ }
  | cut {part : Sketch} (full : part.full = true)
      (nodes : Front GraphNode.KeptIn part.nodes whole.nodes)
      (edges : Front GraphEdge.KeptIn part.edges whole.edges) (spent : part.nodes.length = bound)
      (more : whole.full = true ∨ bound < whole.nodes.length) : Narrowed bound whole part

/-- A graph that has stopped is left behind. -/
theorem Narrowed.left (narrowed : Narrowed bound whole part) (full : part.full = true)
    (growing : Growing whole next) : Narrowed bound next part := by
  cases narrowed with
  | even started => simp [started] at full
  | cut _ nodes edges spent more =>
      refine .cut full (nodes.trans .trans growing.nodes) (edges.trans .trans growing.edges) spent ?_
      exact more.imp growing.full fun larger => larger.trans_le growing.nodes.length_le

/-- What another budget makes of a neighbour: the same, unless the neighbour needs a place. -/
theorem follow_other (started : sketch.full = false)
    (success : sketch.follow store visit distance group = .ok next) :
    (next.full = false ∧ next.budget = sketch.budget ∧ next.nodes.length = sketch.nodes.length ∧
      ∀ budget, follow store visit distance { sketch with budget } group =
        .ok { next with budget }) ∨
    ∃ grown : Sketch, grown.full = false ∧ grown.nodes.length = sketch.nodes.length + 1 ∧
      (∀ budget : Budget, budget.take? = none →
        follow store visit distance { sketch with budget } group =
          .ok { sketch with budget, full := true }) ∧
      ∀ budget paid : Budget, budget.take? = some paid →
        follow store visit distance { sketch with budget } group =
          .ok { grown with budget := paid } := by
  have unfilled : ¬ sketch.full = true := by simp [started]
  rw [follow, if_neg unfilled] at success
  simp only [follow, if_neg unfilled]
  cases known : group.entityId with
  | none =>
      rw [known] at success
      cases success
      exact Or.inl ⟨started, rfl, rfl, fun _ => rfl⟩
  | some other =>
      simp only [known] at success
      split at success
      next present =>
        cases success
        refine Or.inl ⟨started, rfl, List.length_map _, fun budget => ?_⟩
        exact if_pos present
      next absent =>
        obtain ⟨found, read, success⟩ := bind_eq_ok.1 success
        simp only [if_neg absent, read]
        cases found with
        | none =>
            cases success
            exact Or.inl ⟨started, rfl, rfl, fun _ => rfl⟩
        | some entity =>
            refine Or.inr ⟨connect { sketch with nodes := sketch.nodes ++ [⟨entity, {}⟩] } visit
              distance other group.lines, started, ?_, ?_, ?_⟩
            · exact (List.length_map _).trans (List.length_append ..)
            · intro budget refused
              refine bind_eq_ok.2 ⟨some entity, rfl, ?_⟩
              simp only [refused]
            · intro budget paid taken
              refine bind_eq_ok.2 ⟨some entity, rfl, ?_⟩
              simp only [taken]
              rfl

theorem follow_narrowed (narrowed : Narrowed bound whole part)
    (success : whole.follow store visit distance group = .ok next) :
    ∃ next', part.follow store visit distance group = .ok next' ∧ Narrowed bound next next' := by
  have growing := (follow_cases success).growing
  cases narrowed with
  | cut full nodes edges spent more =>
      exact ⟨part, if_pos full, Narrowed.left (.cut full nodes edges spent more) full growing⟩
  | even started within counted room =>
      rcases follow_other started success with
        ⟨unfilled, budget, length, again⟩ | ⟨grown, unfilled, length, refused, placed⟩
      · refine ⟨_, again _, ?_⟩
        rw [← budget]
        exact .even unfilled (budget ▸ within) (length.trans (budget ▸ counted)) (budget ▸ room)
      · by_cases place : whole.budget.used < bound
        · -- Both budgets have a place left.
          have larger := placed whole.budget _ (if_pos (place.trans_le within))
          cases success.symm.trans larger
          have smaller := placed ⟨bound, whole.budget.used⟩ _ (if_pos place)
          refine ⟨_, smaller, .even unfilled within ?_ place⟩
          exact length.trans (congrArg (· + 1) counted)
        · -- The smaller one is used up, and the larger one goes on or is refused as well.
          have even : whole.budget.used = bound := room.antisymm (Nat.not_lt.1 place)
          refine ⟨_, refused ⟨bound, whole.budget.used⟩ (if_neg place), ?_⟩
          refine .cut rfl growing.nodes growing.edges (counted.trans even) ?_
          cases taken : whole.budget.take? with
          | none =>
              cases success.symm.trans (refused whole.budget taken)
              exact Or.inl rfl
          | some paid =>
              cases success.symm.trans (placed whole.budget paid taken)
              right
              dsimp only
              omega

theorem expand_narrowed (narrowed : Narrowed bound whole part)
    (success : whole.expand store distance visit = .ok next) :
    ∃ next', part.expand store distance visit = .ok next' ∧ Narrowed bound next next' := by
  cases full : part.full with
  | true => exact ⟨part, if_pos full, narrowed.left full (expand_growing success)⟩
  | false =>
      have started : whole.full = false := by
        cases narrowed with
        | even started => exact started
        | cut stopped => cases full.symm.trans stopped
      rw [expand, if_neg (by simp [started])] at success
      rw [expand, if_neg (by simp [full])]
      obtain ⟨groups, read, success⟩ := bind_eq_ok.1 success
      obtain ⟨next', followed, narrowed'⟩ :=
        foldlM_simulates (fun _ _ _ _ => follow_narrowed) narrowed success
      exact ⟨next', bind_eq_ok.2 ⟨groups, read, followed⟩, narrowed'⟩

theorem levels_narrowed (narrowed : Narrowed bound whole part)
    (success : whole.levels store remaining distance = .ok next) :
    ∃ next', part.levels store remaining distance = .ok next' ∧ Narrowed bound next next' := by
  induction remaining generalizing whole part distance with
  | zero =>
      cases success
      exact ⟨part, rfl, narrowed⟩
  | succ remaining ih =>
      obtain ⟨between, level, others⟩ := bind_eq_ok.1 success
      have first : ∃ between', part.frontier.foldlM (expand store distance)
          { part with frontier := [] } = .ok between' ∧ Narrowed bound between between' := by
        cases narrowed with
        | even started within counted room =>
            have start : Narrowed bound { whole with frontier := [] }
                { whole with frontier := [], budget := ⟨bound, whole.budget.used⟩ } :=
              .even started within counted room
            exact foldlM_simulates (fun _ _ _ _ => expand_narrowed) start level
        | cut full nodes edges spent more =>
            -- The two frontiers differ here, but the one that stopped has no use for its own.
            have start : Narrowed bound { whole with frontier := [] } { part with frontier := [] } :=
              .cut full nodes edges spent more
            have stopped : ({ part with frontier := [] } : Sketch).full = true := full
            exact ⟨_, foldlM_fixed fun _ _ => if_pos stopped, start.left full (level_growing level)⟩
      obtain ⟨between', level', narrowed'⟩ := first
      obtain ⟨next', others', final⟩ := ih narrowed' others
      exact ⟨next', bind_eq_ok.2 ⟨between', level', others'⟩, final⟩

theorem Narrowed.front (narrowed : Narrowed bound whole part) :
    Front GraphNode.KeptIn part.nodes whole.nodes ∧
      Front GraphEdge.KeptIn part.edges whole.edges := by
  cases narrowed with
  | even => exact ⟨.refl .refl _, .refl .refl _⟩
  | cut _ nodes edges => exact ⟨nodes, edges⟩

theorem Narrowed.length (narrowed : Narrowed bound whole part) :
    part.nodes.length = min bound whole.nodes.length := by
  cases narrowed with
  | even _ _ counted room => exact (Nat.min_eq_right (counted.trans_le room)).symm
  | cut _ nodes _ spent => rw [Nat.min_eq_left (spent ▸ nodes.length_le), spent]

theorem Narrowed.full_iff (narrowed : Narrowed bound whole part) :
    part.full = true ↔ whole.full = true ∨ bound < whole.nodes.length := by
  cases narrowed with
  | even _ _ counted room =>
      have fits : ¬ bound < whole.nodes.length := (counted.trans_le room).not_gt
      exact (or_iff_left fits).symm
  | cut full _ _ _ more => exact iff_of_true full more

theorem ofRoot_joined (directions : List Direction) (budget : Budget) (root : Entity) :
    (ofRoot directions budget root).Joined where
  edges := by simp [ofRoot]
  frontier := by simp [ofRoot, CallGraph.hasNode]

theorem ofRoot_narrowed {limits : Limits} {small large : UInt64} (positive : 1 ≤ small.toNat)
    (smaller : small.toNat ≤ large.toNat) (bounded : large.toNat ≤ hardMaxNodes)
    (directions : List Direction) (root : Entity) :
    Narrowed small.toNat
      (ofRoot directions
        (.ofLimit (Limits.clamped { limits with maxNodes := large }).maxNodes.toNat) root)
      (ofRoot directions
        (.ofLimit (Limits.clamped { limits with maxNodes := small }).maxNodes.toNat) root) := by
  simp only [ofRoot, Budget.ofLimit_root, Limits.nodeBound_eq (positive.trans smaller) bounded,
    Limits.nodeBound_eq positive (smaller.trans bounded)]
  exact .even rfl smaller rfl positive

end Sketch

/-- What a budget of `bound` nodes leaves of a graph: its first nodes and edges, with labels that the
whole graph has as well. -/
structure Leaves (bound : Nat) (whole part : CallGraph) : Prop where
  root : part.root = whole.root
  maxDepth : part.maxDepth = whole.maxDepth
  ids : part.nodes.map (·.entity.id) =
    (whole.nodes.map (·.entity.id)).take (min bound whole.nodes.length)
  calls : part.edges.map GraphEdge.call <+: whole.edges.map GraphEdge.call
  nodes : Front GraphNode.KeptIn part.nodes whole.nodes
  edges : Front GraphEdge.KeptIn part.edges whole.edges
  joined : ∀ edge ∈ part.edges,
    edge.callerId ∈ part.nodes.map (·.entity.id) ∧ edge.calleeId ∈ part.nodes.map (·.entity.id)
  truncated : part.truncated = true ↔ whole.truncated = true ∨ bound < whole.nodes.length

variable {store : Store} {limits : Limits} {directions : List Direction} {maxDepth : Nat}
  {small large : UInt64} {graph : CallGraph}

theorem build_leaves (positive : 1 ≤ small.toNat) (smaller : small.toNat ≤ large.toNat)
    (bounded : large.toNat ≤ hardMaxNodes) {root : Entity}
    (success : build store directions maxDepth
      (.ofLimit (Limits.clamped { limits with maxNodes := large }).maxNodes.toNat) root =
        .ok graph) :
    ∃ part, build store directions maxDepth
        (.ofLimit (Limits.clamped { limits with maxNodes := small }).maxNodes.toNat) root =
          .ok part ∧ Leaves small.toNat graph part := by
  obtain ⟨whole, grown, rfl⟩ := build_eq_ok_iff.1 success
  obtain ⟨part, grown', narrowed⟩ :=
    Sketch.levels_narrowed (Sketch.ofRoot_narrowed positive smaller bounded directions root) grown
  have joined := Sketch.levels_joined (Sketch.ofRoot_joined directions _ root) grown'
  have front := narrowed.front
  have ids := front.1.map_isPrefix fun _ _ kept => congrArg Entity.id kept.entity
  refine ⟨_, build_eq_ok_iff.2 ⟨part, grown', rfl⟩, ?_⟩
  exact {
    root := rfl
    maxDepth := rfl
    ids := by
      rw [← narrowed.length, ← List.length_map]
      exact List.prefix_iff_eq_take.1 ids
    calls := front.2.map_isPrefix fun _ _ kept => kept.call
    nodes := front.1
    edges := front.2
    joined := fun edge member => by
      have both := joined.edges edge member
      exact ⟨List.mem_map.2 (hasNode_iff.1 both.1), List.mem_map.2 (hasNode_iff.1 both.2)⟩
    truncated := narrowed.full_iff }

theorem around_leaves (positive : 1 ≤ small.toNat) (smaller : small.toNat ≤ large.toNat)
    (bounded : large.toNat ≤ hardMaxNodes) {projectId : Int} {symbol : String}
    (success : around store (Limits.clamped { limits with maxNodes := large }) projectId symbol
      directions maxDepth = .ok (.found graph)) :
    ∃ part, around store (Limits.clamped { limits with maxNodes := small }) projectId symbol
      directions maxDepth = .ok (.found part) ∧ Leaves small.toNat graph part := by
  obtain ⟨root, read, built⟩ := around_found_iff.1 success
  obtain ⟨part, built', leaves⟩ := build_leaves positive smaller bounded built
  exact ⟨part, around_found_iff.2 ⟨root, read, built'⟩, leaves⟩

end CallGraph

namespace Store
open CallGraph

/-- A smaller budget leaves the front of a graph, and the graph tells whether that is less than all
of it. -/
theorem budget_leaves_front_of_graph (store : Store) (limits : Limits) (projectId : Int)
    (symbol : String) (depth : UInt32) (small large : UInt64) (graph : CallGraph)
    (positive : 1 ≤ small.toNat) (smaller : small.toNat ≤ large.toNat)
    (bounded : large.toNat ≤ hardMaxNodes) :
    (store.callGraph { limits with maxNodes := large } projectId symbol depth =
        .ok (.found graph) →
      ∃ part, store.callGraph { limits with maxNodes := small } projectId symbol depth =
        .ok (.found part) ∧ Leaves small.toNat graph part) ∧
    (store.reverseCallGraph { limits with maxNodes := large } projectId symbol depth =
        .ok (.found graph) →
      ∃ part, store.reverseCallGraph { limits with maxNodes := small } projectId symbol depth =
        .ok (.found part) ∧ Leaves small.toNat graph part) :=
  ⟨around_leaves positive smaller bounded, around_leaves positive smaller bounded⟩

/-- The third node takes the last of three places, and edges are still added: only two places are too
few. -/
theorem recursive_graph_front :
    recursiveStore.callGraph { maxNodes := 3 } 1 "even" 4 = .ok (.found recursiveGraph) ∧
      recursiveGraph.truncated = false ∧
      (∃ part, recursiveStore.callGraph { maxNodes := 2 } 1 "even" 4 = .ok (.found part) ∧
        Leaves 2 recursiveGraph part ∧ part.truncated = true) ∧
      recursiveStore.reverseCallGraph { maxNodes := 3 } 1 "even" 4 =
        .ok (.found recursiveReverse) ∧
      ∃ part, recursiveStore.reverseCallGraph { maxNodes := 2 } 1 "even" 4 = .ok (.found part) ∧
        Leaves 2 recursiveReverse part ∧ part.truncated = true := by
  have found : recursiveStore.callGraph { maxNodes := 3 } 1 "even" 4 =
      .ok (.found recursiveGraph) := by
    simp only [callGraph, around, build_eq_levels]
    cbv
  have reverse : recursiveStore.reverseCallGraph { maxNodes := 3 } 1 "even" 4 =
      .ok (.found recursiveReverse) := by
    simp only [reverseCallGraph, around, build_eq_levels]
    cbv
  obtain ⟨part, answer, leaves⟩ := (budget_leaves_front_of_graph recursiveStore {} 1 "even" 4 2 3
    recursiveGraph (by decide) (by decide) (by decide)).1 found
  obtain ⟨part', answer', leaves'⟩ := (budget_leaves_front_of_graph recursiveStore {} 1 "even" 4 2 3
    recursiveReverse (by decide) (by decide) (by decide)).2 reverse
  exact ⟨found, rfl, ⟨part, answer, leaves, leaves.truncated.2 (Or.inr (by decide))⟩, reverse, part',
    answer', leaves', leaves'.truncated.2 (Or.inr (by decide))⟩

end Store

end DeclGraph
