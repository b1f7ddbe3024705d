import Mathlib
import DeclGraph.Proofs.Ascents
import DeclGraph.Proofs.Heights

/-! The depth of a hierarchy is the length of a way up from one of its declarations, and of a longest
one when the search ends with steps left. A way up leaves the unsettled nodes at most once: below it
is searched node by node, above it a height says how long it can get. -/
namespace DeclGraph.Hierarchy

def Rises (edges : List ParentEdge) (child parent : Int) : Prop :=
  ∃ edge ∈ edges, edge.childId = child ∧ edge.parentId = some parent

def Lengths (Up : Int → Int → Prop) (starts : List Int) : Set Nat :=
  { length | ∃ start ∈ starts, ∃ above, IsWay Up (start :: above) ∧
    (start :: above).length = length }

namespace Links
variable {links : Links} {node other child parent : Int}

theorem mem_addNode : other ∈ (links.addNode node).nodes ↔ other ∈ links.nodes ∨ other = node := by
  unfold addNode
  split
  next present =>
    refine (or_iff_left_of_imp ?_).symm
    rintro rfl
    exact List.contains_iff_mem.1 present
  next => simp

theorem addNode_distinct (distinct : links.nodes.Nodup) : (links.addNode node).nodes.Nodup := by
  unfold addNode
  split
  next => exact distinct
  next absent =>
    rw [← List.concat_eq_append]
    exact distinct.concat (mt List.contains_iff_mem.2 absent)

theorem addNode_parents : (links.addNode node).lineage.parents = links.lineage.parents := by
  unfold addNode
  split <;> rfl

theorem addNode_children : (links.addNode node).lineage.children = links.lineage.children := by
  unfold addNode
  split <;> rfl

theorem addNode_wellFormed (wellFormed : links.lineage.WellFormed) :
    (links.addNode node).lineage.WellFormed where
  nodes_distinct := addNode_distinct wellFormed.nodes_distinct
  parents_distinct := by simpa only [addNode_parents] using wellFormed.parents_distinct
  children_distinct := by simpa only [addNode_children] using wellFormed.children_distinct
  turned := by simpa only [Lineage.Up, addNode_parents, addNode_children] using wellFormed.turned
  closed child parent up := by
    simp only [Lineage.Up, addNode_parents] at up
    obtain ⟨below, above⟩ := wellFormed.closed child parent up
    exact ⟨mem_addNode.2 (Or.inl below), mem_addNode.2 (Or.inl above)⟩

theorem addEdge_parents : (links.addEdge child parent).lineage.parents node =
    if node = child ∧ parent ∉ links.lineage.parents child
    then links.lineage.parents node ++ [parent] else links.lineage.parents node := by
  unfold addEdge
  simp only [addNode_parents]
  split
  next present => simp_all [lineage]
  next absent =>
    simp only [lineage, Std.HashMap.getD_insert]
    by_cases here : node = child
    · subst here
      simp_all
    · simp [here, Ne.symm here]

theorem addEdge_children : (links.addEdge child parent).lineage.children node =
    if node = parent ∧ parent ∉ links.lineage.parents child
    then links.lineage.children node ++ [child] else links.lineage.children node := by
  unfold addEdge
  simp only [addNode_children]
  split
  next present => simp_all [lineage]
  next absent =>
    simp only [lineage, Std.HashMap.getD_insert]
    by_cases here : node = parent
    · subst here
      simp_all
    · simp [here, Ne.symm here]

theorem mem_addEdge : node ∈ (links.addEdge child parent).lineage.nodes ↔
    node ∈ links.nodes ∨ node = child ∨ node = parent := by
  unfold addEdge
  simp only [lineage, mem_addNode, or_assoc]
  split <;> rfl

theorem addEdge_up : (links.addEdge child parent).lineage.Up node other ↔
    links.lineage.Up node other ∨ node = child ∧ other = parent := by
  simp only [Lineage.Up, addEdge_parents]
  split
  next new => simp [new.1]
  next old =>
    refine (or_iff_left_of_imp ?_).symm
    rintro ⟨rfl, rfl⟩
    by_contra absent
    exact old ⟨rfl, absent⟩

theorem addEdge_wellFormed (wellFormed : links.lineage.WellFormed) :
    (links.addEdge child parent).lineage.WellFormed where
  nodes_distinct := by
    refine addNode_distinct (addNode_distinct ?_)
    split <;> exact wellFormed.nodes_distinct
  parents_distinct node := by
    have distinct := wellFormed.parents_distinct node
    rw [addEdge_parents]
    split
    next new =>
      rw [← List.concat_eq_append]
      exact distinct.concat (new.1 ▸ new.2)
    next => exact distinct
  children_distinct node := by
    have distinct := wellFormed.children_distinct node
    rw [addEdge_children]
    split
    next new =>
      obtain ⟨rfl, absent⟩ := new
      rw [← List.concat_eq_append]
      exact distinct.concat (mt (wellFormed.turned child node).1 absent)
    next => exact distinct
  turned below above := by
    have turned := wellFormed.turned below above
    rw [addEdge_up, addEdge_children, ← turned]
    split
    next new => simp [new.1]
    next old =>
      refine (or_iff_left_of_imp ?_).symm
      rintro ⟨rfl, rfl⟩
      by_contra absent
      exact old ⟨rfl, mt turned.2 absent⟩
  closed below above up := by
    rw [mem_addEdge, mem_addEdge]
    rcases addEdge_up.1 up with old | ⟨rfl, rfl⟩
    · obtain ⟨lower, upper⟩ := wellFormed.closed below above old
      exact ⟨Or.inl lower, Or.inl upper⟩
    · exact ⟨Or.inr (Or.inl rfl), Or.inr (Or.inr rfl)⟩

theorem addNodes_spec (nodes : List Int) (wellFormed : links.lineage.WellFormed) :
    (nodes.foldl addNode links).lineage.WellFormed ∧
      (nodes.foldl addNode links).lineage.Up = links.lineage.Up ∧
        ∀ node, node ∈ links.nodes ∨ node ∈ nodes → node ∈ (nodes.foldl addNode links).nodes := by
  induction nodes generalizing links with
  | nil => exact ⟨wellFormed, rfl, by simp⟩
  | cons first rest ih =>
      obtain ⟨wellFormed', up, present⟩ := ih (addNode_wellFormed wellFormed)
      refine ⟨wellFormed', ?_, fun node member => present node ?_⟩
      · rw [List.foldl_cons, up]
        unfold Lineage.Up
        rw [addNode_parents]
      · rw [mem_addNode, or_assoc, ← List.mem_cons]
        exact member

def addParent (links : Links) (edge : ParentEdge) : Links :=
  match edge.parentId with
  | none => links
  | some parent => links.addEdge edge.childId parent

theorem ofEdges_eq (entities : List Int) (edges : List ParentEdge) :
    ofEdges entities edges = edges.foldl addParent (entities.foldl addNode {}) :=
  rfl

theorem addParent_spec (edge : ParentEdge) (wellFormed : links.lineage.WellFormed) :
    (links.addParent edge).lineage.WellFormed ∧
      (∀ child parent, (links.addParent edge).lineage.Up child parent ↔
        links.lineage.Up child parent ∨ edge.childId = child ∧ edge.parentId = some parent) ∧
      ∀ node ∈ links.nodes, node ∈ (links.addParent edge).nodes := by
  unfold addParent
  cases edge.parentId with
  | none => exact ⟨wellFormed, by simp, by simp⟩
  | some above =>
      refine ⟨addEdge_wellFormed wellFormed, fun child parent => ?_, fun node member => ?_⟩
      · simp [addEdge_up, eq_comm]
      · exact mem_addEdge.2 (Or.inl member)

theorem addParents_spec (edges : List ParentEdge) (wellFormed : links.lineage.WellFormed) :
    (edges.foldl addParent links).lineage.WellFormed ∧
      (∀ child parent, (edges.foldl addParent links).lineage.Up child parent ↔
        links.lineage.Up child parent ∨ Rises edges child parent) ∧
      ∀ node ∈ links.nodes, node ∈ (edges.foldl addParent links).nodes := by
  induction edges generalizing links with
  | nil => exact ⟨wellFormed, by simp [Rises], by simp⟩
  | cons edge rest ih =>
      obtain ⟨first, up, present⟩ := addParent_spec edge wellFormed
      obtain ⟨last, up', present'⟩ := ih first
      refine ⟨last, fun child parent => ?_, fun node member =>
        present' node (present node member)⟩
      rw [List.foldl_cons, up', up]
      simp [Rises, or_assoc]

/-- The resolved edges make a well-formed lineage, in which they are the steps up. -/
theorem ofEdges_lineage (entities : List Int) (edges : List ParentEdge) :
    (ofEdges entities edges).lineage.WellFormed ∧
      (ofEdges entities edges).lineage.Up = Rises edges ∧
        ∀ start ∈ entities, start ∈ (ofEdges entities edges).nodes := by
  have empty : ({} : Links).lineage.WellFormed := by
    constructor <;> simp [lineage, Lineage.Up]
  obtain ⟨wellFormed, up, present⟩ := addNodes_spec entities empty
  obtain ⟨wellFormed', up', present'⟩ := addParents_spec edges wellFormed
  rw [ofEdges_eq]
  refine ⟨wellFormed', ?_, fun start member => present' start (present start (Or.inr member))⟩
  funext child parent
  rw [up', up]
  simp [lineage, Lineage.Up]

end Links

structure Later (search later : Search) : Prop where
  budget : later.budget ≤ search.budget
  best : search.best ≤ later.best

namespace Later
variable {first second third search : Search} {f : Search → Int → Search} {items : List Int}
  {item : Int}

theorem refl (search : Search) : Later search search :=
  ⟨Nat.le_refl _, Nat.le_refl _⟩

theorem trans (early : Later first second) (late : Later second third) : Later first third :=
  ⟨Nat.le_trans late.budget early.budget, Nat.le_trans early.best late.best⟩

theorem foldl (step : ∀ search item, Later search (f search item)) (items : List Int)
    (search : Search) : Later search (items.foldl f search) :=
  List.foldlRecOn items f (refl search) fun _ later item _ => later.trans (step _ item)

/-- Some state of the search meets a given item, and the search goes on from what comes of that. -/
theorem foldl_meets (step : ∀ search item, Later search (f search item)) (member : item ∈ items) :
    ∃ met, Later search met ∧ Later (f met item) (items.foldl f search) := by
  obtain ⟨early, late, rfl⟩ := List.append_of_mem member
  refine ⟨early.foldl f search, foldl step early search, ?_⟩
  rw [List.foldl_append, List.foldl_cons]
  exact foldl step late _

end Later

section Progress
variable {parents : Int → List Int} (height : Int → Option Nat)

theorem tryParent_later {climb : List Int → Search → Search}
    (climbs : ∀ way search, Later search (climb way search)) (way : List Int) (search : Search)
    (parent : Int) : Later search (tryParent height climb way search parent) := by
  unfold tryParent
  split
  next => exact ⟨Nat.le_refl _, Nat.le_max_left _ _⟩
  next =>
    split
    next => exact .refl search
    next => exact .trans ⟨Nat.sub_le _ _, Nat.le_max_left _ _⟩ (climbs _ _)

theorem climb_later (room : Nat) (way : List Int) (search : Search) :
    Later search (climb parents height room way search) := by
  induction room generalizing way search with
  | zero => exact .refl search
  | succ room ih =>
      cases way with
      | nil => exact .refl search
      | cons node below => exact .foldl (tryParent_later height ih (node :: below)) _ search

theorem climbFrom_later (links : Links) (height : Std.HashMap Int Nat) (search : Search)
    (start : Int) : Later search (climbFrom links height search start) := by
  unfold climbFrom
  split
  next => exact ⟨Nat.le_refl _, Nat.le_max_left _ _⟩
  next =>
    have grown : Later search { search with best := max search.best 1 } :=
      ⟨Nat.le_refl _, Nat.le_max_left _ _⟩
    exact grown.trans (climb_later _ _ _ _)

end Progress

/-- A way up that is searched on from, its last node first. It comes from one of the starts and has
met no settled node. -/
structure SearchTrail (lineage : Lineage) (height : Int → Option Nat) (starts way : List Int) :
    Prop where
  isWay : IsWay lineage.Up way.reverse
  open_nodes : ∀ node ∈ way, node ∈ lineage.nodes ∧ height node = none
  started : ∃ start ∈ starts, way.getLast? = some start

section Found
variable {lineage : Lineage} {nodes starts way below : List Int} {height : Int → Option Nat}
  {start node parent : Int} {h : Nat} {search : Search}

namespace SearchTrail

theorem single (member : start ∈ starts) (present : start ∈ lineage.nodes)
    (unsettled : height start = none) : SearchTrail lineage height starts [start] where
  isWay := ⟨List.nodup_singleton start, List.isChain_singleton start⟩
  open_nodes := by simpa using ⟨present, unsettled⟩
  started := ⟨start, member, rfl⟩

/-- A way up from the last node prolongs the trail if it does not come back to it. -/
theorem lengthen (trail : SearchTrail lineage height starts (node :: below)) {above : List Int}
    (isWay : IsWay lineage.Up (parent :: above)) (up : lineage.Up node parent)
    (apart : ∀ other ∈ parent :: above, other ∉ node :: below) :
    IsWay lineage.Up ((node :: below).reverse ++ parent :: above) where
  distinct := by
    refine List.nodup_append.2 ⟨trail.isWay.distinct, isWay.distinct, ?_⟩
    rintro other lower _ upper rfl
    exact apart other upper (List.mem_reverse.1 lower)
  linked := by
    refine List.isChain_append.2 ⟨trail.isWay.linked, isWay.linked, ?_⟩
    simpa using up

theorem cons (wellFormed : lineage.WellFormed)
    (trail : SearchTrail lineage height starts (node :: below)) (up : lineage.Up node parent)
    (unsettled : height parent = none) (fresh : parent ∉ node :: below) :
    SearchTrail lineage height starts (parent :: node :: below) where
  isWay := by
    rw [List.reverse_cons]
    refine trail.lengthen ⟨List.nodup_singleton parent, List.isChain_singleton parent⟩ up ?_
    simpa using fresh
  open_nodes := List.forall_mem_cons.2
    ⟨⟨(wellFormed.closed node parent up).2, unsettled⟩, trail.open_nodes⟩
  started := by simpa using trail.started

/-- Whatever is put on top of a trail, it starts where the trail does. -/
theorem mem_lengths (trail : SearchTrail lineage height starts way) {above : List Int}
    (isWay : IsWay lineage.Up (way.reverse ++ above)) :
    way.length + above.length ∈ Lengths lineage.Up starts := by
  obtain ⟨start, member, last⟩ := trail.started
  obtain ⟨rest, rfl⟩ := List.getLast?_eq_some_iff.1 last
  rw [List.reverse_concat', List.cons_append] at isWay
  refine ⟨start, member, rest.reverse ++ above, isWay, ?_⟩
  simp only [List.length_append, List.length_cons, List.length_nil, List.length_reverse]
  omega

theorem length_mem (trail : SearchTrail lineage height starts way) :
    way.length ∈ Lengths lineage.Up starts := by
  have isWay : IsWay lineage.Up (way.reverse ++ []) := by
    rw [List.append_nil]
    exact trail.isWay
  exact trail.mem_lengths isWay

/-- The nodes above a settled node are settled, so none of them is on the trail. -/
theorem settled_mem (ranked : Ranked lineage.Up nodes height)
    (trail : SearchTrail lineage height starts (node :: below)) (up : lineage.Up node parent)
    (settled : height parent = some h) :
    (node :: below).length + h ∈ Lengths lineage.Up starts := by
  obtain ⟨above, isWay, length, lower⟩ := ranked.exists_way settled
  rw [← length]
  refine trail.mem_lengths (trail.lengthen isWay up fun other member met => ?_)
  obtain ⟨k, -, settled'⟩ := lower other member
  rw [(trail.open_nodes other met).2] at settled'
  cases settled'

theorem length_le (trail : SearchTrail lineage height starts way) :
    way.length ≤ lineage.nodes.length :=
  (List.subperm_of_subset (List.nodup_reverse.1 trail.isWay.distinct)
    fun node member => (trail.open_nodes node member).1).length_le

end SearchTrail

def Founded (Up : Int → Int → Prop) (starts : List Int) (best : Nat) : Prop :=
  best = 0 ∨ best ∈ Lengths Up starts

theorem Founded.max {Up : Int → Int → Prop} {best length : Nat} (founded : Founded Up starts best)
    (member : length ∈ Lengths Up starts) : Founded Up starts (max best length) := by
  rcases Nat.le_total best length with grown | kept
  · rw [Nat.max_eq_right grown]
    exact Or.inr member
  · rw [Nat.max_eq_left kept]
    exact founded

theorem climb_founded (wellFormed : lineage.WellFormed) (ranked : Ranked lineage.Up nodes height)
    (room : Nat) (trail : SearchTrail lineage height starts way)
    (founded : Founded lineage.Up starts search.best) :
    Founded lineage.Up starts (climb lineage.parents height room way search).best := by
  induction room generalizing way search with
  | zero => exact founded
  | succ room ih =>
      cases way with
      | nil => exact founded
      | cons node below =>
          refine List.foldlRecOn (motive := fun search : Search =>
            Founded lineage.Up starts search.best) _ _ founded fun search founded parent up => ?_
          unfold tryParent
          split
          next h settled => exact founded.max (trail.settled_mem ranked up settled)
          next unsettled =>
            split
            next => exact founded
            next goesOn =>
              rw [not_or, List.contains_iff_mem] at goesOn
              have longer := trail.cons wellFormed up unsettled goesOn.2
              exact ih longer (founded.max longer.length_mem)

theorem climbFrom_founded {links : Links} {height : Std.HashMap Int Nat}
    (wellFormed : links.lineage.WellFormed) (ranked : Ranked links.lineage.Up nodes (height[·]?))
    (member : start ∈ starts) (present : start ∈ links.nodes)
    (founded : Founded links.lineage.Up starts search.best) :
    Founded links.lineage.Up starts (climbFrom links height search start).best := by
  unfold climbFrom
  split
  next h settled =>
    obtain ⟨above, isWay, length, -⟩ := ranked.exists_way settled
    exact founded.max ⟨start, member, above, isWay, length⟩
  next unsettled =>
    have trail : SearchTrail links.lineage (height[·]?) starts [start] :=
      .single member present unsettled
    exact climb_founded wellFormed ranked _ trail (founded.max trail.length_mem)

/-! While steps are left, a search has tried every parent of every way it came to. -/

/-- Trying the parent that a way takes finds the way. If the parent is settled, its height covers the
rest of the way; if not, the search goes on from there, and that it `finds` the rest is assumed. -/
theorem tryParent_finds (ranked : Ranked lineage.Up nodes height)
    {climb : List Int → Search → Search} {above : List Int}
    (linked : (parent :: above).IsChain lineage.Up) (fresh : parent ∉ node :: below)
    (finds : ∀ further : Search, height parent = none →
      (parent :: node :: below).length ≤ further.best →
      0 < (climb (parent :: node :: below) further).budget →
      (parent :: node :: below).length + above.length ≤
        (climb (parent :: node :: below) further).best)
    (unspent : 0 < (tryParent height climb (node :: below) search parent).budget) :
    (node :: below).length + (parent :: above).length ≤
      (tryParent height climb (node :: below) search parent).best := by
  unfold tryParent at unspent ⊢
  cases settled : height parent with
  | some h =>
      have := ranked.length_le settled linked
      simp only
      omega
  | none =>
      simp only [settled] at unspent ⊢
      split at unspent
      next stops =>
        rcases stops with spent | met
        · omega
        · exact absurd (List.contains_iff_mem.1 met) fresh
      next goesOn =>
        have found := finds _ settled (Nat.le_max_right _ _) unspent
        rw [if_neg goesOn]
        simp only [List.length_cons] at found ⊢
        omega

/-- A search that ends with steps left has gone up every way that prolongs its trail. The trail is
never longer than there are nodes, so the room suffices. -/
theorem climb_finds (wellFormed : lineage.WellFormed) (ranked : Ranked lineage.Up nodes height)
    {room : Nat} (trail : SearchTrail lineage height starts (node :: below))
    (enough : lineage.nodes.length < room + (node :: below).length)
    (reached : (node :: below).length ≤ search.best)
    (unspent : 0 < (climb lineage.parents height room (node :: below) search).budget)
    {above : List Int} (isWay : IsWay lineage.Up ((node :: below).reverse ++ above)) :
    (node :: below).length + above.length ≤
      (climb lineage.parents height room (node :: below) search).best := by
  induction room generalizing node below search above with
  | zero =>
      have := trail.length_le
      omega
  | succ room ih =>
      cases above with
      | nil => exact Nat.le_trans reached (climb_later height (room + 1) _ search).best
      | cons parent above =>
          obtain ⟨-, linked, joint⟩ := List.isChain_append.1 isWay.linked
          have up : lineage.Up node parent := joint node (by simp) parent (by simp)
          have fresh : parent ∉ node :: below := fun met =>
            (List.nodup_append.1 isWay.distinct).2.2 parent (List.mem_reverse.2 met) parent
              List.mem_cons_self rfl
          -- The parents are tried one after the other; look at the search when it comes to this one.
          obtain ⟨met, -, later⟩ := Later.foldl_meets
            (tryParent_later height (climb_later height room) (node :: below)) up
          refine Nat.le_trans ?_ later.best
          refine tryParent_finds ranked linked fresh ?_ (Nat.lt_of_lt_of_le unspent later.budget)
          intro further unsettled reached unspent
          refine ih (trail.cons wellFormed up unsettled fresh) ?_ reached unspent ?_
          · simp only [List.length_cons] at enough ⊢
            omega
          · rw [List.reverse_cons, List.append_assoc]
            exact isWay

theorem climbFrom_finds {links : Links} {height : Std.HashMap Int Nat}
    (wellFormed : links.lineage.WellFormed) (ranked : Ranked links.lineage.Up nodes (height[·]?))
    (present : start ∈ links.nodes) (unspent : 0 < (climbFrom links height search start).budget)
    {above : List Int} (isWay : IsWay links.lineage.Up (start :: above)) :
    (start :: above).length ≤ (climbFrom links height search start).best := by
  unfold climbFrom at unspent ⊢
  cases settled : height[start]? with
  | some h => exact Nat.le_trans (ranked.length_le settled isWay.linked) (Nat.le_max_right _ _)
  | none =>
      simp only [settled] at unspent ⊢
      have trail : SearchTrail links.lineage (height[·]?) [start] [start] :=
        .single List.mem_cons_self present settled
      have found := climb_finds wellFormed ranked trail (Nat.lt_succ_self _) (Nat.le_max_right _ _)
        unspent isWay
      rwa [Nat.add_comm] at found

theorem climbFrom_positive {links : Links} {height : Std.HashMap Int Nat}
    (ranked : Ranked links.lineage.Up nodes (height[·]?)) :
    0 < (climbFrom links height search start).best := by
  unfold climbFrom
  split
  next h settled => exact Nat.lt_of_lt_of_le (ranked.positive settled) (Nat.le_max_right _ _)
  next =>
    have one : 0 < max search.best 1 := Nat.lt_of_lt_of_le Nat.one_pos (Nat.le_max_right _ _)
    refine Nat.lt_of_lt_of_le one ?_
    exact (climb_later _ _ _ { search with best := max search.best 1 }).best

end Found

section Depth
variable {entities : List Int} {edges : List ParentEdge}

theorem heights_ofEdges (entities : List Int) (edges : List ParentEdge) :
    Ranked (Links.ofEdges entities edges).lineage.Up (Links.ofEdges entities edges).nodes
      ((heights (Links.ofEdges entities edges).lineage)[·]?) :=
  heights_ranked (Links.ofEdges_lineage entities edges).1

/-- All declarations are nodes, so from each of them the search is the recursive one. -/
theorem search_eq_climbs (entities : List Int) (edges : List ParentEdge) :
    search entities edges =
      entities.foldl (climbFrom (Links.ofEdges entities edges)
        (heights (Links.ofEdges entities edges).lineage)) ⟨cycleSearchBudget, 0⟩ := by
  obtain ⟨wellFormed, -, present⟩ := Links.ofEdges_lineage entities edges
  refine List.foldl_ext _ _ _ fun search start member => ?_
  exact searchFrom_eq_climbFrom (fun node _ parent up => (wellFormed.closed node parent up).2)
    (present start member) _ search

theorem search_meets (edges : List ParentEdge) {start : Int} (member : start ∈ entities) :
    ∃ met, Later (climbFrom (Links.ofEdges entities edges)
      (heights (Links.ofEdges entities edges).lineage) met start) (search entities edges) := by
  obtain ⟨met, -, later⟩ := Later.foldl_meets
    (climbFrom_later (Links.ofEdges entities edges)
      (heights (Links.ofEdges entities edges).lineage)) member
  rw [search_eq_climbs]
  exact ⟨met, later⟩

theorem depth_founded (entities : List Int) (edges : List ParentEdge) :
    Founded (Rises edges) entities (depth entities edges) := by
  obtain ⟨wellFormed, up, present⟩ := Links.ofEdges_lineage entities edges
  rw [← up, depth, search_eq_climbs]
  refine List.foldlRecOn (motive := fun search : Search => Founded _ entities search.best) _ _
    (Or.inl rfl) fun search founded start member => ?_
  exact climbFrom_founded wellFormed (heights_ofEdges entities edges) member (present start member)
    founded

theorem depth_positive (edges : List ParentEdge) {start : Int} (member : start ∈ entities) :
    0 < depth entities edges := by
  obtain ⟨met, later⟩ := search_meets edges member
  exact Nat.lt_of_lt_of_le (climbFrom_positive (heights_ofEdges entities edges)) later.best

theorem depth_upperBound (unspent : 0 < (search entities edges).budget) :
    depth entities edges ∈ upperBounds (Lengths (Rises edges) entities) := by
  obtain ⟨wellFormed, up, present⟩ := Links.ofEdges_lineage entities edges
  rw [← up]
  rintro _ ⟨start, member, above, isWay, rfl⟩
  obtain ⟨met, later⟩ := search_meets edges member
  refine Nat.le_trans ?_ later.best
  exact climbFrom_finds wellFormed (heights_ofEdges entities edges) (present start member)
    (Nat.lt_of_lt_of_le unspent later.budget) isWay

/-- Declarations that reach no cycle are all settled, and looking up a height costs no step. -/
theorem search_unspent (acyclic : ∀ start ∈ entities, ¬ ReachesCycle (Rises edges) start) :
    (search entities edges).budget = cycleSearchBudget := by
  obtain ⟨-, up, present⟩ := Links.ofEdges_lineage entities edges
  rw [search_eq_climbs]
  refine List.foldlRecOn (motive := fun search : Search => search.budget = cycleSearchBudget) _ _
    rfl fun search kept start member => ?_
  unfold climbFrom
  split
  next => exact kept
  next unsettled =>
    rw [← up] at acyclic
    exact absurd (((heights_ofEdges entities edges).eq_none_iff (present start member)).1 unsettled)
      (acyclic start member)

/-- The depth of a hierarchy is zero without declarations. Otherwise it is the length of a way up from
one of them; of a longest one if the search ends with steps left, as it does where no cycle can be
reached. -/
theorem depth_is_longest_way_up (entities : List Int) (edges : List ParentEdge) :
    (depth entities edges = 0 ↔ entities = []) ∧
      (entities ≠ [] → depth entities edges ∈ Lengths (Rises edges) entities ∧
        (0 < (search entities edges).budget →
          IsGreatest (Lengths (Rises edges) entities) (depth entities edges)) ∧
        ((∀ start ∈ entities, ¬ ReachesCycle (Rises edges) start) →
          IsGreatest (Lengths (Rises edges) entities) (depth entities edges))) := by
  have empty : depth entities edges = 0 ↔ entities = [] := by
    constructor
    · intro zero
      by_contra filled
      obtain ⟨start, member⟩ := List.exists_mem_of_ne_nil entities filled
      have := depth_positive edges member
      omega
    · rintro rfl
      rfl
  refine ⟨empty, fun filled => ?_⟩
  have member := (depth_founded entities edges).resolve_left (mt empty.1 filled)
  refine ⟨member, fun unspent => ⟨member, depth_upperBound unspent⟩, fun acyclic => ?_⟩
  have unspent : 0 < (search entities edges).budget := by
    rw [search_unspent acyclic]
    decide
  exact ⟨member, depth_upperBound unspent⟩

def mutualEdges : List ParentEdge :=
  [⟨1, 1, some 2, "B", .extension⟩, ⟨2, 2, some 1, "A", .extension⟩]

/-- Two declarations that are each other's parents: from either, a way up meets both, and one step is
enough to find that out. -/
theorem mutual_parents_depth :
    (search [1] mutualEdges).budget = 999999 ∧ depth [1] mutualEdges = 2 ∧
      IsGreatest (Lengths (Rises mutualEdges) [1]) 2 := by
  have found : search [1] mutualEdges = ⟨999999, 2⟩ := by
    rw [search_eq_climbs]
    simp [mutualEdges, Links.ofEdges, Links.addEdge, Links.addNode, Links.lineage, heights,
      Settling.run, Settling.start, climbFrom, climb, tryParent, cycleSearchBudget,
      Std.HashMap.getD_insert]
  have longest := ((depth_is_longest_way_up [1] mutualEdges).2 (by decide)).2.1
    (by rw [found]; decide)
  rw [depth, found] at longest
  exact ⟨by rw [found], by rw [depth, found], longest⟩

end Depth

end DeclGraph.Hierarchy
