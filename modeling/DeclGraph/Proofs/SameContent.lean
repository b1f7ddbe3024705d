import Mathlib
import DeclGraph.Hierarchy.Queries
import DeclGraph.Proofs.TraversalScope
import DeclGraph.Store.Stats

/-! Stores of the same content. Generations of declarations and numbers of calls and parents tell when
something was stored, not what. No answer depends on them, except that call sites are listed with their
numbers. Nor do the passes that store and link parents. -/
namespace DeclGraph

def UpTo {α : Type} (erase : α → α) (left right : List α) : Prop :=
  left.map erase = right.map erase

namespace UpTo

variable {α β ε : Type} {erase : α → α} {left right : List α}

theorem length_eq (same : UpTo erase left right) : left.length = right.length := by
  simpa using congrArg List.length same

theorem map_eq (same : UpTo erase left right) (f : α → β) (blind : ∀ a, f (erase a) = f a) :
    left.map f = right.map f := by
  have erased := congrArg (List.map f) same
  rw [List.map_map, List.map_map, show f ∘ erase = f from funext blind] at erased
  exact erased

theorem any_eq (same : UpTo erase left right) (test : α → Bool)
    (blind : ∀ a, test (erase a) = test a) : left.any test = right.any test := by
  have erased := congrArg (List.any · test) same
  simp only [List.any_map, show test ∘ erase = test from funext blind] at erased
  exact erased

theorem find? (same : UpTo erase left right) (test : α → Bool)
    (blind : ∀ a, test (erase a) = test a) :
    (left.find? test).map erase = (right.find? test).map erase := by
  have erased := congrArg (List.find? test) same
  rw [List.find?_map, List.find?_map, show test ∘ erase = test from funext blind] at erased
  exact erased

theorem filter (same : UpTo erase left right) (test : α → Bool)
    (blind : ∀ a, test (erase a) = test a) : UpTo erase (left.filter test) (right.filter test) := by
  have erased := congrArg (List.filter test) same
  rw [List.filter_map, List.filter_map, show test ∘ erase = test from funext blind] at erased
  exact erased

theorem mergeSort (same : UpTo erase left right) (le : α → α → Bool)
    (blind : ∀ a b, le a b = le (erase a) (erase b)) :
    UpTo erase (left.mergeSort le) (right.mergeSort le) := by
  have erased := congrArg (List.mergeSort · le) same
  rw [← List.map_mergeSort fun a _ b _ => blind a b,
    ← List.map_mergeSort fun a _ b _ => blind a b] at erased
  exact erased

theorem mapM_eq (same : UpTo erase left right) (read : α → Except ε β)
    (blind : ∀ a, read (erase a) = read a) : left.mapM read = right.mapM read := by
  have erased := congrArg (List.mapM read) same
  rw [List.mapM_map, List.mapM_map, show read ∘ erase = read from funext blind] at erased
  exact erased

/-- The items that a step makes differ no more than what they are made from. -/
theorem filterMap (same : UpTo erase left right) (eraseMade : β → β) (make : α → Option β)
    (blind : ∀ a, make (erase a) = (make a).map eraseMade) :
    UpTo eraseMade (left.filterMap make) (right.filterMap make) := by
  have erased := congrArg (List.filterMap make) same
  rw [List.filterMap_map, List.filterMap_map,
    show make ∘ erase = fun a => (make a).map eraseMade from funext blind] at erased
  rw [UpTo, List.map_filterMap, List.map_filterMap]
  exact erased

theorem map (same : UpTo erase left right) (change : α → α)
    (blind : ∀ a, change (erase a) = erase (change a)) :
    UpTo erase (left.map change) (right.map change) := by
  have erased := congrArg (List.map change) same
  rw [List.map_map, List.map_map, show change ∘ erase = erase ∘ change from funext blind] at erased
  rw [UpTo, List.map_map, List.map_map]
  exact erased

/-- Reading hands on what is dropped, so that it can be dropped before as well as after. -/
theorem mapM_upTo (same : UpTo erase left right) (eraseRead : β → β) (read : α → Except ε β)
    (blind : ∀ a, read (erase a) = (read a).map eraseRead) :
    (left.mapM read).map (·.map eraseRead) = (right.mapM read).map (·.map eraseRead) := by
  have reread : ∀ items : List α,
      (items.map erase).mapM read = (items.mapM read).map (·.map eraseRead) := by
    intro items
    induction items with
    | nil => rfl
    | cons item rest ih =>
        rw [List.map_cons, List.mapM_cons, List.mapM_cons, ih, blind]
        cases read item <;> cases rest.mapM read <;> rfl
  rw [← reread, ← reread, same]

/-- Where nothing that is dropped is looked at, the answers are the same. -/
theorem bind_eq {γ : Type} {left right : Except ε (List α)}
    (same : left.map (·.map erase) = right.map (·.map erase)) {next : List α → Except ε γ}
    (blind : ∀ l r, UpTo erase l r → next l = next r) : left >>= next = right >>= next := by
  cases left with
  | error e =>
      cases right with
      | error e' =>
          cases same
          rfl
      | ok r => cases same
  | ok l =>
      cases right with
      | error e => cases same
      | ok r => exact blind l r (Except.ok.inj same)

end UpTo

/-! Generations do not show in answers, nor do the numbers of calls and parents. -/

def EntityRow.undated (row : EntityRow) : EntityRow :=
  { row with generation := 0 }

def CallRow.unnumbered (row : CallRow) : CallRow :=
  { row with id := 0 }

def Call.unnumbered (call : Call) : Call :=
  { call with id := 0 }

theorem CallRow.unnumbered_read (row : CallRow) :
    row.unnumbered.read = row.read.map Call.unnumbered := by
  unfold read
  rw [show row.unnumbered.line = row.line from rfl]
  cases readLine row.line 4 <;> rfl

def ParentRow.unnumbered (row : ParentRow) : ParentRow :=
  { row with id := 0 }

def ParentEdge.unnumbered (edge : ParentEdge) : ParentEdge :=
  { edge with id := 0 }

theorem ParentRow.unnumbered_read (row : ParentRow) :
    row.unnumbered.read = row.read.map ParentEdge.unnumbered := by
  unfold read
  rw [show row.unnumbered.heritage = row.heritage from rfl]
  cases readHeritage row.heritage 4 <;> rfl

/-- The depth of a hierarchy depends on the ends of its edges. -/
theorem Hierarchy.depth_upTo {left right : List ParentEdge}
    (same : UpTo ParentEdge.unnumbered left right) (entities : List Int) :
    depth entities left = depth entities right := by
  have links : Links.ofEdges entities left = Links.ofEdges entities right := by
    have erased := congrArg (Links.ofEdges entities) same
    rw [Links.ofEdges, Links.ofEdges, List.foldl_map, List.foldl_map] at erased
    exact erased
  rw [depth, depth, search, search, links]

namespace Store

theorem owns_upTo {left right : Store}
    (same : UpTo EntityRow.undated left.entities.rows right.entities.rows) (projectId : Int) :
    left.owns projectId = right.owns projectId := by
  funext id
  have found := same.find? (·.id == id) fun _ => rfl
  have erased := congrArg (Option.any fun row => row.projectId == projectId) found
  rw [Option.any_map, Option.any_map] at erased
  exact erased

structure Same (left right : Store) : Prop where
  entities : UpTo EntityRow.undated left.entities.rows right.entities.rows
  calls : UpTo CallRow.unnumbered left.calls.rows right.calls.rows
  parents : UpTo ParentRow.unnumbered left.parents.rows right.parents.rows

namespace Same

variable {left right : Store} (same : Same left right)
include same

theorem find? (id : Int) : (left.entities.find? id).map EntityRow.undated =
    (right.entities.find? id).map EntityRow.undated :=
  same.entities.find? (fun row => row.id == id) fun _ => rfl

theorem entity? (id : Int) : left.entity? id = right.entity? id := by
  have read : ∀ store : Store, store.entity? id =
      ((store.entities.find? id).map EntityRow.undated).elim (.ok none) (·.read.map some) := by
    intro store
    unfold Store.entity?
    cases store.entities.find? id with
    | none => rfl
    | some row => rfl
  rw [read, read, same.find?]

theorem owns (projectId : Int) : left.owns projectId = right.owns projectId :=
  owns_upTo same.entities projectId

theorem entitiesOf (projectId : Int) : left.entitiesOf projectId = right.entitiesOf projectId :=
  (same.entities.filter _ fun _ => rfl).mapM_eq _ fun _ => rfl

theorem entitiesNamed (projectId : Int) (symbol : String) (kinds : List EntityKind) :
    left.entitiesNamed projectId symbol kinds = right.entitiesNamed projectId symbol kinds := by
  have named := same.entities.filter (fun row => row.projectId == projectId && row.symbol == symbol)
    fun _ => rfl
  rw [Store.entitiesNamed, Store.entitiesNamed, named.mapM_eq EntityRow.read fun _ => rfl]

theorem calleesOf (id : Int) : left.calleesOf id = right.calleesOf id := by
  have calls := same.calls.filter (·.callerId == id) fun _ => rfl
  have sorted := calls.mergeSort byLineAndCallee fun _ _ => rfl
  exact sorted.mapM_eq _ fun _ => rfl

theorem callersOf (id : Int) : left.callersOf id = right.callersOf id := by
  -- Callers are sorted by symbols that come from the declarations.
  have symbols : ∀ row : CallRow,
      (left.entities.find? row.callerId).map (fun caller => (caller.symbol, row)) =
        (right.entities.find? row.callerId).map fun caller => (caller.symbol, row) := by
    intro row
    have erased := congrArg (Option.map fun caller => (caller.symbol, row)) (same.find? row.callerId)
    rw [Option.map_map, Option.map_map] at erased
    exact erased
  rw [Store.callersOf, Store.callersOf]
  simp only [symbols]
  have calls := same.calls.filterMap (fun pair : String × CallRow => (pair.1, pair.2.unnumbered))
    (fun row => if row.calleeId == some id then
      (right.entities.find? row.callerId).map fun caller => (caller.symbol, row) else none) <| by
    intro row
    rw [apply_ite (Option.map _), Option.map_map]
    rfl
  have sorted := calls.mergeSort byCaller fun _ _ => rfl
  exact sorted.mapM_eq _ fun _ => rfl

theorem neighbors (direction : Direction) (id : Int) :
    left.neighbors direction id = right.neighbors direction id := by
  cases direction with
  | callers => exact same.callersOf id
  | callees => exact same.calleesOf id

theorem callSites (callerId calleeId : Int) :
    (left.callSites callerId calleeId).map (·.map Call.unnumbered) =
      (right.callSites callerId calleeId).map (·.map Call.unnumbered) := by
  have calls := same.calls.filter
    (fun row => row.callerId == callerId && row.calleeId == some calleeId) fun _ => rfl
  have sorted := calls.mergeSort (fun a b => decide (a.line ≤ b.line)) fun _ _ => rfl
  exact sorted.mapM_upTo _ _ CallRow.unnumbered_read

theorem agree : Agree (fun _ => True) left right where
  entity id _ := same.entity? id
  neighbors direction id _ := ⟨same.neighbors direction id, fun _ _ _ _ _ _ => trivial⟩

theorem root? (projectId : Int) (symbol : String) :
    left.root? projectId symbol = right.root? projectId symbol := by
  rw [Store.root?, Store.root?, same.entitiesNamed]

theorem callTree (limits : Limits) (projectId : Int) (symbol : String) (direction : Direction)
    (depth : UInt32) :
    left.callTree limits projectId symbol direction depth =
      right.callTree limits projectId symbol direction depth :=
  same.agree.callTree ⟨same.root? projectId symbol, fun _ _ _ _ => trivial⟩ limits direction depth

theorem around (limits : Limits) (projectId : Int) (symbol : String) (directions : List Direction)
    (maxDepth : Nat) :
    CallGraph.around left limits projectId symbol directions maxDepth =
      CallGraph.around right limits projectId symbol directions maxDepth :=
  same.agree.around ⟨same.root? projectId symbol, fun _ _ _ _ => trivial⟩ limits directions maxDepth

theorem parentRowsOf (projectId : Int) :
    UpTo ParentRow.unnumbered (left.parentRowsOf projectId) (right.parentRowsOf projectId) := by
  rw [Store.parentRowsOf, Store.parentRowsOf, same.owns]
  exact same.parents.filter _ fun _ => rfl

theorem parentEdgesOf (projectId : Int) :
    (left.parentEdgesOf projectId).map (·.map ParentEdge.unnumbered) =
      (right.parentEdgesOf projectId).map (·.map ParentEdge.unnumbered) :=
  (same.parentRowsOf projectId).mapM_upTo _ _ ParentRow.unnumbered_read

theorem parentsOf (childId : Int) : left.parentsOf childId = right.parentsOf childId := by
  have rows := same.parents.filter (·.childId == childId) fun _ => rfl
  refine UpTo.bind_eq (rows.mapM_upTo _ _ ParentRow.unnumbered_read) fun l r alike => ?_
  exact congrArg Except.ok (alike.map_eq _ fun _ => rfl)

theorem childRows (accept : EntityRow → ParentRow → Bool)
    (blindRow : ∀ row edge, accept row.undated edge = accept row edge)
    (blindEdge : ∀ row edge, accept row edge.unnumbered = accept row edge) :
    left.childRows accept = right.childRows accept := by
  let link (edge : ParentRow) (child : EntityRow) : Option ChildRow :=
    if accept child edge then
      some { childId := edge.childId, symbol := child.symbol, heritage := edge.heritage }
    else none
  have children : ∀ edge, (left.entities.find? edge.childId).bind (link edge) =
      (right.entities.find? edge.childId).bind (link edge) := by
    intro edge
    have erased := congrArg (Option.bind · (link edge)) (same.find? edge.childId)
    simp only [Option.bind_map, Function.comp_def, link, blindRow] at erased
    exact erased
  have links := same.parents.filterMap id
    (fun edge => (right.entities.find? edge.childId).bind (link edge)) <| by
      intro edge
      simp only [link, blindEdge, Option.map_id, id_eq]
      rfl
  simp only [UpTo, List.map_id] at links
  rw [Store.childRows, Store.childRows, ← links]
  exact List.filterMap_congr fun edge _ => children edge

theorem childrenOf (parentId : Int) : left.childrenOf parentId = right.childrenOf parentId :=
  congrArg (List.mapM ChildRow.read) (same.childRows _ (fun _ _ => rfl) fun _ _ => rfl)

theorem childrenNaming (projectId : Int) (symbol : String) :
    left.childrenNaming projectId symbol = right.childrenNaming projectId symbol :=
  congrArg (List.mapM ChildRow.read) (same.childRows _ (fun _ _ => rfl) fun _ _ => rfl)

theorem isOpen (projectId : Int) : left.isOpen projectId = right.isOpen projectId := by
  funext edge
  rw [Store.isOpen, Store.isOpen, same.owns]

theorem stats (projectId : Int) : left.stats projectId = right.stats projectId := by
  have entities := same.entities.filter (·.projectId == projectId) fun _ => rfl
  have calls := same.calls.filter (·.projectId == projectId) fun _ => rfl
  have unresolved := same.parents.filter (right.isOpen projectId) fun _ => rfl
  rw [Store.stats, Store.stats, same.isOpen]
  simp only [entities.length_eq, calls.length_eq, (same.parentRowsOf projectId).length_eq,
    unresolved.length_eq, entities.map_eq EntityRow.filename fun _ => rfl]

theorem rootRows (projectId : Int) :
    UpTo EntityRow.undated (left.rootRows projectId) (right.rootRows projectId) := by
  have named : ∀ row : EntityRow, left.parents.rows.any (·.childId == row.id) =
      right.parents.rows.any (·.childId == row.id) :=
    fun row => same.parents.any_eq _ fun _ => rfl
  simp only [Store.rootRows, named]
  exact same.entities.filter _ fun _ => rfl

theorem hierarchyStats (projectId : Int) :
    left.hierarchyStats projectId = right.hierarchyStats projectId := by
  have counts : heritageCounts (left.parentRowsOf projectId) =
      heritageCounts (right.parentRowsOf projectId) := by
    rw [heritageCounts, heritageCounts,
      (same.parentRowsOf projectId).map_eq ParentRow.heritage fun _ => rfl]
  rw [Store.hierarchyStats, Store.hierarchyStats, counts, same.entitiesOf,
    (same.rootRows projectId).length_eq]
  refine UpTo.bind_eq (same.parentEdgesOf projectId) fun l r edges => ?_
  have unresolved := (edges.filter (·.parentId.isNone) fun _ => rfl).length_eq
  simp only [unresolved, Hierarchy.depth_upTo edges]

theorem addParent (report : InsertReport) (draft : ParentDraft) :
    (left.addParent report draft).1 = (right.addParent report draft).1 ∧
      Same (left.addParent report draft).2 (right.addParent report draft).2 := by
  unfold Store.addParent
  cases draft.complete? with
  | none => exact ⟨rfl, same⟩
  | some complete =>
      obtain ⟨childId, symbol, heritage⟩ := complete
      have known := same.parents.any_eq (·.key == (childId, symbol, heritage)) fun _ => rfl
      dsimp only
      rw [known]
      split
      · exact ⟨rfl, same.entities, same.calls, same.parents⟩
      · refine ⟨rfl, same.entities, same.calls, ?_⟩
        simp only [UpTo, Table.append, List.map_append, List.map_singleton]
        rw [same.parents]
        rfl

theorem addParents (drafts : List ParentDraft) :
    (left.addParents drafts).1 = (right.addParents drafts).1 ∧
      Same (left.addParents drafts).2 (right.addParents drafts).2 := by
  refine List.foldl_rel (r := fun first second : InsertReport × Store =>
    first.1 = second.1 ∧ Same first.2 second.2) ⟨rfl, same⟩ ?_
  rintro draft - first second ⟨reports, stores⟩
  rw [reports]
  exact stores.addParent second.1 draft

theorem candidate? (projectId : Int) (edge : ParentRow) :
    left.candidate? projectId edge = right.candidate? projectId edge := by
  have fitting := same.entities.filter (fits projectId edge) fun _ => rfl
  rw [Store.candidate?, Store.candidate?, fitting.map_eq EntityRow.id fun _ => rfl]

theorem linkParents (projectId : Int) :
    (left.linkParents projectId).1 = (right.linkParents projectId).1 ∧
      Same (left.linkParents projectId).2 (right.linkParents projectId).2 := by
  -- Whether an edge is open and what it is linked to is decided by declarations alone.
  have link : left.link projectId = right.link projectId := by
    funext edge
    rw [link_eq, link_eq, same.isOpen, same.candidate?]
  have stores : Same (left.linkParents projectId).2 (right.linkParents projectId).2 := by
    refine ⟨same.entities, same.calls, ?_⟩
    simp only [Store.linkParents, Table.modify, link]
    refine same.parents.map _ fun edge => ?_
    rw [link_eq, link_eq,
      show right.isOpen projectId edge.unnumbered = right.isOpen projectId edge from rfl]
    split <;> rfl
  refine ⟨congrArg₂ LinkReport.mk ?_ ?_, stores⟩
  · have linkable : left.isLinkable projectId = right.isLinkable projectId := by
      funext edge
      rw [isLinkable_eq, isLinkable_eq, same.isOpen, same.candidate?]
    rw [linkable]
    exact (same.parents.filter _ fun _ => rfl).length_eq
  · have pending := stores.parents.filter ((right.linkParents projectId).2.isOpen projectId) fun _ => rfl
    nth_rewrite 1 [← stores.isOpen projectId] at pending
    exact pending.length_eq

end Same

/-- Two stores answer all queries alike, the numbers of calls and parents aside. -/
structure SameAnswers (left right : Store) : Prop where
  entity? : ∀ id, left.entity? id = right.entity? id
  entitiesOf : ∀ projectId, left.entitiesOf projectId = right.entitiesOf projectId
  entitiesNamed : ∀ projectId symbol kinds,
    left.entitiesNamed projectId symbol kinds = right.entitiesNamed projectId symbol kinds
  neighbors : ∀ direction id, left.neighbors direction id = right.neighbors direction id
  callTree : ∀ limits projectId symbol direction depth,
    left.callTree limits projectId symbol direction depth =
      right.callTree limits projectId symbol direction depth
  callGraph : ∀ limits projectId symbol depth,
    left.callGraph limits projectId symbol depth = right.callGraph limits projectId symbol depth
  reverseCallGraph : ∀ limits projectId symbol depth,
    left.reverseCallGraph limits projectId symbol depth =
      right.reverseCallGraph limits projectId symbol depth
  callSites : ∀ callerId calleeId,
    (left.callSites callerId calleeId).map (·.map Call.unnumbered) =
      (right.callSites callerId calleeId).map (·.map Call.unnumbered)
  parentEdgesOf : ∀ projectId, (left.parentEdgesOf projectId).map (·.map ParentEdge.unnumbered) =
    (right.parentEdgesOf projectId).map (·.map ParentEdge.unnumbered)
  parentsOf : ∀ childId, left.parentsOf childId = right.parentsOf childId
  childrenOf : ∀ parentId, left.childrenOf parentId = right.childrenOf parentId
  childrenNaming : ∀ projectId symbol,
    left.childrenNaming projectId symbol = right.childrenNaming projectId symbol
  stats : ∀ projectId, left.stats projectId = right.stats projectId
  hierarchyStats : ∀ projectId, left.hierarchyStats projectId = right.hierarchyStats projectId

theorem Same.answers {left right : Store} (same : Same left right) : SameAnswers left right where
  entity? := same.entity?
  entitiesOf := same.entitiesOf
  entitiesNamed := same.entitiesNamed
  neighbors := same.neighbors
  callTree := same.callTree
  callGraph _ projectId symbol _ := same.around _ projectId symbol _ _
  reverseCallGraph _ projectId symbol _ := same.around _ projectId symbol _ _
  callSites := same.callSites
  parentEdgesOf := same.parentEdgesOf
  parentsOf := same.parentsOf
  childrenOf := same.childrenOf
  childrenNaming := same.childrenNaming
  stats := same.stats
  hierarchyStats := same.hierarchyStats

end Store

end DeclGraph
