import Mathlib
import DeclGraph.Hierarchy.Queries
import DeclGraph.Proofs.LastingIdentity

/-! Children are listed by the number of their parent, or by the name they give for it. Right after a
linking pass the two listings of a project agree: the first type of a name has all children that name
it, except itself. A type that names itself as its parent is linked to the second one of its name, and
no other type of that name has children. -/
namespace DeclGraph.Store

variable {store after : Store} {projectId id parent : Int} {symbol : String} {edge : ParentRow}

def TypesNamed (store : Store) (projectId : Int) (symbol : String) : Set Int :=
  { id | ∃ entity, store.entity? id = .ok (some entity) ∧ entity.projectId = projectId ∧
    entity.symbol = symbol ∧ entity.kind.isType = true }

theorem isType_iff {kind : EntityKind} :
    kind.isType = true ↔ ∃ type ∈ EntityKind.types, kind.name = type.name := by
  cases kind <;> decide

theorem Drafted.mem_typesNamed (drafted : store.Drafted) :
    id ∈ store.TypesNamed projectId symbol ↔
      ∃ key, store.Identifies id key ∧ key.projectId = projectId ∧ key.symbol = symbol ∧
        ∃ type ∈ EntityKind.types, key.kind = type.name := by
  constructor
  · rintro ⟨entity, found, owned, named, typed⟩
    exact ⟨entity.key, drafted.means_iff.1 ⟨entity, found, rfl⟩, owned, named, isType_iff.1 typed⟩
  · rintro ⟨key, stands, owned, named, typed⟩
    obtain ⟨entity, found, rfl⟩ := drafted.means_iff.2 stands
    exact ⟨entity, found, owned, named, isType_iff.2 typed⟩

theorem Drafted.fitting_eq (drafted : store.Drafted) (projectId : Int) (edge : ParentRow) :
    store.Fitting projectId edge = store.TypesNamed projectId edge.symbol \ {edge.childId} := by
  ext id
  simp only [Set.mem_sdiff, drafted.mem_typesNamed, Set.mem_singleton_iff]
  constructor
  · rintro ⟨key, stands, owned, named, typed, apart⟩
    exact ⟨⟨key, stands, owned, named, typed⟩, apart⟩
  · rintro ⟨⟨key, stands, owned, named, typed⟩, apart⟩
    exact ⟨key, stands, owned, named, typed, apart⟩

-- A parent of the project is linked exactly to the first declaration that fits.
theorem linked_iff {report : LinkReport} {child : EntityKey} (linked : store.AllLinked)
    (done : store.linkParents projectId = (report, after)) (member : edge ∈ after.parents.rows)
    (stored : after.Identifies edge.childId child) (owned : child.projectId = projectId) :
    edge.parentId = some parent ↔ IsLeast (after.Fitting projectId edge) parent := by
  have first := linkParents_linked linked done
  constructor
  · intro link
    obtain ⟨child', stored', least⟩ := first edge member parent link
    rwa [← stored.unique stored', owned] at least
  · intro least
    cases link : edge.parentId with
    | none =>
        have nothing := linkParents_open done member stored owned link
        exact absurd least.1 (nothing ▸ Set.notMem_empty parent)
    | some other =>
        obtain ⟨child', stored', least'⟩ := first edge member other link
        rw [← stored.unique stored', owned] at least'
        rw [least'.unique least]

/-- Links to a type of the project come from the project and name that type. -/
theorem linked_to_type_iff {report : LinkReport} {child : EntityKey} (drafted : after.Drafted)
    (linked : store.AllLinked) (done : store.linkParents projectId = (report, after))
    (member : edge ∈ after.parents.rows) (stored : after.Identifies edge.childId child)
    (type : parent ∈ after.TypesNamed projectId symbol) :
    edge.parentId = some parent ↔ (child.projectId = projectId ∧ edge.symbol = symbol) ∧
      IsLeast (after.TypesNamed projectId symbol \ {edge.childId}) parent := by
  have own : child.projectId = projectId → edge.symbol = symbol →
      (edge.parentId = some parent ↔
        IsLeast (after.TypesNamed projectId symbol \ {edge.childId}) parent) := by
    rintro owned rfl
    rw [linked_iff linked done member stored owned, drafted.fitting_eq]
  constructor
  · intro link
    obtain ⟨child', stored', ⟨key, stands, project, name, -⟩, -⟩ :=
      linkParents_linked linked done edge member parent link
    obtain ⟨key', stands', project', name', -⟩ := drafted.mem_typesNamed.1 type
    obtain rfl := stands.unique stands'
    obtain rfl := stored.unique stored'
    have owned := project.symm.trans project'
    have named := name.symm.trans name'
    exact ⟨⟨owned, named⟩, (own owned named).1 link⟩
  · rintro ⟨⟨owned, named⟩, least⟩
    exact (own owned named).2 least

theorem childRows_filter (store : Store) (accept : EntityRow → ParentRow → Bool) (test : Int → Bool) :
    (store.childRows accept).filter (fun row => test row.childId) =
      store.childRows fun child edge => accept child edge && test edge.childId := by
  unfold childRows
  rw [List.filter_filterMap]
  apply List.filterMap_congr
  intro edge _
  cases store.entities.find? edge.childId with
  | none => rfl
  | some child =>
      by_cases accepted : accept child edge = true
      · by_cases passed : test edge.childId = true <;> simp [accepted, passed]
      · simp [accepted]

theorem childRows_congr {accept accept' : EntityRow → ParentRow → Bool}
    (same : ∀ edge ∈ store.parents.rows, ∀ child ∈ store.entities.rows, child.id = edge.childId →
      (accept child edge = true ↔ accept' child edge = true)) :
    store.childRows accept = store.childRows accept' := by
  apply List.filterMap_congr
  intro edge member
  cases found : store.entities.find? edge.childId with
  | none => rfl
  | some child =>
      obtain ⟨stored, numbered⟩ := Table.find?_eq_some_iff.1 found
      simp only [Option.bind_some, same edge member child stored numbered]

theorem ChildRow.read_eq_ok {row : ChildRow} {link : ChildLink} :
    row.read = .ok link ↔ row = ⟨link.childId, link.symbol, link.heritage.name⟩ := by
  simp only [ChildRow.read, bind_eq_ok, readHeritage_eq_ok, Except.ok.injEq]
  constructor
  · rintro ⟨heritage, named, rfl⟩
    rw [← named]
  · rintro rfl
    exact ⟨link.heritage, rfl, rfl⟩

theorem mem_childrenOf {links : List ChildLink} (listed : store.childrenOf parent = .ok links)
    {link : ChildLink} : link ∈ links ↔
    ∃ edge : ParentEdge, edge.row ∈ store.parents.rows ∧ edge.parentId = some parent ∧
      ∃ child ∈ store.entities.rows, child.id = edge.childId ∧
        ⟨edge.childId, child.symbol, edge.heritage⟩ = link := by
  obtain ⟨childId, symbol, heritage⟩ := link
  rw [mem_read_iff listed]
  simp only [childRows, List.mem_filterMap, Option.bind_eq_some_iff, Table.find?_eq_some_iff, beq_iff_eq,
    Option.ite_none_right_eq_some, Option.some.injEq, ChildRow.read_eq_ok]
  constructor
  · rintro ⟨_, ⟨row, member, child, ⟨stored, numbered⟩, linked, rfl⟩, same⟩
    obtain ⟨rfl, rfl, named⟩ := ChildRow.mk.inj same
    refine ⟨⟨row.id, row.childId, row.parentId, row.symbol, heritage⟩, ?_, linked, child, stored,
      numbered, rfl⟩
    rwa [ParentEdge.row, ← named]
  · rintro ⟨edge, member, linked, child, stored, numbered, same⟩
    cases same
    exact ⟨_, ⟨edge.row, member, child, ⟨stored, numbered⟩, linked, rfl⟩, rfl⟩

theorem mem_parentsOf {links : List ParentLink} (listed : store.parentsOf id = .ok links)
    {link : ParentLink} : link ∈ links ↔
    ∃ edge : ParentEdge, edge.row ∈ store.parents.rows ∧ edge.childId = id ∧
      ⟨edge.heritage, edge.symbol, edge.parentId⟩ = link := by
  obtain ⟨edges, read, same⟩ := bind_eq_ok.1 listed
  cases same
  simp only [List.mem_map, mem_read_iff read, ParentRow.read_eq_ok, List.mem_filter, beq_iff_eq]
  constructor
  · rintro ⟨edge, ⟨_, ⟨member, owned⟩, rfl⟩, same⟩
    exact ⟨edge, member, owned, same⟩
  · rintro ⟨edge, member, owned, same⟩
    exact ⟨edge, ⟨edge.row, ⟨member, owned⟩, rfl⟩, same⟩

/-- Seen from either end, the links between a stored child and a parent are the same. -/
theorem listed_child_iff {child : Int} {heritage : Heritage} {below : List ChildLink}
    {above : List ParentLink} (held : store.Holds child) (children : store.childrenOf parent = .ok below)
    (parents : store.parentsOf child = .ok above) :
    (∃ link ∈ below, link.childId = child ∧ link.heritage = heritage) ↔
      ∃ link ∈ above, link.parentId = some parent ∧ link.heritage = heritage := by
  simp only [mem_childrenOf children, mem_parentsOf parents]
  constructor
  · rintro ⟨-, ⟨edge, member, linked, row, -, -, rfl⟩, rfl, rfl⟩
    exact ⟨_, ⟨edge, member, rfl, rfl⟩, linked, rfl⟩
  · rintro ⟨-, ⟨edge, member, rfl, rfl⟩, linked, rfl⟩
    obtain ⟨row, stored, numbered⟩ := held
    exact ⟨_, ⟨edge, member, linked, row, stored, numbered, rfl⟩, rfl, rfl⟩

-- The children of a type are those that name it and have no earlier type to be linked to.
theorem childrenOf_type {report : LinkReport} {naming : List ChildLink} (drafted : after.Drafted)
    (linked : store.AllLinked) (done : store.linkParents projectId = (report, after))
    (listed : after.childrenNaming projectId symbol = .ok naming)
    (type : parent ∈ after.TypesNamed projectId symbol) (test : Int → Bool)
    (least : ∀ child, IsLeast (after.TypesNamed projectId symbol \ {child}) parent ↔
      test child = true) :
    after.childrenOf parent = .ok (naming.filter fun link => test link.childId) := by
  have part : ((after.childRows fun child edge => child.projectId == projectId && edge.symbol == symbol).filter
      fun row => test row.childId).mapM ChildRow.read =
        .ok (naming.filter fun link => test link.childId) :=
    mapM_filter listed fun row link read => by rw [ChildRow.read_eq_ok.1 read]
  rw [childRows_filter] at part
  rw [childrenOf, ← part]
  refine congrArg (List.mapM ChildRow.read) (childRows_congr fun edge member child stored numbered => ?_)
  have stands : after.Identifies edge.childId child.key := ⟨child, stored, numbered, rfl⟩
  simp only [beq_iff_eq, Bool.and_eq_true, ← least]
  exact linked_to_type_iff drafted linked done member stands type

theorem isLeast_without_iff {types : Set Int} {first : Int} (least : IsLeast types first)
    (child : Int) : IsLeast (types \ {child}) first ↔ child ≠ first := by
  constructor
  · rintro ⟨⟨-, apart⟩, -⟩ rfl
    exact apart rfl
  · intro apart
    exact ⟨⟨least.1, fun same => apart same.symm⟩, fun other member => least.2 member.1⟩

theorem isLeast_without_of_ne {types : Set Int} {first other child : Int}
    (least : IsLeast types first) (apart : other ≠ first) (second : IsLeast (types \ {child}) other) :
    child = first := by
  by_contra different
  have before : other ≤ first := second.2 ⟨least.1, fun same => different same.symm⟩
  exact apart (le_antisymm before (least.2 second.1.1))

/-- Right after a linking pass, children by number and by name agree, and links can be seen from both
ends. -/
theorem children_by_number_and_by_name (operations : List Operation) {projectId : Int}
    {report : LinkReport} {after : Store}
    (done : (empty.replay operations).linkParents projectId = (report, after)) (symbol : String) :
    (∃ naming, after.childrenNaming projectId symbol = .ok naming ∧
      ∀ first, IsLeast (after.TypesNamed projectId symbol) first →
        after.childrenOf first = .ok (naming.filter (·.childId ≠ first)) ∧
        ∀ other ∈ after.TypesNamed projectId symbol, other ≠ first →
          (IsLeast (after.TypesNamed projectId symbol \ {first}) other →
            after.childrenOf other = .ok (naming.filter (·.childId = first))) ∧
          (¬ IsLeast (after.TypesNamed projectId symbol \ {first}) other →
            after.childrenOf other = .ok [])) ∧
    ∀ child parent heritage, (∃ entity, after.entity? child = .ok (some entity)) →
      ∃ below above, after.childrenOf parent = .ok below ∧ after.parentsOf child = .ok above ∧
        ((∃ link ∈ below, link.childId = child ∧ link.heritage = heritage) ↔
          ∃ link ∈ above, link.parentId = some parent ∧ link.heritage = heritage) := by
  have linked : (empty.replay operations).AllLinked :=
    replay_preserves Change.linked (fun edge member => by simp [empty] at member) operations
  have drafted : after.Drafted := (Change.linkParents done).drafted (replay_drafted operations)
  have known : after.HeritagesKnown :=
    (Change.linkParents done).heritagesKnown (replay_heritagesKnown operations)
  obtain ⟨naming, listed⟩ := known.childRows fun child row =>
    child.projectId == projectId && row.symbol == symbol
  refine ⟨⟨naming, listed, fun first least =>
    ⟨?_, fun other type apart => ⟨fun second => ?_, fun later => ?_⟩⟩⟩, ?_⟩
  · apply childrenOf_type drafted linked done listed least.1 (fun child => decide (child ≠ first))
    intro child
    rw [isLeast_without_iff least, decide_eq_true_iff]
  · apply childrenOf_type drafted linked done listed type (fun child => decide (child = first))
    intro child
    rw [decide_eq_true_iff]
    constructor
    · exact isLeast_without_of_ne least apart
    · rintro rfl
      exact second
  · rw [childrenOf_type drafted linked done listed type (fun _ => false), List.filter_false]
    intro child
    refine iff_of_false (fun second => ?_) Bool.false_ne_true
    rw [isLeast_without_of_ne least apart second] at second
    exact later second
  · rintro child parent heritage ⟨entity, found⟩
    obtain ⟨below, children⟩ := known.childRows fun _ row => row.parentId == some parent
    obtain ⟨above, parents⟩ := known.parentsOf child
    exact ⟨below, above, children, parents,
      listed_child_iff (holds_of_entity? found) children parents⟩

/-! Of three classes of a name the first one extends that name, and so does a class of another name. -/

def modelHistory : List Operation :=
  [.putEntities 1 1 [classDraft "Model" "a.py", classDraft "Model" "b.py", classDraft "Model" "c.py",
      classDraft "User" "a.py"],
    .addParents [⟨some 1, some "Model", some .extension⟩, ⟨some 4, some "Model", some .extension⟩]]

def modelStore : Store :=
  ((empty.replay modelHistory).linkParents 1).2

theorem model_children_listed :
    IsLeast (modelStore.TypesNamed 1 "Model") 1 ∧
      modelStore.childrenNaming 1 "Model" =
        .ok [⟨1, "Model", .extension⟩, ⟨4, "User", .extension⟩] ∧
      modelStore.childrenOf 1 = .ok [⟨4, "User", .extension⟩] ∧
      IsLeast (modelStore.TypesNamed 1 "Model" \ {1}) 2 ∧
      modelStore.childrenOf 2 = .ok [⟨1, "Model", .extension⟩] := by
  have above : ∀ id, modelStore.Holds id → id ∈ [1, 2, 3, 4] := by
    rintro id ⟨row, member, rfl⟩
    have numbers : modelStore.entities.rows.map (·.id) = [1, 2, 3, 4] := by cbv
    exact numbers ▸ List.mem_map_of_mem member
  have least : IsLeast (modelStore.TypesNamed 1 "Model") 1 := by
    refine ⟨⟨⟨classDraft "Model" "a.py", 1, 1⟩, by cbv, rfl, rfl, rfl⟩, ?_⟩
    rintro id ⟨entity, found, -⟩
    have listed := above id (holds_of_entity? found)
    simp only [List.mem_cons, List.not_mem_nil, or_false] at listed
    omega
  have second : IsLeast (modelStore.TypesNamed 1 "Model" \ {1}) 2 := by
    refine ⟨⟨⟨⟨classDraft "Model" "b.py", 2, 1⟩, by cbv, rfl, rfl, rfl⟩, by decide⟩, ?_⟩
    rintro id ⟨⟨entity, found, -⟩, apart⟩
    have listed := above id (holds_of_entity? found)
    simp only [List.mem_cons, List.not_mem_nil, or_false] at listed
    simp only [Set.mem_singleton_iff] at apart
    omega
  have named : modelStore.childrenNaming 1 "Model" =
      .ok [⟨1, "Model", .extension⟩, ⟨4, "User", .extension⟩] := by
    cbv
  have done : (empty.replay modelHistory).linkParents 1 = (⟨2, 0⟩, modelStore) := by
    rw [← show ((empty.replay modelHistory).linkParents 1).1 = ⟨2, 0⟩ by cbv]
    rfl
  obtain ⟨naming, listed, agrees⟩ := (children_by_number_and_by_name modelHistory done "Model").1
  obtain rfl := Except.ok.inj (listed.symm.trans named)
  obtain ⟨first, others⟩ := agrees 1 least
  exact ⟨least, named, first, second, (others 2 second.1.1 (by decide)).1 second⟩

end DeclGraph.Store
