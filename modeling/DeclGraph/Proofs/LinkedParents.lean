import Mathlib
import DeclGraph.Proofs.Identity

/-! Linked parents stay right. A parent is linked once, to the first declaration that fits; later ones
have higher numbers, identities do not change, and a purge that takes either end of a link takes the
link with it. -/
namespace DeclGraph.Store

variable {store after : Store} {projectId parent : Int} {edge : ParentRow}

/-- The declarations that the parent of a child can stand for: the types of that name in the child's
project, other than the child. -/
def Fitting (store : Store) (projectId : Int) (edge : ParentRow) : Set Int :=
  { id | ∃ key, store.Identifies id key ∧ key.projectId = projectId ∧ key.symbol = edge.symbol ∧
    (∃ kind ∈ EntityKind.types, key.kind = kind.name) ∧ id ≠ edge.childId }

def Linked (store : Store) (edge : ParentRow) (parent : Int) : Prop :=
  ∃ child, store.Identifies edge.childId child ∧
    IsLeast (store.Fitting child.projectId edge) parent

def AllLinked (store : Store) : Prop :=
  ∀ edge ∈ store.parents.rows, ∀ parent, edge.parentId = some parent → store.Linked edge parent

/-- A link survives if both of its ends do and nothing new fits below it. -/
theorem Linked.carry (linked : store.Linked edge parent)
    (ends : ∀ id, id = edge.childId ∨ id = parent →
      ∀ key, store.Identifies id key → after.Identifies id key)
    (later : ∀ id key, after.Identifies id key → store.Identifies id key ∨ parent ≤ id) :
    after.Linked edge parent := by
  obtain ⟨child, stored, ⟨key, fits, conditions⟩, least⟩ := linked
  refine ⟨child, ends _ (Or.inl rfl) child stored, ?_, ?_⟩
  · exact ⟨key, ends _ (Or.inr rfl) key fits, conditions⟩
  · rintro id ⟨key, fits, conditions⟩
    rcases later id key fits with old | above
    · exact least ⟨key, old, conditions⟩
    · exact above

/-- Only the tables of declarations and parents matter. -/
theorem AllLinked.frame (linked : store.AllLinked) (entities : after.entities = store.entities)
    (parents : after.parents = store.parents) : after.AllLinked := by
  simp only [AllLinked, Linked, Fitting, Identifies, entities, parents]
  exact linked

theorem isParentKind_iff {text : String} :
    isParentKind text = true ↔ ∃ kind ∈ EntityKind.types, text = kind.name := by
  simp [isParentKind, EntityKind.types, EntityKind.name, or_assoc]

theorem mem_fitting_iff {id : Int} : id ∈ store.Fitting projectId edge ↔
    ∃ row ∈ store.entities.rows, fits projectId edge row = true ∧ row.id = id := by
  simp only [fits, Bool.and_eq_true, beq_iff_eq, bne_iff_ne, isParentKind_iff, and_assoc]
  constructor
  · rintro ⟨-, ⟨row, member, rfl, rfl⟩, owned, named, typed, apart⟩
    exact ⟨row, member, owned, named, typed, apart, rfl⟩
  · rintro ⟨row, member, owned, named, typed, apart, rfl⟩
    exact ⟨row.key, ⟨row, member, rfl, rfl⟩, owned, named, typed, apart⟩

theorem candidate?_isLeast (found : store.candidate? projectId edge = some parent) :
    IsLeast (store.Fitting projectId edge) parent := by
  obtain ⟨member, least⟩ := List.min?_eq_some_iff.1 found
  simp only [List.mem_map, List.mem_filter, and_assoc, ← mem_fitting_iff] at member least
  exact ⟨member, least⟩

theorem candidate?_eq_none_iff :
    store.candidate? projectId edge = none ↔ store.Fitting projectId edge = ∅ := by
  rw [candidate?, List.min?_eq_none_iff, List.eq_nil_iff_forall_not_mem, Set.eq_empty_iff_forall_notMem]
  simp only [List.mem_map, List.mem_filter, and_assoc, mem_fitting_iff]

theorem putEntity_linked {generation id : Int} {draft : EntityDraft} (linked : store.AllLinked)
    (done : store.putEntity projectId generation draft = (id, after)) : after.AllLinked := by
  obtain ⟨-, -, parents⟩ := putEntity_frame done
  obtain ⟨own, origin, identifies⟩ := putEntity_identifies done
  intro edge member parent link
  rw [parents] at member
  have before := linked edge member parent link
  refine before.carry (fun id _ key old => (identifies id key).2 (Or.inl old)) ?_
  intro other key now
  rcases (identifies other key).1 now with old | ⟨rfl, rfl⟩
  · exact Or.inl old
  · rcases origin with old | rfl
    · exact Or.inl old
    · -- A new declaration may fit as well, but its number is above that of the link.
      obtain ⟨-, -, ⟨_, stored, -⟩, -⟩ := before
      exact Or.inr (Int.le_of_lt stored.lt_next)

theorem purgeStale_linked {generation : Int} {removed : Nat} (linked : store.AllLinked)
    (done : store.purgeStale projectId generation = (removed, after)) : after.AllLinked := by
  intro edge member parent link
  obtain ⟨present, kept⟩ := purgeStale_keeps done member
  refine (linked edge present parent link).carry ?_ fun id key now =>
    Or.inl (purgeStale_identifies done now)
  rintro id (rfl | rfl)
  · exact kept _ (Or.inl rfl)
  · exact kept _ (Or.inr link)

theorem addParent_linked {before report : InsertReport} {draft : ParentDraft}
    (linked : store.AllLinked) (done : store.addParent before draft = (report, after)) :
    after.AllLinked := by
  cases addParent_step done with
  | lacking => exact linked
  | known => exact linked
  | new =>
      intro edge member parent link
      rcases List.mem_append.1 member with old | new
      · exact linked edge old parent link
      · cases List.mem_singleton.1 new
        cases link

theorem linkParents_linked {report : LinkReport} (linked : store.AllLinked)
    (done : store.linkParents projectId = (report, after)) : after.AllLinked := by
  cases done
  intro edge member parent link
  obtain ⟨old, present, rfl⟩ := List.mem_map.1 member
  rw [link_eq] at link ⊢
  split at link
  next opened =>
    rw [if_pos opened]
    obtain ⟨child, stored, rfl⟩ := owns_iff.1 (Bool.and_eq_true_iff.1 opened).2
    have first : store.Linked old parent := ⟨child, stored, candidate?_isLeast link⟩
    exact first
  next closed =>
    rw [if_neg closed]
    exact linked old present parent link

/-- After a linking pass, a parent of the project is open only if nothing fits it. -/
theorem linkParents_open {report : LinkReport} {child : EntityKey}
    (done : store.linkParents projectId = (report, after)) (member : edge ∈ after.parents.rows)
    (stored : after.Identifies edge.childId child) (owned : child.projectId = projectId)
    (unlinked : edge.parentId = none) : after.Fitting projectId edge = ∅ := by
  cases done
  obtain ⟨old, present, rfl⟩ := List.mem_map.1 member
  have kept : (store.link projectId old).childId = old.childId := by
    unfold Store.link
    split <;> rfl
  have owns : store.owns projectId old.childId = true :=
    owns_iff.2 ⟨child, kept ▸ stored, owned⟩
  rw [link_eq] at unlinked ⊢
  split at unlinked
  next opened =>
    rw [if_pos opened]
    have nothing : store.Fitting projectId old = ∅ := candidate?_eq_none_iff.1 unlinked
    exact nothing
  next closed =>
    -- Not open and not linked would mean that the child is not one of the project.
    exact absurd (by simp [isOpen, unlinked, owns]) closed

theorem Change.linked (change : Change store after) (linked : store.AllLinked) :
    after.AllLinked := by
  cases change with
  | putProject done =>
      obtain ⟨entities, -, parents⟩ := putProject_frame done
      exact linked.frame entities parents
  | beginGeneration done =>
      obtain ⟨entities, -, parents⟩ := beginGeneration_frame done
      exact linked.frame entities parents
  | putEntity done => exact putEntity_linked linked done
  | purgeStale done => exact purgeStale_linked linked done
  | replaceCalls done =>
      obtain ⟨-, entities, parents⟩ := replaceCalls_frame done
      exact linked.frame entities parents
  | addParent done => exact addParent_linked linked done
  | dropParents done =>
      subst done
      exact fun edge member => linked edge (List.mem_filter.1 member).1
  | linkParents done => exact linkParents_linked linked done

/-- Over the whole life of a store, the child of a linked parent is stored, and the link leads to the
first type of that name in the child's project, other than the child. Right after a linking pass, what
is not linked has nothing to be linked to. -/
theorem linked_parents_are_first (operations : List Operation) :
    (∀ edge ∈ (empty.replay operations).parents.rows, ∀ parent, edge.parentId = some parent →
      ∃ child, (empty.replay operations).Identifies edge.childId child ∧
        IsLeast ((empty.replay operations).Fitting child.projectId edge) parent) ∧
    ∀ projectId, ∀ edge ∈ (empty.replay (operations ++ [.linkParents projectId])).parents.rows,
      ∀ child, (empty.replay (operations ++ [.linkParents projectId])).Identifies edge.childId child →
        child.projectId = projectId → edge.parentId = none →
          (empty.replay (operations ++ [.linkParents projectId])).Fitting projectId edge = ∅ := by
  have linked : (empty.replay operations).AllLinked :=
    replay_preserves Change.linked (fun edge member => by simp [empty] at member) operations
  refine ⟨linked, fun projectId edge member child stored owned unlinked => ?_⟩
  simp only [replay, List.foldl_append, List.foldl_cons, List.foldl_nil] at member stored ⊢
  exact linkParents_open rfl member stored owned unlinked

/-! A parent is named before its child is stored. Of two classes of that name the first is linked, and
it stays so when a third one comes. -/

def classDraft (symbol filename : String) : EntityDraft :=
  ⟨.python, symbol, .cls, filename, 1, 9, none⟩

def linkingHistory : List Operation :=
  [.addParents [⟨some 3, some "Base", some .extension⟩],
    .putEntities 1 1 [classDraft "Base" "a.py", classDraft "Base" "b.py", classDraft "Child" "a.py"],
    .linkParents 1, .putEntity 1 1 (classDraft "Base" "c.py")]

theorem linking_history_first :
    ∃ child, (empty.replay linkingHistory).Identifies 3 child ∧
      IsLeast ((empty.replay linkingHistory).Fitting child.projectId
        ⟨1, 3, some 1, "Base", "extends"⟩) 1 := by
  have rows : (empty.replay linkingHistory).parents.rows = [⟨1, 3, some 1, "Base", "extends"⟩] := by
    cbv
  have member : ⟨1, 3, some 1, "Base", "extends"⟩ ∈ (empty.replay linkingHistory).parents.rows := by
    rw [rows]
    exact List.mem_singleton_self _
  exact (linked_parents_are_first linkingHistory).1 _ member 1 rfl

end DeclGraph.Store
