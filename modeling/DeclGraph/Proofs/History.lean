import Mathlib
import DeclGraph.Refresh
import DeclGraph.Proofs.Reading

/-! The lives of stores. A client changes a store through ten operations; each is made of a few small
changes, a refresh of many of them. What every change preserves holds throughout the life of a store
that began empty. -/
namespace DeclGraph

inductive Operation where
  | putProject (name rootPath : String)
  | beginGeneration (projectId : Int)
  | putEntity (projectId generation : Int) (draft : EntityDraft)
  | putEntities (projectId generation : Int) (drafts : List EntityDraft)
  | purgeStale (projectId generation : Int)
  | replaceCalls (projectId : Int) (drafts : List CallDraft)
  | addParents (drafts : List ParentDraft)
  | replaceParents (projectId : Int) (drafts : List ParentDraft)
  | linkParents (projectId : Int)
  | refresh (name rootPath : String) (scanned : Nat) (files : List Extract.FileFacts)

namespace Store

/-- The store after an operation. One that fails changes nothing. -/
def apply (store : Store) : Operation → Store
  | .putProject name rootPath => (store.putProject name rootPath).2
  | .beginGeneration projectId =>
    match store.beginGeneration projectId with
    | .ok (_, after) => after
    | .error _ => store
  | .putEntity projectId generation draft => (store.putEntity projectId generation draft).2
  | .putEntities projectId generation drafts => (store.putEntities projectId generation drafts).2
  | .purgeStale projectId generation => (store.purgeStale projectId generation).2
  | .replaceCalls projectId drafts => (store.replaceCalls projectId drafts).2
  | .addParents drafts => (store.addParents drafts).2
  | .replaceParents projectId drafts => (store.replaceParents projectId drafts).2
  | .linkParents projectId => (store.linkParents projectId).2
  | .refresh name rootPath scanned files =>
    match store.refresh name rootPath scanned files with
    | .ok (_, after) => after
    | .error _ => store

def replay (store : Store) (operations : List Operation) : Store :=
  operations.foldl apply store

inductive Change (store after : Store) : Prop
  | putProject {name rootPath : String} {project : Project}
      (done : store.putProject name rootPath = (project, after))
  | beginGeneration {projectId generation : Int}
      (done : store.beginGeneration projectId = .ok (generation, after))
  | putEntity {projectId generation id : Int} {draft : EntityDraft}
      (done : store.putEntity projectId generation draft = (id, after))
  | purgeStale {projectId generation : Int} {removed : Nat}
      (done : store.purgeStale projectId generation = (removed, after))
  | replaceCalls {projectId : Int} {drafts : List CallDraft} {count : Nat}
      (done : store.replaceCalls projectId drafts = (count, after))
  | addParent {before report : InsertReport} {draft : ParentDraft}
      (done : store.addParent before draft = (report, after))
  | dropParents {projectId : Int}
      (done : after =
        { store with parents := store.parents.filter (!store.owns projectId ·.childId) })
  | linkParents {projectId : Int} {report : LinkReport}
      (done : store.linkParents projectId = (report, after))

abbrev Changes : Store → Store → Prop :=
  Relation.ReflTransGen Change

variable {store after : Store}

theorem putEntities_changes {projectId generation : Int} {drafts : List EntityDraft} {ids : List Int}
    (done : store.putEntities projectId generation drafts = (ids, after)) : Changes store after := by
  induction drafts generalizing store ids with
  | nil =>
      cases done
      exact .refl
  | cons draft rest ih =>
      cases done
      exact .head (.putEntity rfl) (ih rfl)

theorem addParents_changes (drafts : List ParentDraft) : Changes store (store.addParents drafts).2 :=
  List.foldlRecOn (motive := fun state : InsertReport × Store => Changes store state.2) drafts _ .refl
    fun _ changes _ _ => changes.tail (.addParent rfl)

theorem replaceParents_changes {projectId : Int} {drafts : List ParentDraft} {report : InsertReport}
    (done : store.replaceParents projectId drafts = (report, after)) : Changes store after := by
  obtain rfl : (store.replaceParents projectId drafts).2 = after := congrArg Prod.snd done
  exact .head (.dropParents rfl) (addParents_changes drafts)

theorem refresh_changes {name rootPath : String} {scanned : Nat} {files : List Extract.FileFacts}
    {report : RefreshReport}
    (success : store.refresh name rootPath scanned files = .ok (report, after)) :
    Changes store after := by
  unfold refresh at success
  rcases created : store.putProject name rootPath with ⟨project, moved⟩
  simp only [created] at success
  obtain ⟨⟨generation, begun⟩, begins, success⟩ := bind_eq_ok.1 success
  simp only [Except.ok.injEq, Prod.mk.injEq] at success
  obtain ⟨-, rfl⟩ := success
  refine .tail (.trans ?_ (replaceParents_changes rfl)) (.linkParents rfl)
  refine .tail (.tail (.trans ?_ (putEntities_changes rfl)) (.purgeStale rfl)) (.replaceCalls rfl)
  exact .tail (.single (.putProject created)) (.beginGeneration begins)

theorem apply_changes (store : Store) (operation : Operation) :
    Changes store (store.apply operation) := by
  cases operation with
  | putProject name rootPath => exact .single (.putProject rfl)
  | beginGeneration projectId =>
      simp only [apply]
      split
      next success => exact .single (.beginGeneration success)
      next => exact .refl
  | putEntity projectId generation draft => exact .single (.putEntity rfl)
  | putEntities projectId generation drafts => exact putEntities_changes rfl
  | purgeStale projectId generation => exact .single (.purgeStale rfl)
  | replaceCalls projectId drafts => exact .single (.replaceCalls rfl)
  | addParents drafts => exact addParents_changes drafts
  | replaceParents projectId drafts => exact replaceParents_changes rfl
  | linkParents projectId => exact .single (.linkParents rfl)
  | refresh name rootPath scanned files =>
      simp only [apply]
      split
      next success => exact refresh_changes success
      next => exact .refl

theorem replay_changes (store : Store) (operations : List Operation) :
    Changes store (store.replay operations) :=
  List.foldlRecOn (motive := Changes store) operations _ .refl
    fun between changes operation _ => changes.trans (apply_changes between operation)

/-- What every change preserves, every life of a store preserves. -/
theorem replay_preserves {P : Store → Prop}
    (preserved : ∀ {before after}, Change before after → P before → P after) (held : P store)
    (operations : List Operation) : P (store.replay operations) := by
  have changes := replay_changes store operations
  generalize store.replay operations = last at changes ⊢
  induction changes with
  | refl => exact held
  | tail _ change ih => exact preserved change ih

end Store

end DeclGraph
