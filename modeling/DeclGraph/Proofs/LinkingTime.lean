import Mathlib
import DeclGraph.Proofs.LinkedParents

/-! When parents are linked does not matter. Two stores live through the same operations, but only one
of them links on the way. They differ in nothing but links, and a pass at the end gives an open parent
the very declaration that the early pass gave it: no declaration was taken away in between, and those
that came have higher numbers. -/
namespace DeclGraph

namespace Operation

def isLinking : Operation → Bool
  | .linkParents _ => true
  | _ => false

def isGrowing : Operation → Bool
  | .purgeStale .. | .refresh .. => false
  | _ => true

end Operation

def ParentRow.unlinked (edge : ParentRow) : ParentRow :=
  { edge with parentId := none }

namespace Store

variable {early late : Store} {projects : Set Int} {projectId : Int} {edge a b : ParentRow}

/-- Parents that are the same, or differ in a link that a pass over one of the projects sets. -/
def AlikeEdges (store : Store) (projects : Set Int) (a b : ParentRow) : Prop :=
  a.unlinked = b.unlinked ∧ (a = b ∨ ∃ projectId ∈ projects, store.owns projectId a.childId = true)

theorem AlikeEdges.child_eq {store : Store} (alike : store.AlikeEdges projects a b) :
    a.childId = b.childId := by
  have same := congrArg ParentRow.childId alike.1
  exact same

theorem AlikeEdges.key_eq {store : Store} (alike : store.AlikeEdges projects a b) :
    a.key = b.key := by
  have same := congrArg ParentRow.key alike.1
  exact same

structure Alike (projects : Set Int) (early late : Store) : Prop where
  entities : early.entities = late.entities
  issued : early.parents.issued = late.parents.issued
  edges : List.Forall₂ (early.AlikeEdges projects) early.parents.rows late.parents.rows

theorem Alike.refl (store : Store) : Alike projects store store :=
  ⟨rfl, rfl, List.forall₂_same.2 fun _ _ => ⟨rfl, Or.inl rfl⟩⟩

/-- Operations on other tables do not tell the two apart. -/
theorem Alike.frame {early' late' : Store} (alike : Alike projects early late)
    (entities : early'.entities = early.entities ∧ late'.entities = late.entities)
    (parents : early'.parents = early.parents ∧ late'.parents = late.parents) :
    Alike projects early' late' := by
  refine ⟨?_, ?_, ?_⟩
  · rw [entities.1, entities.2, alike.entities]
  · rw [parents.1, parents.2, alike.issued]
  · rw [parents.1, parents.2]
    refine alike.edges.imp fun a b ⟨same, close⟩ => ⟨same, close.imp_right ?_⟩
    rintro ⟨projectId, member, owned⟩
    exact ⟨projectId, member, (congrFun (owns_congr entities.1) _).trans owned⟩

theorem putEntity_owns {generation id child : Int} {draft : EntityDraft} {after : Store}
    {owner : Int} (done : early.putEntity owner generation draft = (id, after))
    (owned : early.owns projectId child = true) : after.owns projectId child = true := by
  obtain ⟨key, stored, same⟩ := owns_iff.1 owned
  exact owns_iff.2 ⟨key, putEntity_identifies_mono done stored, same⟩

theorem putEntity_entities_congr (entities : early.entities = late.entities)
    (owner generation : Int) (draft : EntityDraft) :
    (early.putEntity owner generation draft).2.entities =
      (late.putEntity owner generation draft).2.entities := by
  simp only [putEntity, entities]
  split <;> rfl

theorem Alike.putEntity (alike : Alike projects early late) (owner generation : Int)
    (draft : EntityDraft) :
    Alike projects (early.putEntity owner generation draft).2
      (late.putEntity owner generation draft).2 := by
  have earlyParents : (early.putEntity owner generation draft).2.parents = early.parents :=
    (putEntity_frame (Prod.eta _).symm).2.2
  have lateParents : (late.putEntity owner generation draft).2.parents = late.parents :=
    (putEntity_frame (Prod.eta _).symm).2.2
  refine ⟨putEntity_entities_congr alike.entities owner generation draft, ?_, ?_⟩
  · rw [earlyParents, lateParents, alike.issued]
  · rw [earlyParents, lateParents]
    refine alike.edges.imp fun a b ⟨same, close⟩ => ⟨same, close.imp_right ?_⟩
    rintro ⟨projectId, member, owned⟩
    exact ⟨projectId, member, putEntity_owns rfl owned⟩

theorem Alike.putEntities (alike : Alike projects early late) (owner generation : Int)
    (drafts : List EntityDraft) :
    Alike projects (early.putEntities owner generation drafts).2
      (late.putEntities owner generation drafts).2 := by
  induction drafts generalizing early late with
  | nil => exact alike
  | cons draft rest ih => exact ih (alike.putEntity owner generation draft)

theorem Alike.any_key (alike : Alike projects early late) (key : Int × String × String) :
    early.parents.rows.any (·.key == key) = late.parents.rows.any (·.key == key) := by
  have edges := alike.edges
  generalize early.parents.rows = rows at edges ⊢
  generalize late.parents.rows = others at edges ⊢
  induction edges with
  | nil => rfl
  | cons pair _ ih => rw [List.any_cons, List.any_cons, ih, pair.key_eq]

theorem Alike.addParent (alike : Alike projects early late) (before before' : InsertReport)
    (draft : ParentDraft) :
    Alike projects (early.addParent before draft).2 (late.addParent before' draft).2 := by
  unfold Store.addParent
  split
  next => exact alike
  next childId symbol heritage complete =>
    -- Whether a draft is stored already is a matter of keys, and those have no link.
    rw [alike.any_key]
    split
    next => exact ⟨alike.entities, congrArg (· + 1) alike.issued, alike.edges⟩
    next =>
      refine ⟨alike.entities, congrArg (· + 1) alike.issued, ?_⟩
      refine List.rel_append alike.edges (.cons ⟨?_, Or.inl ?_⟩ .nil)
      · simp only [Table.next, alike.issued]
      · simp only [Table.next, alike.issued]

theorem Alike.foldl_addParent (alike : Alike projects early late) (before before' : InsertReport)
    (drafts : List ParentDraft) :
    Alike projects (drafts.foldl (fun state draft => state.2.addParent state.1 draft) (before, early)).2
      (drafts.foldl (fun state draft => state.2.addParent state.1 draft) (before', late)).2 := by
  induction drafts generalizing early late before before' with
  | nil => exact alike
  | cons draft rest ih => exact ih (alike.addParent before before' draft) _ _

theorem Alike.replaceParents (alike : Alike projects early late) (projectId : Int)
    (drafts : List ParentDraft) :
    Alike projects (early.replaceParents projectId drafts).2
      (late.replaceParents projectId drafts).2 := by
  have dropped : Alike projects
      { early with parents := early.parents.filter (!early.owns projectId ·.childId) }
      { late with parents := late.parents.filter (!late.owns projectId ·.childId) } := by
    refine ⟨alike.entities, alike.issued, ?_⟩
    refine List.rel_filter (fun a b pair => ?_) alike.edges
    simp only [pair.child_eq, owns_congr alike.entities]
  exact dropped.foldl_addParent {} {} drafts

theorem link_unlinked (store : Store) (projectId : Int) (edge : ParentRow) :
    (store.link projectId edge).unlinked = edge.unlinked := by
  unfold Store.link
  split <;> rfl

theorem Alike.linkEarly (alike : Alike projects early late) (member : projectId ∈ projects) :
    Alike projects (early.linkParents projectId).2 late := by
  refine ⟨alike.entities, alike.issued, List.forall₂_map_left_iff.2 (alike.edges.imp ?_)⟩
  rintro a b ⟨same, close⟩
  refine ⟨(link_unlinked early projectId a).trans same, ?_⟩
  rw [link_eq]
  -- Only an open edge is linked, and it belongs to a project that the late store has yet to link.
  split
  next opened => exact Or.inr ⟨projectId, member, (Bool.and_eq_true_iff.1 opened).2⟩
  next => exact close

/-- Where all links are right, a pass leaves the parents of a project with the first declaration that
fits, whether it finds them open or not. -/
theorem AllLinked.link_owned {store : Store} (linked : store.AllLinked)
    (member : edge ∈ store.parents.rows) (owned : store.owns projectId edge.childId = true) :
    store.link projectId edge = { edge with parentId := store.candidate? projectId edge } := by
  rw [link_eq]
  split
  next => rfl
  next closed =>
    cases link : edge.parentId with
    | none => exact absurd (by simp [isOpen, link, owned]) closed
    | some parent =>
        obtain ⟨child, stored, least⟩ := linked edge member parent link
        obtain ⟨key, stored', rfl⟩ := owns_iff.1 owned
        obtain rfl := stored.unique stored'
        have found : store.candidate? child.projectId edge = some parent := by
          cases candidate : store.candidate? child.projectId edge with
          | none =>
              rw [candidate?_eq_none_iff.1 candidate] at least
              exact absurd least.1 (Set.notMem_empty parent)
          | some first => rw [(candidate?_isLeast candidate).unique least]
        rw [found, ← link]

theorem Alike.linkBoth (alike : Alike projects early late) (earlyLinked : early.AllLinked)
    (lateLinked : late.AllLinked) (projectId : Int) :
    Alike (projects \ {projectId}) (early.linkParents projectId).2 (late.linkParents projectId).2 := by
  refine ⟨alike.entities, alike.issued, ?_⟩
  obtain ⟨length, pairs⟩ := List.forall₂_iff_zip.1 alike.edges
  refine List.forall₂_map_left_iff.2 (List.forall₂_map_right_iff.2 (List.forall₂_iff_zip.2 ⟨length, ?_⟩))
  intro a b pair
  obtain ⟨earlyMember, lateMember⟩ := List.of_mem_zip pair
  have children := (pairs pair).child_eq
  obtain ⟨same, close⟩ := pairs pair
  refine ⟨by rw [link_unlinked, link_unlinked, same], ?_⟩
  -- After a pass of both stores, they cannot differ in edges of that project any more.
  by_cases owned : early.owns projectId a.childId = true
  · left
    have lateOwned : late.owns projectId b.childId = true := by
      rw [← children, ← owns_congr alike.entities, owned]
    rw [earlyLinked.link_owned earlyMember owned, lateLinked.link_owned lateMember lateOwned]
    -- What a pass looks for depends on the child and the symbol, which the two share.
    have candidates : early.candidate? projectId a.unlinked = late.candidate? projectId b.unlinked := by
      rw [same]
      simp only [candidate?, alike.entities]
    calc { a with parentId := early.candidate? projectId a }
        = { a.unlinked with parentId := early.candidate? projectId a.unlinked } := rfl
      _ = { b.unlinked with parentId := late.candidate? projectId b.unlinked } := by
          rw [candidates, same]
      _ = { b with parentId := late.candidate? projectId b } := rfl
  · have lateForeign : ¬ late.owns projectId b.childId = true := by
      rwa [← children, ← owns_congr alike.entities]
    rw [link_not_owned owned, link_not_owned lateForeign]
    refine close.imp_right ?_
    rintro ⟨owner, member, owns⟩
    refine ⟨owner, ⟨member, ?_⟩, owns⟩
    rintro rfl
    exact owned owns

theorem Alike.apply {step : Operation} (alike : Alike projects early late)
    (growing : step.isGrowing = true) (other : step.isLinking = false) :
    Alike projects (early.apply step) (late.apply step) := by
  cases step with
  | putProject name rootPath =>
      obtain ⟨earlyEntities, -, earlyParents⟩ := putProject_frame (Eq.refl (early.putProject name rootPath))
      obtain ⟨lateEntities, -, lateParents⟩ := putProject_frame (Eq.refl (late.putProject name rootPath))
      exact alike.frame ⟨earlyEntities, lateEntities⟩ ⟨earlyParents, lateParents⟩
  | beginGeneration projectId =>
      have untouched : ∀ store : Store,
          (store.apply (.beginGeneration projectId)).entities = store.entities ∧
          (store.apply (.beginGeneration projectId)).parents = store.parents := by
        intro store
        simp only [Store.apply]
        split
        next done =>
          obtain ⟨entities, -, parents⟩ := beginGeneration_frame done
          exact ⟨entities, parents⟩
        next => exact ⟨rfl, rfl⟩
      exact alike.frame ⟨(untouched early).1, (untouched late).1⟩
        ⟨(untouched early).2, (untouched late).2⟩
  | putEntity owner generation draft => exact alike.putEntity owner generation draft
  | putEntities owner generation drafts => exact alike.putEntities owner generation drafts
  | purgeStale owner generation => cases growing
  | replaceCalls owner drafts => exact alike.frame ⟨rfl, rfl⟩ ⟨rfl, rfl⟩
  | addParents drafts => exact alike.foldl_addParent {} {} drafts
  | replaceParents owner drafts => exact alike.replaceParents owner drafts
  | linkParents owner => cases other
  | refresh name rootPath scanned files => cases growing

theorem replay_append (store : Store) (first second : List Operation) :
    store.replay (first ++ second) = (store.replay first).replay second :=
  List.foldl_append

theorem AllLinked.replay {store : Store} (linked : store.AllLinked) (operations : List Operation) :
    (store.replay operations).AllLinked :=
  replay_preserves Change.linked linked operations

/-- Passes on the way may be left out, as far as the two stores stay alike. -/
theorem Alike.replay {steps : List Operation} (alike : Alike projects early late)
    (growing : ∀ step ∈ steps, step.isGrowing = true)
    (linked : ∀ projectId, .linkParents projectId ∈ steps → projectId ∈ projects) :
    Alike projects (early.replay steps) (late.replay (steps.filter (!·.isLinking))) := by
  induction steps generalizing early late with
  | nil => exact alike
  | cons step rest ih =>
      have growingRest := fun other member => growing other (List.mem_cons_of_mem step member)
      have linkedRest := fun projectId member => linked projectId (List.mem_cons_of_mem step member)
      cases kind : step.isLinking with
      | true =>
          obtain ⟨projectId, rfl⟩ : ∃ projectId, step = .linkParents projectId := by
            cases step <;> first | exact ⟨_, rfl⟩ | cases kind
          rw [List.filter_cons_of_neg (by simp [kind])]
          exact ih (alike.linkEarly (linked projectId List.mem_cons_self)) growingRest linkedRest
      | false =>
          rw [List.filter_cons_of_pos (by simp [kind])]
          exact ih (alike.apply (growing step List.mem_cons_self) kind) growingRest linkedRest

theorem Alike.linkAll (alike : Alike projects early late) (earlyLinked : early.AllLinked)
    (lateLinked : late.AllLinked) (ending : List Int) :
    Alike (projects \ {projectId | projectId ∈ ending}) (early.replay (ending.map .linkParents))
      (late.replay (ending.map .linkParents)) := by
  induction ending generalizing early late projects with
  | nil =>
      rw [show {projectId | projectId ∈ ([] : List Int)} = ∅ by simp, Set.sdiff_empty]
      exact alike
  | cons projectId rest ih =>
      have next := ih (alike.linkBoth earlyLinked lateLinked projectId)
        (linkParents_linked earlyLinked rfl) (linkParents_linked lateLinked rfl)
      rw [Set.sdiff_sdiff] at next
      rw [show {owner | owner ∈ projectId :: rest} = {projectId} ∪ {owner | owner ∈ rest} by ext; simp]
      exact next

/-- Alike stores are equal in their parents if nothing is stored for the projects in question. -/
theorem Alike.parents_eq (alike : Alike projects early late)
    (vacant : ∀ projectId ∈ projects, ∀ row ∈ early.entities.rows, row.projectId ≠ projectId) :
    early.parents = late.parents := by
  refine Table.eq_of_rows (List.forall₂_eq_eq_eq ▸ alike.edges.imp ?_) alike.issued
  rintro a b ⟨-, rfl | ⟨projectId, member, owned⟩⟩
  · rfl
  · obtain ⟨-, ⟨row, stored, -, rfl⟩, same⟩ := owns_iff.1 owned
    exact absurd same (vacant projectId member row stored)

theorem linkAll_entities (store : Store) (ending : List Int) :
    (store.replay (ending.map .linkParents)).entities = store.entities := by
  induction ending generalizing store with
  | nil => rfl
  | cons projectId rest ih => exact ih _

/-- Linking at the end is enough. A store in any state goes through steps that take no declaration
away, and then links every project with declarations that was linked in between: without the passes in
between, it ends with the same declarations and the same parents, under the same numbers and with the
same links. -/
theorem linking_early_changes_nothing (history steps : List Operation) (ending : List Int)
    (growing : ∀ step ∈ steps, step.isGrowing = true)
    (every : ∀ projectId, .linkParents projectId ∈ steps →
      (∃ row ∈ (empty.replay (history ++ steps)).entities.rows, row.projectId = projectId) →
        projectId ∈ ending) :
    (empty.replay (history ++ steps ++ ending.map .linkParents)).entities =
      (empty.replay (history ++ steps.filter (!·.isLinking) ++ ending.map .linkParents)).entities ∧
    (empty.replay (history ++ steps ++ ending.map .linkParents)).parents =
      (empty.replay (history ++ steps.filter (!·.isLinking) ++ ending.map .linkParents)).parents := by
  have linked : (empty.replay history).AllLinked :=
    AllLinked.replay (fun edge member => by simp [empty] at member) history
  simp only [replay_append] at every ⊢
  generalize empty.replay history = start at linked every ⊢
  have between : Alike {projectId | .linkParents projectId ∈ steps} (start.replay steps)
      (start.replay (steps.filter (!·.isLinking))) :=
    (Alike.refl start).replay growing fun _ member => member
  have final := between.linkAll (linked.replay steps) (linked.replay _) ending
  refine ⟨final.entities, final.parents_eq ?_⟩
  rintro projectId ⟨linking, missing⟩ row stored rfl
  rw [linkAll_entities] at stored
  exact missing (every row.projectId linking ⟨row, stored, rfl⟩)

/-! A second parent is named, which the first pass cannot link yet; the next one links it, before
another class of that name comes. -/

def earlyPasses : List Operation :=
  [.addParents [⟨some 3, some "Late", some .mixin⟩], .linkParents 1,
    .putEntity 1 1 (classDraft "Late" "d.py"), .linkParents 1,
    .putEntity 1 1 (classDraft "Late" "e.py")]

theorem early_passes_left_out :
    (empty.replay (linkingHistory ++ earlyPasses.filter (!·.isLinking) ++
      [1].map .linkParents)).parents.rows =
      [⟨1, 3, some 1, "Base", "extends"⟩, ⟨2, 3, some 5, "Late", "mixin"⟩] := by
  have growing : ∀ step ∈ earlyPasses, step.isGrowing = true := by
    simp [earlyPasses, Operation.isGrowing]
  have every : ∀ projectId, .linkParents projectId ∈ earlyPasses → projectId = 1 := by
    simp [earlyPasses]
  have same := (linking_early_changes_nothing linkingHistory earlyPasses [1] growing
    fun projectId linking _ => List.mem_singleton.2 (every projectId linking)).2
  rw [← same]
  cbv

end Store

end DeclGraph
