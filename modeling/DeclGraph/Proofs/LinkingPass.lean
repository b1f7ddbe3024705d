import Mathlib
import DeclGraph.Proofs.LinkingTime
import DeclGraph.Proofs.RefreshBalance

/-! What one linking pass does. It is told row by row: a parent that waits for a declaration gets the
first one that fits, and every other row stays as it is. A row that a pass has seen gives the next pass
nothing to do, and passes of two projects see different rows, so it does not matter which comes first. -/
namespace DeclGraph.Store

variable {store after : Store} {projectId other : Int} {edge next : ParentRow}
  {report : LinkReport}

def Pending (store : Store) (projectId : Int) (edge : ParentRow) : Prop :=
  edge.parentId = none ∧ ∃ child, store.Identifies edge.childId child ∧ child.projectId = projectId

theorem isOpen_iff : store.isOpen projectId edge = true ↔ store.Pending projectId edge := by
  rw [isOpen, Bool.and_eq_true, Option.isNone_iff_eq_none, owns_iff, Pending]

instance decidablePending (store : Store) (projectId : Int) :
    DecidablePred (store.Pending projectId) :=
  fun _ => decidable_of_iff _ isOpen_iff

theorem pending_congr (entities : after.entities = store.entities) :
    after.Pending projectId edge ↔ store.Pending projectId edge := by
  simp only [Pending, Identifies, entities]

inductive LinkStep (store : Store) (projectId : Int) : ParentRow → ParentRow → Prop
  | linked {edge : ParentRow} {parent : Int} (pending : store.Pending projectId edge)
      (first : IsLeast (store.Fitting projectId edge) parent) :
      LinkStep store projectId edge { edge with parentId := some parent }
  | kept {edge : ParentRow}
      (settled : ¬ (store.Pending projectId edge ∧ (store.Fitting projectId edge).Nonempty)) :
      LinkStep store projectId edge edge

theorem link_step (store : Store) (projectId : Int) (edge : ParentRow) :
    store.LinkStep projectId edge (store.link projectId edge) := by
  rw [link_eq]
  split
  next opened =>
    have pending := isOpen_iff.1 opened
    cases found : store.candidate? projectId edge with
    | none =>
        -- Writing that there is no declaration changes nothing in a row that has none.
        have same : { edge with parentId := none } = edge := by rw [← pending.1]
        rw [same]
        exact .kept fun both => both.2.ne_empty (candidate?_eq_none_iff.1 found)
    | some parent => exact .linked pending (candidate?_isLeast found)
  next closed => exact .kept fun both => closed (isOpen_iff.2 both.1)

namespace LinkStep

theorem ne_iff (step : store.LinkStep projectId edge next) :
    edge ≠ next ↔ store.Pending projectId edge ∧ (store.Fitting projectId edge).Nonempty := by
  cases step with
  | @linked parent pending first =>
      refine iff_of_true (fun same => ?_) ⟨pending, parent, first.1⟩
      have link : edge.parentId = some parent := congrArg ParentRow.parentId same
      cases pending.1.symm.trans link
  | kept settled => exact iff_of_false (fun differs => differs rfl) settled

theorem settled (step : store.LinkStep projectId edge next) :
    ¬ (store.Pending projectId next ∧ (store.Fitting projectId next).Nonempty) := by
  cases step with
  | linked => exact fun both => Option.some_ne_none _ both.1.1
  | kept settled => exact settled

/-- A pass of one project does not touch the rows that another one waits for. -/
theorem pending_iff (step : store.LinkStep projectId edge next) (apart : other ≠ projectId) :
    store.Pending other next ↔ store.Pending other edge := by
  cases step with
  | linked pending first =>
      refine iff_of_false (fun late => Option.some_ne_none _ late.1) fun early => apart ?_
      exact owner_unique (owns_iff.2 early.2) (owns_iff.2 pending.2)
  | kept => exact Iff.rfl

end LinkStep

theorem link_link (store : Store) (projectId : Int) (edge : ParentRow) :
    store.link projectId (store.link projectId edge) = store.link projectId edge := by
  have settled := (store.link_step projectId edge).settled
  have again := store.link_step projectId (store.link projectId edge)
  exact (of_not_not fun differs => settled (again.ne_iff.1 differs)).symm

theorem link_comm (apart : other ≠ projectId) (store : Store) (edge : ParentRow) :
    store.link other (store.link projectId edge) = store.link projectId (store.link other edge) := by
  by_cases owned : store.owns projectId edge.childId = true
  · have foreign : ¬ store.owns other edge.childId = true :=
      fun owned' => apart (owner_unique owned' owned)
    have foreign' : ¬ store.owns other (store.link projectId edge).childId = true := by
      rwa [link_childId]
    rw [link_not_owned foreign, link_not_owned foreign']
  · have foreign : ¬ store.owns projectId (store.link other edge).childId = true := by
      rwa [link_childId]
    rw [link_not_owned owned, link_not_owned foreign]

structure LinkPass (store : Store) (projectId : Int) (report : LinkReport) (after : Store) :
    Prop where
  projects : after.projects = store.projects
  entities : after.entities = store.entities
  calls : after.calls = store.calls
  issued : after.parents.issued = store.parents.issued
  rows : List.Forall₂ (store.LinkStep projectId) store.parents.rows after.parents.rows
  resolved : report.resolved =
    (store.parents.rows.zip after.parents.rows).countP fun pair => pair.1 ≠ pair.2
  unresolved : report.unresolved = after.parents.rows.countP (after.Pending projectId ·)
  total : report.resolved + report.unresolved =
    store.parents.rows.countP (store.Pending projectId ·)

theorem linkParents_rows (store : Store) (projectId : Int) :
    (store.linkParents projectId).2.parents.rows =
      store.parents.rows.map (store.link projectId) :=
  rfl

theorem filter_isOpen_length (store : Store) (projectId : Int) (edges : List ParentRow) :
    (edges.filter (store.isOpen projectId)).length = edges.countP (store.Pending projectId ·) := by
  rw [← List.countP_eq_length_filter]
  exact List.countP_congr fun edge _ => isOpen_iff.trans decide_eq_true_iff.symm

/-- What is linked is what changes. -/
theorem linkParents_resolved (store : Store) (projectId : Int) :
    (store.linkParents projectId).1.resolved =
      (store.parents.rows.zip (store.parents.rows.map (store.link projectId))).countP
        fun pair => pair.1 ≠ pair.2 := by
  have pairs : store.parents.rows.zip (store.parents.rows.map (store.link projectId)) =
      store.parents.rows.map fun edge => (edge, store.link projectId edge) := by
    rw [← List.zip_map', List.map_id']
  rw [pairs, List.countP_map, List.countP_eq_length_filter]
  refine congrArg List.length (List.filter_congr fun edge _ => ?_)
  rw [isLinkable_eq, Bool.eq_iff_iff, Bool.and_eq_true, isOpen_iff, Option.isSome_iff_ne_none,
    Ne, candidate?_eq_none_iff, ← Ne, ← Set.nonempty_iff_ne_empty]
  exact (store.link_step projectId edge).ne_iff.symm.trans decide_eq_true_iff.symm

theorem linkParents_pass (store : Store) (projectId : Int) :
    store.LinkPass projectId (store.linkParents projectId).1 (store.linkParents projectId).2 where
  projects := rfl
  entities := rfl
  calls := rfl
  issued := rfl
  rows := by
    rw [linkParents_rows, List.forall₂_map_right_iff]
    exact List.forall₂_same.2 fun edge _ => store.link_step projectId edge
  resolved := store.linkParents_resolved projectId
  unresolved := filter_isOpen_length _ projectId _
  total := (linkParents_counts rfl).trans (store.filter_isOpen_length projectId _)

theorem linkParents_again (store : Store) (projectId : Int) :
    ((store.linkParents projectId).2.linkParents projectId).2 = (store.linkParents projectId).2 := by
  have rows : ((store.linkParents projectId).2.linkParents projectId).2.parents.rows =
      (store.linkParents projectId).2.parents.rows := by
    rw [linkParents_rows, link_congr (linkParents_pass store projectId).entities, linkParents_rows,
      List.map_map]
    exact List.map_congr_left fun edge _ => store.link_link projectId edge
  exact congrArg (fun parents => { store with parents }) (Table.eq_of_rows rows rfl)

theorem linkParents_comm (apart : other ≠ projectId) (store : Store) :
    ((store.linkParents projectId).2.linkParents other).2 =
      ((store.linkParents other).2.linkParents projectId).2 := by
  have rows : ((store.linkParents projectId).2.linkParents other).2.parents.rows =
      ((store.linkParents other).2.linkParents projectId).2.parents.rows := by
    rw [linkParents_rows, linkParents_rows, linkParents_rows, linkParents_rows,
      link_congr (linkParents_pass store projectId).entities,
      link_congr (linkParents_pass store other).entities, List.map_map, List.map_map]
    exact List.map_congr_left fun edge _ => store.link_comm apart edge
  exact congrArg (fun parents => { store with parents }) (Table.eq_of_rows rows rfl)

namespace LinkPass

/-- A pass that changes nothing links nothing. -/
theorem resolved_eq_zero (pass : store.LinkPass projectId report store) : report.resolved = 0 := by
  have total := pass.total
  rw [← pass.unresolved] at total
  omega

theorem countP_pending (pass : store.LinkPass projectId report after) (apart : other ≠ projectId) :
    after.parents.rows.countP (after.Pending other ·) =
      store.parents.rows.countP (store.Pending other ·) := by
  rw [List.countP_eq_length_filter, List.countP_eq_length_filter]
  refine (List.rel_filter (fun before behind step => ?_) pass.rows).length_eq.symm
  simp only [decide_eq_true_iff, pending_congr pass.entities]
  exact (step.pending_iff apart).symm

/-- A report tells what waits before the pass and behind it, and nothing else. -/
theorem report_eq {store' after' : Store} {report' : LinkReport}
    (pass : store.LinkPass projectId report after)
    (pass' : store'.LinkPass projectId report' after')
    (before : store.parents.rows.countP (store.Pending projectId ·) =
      store'.parents.rows.countP (store'.Pending projectId ·))
    (behind : after.parents.rows.countP (after.Pending projectId ·) =
      after'.parents.rows.countP (after'.Pending projectId ·)) : report = report' := by
  have unresolved : report.unresolved = report'.unresolved := by
    rw [pass.unresolved, pass'.unresolved, behind]
  have total : report.resolved + report.unresolved = report'.resolved + report'.unresolved := by
    rw [pass.total, pass'.total, before]
  have resolved : report.resolved = report'.resolved := by omega
  cases report
  cases report'
  cases resolved
  cases unresolved
  rfl

end LinkPass

theorem linkParents_report_other (apart : other ≠ projectId) (store : Store) :
    ((store.linkParents projectId).2.linkParents other).1 = (store.linkParents other).1 := by
  have pass := store.linkParents_pass projectId
  have late := (store.linkParents other).2.linkParents_pass projectId
  refine (linkParents_pass _ other).report_eq (store.linkParents_pass other)
    (pass.countP_pending apart) ?_
  rw [linkParents_comm apart]
  exact late.countP_pending apart

/-- A linking pass gives each waiting parent of a project the first declaration that fits it, and does
nothing else; it counts what it changed and what still waits. A second pass changes nothing, and passes
of two projects can change places. -/
theorem linking_pass_links_first_fitting (store : Store) (projectId : Int) (report : LinkReport)
    (after : Store) (done : store.linkParents projectId = (report, after)) :
    store.LinkPass projectId report after ∧
    after.linkParents projectId = (⟨0, report.unresolved⟩, after) ∧
    ∀ other otherReport otherAfter, other ≠ projectId →
      store.linkParents other = (otherReport, otherAfter) →
      ∃ both, after.linkParents other = (otherReport, both) ∧
        otherAfter.linkParents projectId = (report, both) := by
  obtain ⟨rfl, rfl⟩ := Prod.ext_iff.1 done
  refine ⟨store.linkParents_pass projectId, ?_, fun other _ _ apart done' => ?_⟩
  · have again := store.linkParents_again projectId
    have pass := linkParents_pass (store.linkParents projectId).2 projectId
    rw [again] at pass
    refine Prod.ext ?_ again
    have unresolved := pass.unresolved.trans (store.linkParents_pass projectId).unresolved.symm
    rw [← unresolved, ← pass.resolved_eq_zero]
  · obtain ⟨rfl, rfl⟩ := Prod.ext_iff.1 done'
    refine ⟨((store.linkParents projectId).2.linkParents other).2, ?_, ?_⟩
    · exact Prod.ext (store.linkParents_report_other apart) rfl
    · exact Prod.ext (store.linkParents_report_other apart.symm) (store.linkParents_comm apart).symm

/-- Two classes of a name, one of which has a parent of that name itself; a class that is its own only
namesake; a child that is not stored; a child in another project; and a parent that is linked to what
is not there. -/
def tangledStore : Store :=
  let store := (empty.putEntities 1 1 [classDraft "Base" "a.py", classDraft "Base" "b.py",
    classDraft "Child" "a.py", classDraft "Own" "a.py"]).2
  let store := (store.putEntities 2 1 [classDraft "Base" "a.py", classDraft "Child" "a.py"]).2
  let store := (store.addParents [⟨some 3, some "Base", some .extension⟩,
    ⟨some 1, some "Base", some .extension⟩, ⟨some 4, some "Own", some .extension⟩,
    ⟨some 9, some "Base", some .extension⟩, ⟨some 6, some "Base", some .extension⟩]).2
  { store with parents := store.parents.append fun id => ⟨id, 3, some 9, "Base", "mixin"⟩ }

theorem tangled_store_linked :
    ∃ after, tangledStore.linkParents 1 = (⟨2, 1⟩, after) ∧
      after.parents.rows.map (·.parentId) = [some 1, some 2, none, none, none, some 9] ∧
      tangledStore.LinkPass 1 ⟨2, 1⟩ after ∧ after.linkParents 1 = (⟨0, 1⟩, after) ∧
      ∃ both, after.linkParents 2 = (⟨1, 0⟩, both) ∧
        (tangledStore.linkParents 2).2.linkParents 1 = (⟨2, 1⟩, both) := by
  have first : (tangledStore.linkParents 1).1 = ⟨2, 1⟩ := by cbv
  have second : (tangledStore.linkParents 2).1 = ⟨1, 0⟩ := by cbv
  obtain ⟨pass, again, commutes⟩ :=
    linking_pass_links_first_fitting tangledStore 1 ⟨2, 1⟩ _ (Prod.ext first rfl)
  have both := commutes 2 ⟨1, 0⟩ _ (by decide) (Prod.ext second rfl)
  exact ⟨_, Prod.ext first rfl, by cbv, pass, again, both⟩

end DeclGraph.Store
