import Mathlib
import DeclGraph.Proofs.Identity

/-! What becomes of drafts in the store. No two stored declarations share an identity. A batch of drafts
leaves one declaration for each identity in it, written by the last draft of that identity, and a number
that stood for an identity before stands for it after. -/
namespace DeclGraph

namespace EntityDraft

def identity (draft : EntityDraft) : Language × String × EntityKind × String :=
  (draft.language, draft.symbol, draft.kind, draft.filename)

def key (draft : EntityDraft) (projectId : Int) : EntityKey where
  projectId := projectId
  language := draft.language.name
  symbol := draft.symbol
  kind := draft.kind.name
  filename := draft.filename

theorem language_name_injective : Function.Injective Language.name :=
  Function.LeftInverse.injective (g := fun text => (Language.ofName? text).getD .c) fun language => by
    cases language <;> rfl

theorem kind_name_injective : Function.Injective EntityKind.name :=
  Function.LeftInverse.injective (g := fun text => (EntityKind.ofName? text).getD .cls) fun kind => by
    cases kind <;> rfl

/-- The texts of languages and kinds tell them apart. -/
theorem key_eq_iff {draft other : EntityDraft} {projectId : Int} :
    draft.key projectId = other.key projectId ↔ draft.identity = other.identity := by
  simp only [key, identity, EntityKey.mk.injEq, Prod.mk.injEq, language_name_injective.eq_iff,
    kind_name_injective.eq_iff, true_and]

end EntityDraft

def lastDrafts : List EntityDraft → List EntityDraft
  | [] => []
  | draft :: rest =>
    if rest.any (·.identity == draft.identity) then lastDrafts rest else draft :: lastDrafts rest

theorem lastDrafts_sublist (drafts : List EntityDraft) :
    (lastDrafts drafts).Sublist drafts := by
  induction drafts with
  | nil => exact .slnil
  | cons first rest ih =>
      rw [lastDrafts]
      split
      · exact ih.cons first
      · exact ih.cons_cons first

theorem lastDrafts_subset {drafts : List EntityDraft} {draft : EntityDraft}
    (member : draft ∈ lastDrafts drafts) : draft ∈ drafts :=
  (lastDrafts_sublist drafts).subset member

theorem lastDrafts_distinct (drafts : List EntityDraft) :
    ((lastDrafts drafts).map EntityDraft.identity).Nodup := by
  induction drafts with
  | nil => exact .nil
  | cons first rest ih =>
      rw [lastDrafts]
      split
      next => exact ih
      next last =>
        refine List.nodup_cons.2 ⟨fun repeated => last ?_, ih⟩
        obtain ⟨later, member, same⟩ := List.mem_map.1 repeated
        exact List.any_eq_true.2 ⟨later, lastDrafts_subset member, beq_iff_eq.2 same⟩

theorem eq_of_mem_lastDrafts {drafts : List EntityDraft} {draft other : EntityDraft}
    (member : draft ∈ lastDrafts drafts) (member' : other ∈ lastDrafts drafts)
    (same : draft.identity = other.identity) : draft = other :=
  List.inj_on_of_nodup_map (lastDrafts_distinct drafts) member member' same

@[simp] theorem EntityRow.ofDraft_key (projectId generation : Int) (draft : EntityDraft) (id : Int) :
    (EntityRow.ofDraft projectId generation draft id).key = draft.key projectId :=
  rfl

theorem readLanguage_name (language : Language) : readLanguage language.name = .ok language := by
  cases language <;> cbv

theorem readKind_name (kind : EntityKind) : readKind kind.name = .ok kind := by
  cases kind <;> rfl

/-- A stored draft can be read, and nothing of it is lost. -/
theorem EntityRow.ofDraft_read (projectId generation : Int) (draft : EntityDraft) (id : Int) :
    (EntityRow.ofDraft projectId generation draft id).read =
      .ok { toEntityDraft := draft, id, projectId } := by
  refine bind_eq_ok.2 ⟨_, readLanguage_name draft.language, ?_⟩
  refine bind_eq_ok.2 ⟨_, readKind_name draft.kind, ?_⟩
  refine bind_eq_ok.2 ⟨_, readLine_toNat draft.startLine 6, ?_⟩
  exact bind_eq_ok.2 ⟨_, readLine_toNat draft.endLine 7, rfl⟩

namespace Store

variable {store after : Store} {projectId generation id other : Int} {draft : EntityDraft}
  {drafts : List EntityDraft} {ids : List Int} {row : EntityRow} {key : EntityKey}

def Keyed (store : Store) : Prop :=
  ∀ a ∈ store.entities.rows, ∀ b ∈ store.entities.rows, a.key = b.key → a = b

theorem Keyed.number_eq (keyed : store.Keyed) (first : store.Identifies id key)
    (second : store.Identifies other key) : id = other := by
  obtain ⟨a, member, rfl, keyed'⟩ := first
  obtain ⟨b, member', rfl, same⟩ := second
  rw [keyed a member b member' (keyed'.trans same.symm)]

theorem Keyed.keys_nodup (keyed : store.Keyed) : (store.entities.rows.map EntityRow.key).Nodup :=
  List.Nodup.map_on keyed (List.Nodup.of_map _ store.entities.ids_nodup)

/-- The declarations after a draft is stored: those of other identities, and that of the draft. -/
theorem putEntity_mem (keyed : store.Keyed)
    (done : store.putEntity projectId generation draft = (id, after)) :
    row ∈ after.entities.rows ↔
      (row ∈ store.entities.rows ∧ row.key ≠ draft.key projectId) ∨
        row = EntityRow.ofDraft projectId generation draft id := by
  unfold putEntity at done
  simp only [EntityRow.ofDraft_key] at done
  split at done
  next old found =>
    have hit := List.find?_some found
    have same : old.key = draft.key projectId := beq_iff_eq.1 hit
    have member := List.mem_of_find?_eq_some found
    -- The number and the identity of the old row single out the same row.
    have number_iff : ∀ other ∈ store.entities.rows,
        other.id = old.id ↔ other.key = draft.key projectId := by
      intro other present
      constructor
      · intro numbered
        rw [List.inj_on_of_nodup_map store.entities.ids_nodup present member numbered, same]
      · intro keyed'
        rw [keyed other present old member (keyed'.trans same.symm)]
    cases done
    refine (Table.mem_map_one (fun _ => EntityRow.ofDraft projectId generation draft old.id)
      member).trans (or_congr_left (and_congr_right fun present => ?_))
    exact (number_iff row present).not
  next missing =>
    have absent : ∀ other ∈ store.entities.rows, other.key ≠ draft.key projectId := by
      intro other present same
      exact List.find?_eq_none.1 missing other present (beq_iff_eq.2 same)
    cases done
    simp only [Table.append, List.mem_append, List.mem_singleton]
    exact or_congr_left ⟨fun present => ⟨present, absent row present⟩, And.left⟩

theorem putEntity_keyed (keyed : store.Keyed)
    (done : store.putEntity projectId generation draft = (id, after)) : after.Keyed := by
  intro a first b second same
  rcases (putEntity_mem keyed done).1 first with ⟨old, apart⟩ | rfl
  · rcases (putEntity_mem keyed done).1 second with ⟨old', -⟩ | rfl
    · exact keyed a old b old' same
    · exact absurd same apart
  · rcases (putEntity_mem keyed done).1 second with ⟨-, apart⟩ | rfl
    · exact absurd same.symm apart
    · rfl

theorem putEntity_numbers (keyed : store.Keyed)
    (done : store.putEntity projectId generation draft = (id, after)) :
    after.Identifies id (draft.key projectId) :=
  ⟨_, (putEntity_mem keyed done).2 (Or.inr rfl), rfl, rfl⟩

theorem putEntities_cons {rest : List EntityDraft}
    (done : store.putEntities projectId generation (draft :: rest) = (ids, after)) :
    ∃ id between others, store.putEntity projectId generation draft = (id, between) ∧
      between.putEntities projectId generation rest = (others, after) ∧ ids = id :: others := by
  cases done
  exact ⟨_, _, _, rfl, rfl, rfl⟩

theorem putEntities_frame (done : store.putEntities projectId generation drafts = (ids, after)) :
    after.projects = store.projects ∧ after.calls = store.calls ∧ after.parents = store.parents := by
  induction drafts generalizing store ids with
  | nil =>
      cases done
      exact ⟨rfl, rfl, rfl⟩
  | cons draft rest ih =>
      obtain ⟨id, between, others, first, remaining, rfl⟩ := putEntities_cons done
      obtain ⟨projects, calls, parents⟩ := putEntity_frame first
      obtain ⟨projects', calls', parents'⟩ := ih remaining
      exact ⟨projects'.trans projects, calls'.trans calls, parents'.trans parents⟩

theorem putEntities_keyed (keyed : store.Keyed)
    (done : store.putEntities projectId generation drafts = (ids, after)) : after.Keyed := by
  induction drafts generalizing store ids with
  | nil =>
      cases done
      exact keyed
  | cons draft rest ih =>
      obtain ⟨id, between, others, first, remaining, rfl⟩ := putEntities_cons done
      exact ih (putEntity_keyed keyed first) remaining

theorem putEntities_identifies_mono
    (done : store.putEntities projectId generation drafts = (ids, after))
    (stored : store.Identifies other key) : after.Identifies other key := by
  induction drafts generalizing store ids with
  | nil =>
      cases done
      exact stored
  | cons draft rest ih =>
      obtain ⟨id, between, others, first, remaining, rfl⟩ := putEntities_cons done
      exact ih remaining (putEntity_identifies_mono first stored)

/-- The numbers that come back stand for the identities of the drafts. -/
theorem putEntities_numbers (keyed : store.Keyed)
    (done : store.putEntities projectId generation drafts = (ids, after)) :
    List.Forall₂ (fun draft id => after.Identifies id (draft.key projectId)) drafts ids := by
  induction drafts generalizing store ids with
  | nil =>
      cases done
      exact .nil
  | cons draft rest ih =>
      obtain ⟨id, between, others, first, remaining, rfl⟩ := putEntities_cons done
      refine .cons ?_ (ih (putEntity_keyed keyed first) remaining)
      -- The number of the first draft is not taken back by later ones.
      exact putEntities_identifies_mono remaining (putEntity_numbers keyed first)

theorem putEntities_keeps (keyed : store.Keyed)
    (done : store.putEntities projectId generation drafts = (ids, after))
    (member : row ∈ store.entities.rows) (apart : ∀ draft ∈ drafts, row.key ≠ draft.key projectId) :
    row ∈ after.entities.rows := by
  induction drafts generalizing store ids with
  | nil =>
      cases done
      exact member
  | cons draft rest ih =>
      obtain ⟨id, between, others, first, remaining, rfl⟩ := putEntities_cons done
      have kept : row ∈ between.entities.rows :=
        (putEntity_mem keyed first).2 (Or.inl ⟨member, apart draft List.mem_cons_self⟩)
      exact ih (putEntity_keyed keyed first) remaining kept
        fun later present => apart later (List.mem_cons_of_mem draft present)

/-- What is stored after a batch was there under an identity that the batch does not have, or was
written by the last draft of its identity. -/
theorem putEntities_origin (keyed : store.Keyed)
    (done : store.putEntities projectId generation drafts = (ids, after))
    (member : row ∈ after.entities.rows) :
    (row ∈ store.entities.rows ∧ ∀ draft ∈ drafts, row.key ≠ draft.key projectId) ∨
      ∃ draft ∈ lastDrafts drafts, row = EntityRow.ofDraft projectId generation draft row.id := by
  induction drafts generalizing store ids with
  | nil =>
      cases done
      exact Or.inl ⟨member, by simp⟩
  | cons draft rest ih =>
      obtain ⟨id, between, others, first, remaining, rfl⟩ := putEntities_cons done
      rcases ih (putEntity_keyed keyed first) remaining with ⟨early, apart⟩ | ⟨later, last, written⟩
      · rcases (putEntity_mem keyed first).1 early with ⟨old, apart'⟩ | rfl
        · refine Or.inl ⟨old, fun some present => ?_⟩
          rcases List.mem_cons.1 present with rfl | present
          · exact apart'
          · exact apart some present
        · -- The row of the first draft survives if no later one has its identity.
          have alone : ¬ rest.any (·.identity == draft.identity) = true := by
            intro repeated
            obtain ⟨later, present, same⟩ := List.any_eq_true.1 repeated
            exact apart later present (EntityDraft.key_eq_iff.2 (beq_iff_eq.1 same).symm)
          refine Or.inr ⟨draft, ?_, rfl⟩
          rw [lastDrafts, if_neg alone]
          exact List.mem_cons_self
      · refine Or.inr ⟨later, ?_, written⟩
        rw [lastDrafts]
        split
        · exact last
        · exact List.mem_cons_of_mem draft last

theorem Keyed.subset (keyed : store.Keyed)
    (kept : ∀ row ∈ after.entities.rows, row ∈ store.entities.rows) : after.Keyed :=
  fun a first b second same => keyed a (kept a first) b (kept b second) same

theorem Keyed.frame (keyed : store.Keyed) (entities : after.entities = store.entities) :
    after.Keyed :=
  keyed.subset fun _ member => entities ▸ member

theorem Change.keyed (change : Change store after) (keyed : store.Keyed) : after.Keyed := by
  cases change with
  | putProject done => exact keyed.frame (putProject_frame done).1
  | beginGeneration done => exact keyed.frame (beginGeneration_frame done).1
  | putEntity done => exact putEntity_keyed keyed done
  | purgeStale done =>
      exact keyed.subset fun row member => ((purgeStale_purges done).mem_entities.1 member).1
  | replaceCalls done => exact keyed.frame (replaceCalls_frame done).2.1
  | addParent done => exact keyed.frame (addParent_frame done).2.1
  | dropParents done =>
      cases done
      exact keyed
  | linkParents done =>
      cases done
      exact keyed

theorem replay_keyed (operations : List Operation) : (empty.replay operations).Keyed :=
  replay_preserves Change.keyed (by simp [Keyed, empty]) operations

end Store

end DeclGraph
