import Mathlib
import DeclGraph.Proofs.ExtractedNames
import DeclGraph.Proofs.LinkedParents
import DeclGraph.Proofs.RefreshedCalls
import DeclGraph.Proofs.StoredParents

/-! Parents after a refresh. Definitions name parents, and so do blocks for the types that they belong to.
What the files say about parents is read off them with the numbers that the store has given, and the
store holds the first mention of each parent, in that order, linked to the first type that fits. -/
namespace DeclGraph

open Refresh Extract

theorem EntityKind.types_ne_nil : types ≠ [] :=
  List.cons_ne_nil _ _

def Parent.mention (parent : Parent) (childId : Int) : Int × String × Heritage :=
  (childId, parent.symbol, parent.heritage)

def storedKey (key : Int × String × Heritage) : Int × String × String :=
  (key.1, key.2.1, key.2.2.name)

theorem storedKey_injective : Function.Injective storedKey := by
  rintro ⟨childId, symbol, heritage⟩ ⟨childId', symbol', heritage'⟩ same
  simp only [storedKey, Prod.mk.injEq] at same
  obtain ⟨rfl, rfl, named⟩ := same
  rw [Heritage.name_injective named]

namespace Store

variable {store : Store} {projectId id : Int} {key : EntityKey}

def numberOf (store : Store) (key : EntityKey) : Option Int :=
  (store.entities.rows.find? (·.key == key)).map (·.id)

/-- The type that a block means: the first one of the name in its file, else the first of the project. -/
def subjectOf (store : Store) (projectId : Int) (file : FileFacts) (block : ImplBlock) : Option Int :=
  match store.entitiesNamed projectId block.subject EntityKind.types with
  | .ok types => preferred types file.filename
  | .error _ => none

/-- What a file says about parents: each definition for itself, then each block for its type. -/
def parentsStated (store : Store) (projectId : Int) (file : FileFacts) :
    List (Int × String × Heritage) :=
  file.definitions.flatMap (fun definition =>
    (store.numberOf ((draftOf file definition).key projectId)).elim [] fun id =>
      definition.parents.map (·.mention id)) ++
  file.impls.flatMap fun block =>
    (store.subjectOf projectId file block).elim [] fun id => block.parents.map (·.mention id)

theorem Keyed.numberOf_eq (keyed : store.Keyed) (stands : store.Identifies id key) :
    store.numberOf key = some id := by
  obtain ⟨row, member, rfl, same⟩ := stands
  have found : store.entities.rows.find? (·.key == key) = some row :=
    (find?_key_eq_some_iff keyed.keys_nodup).2 ⟨member, same⟩
  rw [numberOf, found, Option.map_some]

theorem subjectOf_eq {file : FileFacts} {block : ImplBlock} {types : List Entity}
    (success : store.entitiesNamed projectId block.subject EntityKind.types = .ok types) :
    store.subjectOf projectId file block = preferred types file.filename := by
  rw [subjectOf, success]

theorem link_of_open {edge : ParentRow} (unlinked : edge.parentId = none)
    (owned : store.owns projectId edge.childId = true) :
    (store.link projectId edge).parentId = store.candidate? projectId edge := by
  rw [link_eq, if_pos (by simp [isOpen, unlinked, owned])]

end Store

namespace Refresh

theorem withOffsets_flatMap {β : Type} (files : List FileFacts) (stated : FileFacts → List β) :
    ((withOffsets 0 files).flatMap fun entry => stated entry.1) = files.flatMap stated := by
  conv_rhs => rw [← withOffsets_files files 0, List.flatMap_map]

/-- A collected name is stored as it is. -/
theorem parentDraft_complete? {parent : Parent} (named : Syntax.IsName parent.symbol)
    (childId : Option Int) :
    (parentDraft childId parent).complete? = childId.map fun id => storedKey (parent.mention id) := by
  cases childId with
  | none => rfl
  | some id =>
      simp [ParentDraft.complete?, parentDraft, named.trim, named.ne_empty, Parent.mention, storedKey]

theorem parentDrafts_complete? {parents : List Parent} (named : AllNamed parents)
    (childId : Option Int) :
    (parents.map (parentDraft childId)).filterMap ParentDraft.complete? =
      (childId.elim [] fun id => parents.map (·.mention id)).map storedKey := by
  rw [List.filterMap_map]
  have each : ∀ parent ∈ parents, (ParentDraft.complete? ∘ parentDraft childId) parent =
      childId.map fun id => storedKey (parent.mention id) :=
    fun parent member => parentDraft_complete? (named parent member) childId
  rw [List.filterMap_congr each]
  cases childId with
  | none => simp
  | some id => simp [List.filterMap_eq_map']

namespace Stages

open Store

variable {store after : Store} {name rootPath : String} {scanned : Nat} {files : List FileFacts}
  {report : RefreshReport} {file : FileFacts} {offset : Nat}
  (stages : Stages store name rootPath scanned files report after)
include stages

theorem numberOf_definition (keyed : store.Keyed) (member : (file, offset) ∈ withOffsets 0 files)
    {definition : Definition} {position : Nat}
    (here : file.definitions[position]? = some definition) :
    after.numberOf ((draftOf file definition).key stages.project.id) =
      stages.ids[offset + position]? := by
  obtain ⟨id, numbered, drawn⟩ := own_number (stages.numbers keyed).length_eq member here
  have stands := (List.forall₂_iff_zip.1 (stages.numbers keyed)).2 drawn
  rw [(stages.after_keyed keyed).numberOf_eq stands, numbered]

theorem types_readable (keyed : store.Keyed) (current : store.Current stages.project)
    (symbol : String) :
    ∃ types, after.entitiesNamed stages.project.id symbol EntityKind.types = .ok types := by
  obtain ⟨types, success, -, -⟩ :=
    stages.entitiesNamed_extracted keyed current symbol EntityKind.types_ne_nil
  exact ⟨types, success⟩

theorem subjectOf_block (keyed : store.Keyed) (current : store.Current stages.project)
    (file : FileFacts) (block : ImplBlock) :
    after.subjectOf stages.project.id file block =
      lookup (targets (drafts files) stages.ids) block.subject file.filename EntityKind.types := by
  obtain ⟨types, success⟩ := stages.types_readable keyed current block.subject
  rw [subjectOf_eq success, stages.lookup_eq keyed current EntityKind.types_ne_nil success]

/-- The drafts of a file are what it says about parents. -/
theorem parentDrafts_stated (keyed : store.Keyed) (current : store.Current stages.project)
    (extracted : file.Extracted) (member : (file, offset) ∈ withOffsets 0 files) :
    (parentDrafts (targets (drafts files) stages.ids) stages.ids file offset).filterMap
        ParentDraft.complete? =
      (after.parentsStated stages.project.id file).map storedKey := by
  obtain ⟨definitions, blocks⟩ := extracted.named
  rw [parentDrafts, parentsStated, List.filterMap_append, List.filterMap_flatMap,
    List.filterMap_flatMap, List.map_append, List.map_flatMap, List.map_flatMap]
  congr 1
  · conv_rhs => rw [← List.zipIdx_map_fst 0 file.definitions, List.flatMap_map]
    apply List.flatMap_congr
    rintro ⟨definition, position⟩ placed
    have here := List.mem_zipIdx_iff_getElem?.1 placed
    rw [parentDrafts_complete? (definitions definition (List.mem_of_getElem? here)),
      stages.numberOf_definition keyed member here]
  · apply List.flatMap_congr
    intro block present
    rw [parentDrafts_complete? (blocks block present), stages.subjectOf_block keyed current]

theorem allParents_stated (keyed : store.Keyed) (current : store.Current stages.project)
    (extracted : ∀ file ∈ files, file.Extracted) :
    (allParents files stages.ids).filterMap ParentDraft.complete? =
      (files.flatMap (after.parentsStated stages.project.id)).map storedKey := by
  rw [allParents, List.filterMap_flatMap, List.map_flatMap, ← withOffsets_flatMap files]
  apply List.flatMap_congr
  rintro ⟨file, offset⟩ member
  have known : file ∈ files := by
    rw [← withOffsets_files files 0]
    exact List.mem_map_of_mem member
  exact stages.parentDrafts_stated keyed current (extracted file known) member

/-- The parents of the project's declarations are the first mentions of what the files say. -/
theorem stated_parents (keyed : store.Keyed) (current : store.Current stages.project)
    (extracted : ∀ file ∈ files, file.Extracted) {edges : List ParentEdge}
    (listed : after.parentEdgesOf stages.project.id = .ok edges) :
    edges.map ParentEdge.key = (files.flatMap (after.parentsStated stages.project.id)).eraseDups := by
  obtain ⟨added, rows, -, keys⟩ := stages.own_parents keyed
  apply List.map_injective_iff.2 storedKey_injective
  calc (edges.map ParentEdge.key).map storedKey
      = (after.parentRowsOf stages.project.id).map ParentRow.key := by
        rw [mapM_read_parents.1 listed, List.map_map, List.map_map]
        rfl
    _ = added.map ParentRow.key := by
        rw [rows, List.map_map]
        exact List.map_congr_left fun row _ => link_key after stages.project.id row
    _ = (files.flatMap (after.parentsStated stages.project.id)).eraseDups.map storedKey := by
        rw [keys, stages.allParents_stated keyed current extracted, eraseDups_map storedKey_injective]

theorem linked_parents (keyed : store.Keyed) {edge : ParentRow}
    (member : edge ∈ after.parentRowsOf stages.project.id) :
    (∀ parent, edge.parentId = some parent →
      IsLeast (after.Fitting stages.project.id edge) parent) ∧
    (edge.parentId = none ↔ after.Fitting stages.project.id edge = ∅) := by
  obtain ⟨added, rows, owned, -⟩ := stages.own_parents keyed
  rw [rows] at member
  obtain ⟨old, listed, rfl⟩ := List.mem_map.1 member
  obtain ⟨unlinked, child⟩ := owned old listed
  -- Linking changes neither the symbol nor the child, so the same types fit.
  have same : after.candidate? stages.project.id (after.link stages.project.id old) =
      after.candidate? stages.project.id old := by
    unfold link
    split <;> rfl
  rw [link_of_open unlinked child, ← same]
  exact ⟨fun parent found => candidate?_isLeast found, candidate?_eq_none_iff⟩

end Stages

end Refresh

namespace Store

/-- From any history, if the declarations of a project have not run ahead of it, a refresh from extracted
files succeeds. All their definitions have numbers then, and the types that blocks belong to can be looked
up. The parents of the project's declarations are the first mentions of what the files say, in the order of
their numbers, and each is linked to the first type of that name other than the child, or to none if there
is no such type. -/
theorem refreshed_parents_are_first_mentions (operations : List Operation) (name rootPath : String)
    (scanned : Nat) (files : List FileFacts) (extracted : ∀ file ∈ files, file.Extracted)
    (current : (empty.replay operations).Current
      ((empty.replay operations).putProject name rootPath).1) :
    ∃ report after edges,
      (empty.replay operations).refresh name rootPath scanned files = .ok (report, after) ∧
      report.projectId = ((empty.replay operations).putProject name rootPath).1.id ∧
      (∀ file ∈ files, ∀ definition ∈ file.definitions, ∃ id,
        after.numberOf ((draftOf file definition).key report.projectId) = some id ∧
        after.Identifies id ((draftOf file definition).key report.projectId)) ∧
      (∀ file ∈ files, ∀ block ∈ file.impls, ∃ types,
        after.entitiesNamed report.projectId block.subject EntityKind.types = .ok types ∧
        after.subjectOf report.projectId file block = preferred types file.filename) ∧
      after.parentEdgesOf report.projectId = .ok edges ∧
      edges.Pairwise (·.id < ·.id) ∧
      (edges.map ParentEdge.key).Nodup ∧
      edges.map ParentEdge.key =
        (files.flatMap (after.parentsStated report.projectId)).eraseDups ∧
      ∀ edge ∈ edges,
        (∀ parent, edge.parentId = some parent →
          IsLeast (after.Fitting report.projectId edge.row) parent) ∧
        (edge.parentId = none ↔ after.Fitting report.projectId edge.row = ∅) := by
  have keyed : (empty.replay operations).Keyed :=
    replay_preserves Change.keyed (by simp [Keyed, empty]) operations
  obtain ⟨report, after, success⟩ :=
    refresh_succeeds (empty.replay operations) name rootPath scanned files
  obtain ⟨stages⟩ := refresh_stages success
  rw [← stages.project_eq] at current ⊢
  obtain ⟨edges, listed⟩ :=
    ((replay_heritagesKnown operations).refresh success).parentEdgesOf stages.project.id
  have rows : after.parentRowsOf stages.project.id = edges.map ParentEdge.row :=
    mapM_read_parents.1 listed
  have mentions := stages.stated_parents keyed current extracted listed
  refine ⟨report, after, edges, success, stages.owner_eq, ?_⟩
  rw [stages.owner_eq]
  refine ⟨?_, ?_, listed, ?_, ?_, mentions, fun edge member => ?_⟩
  · intro file known definition member
    have drawn : draftOf file definition ∈ drafts files :=
      List.mem_flatMap.2 ⟨file, known, List.mem_map_of_mem member⟩
    obtain ⟨id, -, stands⟩ := exists_right_of_mem (stages.numbers keyed) drawn
    exact ⟨id, (stages.after_keyed keyed).numberOf_eq stands, stands⟩
  · intro file _ block _
    obtain ⟨types, success⟩ := stages.types_readable keyed current block.subject
    exact ⟨types, success, subjectOf_eq success⟩
  · have ordered : (after.parentRowsOf stages.project.id).Pairwise (·.id < ·.id) :=
      after.parents.ordered.filter _
    rw [rows, List.pairwise_map] at ordered
    exact ordered
  · rw [mentions]
    exact nodup_eraseDups _
  · have stored : edge.row ∈ after.parentRowsOf stages.project.id := rows ▸ List.mem_map_of_mem member
    exact stages.linked_parents keyed stored

/-! A type and a trait, and three blocks: one names the trait, one a trait that no file defines, and one
belongs to a type that no file defines. -/

def itemNode (kind symbol : String) : Syntax.Node where
  kind := kind
  text := symbol
  fields := [("name", ⟨0, []⟩)]
  children := [wordNode symbol]

def implNode (parent subject : String) : Syntax.Node where
  kind := "impl_item"
  text := parent
  fields := [("type", ⟨2, []⟩)]
  children := [wordNode parent, { kind := "for", text := "for" }, wordNode subject]

def basketFile : FileFacts :=
  fileFacts "basket.rs" .rust false
    { kind := "source_file", text := "",
      children := [itemNode "struct_item" "Basket", itemNode "trait_item" "Priced",
        implNode "Priced" "Basket", implNode "Clone" "Basket", implNode "Priced" "Crate"] }

def earlyBatch : List Operation :=
  [.addParents [⟨some 1, some "Old", some .mixin⟩]]

theorem basket_parents_stored :
    ∃ report after,
      (empty.replay earlyBatch).refresh "shop" "/shop" 1 [basketFile] = .ok (report, after) ∧
      after.parentEdgesOf report.projectId =
        .ok [⟨2, 1, some 2, "Priced", .implementation⟩, ⟨3, 1, none, "Clone", .implementation⟩] ∧
      IsLeast (after.Fitting report.projectId ⟨2, 1, some 2, "Priced", "implements"⟩) 2 ∧
      after.Fitting report.projectId ⟨3, 1, none, "Clone", "implements"⟩ = ∅ := by
  have extracted : ∀ file ∈ [basketFile], file.Extracted := by
    intro file member
    cases List.mem_singleton.1 member
    exact ⟨false, _, rfl⟩
  have nothing : (empty.replay earlyBatch).entities.rows = [] := by cbv
  have current : ∀ project, (empty.replay earlyBatch).Current project := by
    simp [Current, nothing]
  obtain ⟨report, after, edges, success, -, -, -, read, -, -, -, linked⟩ := refreshed_parents_are_first_mentions
    earlyBatch "shop" "/shop" 1 [basketFile] extracted (current _)
  have facts : basketFile =
      { filename := "basket.rs"
        language := .rust
        definitions := [⟨"Basket", .struct, 1, 1, none, []⟩, ⟨"Priced", .trait, 1, 1, none, []⟩]
        impls := [⟨"Basket", 1, [⟨"Priced", .implementation⟩]⟩,
          ⟨"Basket", 1, [⟨"Clone", .implementation⟩]⟩, ⟨"Crate", 1, [⟨"Priced", .implementation⟩]⟩] } := by
    decide +kernel
  have listed : ((empty.replay earlyBatch).refresh "shop" "/shop" 1 [basketFile]).toOption.map
      (fun result => result.2.parentEdgesOf result.1.projectId) =
        some (.ok [⟨2, 1, some 2, "Priced", .implementation⟩, ⟨3, 1, none, "Clone", .implementation⟩]) := by
    rw [facts]
    cbv
  rw [success] at listed
  have stored : after.parentEdgesOf report.projectId = _ := Option.some.inj listed
  obtain rfl := Except.ok.inj (read.symm.trans stored)
  refine ⟨report, after, success, stored, ?_, ?_⟩
  · exact (linked ⟨2, 1, some 2, "Priced", .implementation⟩ (by simp)).1 2 rfl
  · exact (linked ⟨3, 1, none, "Clone", .implementation⟩ (by simp)).2.1 rfl

end Store

end DeclGraph
