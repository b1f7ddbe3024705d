import Mathlib
import DeclGraph.Store.Stats
import DeclGraph.Proofs.RefreshedParents

/-! The report of a refresh balances with the store. Every number in it is counted while the refresh goes
on; here each is found again in the store that it leaves, or in the files that it read. Parents are followed
from draft to row: a batch accounts for each of its drafts, what it inserted is all that is open before the
linking pass, and the pass finds a type for an open parent or leaves it open. -/
namespace DeclGraph

open Refresh Extract

/-- As many drafts are last as there are drafts exactly if no two share an identity. -/
theorem lastDrafts_length_eq_iff {drafts : List EntityDraft} :
    (lastDrafts drafts).length = drafts.length ↔ (drafts.map EntityDraft.identity).Nodup := by
  constructor
  · intro same
    have distinct := lastDrafts_distinct drafts
    rwa [(lastDrafts_sublist drafts).eq_of_length same] at distinct
  · intro distinct
    induction drafts with
    | nil => rfl
    | cons first rest ih =>
        rw [List.map_cons, List.nodup_cons] at distinct
        have alone : ¬ rest.any (·.identity == first.identity) = true := by
          intro repeated
          obtain ⟨later, member, same⟩ := List.any_eq_true.1 repeated
          exact distinct.1 (List.mem_map.2 ⟨later, member, beq_iff_eq.1 same⟩)
        rw [lastDrafts, if_neg alone, List.length_cons, List.length_cons, ih distinct.2]

structure InsertReport.Accounts (report : InsertReport) (drafts : List ParentDraft)
    (store after : Store) : Prop where
  total : report.inserted + report.dropped + report.duplicates = drafts.length
  dropped : report.dropped = drafts.countP (!·.isComplete)
  inserted : after.parents.rows.length = store.parents.rows.length + report.inserted

namespace Store
variable {store after : Store} {projectId : Int}

theorem addParent_accounts {between : Store} {report : InsertReport} {drafts : List ParentDraft}
    (accounts : report.Accounts drafts store between) (draft : ParentDraft) :
    (between.addParent report draft).1.Accounts (drafts ++ [draft]) store
      (between.addParent report draft).2 := by
  obtain ⟨total, dropped, inserted⟩ := accounts
  rcases done : between.addParent report draft with ⟨counted, after⟩
  dsimp only
  cases addParent_step done with
  | lacking complete =>
      have lacking : draft.isComplete = false := by rw [ParentDraft.isComplete, complete]; rfl
      constructor
      · simp only [List.length_append, List.length_singleton]
        omega
      · simp [List.countP_append, lacking, dropped]
      · exact inserted
  | known complete =>
      have whole : draft.isComplete = true := by rw [ParentDraft.isComplete, complete]; rfl
      constructor
      · simp only [List.length_append, List.length_singleton]
        omega
      · simp [List.countP_append, whole, dropped]
      · exact inserted
  | new complete =>
      have whole : draft.isComplete = true := by rw [ParentDraft.isComplete, complete]; rfl
      constructor
      · simp only [List.length_append, List.length_singleton]
        omega
      · simp [List.countP_append, whole, dropped]
      · simp only [Table.append, List.length_append, List.length_singleton]
        omega

theorem addParents_accounts (store : Store) (drafts : List ParentDraft) :
    (store.addParents drafts).1.Accounts drafts store (store.addParents drafts).2 := by
  induction drafts using List.reverseRecOn with
  | nil => exact ⟨rfl, rfl, rfl⟩
  | append_singleton drafts draft ih =>
      rw [addParents_concat]
      exact addParent_accounts ih draft

/-- A parent that was open is linked if there is a type for it, and open if not. -/
theorem isOpen_link (store : Store) (projectId : Int) (edge : ParentRow) :
    store.isOpen projectId (store.link projectId edge) =
      (store.isOpen projectId edge && !(store.candidate? projectId edge).isSome) := by
  by_cases opened : store.isOpen projectId edge = true
  · have owned : store.owns projectId edge.childId = true := by
      simp only [isOpen, Bool.and_eq_true] at opened
      exact opened.2
    rw [link_eq, if_pos opened, opened, isOpen, owned]
    simp
  · rw [link_eq, if_neg opened]
    simp [opened]

theorem linkParents_counts {report : LinkReport}
    (done : store.linkParents projectId = (report, after)) :
    report.resolved + report.unresolved =
      (store.parents.rows.filter (store.isOpen projectId)).length := by
  have owns : after.owns projectId = store.owns projectId := owns_congr (linkParents_frame done).2.1
  have opens : after.isOpen projectId = store.isOpen projectId := by
    funext edge
    rw [isOpen, isOpen, owns]
  cases done
  rw [opens]
  dsimp only [Table.modify]
  rw [← List.countP_eq_length_filter, ← List.countP_eq_length_filter,
    ← List.countP_eq_length_filter, List.countP_map]
  have linkable : store.isLinkable projectId =
      fun edge => store.isOpen projectId edge && (store.candidate? projectId edge).isSome :=
    funext (store.isLinkable_eq projectId)
  have left : (store.isOpen projectId ∘ store.link projectId) =
      fun edge => store.isOpen projectId edge && !(store.candidate? projectId edge).isSome :=
    funext (store.isOpen_link projectId)
  rw [linkable, left, List.countP_eq_countP_filter_add store.parents.rows (store.isOpen projectId)
    fun edge => (store.candidate? projectId edge).isSome, List.countP_filter, List.countP_filter]

theorem linkParents_unresolved {report : LinkReport}
    (done : store.linkParents projectId = (report, after)) :
    report.unresolved = (after.stats projectId).unresolvedParents := by
  cases done
  rfl

def hasType (store : Store) (projectId : Int) (symbol : String) : Bool :=
  store.entities.rows.any fun row =>
    row.projectId == projectId && row.symbol == symbol && isParentKind row.kind

theorem hasType_iff {symbol : String} : store.hasType projectId symbol = true ↔
    ∃ kind ∈ EntityKind.types, ∃ id language filename,
      store.Identifies id ⟨projectId, language, symbol, kind.name, filename⟩ := by
  simp only [hasType, List.any_eq_true, Bool.and_eq_true, beq_iff_eq, isParentKind_iff]
  constructor
  · rintro ⟨row, member, ⟨rfl, rfl⟩, kind, typed, named⟩
    refine ⟨kind, typed, row.id, row.language, row.filename, row, member, rfl, ?_⟩
    rw [← named]
    rfl
  · rintro ⟨kind, typed, id, language, filename, row, member, -, same⟩
    exact ⟨row, member, ⟨congrArg EntityKey.projectId same, congrArg EntityKey.symbol same⟩, kind, typed,
      congrArg EntityKey.kind same⟩

def orphans (store : Store) (projectId : Int) (file : FileFacts) : List Parent :=
  file.impls.flatMap fun block =>
    if store.hasType projectId block.subject then [] else block.parents

end Store

def Extract.FileFacts.candidates (file : FileFacts) : List Parent :=
  file.definitions.flatMap (·.parents) ++ file.impls.flatMap (·.parents)

namespace Refresh

theorem parentDrafts_length (targets : List Target) (ids : List Int) (file : FileFacts) (offset : Nat) :
    (parentDrafts targets ids file offset).length = file.candidates.length := by
  rw [parentDrafts, FileFacts.candidates, List.length_append, List.length_append]
  congr 1
  · conv_rhs => rw [← List.zipIdx_map_fst 0 file.definitions, List.flatMap_map]
    simp [List.length_flatMap]
  · simp [List.length_flatMap]

theorem allParents_length (files : List FileFacts) (ids : List Int) :
    (allParents files ids).length = (files.flatMap FileFacts.candidates).length := by
  rw [allParents, ← withOffsets_flatMap files, List.length_flatMap, List.length_flatMap]
  congr 1
  apply List.map_congr_left
  rintro ⟨file, offset⟩ -
  exact parentDrafts_length _ ids file offset

/-- Drafts of collected names lack nothing but a child. -/
theorem parentDrafts_lacking {parents : List Parent} (named : AllNamed parents)
    (childId : Option Int) :
    (parents.map (parentDraft childId)).countP (!·.isComplete) =
      if childId.isSome then 0 else parents.length := by
  have each : ∀ parent ∈ parents, (parentDraft childId parent).isComplete = childId.isSome := by
    intro parent member
    rw [ParentDraft.isComplete, parentDraft_complete? (named parent member), Option.isSome_map]
  rw [List.countP_map]
  split
  next known =>
    rw [List.countP_eq_zero]
    intro parent member
    simp [each parent member, known]
  next unknown =>
    rw [List.countP_eq_length]
    intro parent member
    simpa [each parent member] using unknown

namespace Stages

open Store

variable {store after : Store} {name rootPath : String} {scanned : Nat} {files : List FileFacts}
  {report : RefreshReport} {file : FileFacts} {offset : Nat} {edges : List ParentEdge}
  (stages : Stages store name rootPath scanned files report after)
include stages

theorem subjectOf_isSome (keyed : store.Keyed) (current : store.Current stages.project)
    (file : FileFacts) (block : ImplBlock) :
    (after.subjectOf stages.project.id file block).isSome =
      after.hasType stages.project.id block.subject := by
  obtain ⟨types, success⟩ := stages.types_readable keyed current block.subject
  rw [subjectOf_eq success, Bool.eq_iff_iff, hasType_iff, ← not_iff_not, Bool.not_eq_true,
    Option.isSome_eq_false_iff, Option.isNone_iff_eq_none, preferred_eq_none_iff]
  exact stages.entitiesNamed_eq_nil_iff keyed current EntityKind.types_ne_nil success

/-- Of the drafts of a file, those of blocks without a type lack something. -/
theorem parentDrafts_orphans (keyed : store.Keyed) (current : store.Current stages.project)
    (extracted : file.Extracted) (member : (file, offset) ∈ withOffsets 0 files) :
    (parentDrafts (targets (drafts files) stages.ids) stages.ids file offset).countP (!·.isComplete) =
      (after.orphans stages.project.id file).length := by
  obtain ⟨definitions, blocks⟩ := extracted.named
  rw [parentDrafts, orphans, List.countP_append, List.countP_flatMap, List.countP_flatMap,
    List.length_flatMap]
  refine (congrArg₂ Nat.add ?_ ?_).trans (Nat.zero_add _)
  · rw [List.sum_eq_zero_iff]
    intro count listed
    obtain ⟨⟨definition, position⟩, placed, rfl⟩ := List.mem_map.1 listed
    have here := List.mem_zipIdx_iff_getElem?.1 placed
    obtain ⟨id, numbered, -⟩ := own_number (stages.numbers keyed).length_eq member here
    rw [Function.comp_apply, parentDrafts_lacking (definitions definition (List.mem_of_getElem? here)),
      numbered]
    rfl
  · congr 1
    apply List.map_congr_left
    intro block member
    rw [Function.comp_apply, parentDrafts_lacking (blocks block member),
      ← stages.subjectOf_block keyed current, stages.subjectOf_isSome keyed current]
    split <;> rfl

theorem allParents_orphans (keyed : store.Keyed) (current : store.Current stages.project)
    (extracted : ∀ file ∈ files, file.Extracted) :
    (allParents files stages.ids).countP (!·.isComplete) =
      (files.flatMap (after.orphans stages.project.id)).length := by
  rw [allParents, ← withOffsets_flatMap files, List.countP_flatMap, List.length_flatMap]
  congr 1
  apply List.map_congr_left
  rintro ⟨file, offset⟩ member
  have known : file ∈ files := by
    rw [← withOffsets_files files 0]
    exact List.mem_map_of_mem member
  exact stages.parentDrafts_orphans keyed current (extracted file known) member

theorem parents_accounts : report.parents.Accounts (allParents files stages.ids)
    (stages.called.withoutParents stages.project.id) stages.named := by
  have accounts := addParents_accounts (stages.called.withoutParents stages.project.id)
    (allParents files stages.ids)
  rw [← replaceParents_eq, stages.names] at accounts
  exact accounts

/-- What was inserted is all that is open before the linking pass, and all that the project has. -/
theorem inserted_eq (keyed : store.Keyed) :
    report.parents.inserted =
        (stages.named.parents.rows.filter (stages.named.isOpen stages.project.id)).length ∧
      report.parents.inserted = (after.parentRowsOf stages.project.id).length := by
  obtain ⟨added, rows, owned, -⟩ := stages.named_parents keyed
  have counted : report.parents.inserted = added.length := by
    have inserted := stages.parents_accounts.inserted
    dsimp only [withoutParents, Table.filter] at inserted
    rw [rows, List.length_append, owns_congr stages.called_entities] at inserted
    omega
  -- Only what was added belongs to the project, and none of it is linked.
  have own : stages.named.parents.rows.filter (after.owns stages.project.id ·.childId) = added := by
    rw [rows, List.filter_append, List.filter_filter, List.filter_eq_nil_iff.2 (by simp),
      List.nil_append, List.filter_eq_self]
    exact fun edge listed => (owned edge listed).2
  have opened : stages.named.parents.rows.filter (stages.named.isOpen stages.project.id) = added := by
    have split : stages.named.isOpen stages.project.id =
        fun edge => edge.parentId.isNone && after.owns stages.project.id edge.childId := by
      funext edge
      rw [isOpen, owns_congr stages.named_entities]
    rw [split, ← List.filter_filter, own, List.filter_eq_self]
    intro edge listed
    rw [(owned edge listed).1]
    rfl
  refine ⟨by rw [opened, counted], ?_⟩
  rw [parentRowsOf, stages.after_parents, List.filter_map, List.length_map, counted, ← own]
  simp only [Function.comp_def, link_childId]

theorem calls_counted :
    report.calls = (after.calls.rows.filter (·.projectId == stages.project.id)).length := by
  have counted : (allCalls files stages.ids).length = report.calls := congrArg Prod.fst stages.calls
  rw [← counted]
  exact stages.own_calls.length_eq

theorem entities_stored (keyed : store.Keyed) (current : store.Current stages.project) :
    (after.stats stages.project.id).entities = (lastDrafts (drafts files)).length := by
  have length := (stages.entities_perm keyed current).length_eq
  rwa [List.length_map, List.length_map] at length

/-- What the files say about parents is stored. -/
theorem stated_stored (keyed : store.Keyed) (current : store.Current stages.project)
    (extracted : ∀ file ∈ files, file.Extracted) {key : Int × String × Heritage}
    (listed : after.parentEdgesOf stages.project.id = .ok edges) (known : file ∈ files)
    (stated : key ∈ after.parentsStated stages.project.id file) : key ∈ edges.map ParentEdge.key := by
  rw [stages.stated_parents keyed current extracted listed, List.mem_eraseDups]
  exact List.mem_flatMap.2 ⟨file, known, stated⟩

theorem definition_stored (keyed : store.Keyed) (current : store.Current stages.project)
    (extracted : ∀ file ∈ files, file.Extracted)
    (listed : after.parentEdgesOf stages.project.id = .ok edges) (known : file ∈ files)
    {definition : Definition} (member : definition ∈ file.definitions) : ∃ id,
    after.Identifies id ((draftOf file definition).key stages.project.id) ∧
      ∀ parent ∈ definition.parents, parent.mention id ∈ edges.map ParentEdge.key := by
  have drawn : draftOf file definition ∈ drafts files :=
    List.mem_flatMap.2 ⟨file, known, List.mem_map_of_mem member⟩
  obtain ⟨id, stands⟩ := stages.numbered keyed drawn
  refine ⟨id, stands, fun parent named =>
    stages.stated_stored keyed current extracted listed known ?_⟩
  refine List.mem_append_left _ (List.mem_flatMap.2 ⟨definition, member, ?_⟩)
  rw [(stages.after_keyed keyed).numberOf_eq stands]
  exact List.mem_map_of_mem named

theorem block_stored (keyed : store.Keyed) (current : store.Current stages.project)
    (extracted : ∀ file ∈ files, file.Extracted)
    (listed : after.parentEdgesOf stages.project.id = .ok edges) (known : file ∈ files)
    {block : ImplBlock} (member : block ∈ file.impls)
    (typed : after.hasType stages.project.id block.subject = true) : ∃ id,
    after.subjectOf stages.project.id file block = some id ∧
      ∀ parent ∈ block.parents, parent.mention id ∈ edges.map ParentEdge.key := by
  rw [← stages.subjectOf_isSome keyed current file] at typed
  obtain ⟨id, subject⟩ := Option.isSome_iff_exists.1 typed
  refine ⟨id, subject, fun parent named =>
    stages.stated_stored keyed current extracted listed known ?_⟩
  refine List.mem_append_right _ (List.mem_flatMap.2 ⟨block, member, ?_⟩)
  rw [subject]
  exact List.mem_map_of_mem named

end Stages

/-- A report that balances with the store after a refresh and with the files that it was given, some of
which could not be extracted. -/
structure Balanced (attempts : List (Option FileFacts)) (report : RefreshReport) (after : Store)
    (edges : List ParentEdge) : Prop where
  scanned : report.filesScanned = attempts.length
  indexed : report.filesIndexed = attempts.reduceOption.length
  files : report.filesIndexed + report.filesFailed = report.filesScanned
  calls : report.calls = (after.stats report.projectId).calls
  candidates : report.parents.inserted + report.parents.dropped + report.parents.duplicates =
    (attempts.reduceOption.flatMap FileFacts.candidates).length
  dropped : report.parents.dropped =
    (attempts.reduceOption.flatMap (after.orphans report.projectId)).length
  listed : after.parentEdgesOf report.projectId = .ok edges
  defined : ∀ file ∈ attempts.reduceOption, ∀ definition ∈ file.definitions, ∃ id,
    after.Identifies id ((draftOf file definition).key report.projectId) ∧
      ∀ parent ∈ definition.parents, parent.mention id ∈ edges.map ParentEdge.key
  added : ∀ file ∈ attempts.reduceOption, ∀ block ∈ file.impls,
    after.hasType report.projectId block.subject = true → ∃ id,
      after.subjectOf report.projectId file block = some id ∧
      ∀ parent ∈ block.parents, parent.mention id ∈ edges.map ParentEdge.key
  linked : report.linking.resolved + report.linking.unresolved = report.parents.inserted
  inserted : report.parents.inserted = (after.stats report.projectId).parentEdges
  unresolved : report.linking.unresolved = (after.stats report.projectId).unresolvedParents
  entities : (after.stats report.projectId).entities ≤ report.entities
  distinct_iff : (after.stats report.projectId).entities = report.entities ↔
    ((drafts attempts.reduceOption).map EntityDraft.identity).Nodup

end Refresh

namespace Store

/-- From any history, if the declarations of a project have not run ahead of it, a refresh from extracted
files succeeds, and its report balances. -/
theorem refresh_report_balances (operations : List Operation) (name rootPath : String)
    (attempts : List (Option FileFacts)) (extracted : ∀ file, some file ∈ attempts → file.Extracted)
    (current : (empty.replay operations).Current
      ((empty.replay operations).putProject name rootPath).1) :
    ∃ report after edges,
      (empty.replay operations).refresh name rootPath attempts.length attempts.reduceOption =
        .ok (report, after) ∧
      report.projectId = ((empty.replay operations).putProject name rootPath).1.id ∧
      Balanced attempts report after edges := by
  have keyed := replay_keyed operations
  have extracted : ∀ file ∈ attempts.reduceOption, file.Extracted :=
    fun file member => extracted file (List.reduceOption_mem_iff.1 member)
  obtain ⟨report, after, success⟩ := refresh_succeeds (empty.replay operations) name rootPath
    attempts.length attempts.reduceOption
  obtain ⟨stages⟩ := refresh_stages success
  rw [← stages.project_eq] at current ⊢
  obtain ⟨edges, listed⟩ :=
    ((replay_heritagesKnown operations).refresh success).parentEdgesOf stages.project.id
  refine ⟨report, after, edges, success, stages.owner_eq, ?_⟩
  have scanned : report.filesScanned = attempts.length :=
    congrArg RefreshReport.filesScanned stages.reported
  have indexed : report.filesIndexed = attempts.reduceOption.length :=
    congrArg RefreshReport.filesIndexed stages.reported
  have failed : report.filesFailed = attempts.length - attempts.reduceOption.length :=
    congrArg RefreshReport.filesFailed stages.reported
  have inserted := stages.inserted_eq keyed
  have stored := stages.entities_stored keyed current
  have counted := stages.entities_counted keyed
  constructor
  · exact scanned
  · exact indexed
  · have fewer := List.reduceOption_length_le attempts
    omega
  · rw [stages.owner_eq]
    exact stages.calls_counted
  · rw [stages.parents_accounts.total, allParents_length]
  · rw [stages.owner_eq, stages.parents_accounts.dropped,
      stages.allParents_orphans keyed current extracted]
  · rw [stages.owner_eq]
    exact listed
  · rw [stages.owner_eq]
    exact fun file known _ => stages.definition_stored keyed current extracted listed known
  · rw [stages.owner_eq]
    exact fun file known _ => stages.block_stored keyed current extracted listed known
  · rw [linkParents_counts stages.links, ← inserted.1]
  · rw [stages.owner_eq]
    exact inserted.2
  · rw [stages.owner_eq]
    exact linkParents_unresolved stages.links
  · rw [stages.owner_eq, stored, counted]
    exact (lastDrafts_sublist _).length_le
  · rw [stages.owner_eq, stored, counted]
    exact lastDrafts_length_eq_iff

/-! A type is defined twice, one of its parents is named twice, and a block belongs to a type that no file
defines. Another file cannot be extracted. -/

def cartFile : FileFacts :=
  fileFacts "cart.rs" .rust false
    { kind := "source_file", text := "",
      children := [itemNode "struct_item" "Cart", itemNode "struct_item" "Cart",
        itemNode "trait_item" "Priced", implNode "Priced" "Cart", implNode "Priced" "Cart",
        implNode "Clone" "Cart", implNode "Priced" "Crate"] }

theorem cart_report_balances :
    ∃ report after edges,
      (empty.replay earlyBatch).refresh "shop" "/shop" 2 [cartFile] = .ok (report, after) ∧
      report.parents = ⟨2, 1, 1⟩ ∧ report.linking = ⟨1, 1⟩ ∧ report.entities = 3 ∧
      Balanced [some cartFile, none] report after edges := by
  have extracted : ∀ file, some file ∈ [some cartFile, none] → file.Extracted := by
    intro file member
    obtain rfl : file = cartFile := by simpa using member
    exact ⟨false, _, rfl⟩
  have nothing : (empty.replay earlyBatch).entities.rows = [] := by cbv
  have current : ∀ project, (empty.replay earlyBatch).Current project := by
    simp [Current, nothing]
  obtain ⟨report, after, edges, success, -, balanced⟩ :=
    refresh_report_balances earlyBatch "shop" "/shop" [some cartFile, none] extracted (current _)
  have facts : cartFile =
      { filename := "cart.rs"
        language := .rust
        definitions := [⟨"Cart", .struct, 1, 1, none, []⟩, ⟨"Cart", .struct, 1, 1, none, []⟩,
          ⟨"Priced", .trait, 1, 1, none, []⟩]
        impls := [⟨"Cart", 1, [⟨"Priced", .implementation⟩]⟩, ⟨"Cart", 1, [⟨"Priced", .implementation⟩]⟩,
          ⟨"Cart", 1, [⟨"Clone", .implementation⟩]⟩, ⟨"Crate", 1, [⟨"Priced", .implementation⟩]⟩] } := by
    decide +kernel
  have counts : ((empty.replay earlyBatch).refresh "shop" "/shop" 2 [cartFile]).toOption.map
      (fun result => (result.1.parents, result.1.linking, result.1.entities)) =
        some (⟨2, 1, 1⟩, ⟨1, 1⟩, 3) := by
    rw [facts]
    cbv
  have success : (empty.replay earlyBatch).refresh "shop" "/shop" 2 [cartFile] = .ok (report, after) :=
    success
  rw [success] at counts
  obtain ⟨parents, linking, entities⟩ : report.parents = ⟨2, 1, 1⟩ ∧ report.linking = ⟨1, 1⟩ ∧
      report.entities = 3 := by
    simpa only [Prod.mk.injEq] using Option.some.inj counts
  exact ⟨report, after, edges, success, parents, linking, entities, balanced⟩

end Store

end DeclGraph
