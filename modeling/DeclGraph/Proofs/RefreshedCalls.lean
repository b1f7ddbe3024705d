import Mathlib
import DeclGraph.Proofs.Refreshes
import DeclGraph.Proofs.SourceOrder

/-! Calls after a refresh. Each extracted call is stored once, in the order of extraction, under the
function it stands in. Its callee is looked up among the definitions of the refresh, while a client looks
functions up among the stored declarations; the two agree, although several definitions can share an
identity and then a number. Refreshes of other projects leave all of this as it is. -/
namespace DeclGraph

open Refresh Extract

section First
variable {α β : Type} {number : α → Int} {number' : β → Int} {rows : List α} {others : List β}
  {test : α → Bool} {test' : β → Bool} {row other : α}

/-- Lists in the order of numbers have the same first match if the same numbers match. -/
theorem find?_number_eq (sorted : rows.Pairwise fun a b => number a ≤ number b)
    (sorted' : others.Pairwise fun a b => number' a ≤ number' b)
    (same : ∀ id, (∃ a ∈ rows, test a = true ∧ number a = id) ↔
      ∃ b ∈ others, test' b = true ∧ number' b = id) :
    (rows.find? test).map number = (others.find? test').map number' := by
  cases found : rows.find? test with
  | none =>
      cases found' : others.find? test' with
      | none => rfl
      | some b =>
          obtain ⟨a, member, passes, -⟩ := (same (number' b)).2
            ⟨b, List.mem_of_find?_eq_some found', List.find?_some found', rfl⟩
          exact absurd passes (List.find?_eq_none.1 found a member)
  | some a =>
      obtain ⟨b, member, passes, number_b⟩ := (same (number a)).1
        ⟨a, List.mem_of_find?_eq_some found, List.find?_some found, rfl⟩
      cases found' : others.find? test' with
      | none => exact absurd passes (List.find?_eq_none.1 found' b member)
      | some b' =>
          obtain ⟨a', member', passes', number_a'⟩ := (same (number' b')).2
            ⟨b', List.mem_of_find?_eq_some found', List.find?_some found', rfl⟩
          -- The other list has a match for each of the two, so neither is above the other.
          have below := find?_least sorted found member' passes'
          have above := find?_least sorted' found' member passes
          rw [number_a'] at below
          rw [number_b] at above
          exact congrArg some (le_antisymm below above)

end First

namespace Refresh

variable {files : List FileFacts} {ids : List Int}

def sites (files : List FileFacts) : List (FileFacts × CallSite) :=
  files.flatMap fun file => file.calls.map (file, ·)

theorem drafts_cons (file : FileFacts) (rest : List FileFacts) :
    drafts (file :: rest) = file.definitions.map (draftOf file) ++ drafts rest :=
  List.flatMap_cons

theorem drafts_append (early late : List FileFacts) :
    drafts (early ++ late) = drafts early ++ drafts late :=
  List.flatMap_append

structure Drafts (files : List FileFacts) (ids : List Int) (site : FileFacts × CallSite)
    (draft : CallDraft) : Prop where
  line : draft.line = site.2.line
  comment : draft.comment = site.2.snippet
  symbol : draft.calleeSymbol = site.2.callee
  callee : draft.calleeId =
    lookup (targets (drafts files) ids) site.2.callee site.1.filename [.function]
  caller : ∃ definition, site.1.definitions[site.2.caller]? = some definition ∧
    definition.kind = .function ∧ (draftOf site.1 definition, draft.callerId) ∈ (drafts files).zip ids

theorem withOffsets_files (files : List FileFacts) (start : Nat) :
    (withOffsets start files).map Prod.fst = files := by
  induction files generalizing start with
  | nil => rfl
  | cons file rest ih => rw [withOffsets, List.map_cons, ih]

/-- The offset of a file is the number of definitions in the files before it. -/
theorem mem_withOffsets_iff {file : FileFacts} {start offset : Nat} :
    (file, offset) ∈ withOffsets start files ↔
      ∃ early late, files = early ++ file :: late ∧ offset = start + (drafts early).length := by
  induction files generalizing start with
  | nil => simp [withOffsets]
  | cons first rest ih =>
      rw [withOffsets, List.mem_cons, ih]
      constructor
      · rintro (same | ⟨early, late, rfl, rfl⟩)
        · cases same
          exact ⟨[], rest, rfl, rfl⟩
        · refine ⟨first :: early, late, rfl, ?_⟩
          rw [drafts_cons, List.length_append, List.length_map, Nat.add_assoc]
      · rintro ⟨early, late, same, rfl⟩
        cases early with
        | nil =>
            cases same
            exact Or.inl rfl
        | cons other early =>
            cases same
            refine Or.inr ⟨early, late, rfl, ?_⟩
            rw [drafts_cons, List.length_append, List.length_map, Nat.add_assoc]

/-- At its place behind the offset, each definition of a file has the number that it was given. -/
theorem own_number {file : FileFacts} {offset position : Nat} {definition : Definition}
    (length : (drafts files).length = ids.length) (member : (file, offset) ∈ withOffsets 0 files)
    (here : file.definitions[position]? = some definition) :
    ∃ id, ids[offset + position]? = some id ∧ (draftOf file definition, id) ∈ (drafts files).zip ids := by
  obtain ⟨early, late, rfl, rfl⟩ := mem_withOffsets_iff.1 member
  have drawn : (drafts (early ++ file :: late))[0 + (drafts early).length + position]? =
      some (draftOf file definition) := by
    obtain ⟨bound, -⟩ := List.getElem?_eq_some_iff.1 here
    rw [drafts_append, drafts_cons, Nat.zero_add,
      List.getElem?_append_right (Nat.le_add_right _ _), Nat.add_sub_cancel_left,
      List.getElem?_append_left (by rwa [List.length_map]), List.getElem?_map, here, Option.map_some]
  obtain ⟨bound, same⟩ := List.getElem?_eq_some_iff.1 drawn
  refine ⟨_, List.getElem?_eq_getElem (length ▸ bound), ?_⟩
  rw [← same, ← List.getElem_zip (h := by rw [List.length_zip]; omega)]
  exact List.getElem_mem _

/-- No call of an extracted file is passed over. -/
theorem allCalls_sites (length : (drafts files).length = ids.length)
    (extracted : ∀ file ∈ files, file.Extracted) :
    List.Forall₂ (Drafts files ids) (sites files) (allCalls files ids) := by
  have listed : sites files =
      (withOffsets 0 files).flatMap fun entry => entry.1.calls.map (entry.1, ·) := by
    conv_lhs => rw [sites, ← withOffsets_files files 0, List.flatMap_map]
  rw [listed]
  refine flatMap_forall₂ fun ⟨file, offset⟩ member => List.forall₂_map_left_iff.2 ?_
  have known : file ∈ files := by
    rw [← withOffsets_files files 0]
    exact List.mem_map_of_mem member
  refine filterMap_forall₂ fun call present => ?_
  obtain ⟨definition, here, function⟩ := (extracted file known).callers call present
  obtain ⟨id, numbered, own⟩ := own_number length member here
  exact ⟨_, by rw [numbered, Option.map_some], ⟨rfl, rfl, rfl, rfl, definition, here, function, own⟩⟩

theorem caller_in_range {early late : List FileFacts} {file : FileFacts} {call : CallSite}
    (extracted : file.Extracted) (member : call ∈ file.calls) :
    (drafts early).length + call.caller < (drafts (early ++ file :: late)).length := by
  obtain ⟨definition, here, -⟩ := extracted.callers call member
  have bound := (List.getElem?_eq_some_iff.1 here).1
  simp only [drafts_append, drafts_cons, List.length_append, List.length_map]
  omega

end Refresh

namespace Store

variable {store after : Store} {projectId id : Int} {symbol filename : String} {key : EntityKey}

/-- The callee that a client finds for a symbol in a file: the first function of the file, else the
first of the project. -/
def preferred (functions : List Entity) (filename : String) : Option Int :=
  ((functions.find? (·.filename == filename)).or functions.head?).map (·.id)

theorem preferred_eq_none_iff {functions : List Entity} :
    preferred functions filename = none ↔ functions = [] := by
  constructor
  · intro missing
    simp only [preferred, Option.map_eq_none_iff, Option.or_eq_none_iff, List.head?_eq_none_iff]
      at missing
    exact missing.2
  · rintro rfl
    rfl

theorem entitiesNamed_congr
    (same : after.entities.rows.filter (·.projectId == projectId) =
      store.entities.rows.filter (·.projectId == projectId)) (symbol : String)
    (kinds : List EntityKind) :
    after.entitiesNamed projectId symbol kinds = store.entitiesNamed projectId symbol kinds := by
  have named : ∀ rows : List EntityRow,
      rows.filter (fun row => row.projectId == projectId && row.symbol == symbol) =
        (rows.filter (·.projectId == projectId)).filter (·.symbol == symbol) := by
    intro rows
    rw [List.filter_filter]
    exact List.filter_congr fun row _ => Bool.and_comm _ _
  simp only [entitiesNamed, named, same]

theorem identifies_congr
    (same : after.entities.rows.filter (·.projectId == projectId) =
      store.entities.rows.filter (·.projectId == projectId)) (owned : key.projectId = projectId) :
    after.Identifies id key ↔ store.Identifies id key := by
  have inside : ∀ other : Store, other.Identifies id key ↔
      ∃ row ∈ other.entities.rows.filter (·.projectId == projectId), row.id = id ∧ row.key = key := by
    intro other
    constructor
    · rintro ⟨row, member, numbered, rfl⟩
      exact ⟨row, List.mem_filter.2 ⟨member, beq_iff_eq.2 owned⟩, numbered, rfl⟩
    · rintro ⟨row, member, numbered, keyed⟩
      exact ⟨row, (List.mem_filter.1 member).1, numbered, keyed⟩
  rw [inside, inside, same]

/-- A stored call tells what was extracted: its line, text and symbol, the function that it stands in,
and the function that the symbol means there. Only if the project has no function of that symbol is
there no callee. -/
structure Records (store : Store) (projectId : Int) (site : FileFacts × CallSite) (row : CallRow) :
    Prop where
  line : row.line = site.2.line.toNat
  comment : row.comment = site.2.snippet
  symbol : row.calleeSymbol = site.2.callee
  caller : ∃ definition, site.1.definitions[site.2.caller]? = some definition ∧
    store.Identifies row.callerId ⟨projectId, site.1.language.name, definition.symbol,
      EntityKind.function.name, site.1.filename⟩
  callee : ∃ functions, store.entitiesNamed projectId site.2.callee [.function] = .ok functions ∧
    row.calleeId = preferred functions site.1.filename
  unresolved : row.calleeId = none ↔ ¬ ∃ id language filename, store.Identifies id
    ⟨projectId, language, site.2.callee, EntityKind.function.name, filename⟩

theorem Records.congr {site : FileFacts × CallSite} {row : CallRow}
    (records : store.Records projectId site row)
    (same : after.entities.rows.filter (·.projectId == projectId) =
      store.entities.rows.filter (·.projectId == projectId)) : after.Records projectId site row where
  line := records.line
  comment := records.comment
  symbol := records.symbol
  caller := by
    obtain ⟨definition, here, stands⟩ := records.caller
    exact ⟨definition, here, (identifies_congr same rfl).2 stands⟩
  callee := by
    rw [entitiesNamed_congr same]
    exact records.callee
  unresolved := by
    rw [records.unresolved]
    refine not_congr (exists_congr fun id => exists_congr fun language => exists_congr fun file => ?_)
    exact (identifies_congr same rfl).symm

end Store

namespace Refresh.Stages

open Store

variable {store after : Store} {name rootPath : String} {scanned : Nat} {files : List FileFacts}
  {report : RefreshReport} (stages : Stages store name rootPath scanned files report after)
include stages

theorem entities_counted (keyed : store.Keyed) : report.entities = (drafts files).length :=
  (congrArg RefreshReport.entities stages.reported).trans (stages.numbers keyed).length_eq.symm

/-- What calls are resolved against are the extracted identities under their stored numbers. -/
theorem mem_targets (keyed : store.Keyed) {target : Target} :
    target ∈ targets (drafts files) stages.ids ↔
      ∃ draft ∈ drafts files, after.Identifies target.id (draft.key stages.project.id) ∧
        target.symbol = draft.symbol ∧ target.kind = draft.kind ∧
          target.filename = draft.filename := by
  rw [targets, List.mem_mergeSort, List.mem_map]
  constructor
  · rintro ⟨⟨draft, id⟩, pair, rfl⟩
    have stands := (List.forall₂_iff_zip.1 (stages.numbers keyed)).2 pair
    exact ⟨draft, (List.of_mem_zip pair).1, stands, rfl, rfl, rfl⟩
  · rintro ⟨draft, member, stands, symbol, kind, filename⟩
    obtain ⟨id, pair, stands'⟩ := exists_right_of_mem (stages.numbers keyed) member
    have numbered : id = target.id := (stages.after_keyed keyed).number_eq stands' stands
    refine ⟨(draft, id), pair, ?_⟩
    simp only [← symbol, ← kind, ← filename, numbered]

theorem targets_sorted :
    (targets (drafts files) stages.ids).Pairwise fun a b => a.id ≤ b.id :=
  pairwise_mergeSort_key (fun _ _ => decide_eq_true_iff) _

theorem reads (keyed : store.Keyed) (current : store.Current stages.project) {row : EntityRow}
    (member : row ∈ after.entities.rows) (owned : row.projectId = stages.project.id) :
    ∃ draft ∈ drafts files, row.key = draft.key stages.project.id ∧
      row.read = .ok { toEntityDraft := draft, id := row.id, projectId := stages.project.id } := by
  obtain ⟨draft, last, written⟩ := stages.written keyed current member owned
  rw [written]
  exact ⟨draft, lastDrafts_subset last, rfl, EntityRow.ofDraft_read _ _ _ _⟩

/-- The declarations of the project by symbol: readable, in the order of their numbers, and those that
were extracted. -/
theorem entitiesNamed_extracted (keyed : store.Keyed) (current : store.Current stages.project)
    (symbol : String) {kinds : List EntityKind} (restricted : kinds ≠ []) :
    ∃ found, after.entitiesNamed stages.project.id symbol kinds = .ok found ∧
      (found.Pairwise fun a b => a.id ≤ b.id) ∧
      ∀ id filename, (∃ entity ∈ found, entity.filename = filename ∧ entity.id = id) ↔
        ∃ draft ∈ drafts files, after.Identifies id (draft.key stages.project.id) ∧
          draft.symbol = symbol ∧ draft.kind ∈ kinds ∧ draft.filename = filename := by
  let rows := after.entities.rows.filter fun row =>
    row.projectId == stages.project.id && row.symbol == symbol
  have mem_rows : ∀ row, row ∈ rows ↔
      row ∈ after.entities.rows ∧ row.projectId = stages.project.id ∧ row.symbol = symbol := by
    intro row
    simp only [rows, List.mem_filter, Bool.and_eq_true, beq_iff_eq]
  obtain ⟨values, success⟩ : ∃ values, rows.mapM EntityRow.read = .ok values := by
    refine mapM_succeeds fun row member => ?_
    obtain ⟨present, owned, -⟩ := (mem_rows row).1 member
    obtain ⟨draft, -, -, read⟩ := stages.reads keyed current present owned
    exact ⟨_, read⟩
  have sorted : values.Pairwise fun a b => a.id ≤ b.id := by
    have numbers : (rows.map (·.id)).Pairwise (· ≤ ·) :=
      List.pairwise_map.2 ((after.entities.ordered.filter _).imp fun less => le_of_lt less)
    rw [← read_ids success] at numbers
    exact List.pairwise_map.1 numbers
  refine ⟨values.filter fun entity => kinds.contains entity.kind, ?_, sorted.filter _, ?_⟩
  · refine bind_eq_ok.2 ⟨values, success, ?_⟩
    rw [if_neg (by simpa using restricted)]
  · intro id filename
    simp only [List.mem_filter, mem_read_iff success, List.contains_iff_mem]
    constructor
    · rintro ⟨entity, ⟨⟨row, member, read⟩, kind⟩, rfl, rfl⟩
      obtain ⟨present, owned, named⟩ := (mem_rows row).1 member
      obtain ⟨draft, extracted, keyed', read'⟩ := stages.reads keyed current present owned
      rw [read, Except.ok.injEq] at read'
      subst read'
      exact ⟨draft, extracted, ⟨row, present, rfl, keyed'⟩,
        (congrArg EntityKey.symbol keyed').symm.trans named, kind, rfl⟩
    · rintro ⟨draft, -, ⟨row, present, rfl, same⟩, rfl, kind, rfl⟩
      have owned : row.projectId = stages.project.id := congrArg EntityKey.projectId same
      obtain ⟨writer, -, keyed', read⟩ := stages.reads keyed current present owned
      -- Another draft may have written the row, but one of the same identity.
      have identity := EntityDraft.key_eq_iff.1 (keyed'.symm.trans same)
      simp only [EntityDraft.identity, Prod.mk.injEq] at identity
      obtain ⟨-, -, sameKind, sameFile⟩ := identity
      exact ⟨_, ⟨⟨row, (mem_rows row).2 ⟨present, owned, congrArg EntityKey.symbol same⟩, read⟩,
        sameKind ▸ kind⟩, sameFile, rfl⟩

/-- The lookup among the definitions of the refresh finds what a client finds in the store. -/
theorem lookup_eq (keyed : store.Keyed) (current : store.Current stages.project)
    {symbol : String} {kinds : List EntityKind} (restricted : kinds ≠ []) {found : List Entity}
    (success : after.entitiesNamed stages.project.id symbol kinds = .ok found) (filename : String) :
    lookup (targets (drafts files) stages.ids) symbol filename kinds = preferred found filename := by
  obtain ⟨values, success', sorted, members⟩ :=
    stages.entitiesNamed_extracted keyed current symbol restricted
  obtain rfl : found = values := Except.ok.inj (success.symm.trans success')
  let accepted := (targets (drafts files) stages.ids).filter fun target =>
    target.symbol == symbol && kinds.contains target.kind
  -- A number can occur several times among the targets, so the lists agree in numbers only.
  have members' : ∀ id file, (∃ target ∈ accepted, target.filename = file ∧ target.id = id) ↔
      ∃ entity ∈ found, entity.filename = file ∧ entity.id = id := by
    intro id file
    rw [members]
    simp only [accepted, List.mem_filter, stages.mem_targets keyed, Bool.and_eq_true, beq_iff_eq,
      List.contains_iff_mem]
    constructor
    · rintro ⟨target, ⟨⟨draft, present, stands, symbol', kind, file'⟩, rfl, accept⟩, rfl, rfl⟩
      exact ⟨draft, present, stands, symbol'.symm, kind ▸ accept, file'.symm⟩
    · rintro ⟨draft, present, stands, rfl, accept, rfl⟩
      exact ⟨⟨id, draft.symbol, draft.kind, draft.filename⟩,
        ⟨⟨draft, present, stands, rfl, rfl, rfl⟩, rfl, accept⟩, rfl, rfl⟩
  have sorted' : accepted.Pairwise fun a b => a.id ≤ b.id := stages.targets_sorted.filter _
  have here : (accepted.find? (·.filename == filename)).map (·.id) =
      (found.find? (·.filename == filename)).map (·.id) := by
    refine find?_number_eq sorted' sorted fun id => ?_
    simp only [beq_iff_eq]
    exact members' id filename
  have anywhere : (accepted.find? fun _ => true).map (·.id) =
      (found.find? fun _ => true).map (·.id) := by
    refine find?_number_eq sorted' sorted fun id => ?_
    constructor
    · rintro ⟨target, member, -, same⟩
      obtain ⟨entity, member', -, same'⟩ := (members' id _).1 ⟨target, member, rfl, same⟩
      exact ⟨entity, member', rfl, same'⟩
    · rintro ⟨entity, member, -, same⟩
      obtain ⟨target, member', -, same'⟩ := (members' id _).2 ⟨entity, member, rfl, same⟩
      exact ⟨target, member', rfl, same'⟩
  simp only [← List.head?_filter, List.filter_true] at anywhere
  simp only [lookup, preferred, Option.map_or]
  rw [here, anywhere]

/-- The project lacks declarations of a symbol and some kinds exactly if none was extracted. -/
theorem entitiesNamed_eq_nil_iff (keyed : store.Keyed) (current : store.Current stages.project)
    {symbol : String} {kinds : List EntityKind} (restricted : kinds ≠ []) {found : List Entity}
    (success : after.entitiesNamed stages.project.id symbol kinds = .ok found) :
    found = [] ↔ ¬ ∃ kind ∈ kinds, ∃ id language filename, after.Identifies id
      ⟨stages.project.id, language, symbol, kind.name, filename⟩ := by
  obtain ⟨values, success', -, members⟩ :=
    stages.entitiesNamed_extracted keyed current symbol restricted
  obtain rfl : found = values := Except.ok.inj (success.symm.trans success')
  rw [List.eq_nil_iff_forall_not_mem]
  constructor
  · rintro nothing ⟨kind, accepted, id, language, filename, row, present, rfl, same⟩
    obtain ⟨draft, extracted, keyed', -⟩ :=
      stages.reads keyed current present (congrArg EntityKey.projectId same)
    have key := keyed'.symm.trans same
    obtain rfl : draft.kind = kind :=
      EntityDraft.kind_name_injective (congrArg EntityKey.kind key)
    obtain ⟨entity, member, -⟩ := (members row.id draft.filename).2
      ⟨draft, extracted, ⟨row, present, rfl, keyed'⟩, congrArg EntityKey.symbol key, accepted, rfl⟩
    exact nothing entity member
  · intro nothing entity member
    obtain ⟨draft, -, stands, rfl, kind, -⟩ := (members entity.id entity.filename).1
      ⟨entity, member, rfl, rfl⟩
    exact nothing ⟨draft.kind, kind, entity.id, _, _, stands⟩

theorem records (keyed : store.Keyed) (current : store.Current stages.project)
    {site : FileFacts × CallSite} {draft : CallDraft} {row : CallRow}
    (drawn : Drafts files stages.ids site draft)
    (written : row = CallRow.ofDraft stages.project.id draft row.id) :
    after.Records stages.project.id site row := by
  obtain ⟨functions, success, -, -⟩ := stages.entitiesNamed_extracted keyed current site.2.callee
    (List.cons_ne_nil EntityKind.function [])
  have callee : row.calleeId = preferred functions site.1.filename := by
    rw [congrArg CallRow.calleeId written]
    exact drawn.callee.trans (stages.lookup_eq keyed current (List.cons_ne_nil _ _) success _)
  constructor
  · rw [congrArg CallRow.line written, ← drawn.line]
    rfl
  · exact (congrArg CallRow.comment written).trans drawn.comment
  · exact (congrArg CallRow.calleeSymbol written).trans drawn.symbol
  · obtain ⟨definition, here, function, pair⟩ := drawn.caller
    refine ⟨definition, here, ?_⟩
    rw [← function, congrArg CallRow.callerId written]
    exact (List.forall₂_iff_zip.1 (stages.numbers keyed)).2 pair
  · exact ⟨functions, success, callee⟩
  · rw [callee, preferred_eq_none_iff,
      stages.entitiesNamed_eq_nil_iff keyed current (List.cons_ne_nil _ _) success]
    simp only [List.mem_singleton, exists_eq_left]

/-- The calls of the project are those that the refresh has stored. -/
theorem own_calls : List.Forall₂ (fun draft row => row = CallRow.ofDraft stages.project.id draft row.id)
    (allCalls files stages.ids) (after.calls.rows.filter (·.projectId == stages.project.id)) := by
  obtain ⟨added, rows, written⟩ := stages.calls_rows
  have own : after.calls.rows.filter (·.projectId == stages.project.id) = added := by
    rw [rows, List.filter_append, List.filter_filter]
    have others : (stages.purged.calls.rows.filter fun row =>
        row.projectId == stages.project.id && row.projectId != stages.project.id) = [] := by
      rw [List.filter_eq_nil_iff]
      intro row _ both
      simp only [Bool.and_eq_true, beq_iff_eq, bne_iff_ne] at both
      exact both.2 both.1
    rw [others, List.nil_append, List.filter_eq_self]
    intro row member
    obtain ⟨draft, -, row_eq⟩ := exists_left_of_mem written member
    exact beq_iff_eq.2 (congrArg CallRow.projectId row_eq)
  rw [own]
  exact written

/-- The calls of the project are those extracted, in that order, and the unresolved ones are counted. -/
theorem calls_recorded (keyed : store.Keyed) (current : store.Current stages.project)
    (extracted : ∀ file ∈ files, file.Extracted) :
    List.Forall₂ (after.Records stages.project.id) (sites files)
        (after.calls.rows.filter (·.projectId == stages.project.id)) ∧
      report.unresolvedCalls = ((after.calls.rows.filter (·.projectId == stages.project.id)).filter
        (·.calleeId.isNone)).length := by
  constructor
  · have drawn := allCalls_sites (stages.numbers keyed).length_eq extracted
    exact forall₂_comp drawn stages.own_calls fun site draft row => stages.records keyed current
  · rw [congrArg RefreshReport.unresolvedCalls stages.reported]
    refine List.Forall₂.length_eq (R := fun draft row => row = CallRow.ofDraft stages.project.id draft row.id) ?_
    refine List.rel_filter ?_ stages.own_calls
    intro draft row row_eq
    rw [row_eq]
    rfl

end Refresh.Stages

namespace Store

open Syntax

/-- Whatever is refreshed before, and whichever other projects are refreshed after, the calls of a project
are those of its last refresh: one for each call that was extracted, in that order, with the caller and
the callee that the store now has for it. The offset of a file is the number of definitions before it, no
caller behind it lies outside the definitions of the refresh, and the report counts the calls without a
callee. -/
theorem refreshed_calls_recorded (before later : List RefreshRequest) (last : RefreshRequest)
    (extracted : ∀ file ∈ last.files, file.Extracted)
    (others : ∀ request ∈ later, request.name ≠ last.name) :
    ∃ report after project,
      (empty.refreshAll before).refresh last.name last.rootPath last.scanned last.files =
        .ok (report, after) ∧
      (empty.refreshAll (before ++ last :: later)).project? last.name = some project ∧
      project.id = report.projectId ∧
      List.Forall₂ ((empty.refreshAll (before ++ last :: later)).Records project.id)
        (sites last.files)
        ((empty.refreshAll (before ++ last :: later)).calls.rows.filter
          (·.projectId == project.id)) ∧
      (∀ early file late, last.files = early ++ file :: late →
        (file, (drafts early).length) ∈ withOffsets 0 last.files ∧
          ∀ call ∈ file.calls, (drafts early).length + call.caller < report.entities) ∧
      report.unresolvedCalls = (((empty.refreshAll (before ++ last :: later)).calls.rows.filter
        (·.projectId == project.id)).filter (·.calleeId.isNone)).length := by
  have orderly : (empty.refreshAll before).Orderly := empty_orderly.refreshAll before
  obtain ⟨report, after, success⟩ := refresh_succeeds (empty.refreshAll before) last.name last.rootPath
    last.scanned last.files
  obtain ⟨stages⟩ := refresh_stages success
  rw [refreshAll_append, refreshAll_cons success]
  -- The project as its last refresh has left it is stored until the end.
  let project := { stages.project with generation := report.generation }
  have named : project.name = last.name := stages.project_named
  have stored : project ∈ after.projects.rows := stages.mem_projects.2 (Or.inr rfl)
  obtain ⟨kept, entities, calls⟩ := (stages.orderly orderly).refreshAll_others stored (named ▸ others)
  obtain ⟨recorded, unresolved⟩ :=
    stages.calls_recorded orderly.keyed (orderly.current stages.moves) extracted
  refine ⟨report, after, project, success, ?_, stages.owner_eq.symm, ?_, ?_, ?_⟩
  · rw [← named]
    exact ((stages.orderly orderly).refreshAll later).project?_eq kept
  · rw [calls]
    exact recorded.imp fun site row records => records.congr entities
  · intro early file late split
    refine ⟨mem_withOffsets_iff.2 ⟨early, late, split, (Nat.zero_add _).symm⟩, fun call member => ?_⟩
    rw [stages.entities_counted orderly.keyed, split]
    exact caller_in_range (extracted file (split ▸ List.mem_append_right _ List.mem_cons_self)) member
  · rw [calls]
    exact unresolved

/-! A function calls one of its own file and one that no file defines. -/

def wordNode (text : String) : Node where
  kind := "identifier"
  text := text

def callNode (symbol : String) : Node where
  kind := "call"
  text := symbol ++ "()"
  fields := [("function", ⟨0, []⟩)]
  children := [wordNode symbol]

def functionNode (symbol : String) (called : List String) : Node where
  kind := "function_definition"
  text := "def " ++ symbol
  fields := [("name", ⟨0, []⟩)]
  children := wordNode symbol :: called.map callNode

def appFile : FileFacts :=
  fileFacts "app.py" .python false
    { kind := "module", text := "",
      children := [functionNode "main" ["helper", "print"], functionNode "helper" []] }

def appRequest : RefreshRequest :=
  ⟨"app", "/app", 1, [appFile]⟩

def shopRequest : RefreshRequest :=
  ⟨"shop", "/shop", 1, [shopFile [("helper", 1), ("print", 5)]]⟩

theorem app_calls_recorded :
    ∃ project resolved unresolved,
      (empty.refreshAll ([shopRequest] ++ appRequest :: [shopRequest])).project? "app" =
        some project ∧
      (empty.refreshAll ([shopRequest] ++ appRequest :: [shopRequest])).calls.rows.filter
        (·.projectId == project.id) = [resolved, unresolved] ∧
      resolved.calleeSymbol = "helper" ∧ resolved.calleeId = some 4 ∧
      unresolved.calleeSymbol = "print" ∧ unresolved.calleeId = none := by
  have extracted : ∀ file ∈ appRequest.files, file.Extracted := by
    intro file member
    cases List.mem_singleton.1 member
    exact ⟨false, _, rfl⟩
  have others : ∀ request ∈ [shopRequest], request.name ≠ appRequest.name := by
    intro request member
    cases List.mem_singleton.1 member
    decide
  have found : sites appRequest.files = [(appFile, ⟨0, "helper", 1, some "helper()"⟩),
      (appFile, ⟨0, "print", 1, some "print()"⟩)] := by decide +kernel
  obtain ⟨report, after, project, -, named, -, recorded, -, -⟩ :=
    refreshed_calls_recorded [shopRequest] [shopRequest] appRequest extracted others
  have numbered : project.id = 2 := by
    have known : ((empty.refreshAll ([shopRequest] ++ appRequest :: [shopRequest])).project?
        appRequest.name).map (·.id) = some 2 := by decide +kernel
    rw [named] at known
    exact Option.some.inj known
  have helper : ((empty.refreshAll ([shopRequest] ++ appRequest :: [shopRequest])).entitiesNamed 2
      "helper" [.function]).map (preferred · "app.py") = .ok (some 4) := by decide +kernel
  have print : ((empty.refreshAll ([shopRequest] ++ appRequest :: [shopRequest])).entitiesNamed 2
      "print" [.function]).map (preferred · "app.py") = .ok none := by decide +kernel
  rw [found] at recorded
  generalize calls : List.filter _ _ = rows at recorded
  cases recorded with
  | cons first rest =>
      cases rest with
      | cons second none =>
          cases none
          obtain ⟨here, success, callee⟩ := first.callee
          obtain ⟨nowhere, success', callee'⟩ := second.callee
          rw [numbered] at success success'
          rw [success] at helper
          rw [success'] at print
          exact ⟨project, _, _, named, calls, first.symbol, callee.trans (Except.ok.inj helper),
            second.symbol, callee'.trans (Except.ok.inj print)⟩

end Store

end DeclGraph
