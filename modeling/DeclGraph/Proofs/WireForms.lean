import Mathlib
import DeclGraph.Proofs.AmendedObjects
import DeclGraph.Wire.Config
import DeclGraph.Wire.Entity

/-! The rows of the graph and the settings in JSON. What is written for a row is read back as that row,
and a reader takes any object that says the same. -/
namespace DeclGraph

namespace Wire

def ReadsBack {α : Type} (write : α → Json) (read : Json → Option α) (value : α) : Prop :=
  read (write value) = some value ∧
    (Json.parse? (write value).render).bind read = some value

theorem readsBack_of {α : Type} {write : α → Json} {read : Json → Option α} {value : α}
    (wellFormed : (write value).WellFormed) (same : read (write value) = some value) :
    ReadsBack write read value := by
  rw [ReadsBack, Json.parse?_render wellFormed]
  exact ⟨same, same⟩

/-- The numbers of the store have 64 bits. -/
def Fits (n : Int) : Prop :=
  -9223372036854775808 ≤ n ∧ n ≤ 9223372036854775807

@[simp] theorem int?_int {n : Int} (fits : Fits n) : int? (.int n) = some n :=
  if_pos fits

@[simp] theorem word32?_ofWord (n : UInt32) : word32? (.ofWord n) = some n := by
  have small := n.toNat_lt
  have range : (0 : Int) ≤ n.toNat ∧ (n.toNat : Int) ≤ 4294967295 := by omega
  simp [word32?, Json.ofWord, intIn?, range]

@[simp] theorem word64?_ofNat (n : UInt64) : word64? (.ofNat n.toNat) = some n := by
  have small := n.toNat_lt
  have range : (0 : Int) ≤ n.toNat ∧ (n.toNat : Int) ≤ 18446744073709551615 := by omega
  simp [word64?, Json.ofNat, intIn?, range]

@[simp] theorem string?_str (text : String) : string? (.str text) = some text :=
  rfl

@[simp] theorem bool?_bool (value : Bool) : bool? (.bool value) = some value :=
  rfl

theorem record?_obj {fields : List (String × Json)} (distinct : (fields.map Prod.fst).Nodup)
    (names : List String) : record? names (.obj fields) = some ⟨fields, false⟩ := by
  have single : unrepeated names fields = true := by
    rw [unrepeated_iff]
    intro name _
    have once := List.nodup_iff_count_le_one.1 distinct name
    rwa [List.count, List.countP_map] at once
  rw [record?, if_pos single]

-- Keys that name no field may be repeated, fields may not.
example : record? ["line"] (.obj [("note", .null), ("line", .int 1), ("line", .int 1)]) = none :=
  rfl

theorem field?_ofFields {fields : List (String × Option Json)} (distinct : (fields.map Prod.fst).Nodup)
    (key : String) : (Json.ofFields fields).field? key = (fields.lookup key).join := by
  induction fields with
  | nil => rfl
  | cons entry rest ih =>
      obtain ⟨own, held⟩ := entry
      obtain ⟨fresh, others⟩ := List.nodup_cons.1 distinct
      specialize ih others
      by_cases same : key = own
      · cases same
        rw [List.lookup_cons_self]
        cases held with
        | none =>
            rw [lookup_eq_none_of_fresh fresh] at ih
            exact ih
        | some value => exact List.lookup_cons_self
      · rw [lookup_cons_of_ne held same, ← ih]
        cases held with
        | none => rfl
        | some value => exact lookup_cons_of_ne value same

end Wire

open Wire

theorem Language.readsBack (language : Language) : ReadsBack toJson ofJson? language :=
  readsBack_of (.str _) (by cases language <;> rfl)

theorem EntityKind.readsBack (kind : EntityKind) : ReadsBack toJson ofJson? kind :=
  readsBack_of (.str _) (by cases kind <;> rfl)

theorem Heritage.readsBack (heritage : Heritage) : ReadsBack toJson ofJson? heritage :=
  readsBack_of (.str _) (by cases heritage <;> rfl)

namespace Entity

def Fits (entity : Entity) : Prop :=
  Wire.Fits entity.id ∧ Wire.Fits entity.projectId

abbrev slots : List Slot :=
  [.needed "id", .needed "project_id", .needed "language", .needed "symbol", .needed "kind",
    .needed "filename", .needed "start_line", .needed "end_line", .optional "source"]

theorem readsBack {entity : Entity} (fits : entity.Fits) : ReadsBack toJson ofJson? entity := by
  obtain ⟨⟨language, symbol, kind, filename, startLine, endLine, source⟩, id, projectId⟩ := entity
  obtain ⟨own, project⟩ := fits
  simp only at own project
  apply readsBack_of
  · cases source <;> simp [toJson, Json.ofFields, Language.toJson, EntityKind.toJson]
  · cases source <;>
      simp [ofJson?, toJson, Json.ofFields, record?_obj, Record.required, Record.optional, nullable?,
        lookup_cons_of_ne, own, project, language.readsBack.1, kind.readsBack.1]

theorem field?_source (entity : Entity) : entity.toJson.field? "source" = entity.source.map .str :=
  field?_ofFields (by simp) "source"

theorem tolerant : Tolerant .obj slots ofJson? :=
  tolerant_object (by decide) <| byField_object (fun _ => rfl) fun agrees => by
    simp [agrees.required, agrees.optional]

end Entity

namespace Call

def Fits (call : Call) : Prop :=
  Wire.Fits call.id ∧ Wire.Fits call.callerId ∧ ∀ callee ∈ call.calleeId, Wire.Fits callee

abbrev slots : List Slot :=
  [.needed "id", .needed "caller_id", .optional "callee_id", .needed "callee_symbol", .needed "line",
    .optional "comment"]

theorem readsBack {call : Call} (fits : call.Fits) : ReadsBack toJson ofJson? call := by
  obtain ⟨⟨callerId, calleeId, calleeSymbol, line, comment⟩, id⟩ := call
  obtain ⟨own, caller, callee⟩ := fits
  simp only at own caller callee
  apply readsBack_of
  · cases calleeId <;> cases comment <;> simp [toJson, Json.ofFields]
  · cases calleeId <;> cases comment <;>
      simp [ofJson?, toJson, Json.ofFields, record?_obj, Record.required, Record.optional, nullable?,
        lookup_cons_of_ne, own, caller, callee]

theorem field?_calleeId (call : Call) : call.toJson.field? "callee_id" = call.calleeId.map .int :=
  field?_ofFields (by simp) "callee_id"

theorem field?_comment (call : Call) : call.toJson.field? "comment" = call.comment.map .str :=
  field?_ofFields (by simp) "comment"

theorem tolerant : Tolerant .obj slots ofJson? :=
  tolerant_object (by decide) <| byField_object (fun _ => rfl) fun agrees => by
    simp [agrees.required, agrees.optional]

end Call

namespace Parent

abbrev slots : List Slot :=
  [.needed "parent_symbol", .needed "relationship_type"]

theorem readsBack (parent : Parent) : ReadsBack toJson ofJson? parent := by
  apply readsBack_of
  · simp [toJson, Heritage.toJson]
  · simp [ofJson?, toJson, record?_obj, Record.required, lookup_cons_of_ne, parent.heritage.readsBack.1]

theorem tolerant : Tolerant .obj slots ofJson? :=
  tolerant_object (by decide) <| byField_object (fun _ => rfl) fun agrees => by
    simp [agrees.required]

end Parent

namespace ParentEdge

def Fits (edge : ParentEdge) : Prop :=
  Wire.Fits edge.id ∧ Wire.Fits edge.childId ∧ ∀ parent ∈ edge.parentId, Wire.Fits parent

abbrev slots : List Slot :=
  [.needed "id", .needed "child_entity_id", .optional "parent_entity_id", .needed "parent_symbol",
    .needed "relationship_type"]

theorem readsBack {edge : ParentEdge} (fits : edge.Fits) : ReadsBack toJson ofJson? edge := by
  obtain ⟨id, childId, parentId, symbol, heritage⟩ := edge
  obtain ⟨own, child, parent⟩ := fits
  simp only at own child parent
  apply readsBack_of
  · cases parentId <;> simp [toJson, Json.ofOption, Heritage.toJson]
  · cases parentId <;>
      simp [ofJson?, toJson, Json.ofOption, record?_obj, Record.required, Record.optional, nullable?,
        lookup_cons_of_ne, own, child, parent, heritage.readsBack.1]

theorem tolerant : Tolerant .obj slots ofJson? :=
  tolerant_object (by decide) <| byField_object (fun _ => rfl) fun agrees => by
    simp [agrees.required, agrees.optional]

end ParentEdge

namespace Project

def Fits (project : Project) : Prop :=
  Wire.Fits project.id ∧ Wire.Fits project.generation

abbrev slots : List Slot :=
  [.needed "id", .needed "name", .needed "root_path", .needed "generation"]

theorem readsBack {project : Project} (fits : project.Fits) : ReadsBack toJson ofJson? project := by
  obtain ⟨own, generation⟩ := fits
  apply readsBack_of
  · simp [toJson]
  · simp [ofJson?, toJson, record?_obj, Record.required, lookup_cons_of_ne, own, generation]

theorem tolerant : Tolerant .obj slots ofJson? :=
  tolerant_object (by decide) <| byField_object (fun _ => rfl) fun agrees => by
    simp [agrees.required]

end Project

namespace Limits

abbrev slots : List Slot :=
  [.defaulted word32? "default_depth" 3, .defaulted word32? "max_tree_depth" 10,
    .defaulted word32? "max_graph_depth" 32, .defaulted word32? "reverse_graph_max_depth" 5,
    .defaulted word64? "max_nodes" 2000]

theorem ofJson?_toJson (limits : Limits) : ofJson? limits.toJson = some limits := by
  simp [ofJson?, toJson, record?_obj, Record.withDefault, lookup_cons_of_ne]

theorem byField : ByField slots fun entries => ofJson? (.obj entries) :=
  byField_object (fun _ => rfl) fun agrees => by simp [agrees.withDefault]

theorem tolerant : Tolerant .obj slots ofJson? :=
  tolerant_object (by decide) byField

end Limits

namespace Indexing

abbrev slots : List Slot :=
  [.defaulted word64? "max_file_bytes" 1048576, .defaulted bool? "exclude_tests" false,
    .defaulted bool? "store_source" true]

theorem ofJson?_toJson (indexing : Indexing) : ofJson? indexing.toJson = some indexing := by
  simp [ofJson?, toJson, record?_obj, Record.withDefault, lookup_cons_of_ne]

theorem byField : ByField slots fun entries => ofJson? (.obj entries) :=
  byField_object (fun _ => rfl) fun agrees => by simp [agrees.withDefault]

theorem tolerant : Tolerant .obj slots ofJson? :=
  tolerant_object (by decide) byField

end Indexing

namespace Config

abbrev slots : List Slot :=
  [.defaulted string? "version" "1.0", .defaulted (nullable? string?) "database" none,
    .defaulted Limits.ofJson? "traversal" {}, .defaulted Indexing.ofJson? "indexing" {}]

theorem readsBack (config : Config) : ReadsBack toJson ofJson? config := by
  obtain ⟨version, database, traversal, indexing⟩ := config
  apply readsBack_of
  · cases database <;> simp [toJson, Json.ofFields, Limits.toJson, Indexing.toJson]
  · cases database <;>
      simp [ofJson?, toJson, Json.ofFields, record?_obj, Record.withDefault, nullable?, lookup_cons_of_ne,
        Limits.ofJson?_toJson, Indexing.ofJson?_toJson]

theorem field?_database (config : Config) :
    config.toJson.field? "database" = config.database.map .str :=
  field?_ofFields (by simp) "database"

theorem tolerant : Tolerant .obj slots ofJson? :=
  tolerant_object (by decide) <| byField_object (fun _ => rfl) fun agrees => by
    simp [agrees.withDefault]

section Sections
variable {before after : List (String × Json)} {key : String} {value value' : Json}

-- A setting under another name does not see what is replaced.
theorem ofJson?_replace (version : "version" ≠ key) (database : "database" ≠ key)
    (traversal : "traversal" = key → Limits.ofJson? value' = Limits.ofJson? value)
    (indexing : "indexing" = key → Indexing.ofJson? value' = Indexing.ofJson? value) :
    ofJson? (.obj (before ++ (key, value') :: after)) =
      ofJson? (.obj (before ++ (key, value) :: after)) := by
  simp only [ofJson?, record?, unrepeated_replace fieldNames value value']
  split
  · simp only [Option.bind_eq_bind, Option.bind_some]
    rw [withDefault_replace value value' fun own => absurd own version,
      withDefault_replace value value' fun own => absurd own database,
      withDefault_replace value value' traversal, withDefault_replace value value' indexing]
  · rfl

theorem ofJson?_sections {fields : List (String × Json)} {config : Config}
    (read : ofJson? (.obj fields) = some config) :
    unrepeated fieldNames fields = true ∧
      Record.withDefault ⟨fields, false⟩ Limits.ofJson? "traversal" {} = some config.traversal ∧
      Record.withDefault ⟨fields, false⟩ Indexing.ofJson? "indexing" {} = some config.indexing := by
  simp only [ofJson?, Option.bind_eq_bind, Option.bind_eq_some_iff] at read
  obtain ⟨record, opened, version, -, database, -, traversal, first, indexing, second, same⟩ := read
  obtain ⟨single, same'⟩ := Option.ite_none_right_eq_some.1 opened
  cases same'
  cases same
  exact ⟨single, first, second⟩

end Sections

theorem tolerant_traversal (before after : List (String × Json)) :
    Tolerant (fun part => .obj (before ++ ("traversal", .obj part) :: after)) Limits.slots ofJson? := by
  refine tolerant_inside (by decide) (Limits.byField.inside ?_ ?_)
  · intro value config read
    obtain ⟨single, traversal, -⟩ := ofJson?_sections read
    exact ⟨_, (withDefault_held (by decide) single _ _).symm.trans traversal⟩
  · intro value value' same
    exact ofJson?_replace (by decide) (by decide) (fun _ => same) fun own => absurd own (by decide)

theorem tolerant_indexing (before after : List (String × Json)) :
    Tolerant (fun part => .obj (before ++ ("indexing", .obj part) :: after)) Indexing.slots ofJson? := by
  refine tolerant_inside (by decide) (Indexing.byField.inside ?_ ?_)
  · intro value config read
    obtain ⟨single, -, indexing⟩ := ofJson?_sections read
    exact ⟨_, (withDefault_held (by decide) single _ _).symm.trans indexing⟩
  · intro value value' same
    exact ofJson?_replace (by decide) (by decide) (fun own => absurd own (by decide)) fun _ => same

end Config

namespace Wire

/-- Rows, settings and the constants in them come back from their JSON forms. A field without a value
is left out, except that an open parent is written as null. Whoever adds unknown keys to an object that
is read, reorders its keys or drops what says no more than its absence, at the top or in a section of
the settings, changes nothing. -/
theorem json_forms_read_back :
    (∀ language, ReadsBack Language.toJson Language.ofJson? language) ∧
    (∀ kind, ReadsBack EntityKind.toJson EntityKind.ofJson? kind) ∧
    (∀ heritage, ReadsBack Heritage.toJson Heritage.ofJson? heritage) ∧
    (∀ entity : Entity, entity.Fits → ReadsBack Entity.toJson Entity.ofJson? entity ∧
      entity.toJson.field? "source" = entity.source.map .str) ∧
    (∀ call : Call, call.Fits → ReadsBack Call.toJson Call.ofJson? call ∧
      call.toJson.field? "callee_id" = call.calleeId.map .int ∧
      call.toJson.field? "comment" = call.comment.map .str) ∧
    (∀ parent, ReadsBack Parent.toJson Parent.ofJson? parent) ∧
    (∀ edge : ParentEdge, edge.Fits → ReadsBack ParentEdge.toJson ParentEdge.ofJson? edge ∧
      edge.toJson.field? "parent_entity_id" = some (.ofOption .int edge.parentId)) ∧
    (∀ project : Project, project.Fits → ReadsBack Project.toJson Project.ofJson? project) ∧
    (∀ config, ReadsBack Config.toJson Config.ofJson? config ∧
      config.toJson.field? "database" = config.database.map .str) ∧
    Tolerant .obj Entity.slots Entity.ofJson? ∧
    Tolerant .obj Call.slots Call.ofJson? ∧
    Tolerant .obj Parent.slots Parent.ofJson? ∧
    Tolerant .obj ParentEdge.slots ParentEdge.ofJson? ∧
    Tolerant .obj Project.slots Project.ofJson? ∧
    Tolerant .obj Config.slots Config.ofJson? ∧
    Tolerant .obj Limits.slots Limits.ofJson? ∧
    Tolerant .obj Indexing.slots Indexing.ofJson? ∧
    ∀ before after,
      Tolerant (fun part => .obj (before ++ ("traversal", .obj part) :: after)) Limits.slots
        Config.ofJson? ∧
      Tolerant (fun part => .obj (before ++ ("indexing", .obj part) :: after)) Indexing.slots
        Config.ofJson? :=
  ⟨Language.readsBack, EntityKind.readsBack, Heritage.readsBack,
    fun _ fits => ⟨Entity.readsBack fits, Entity.field?_source _⟩,
    fun _ fits => ⟨Call.readsBack fits, Call.field?_calleeId _, Call.field?_comment _⟩,
    Parent.readsBack, fun _ fits => ⟨ParentEdge.readsBack fits, rfl⟩,
    fun _ fits => Project.readsBack fits, fun config => ⟨config.readsBack, config.field?_database⟩,
    Entity.tolerant, Call.tolerant, Parent.tolerant, ParentEdge.tolerant, Project.tolerant,
    Config.tolerant, Limits.tolerant, Indexing.tolerant,
    fun before after => ⟨Config.tolerant_traversal before after, Config.tolerant_indexing before after⟩⟩

def saveCall : Call :=
  ⟨⟨2, none, "save", 9, none⟩, 9223372036854775807⟩

def saveEntries : List (String × Json) :=
  [("callee_id", .null), ("id", .int 9223372036854775807), ("caller_id", .int 2),
    ("callee_symbol", .str "save"), ("line", .int 9)]

def saveEntriesAmended : List (String × Json) :=
  [("note", .bool true), ("caller_id", .int 2), ("id", .int 9223372036854775807),
    ("callee_symbol", .str "save"), ("line", .int 9)]

def depthEntries : List (String × Json) :=
  [("max_nodes", .int 2000), ("default_depth", .int 7)]

theorem amended_call_and_section_read :
    saveCall.Fits ∧ ReadsBack Call.toJson Call.ofJson? saveCall ∧
    Json.parse? (Json.obj saveEntries).render = some (.obj saveEntries) ∧
    (Json.parse? (Json.obj saveEntriesAmended).render).bind Call.ofJson? = some saveCall ∧
    Config.ofJson? (.obj [("traversal", .obj [("default_depth", .int 7)])]) =
      some { traversal := { defaultDepth := 7 } } := by
  have fits : saveCall.Fits := by simp [Call.Fits, saveCall, Fits]
  have spelled : Json.parse? (Json.obj saveEntries).render = some (.obj saveEntries) :=
    Json.parse?_render (by simp [saveEntries])
  have settings := Json.parse?_render (show (Json.obj [("traversal", .obj depthEntries)]).WellFormed by
    simp [depthEntries])
  obtain ⟨-, -, -, -, calls, -, -, -, -, -, tolerant, -, -, -, -, -, -, sections⟩ :=
    json_forms_read_back
  have dropped : Amends Call.slots saveEntries saveEntries.tail :=
    .drop (show Slot.optional "callee_id" ∈ Call.slots by simp) rfl
  have reordered : Amends Call.slots saveEntries.tail saveEntriesAmended.tail :=
    .reorder (.swap _ _ _)
  have added : Amends Call.slots saveEntriesAmended.tail saveEntriesAmended :=
    .add (by decide) (.bool true)
  have call := tolerant _ saveEntries saveEntriesAmended saveCall spelled rfl
    (((Relation.ReflTransGen.single dropped).tail reordered).tail added)
  have usual : Amends Limits.slots depthEntries depthEntries.tail :=
    .drop (show Slot.defaulted word64? "max_nodes" 2000 ∈ Limits.slots by simp) rfl
  have config := (sections [] []).1 _ depthEntries depthEntries.tail
    { traversal := { defaultDepth := 7 } } settings rfl (Relation.ReflTransGen.single usual)
  exact ⟨fits, (calls saveCall fits).1, spelled, call.2, config.1⟩

end Wire

end DeclGraph
