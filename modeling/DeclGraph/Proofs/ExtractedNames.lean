import Mathlib
import DeclGraph.Proofs.SourceOrder

/-! The names that extraction collects. Each is an identifier and no keyword. No blank is a letter, a
number or a joiner, so an identifier has no blank to be trimmed off. The parents that a node names are
collected names, in every language. -/
namespace DeclGraph

namespace Text

def blankPoints : List Nat :=
  List.range' 9 5 ++ [0x20, 0x85, 0xA0, 0x1680] ++ List.range' 0x2000 11 ++
    [0x2028, 0x2029, 0x202F, 0x205F, 0x3000]

theorem isBlank_iff {c : Char} : isBlank c = true ↔ c.toNat ∈ blankPoints := by
  simp only [isBlank, blankPoints, Bool.or_eq_true, Bool.and_eq_true, decide_eq_true_eq, beq_iff_eq,
    List.mem_append, List.mem_range'_1, List.mem_cons, List.not_mem_nil, or_false]
  omega

theorem blankPoints_no_identifier : ∀ n ∈ blankPoints,
    isLetterOrNumber (Char.ofNat n) = false ∧ isJoiner (Char.ofNat n) = false := by
  decide +kernel

/-- No white space occurs in an identifier. -/
theorem isBlank_of_identifier {cs : List Char} (identifier : isIdentifierChars cs = true) {c : Char}
    (member : c ∈ cs) : isBlank c = false := by
  have allowed : isLetterOrNumber c = true ∨ isJoiner c = true := by
    cases cs with
    | nil => cases member
    | cons first rest =>
        simp only [isIdentifierChars, Bool.and_eq_true, Bool.or_eq_true, List.all_eq_true] at identifier
        rcases List.mem_cons.1 member with rfl | later
        · rcases identifier.1 with letter | joiner
          · exact Or.inl (by simp [isLetterOrNumber, letter])
          · exact Or.inr joiner
        · exact identifier.2 c later
  rw [← Bool.not_eq_true, isBlank_iff]
  intro blank
  have excluded := blankPoints_no_identifier _ blank
  rw [Char.ofNat_toNat] at excluded
  rcases allowed with counts | joins
  · rw [excluded.1] at counts
    cases counts
  · rw [excluded.2] at joins
    cases joins

theorem dropWhile_isBlank {cs : List Char} (solid : ∀ c ∈ cs, isBlank c = false) :
    cs.dropWhile isBlank = cs := by
  cases cs with
  | nil => rfl
  | cons c rest => rw [List.dropWhile_cons_of_neg (by simp [solid c List.mem_cons_self])]

theorem trim_identifier {text : String} (identifier : isIdentifier text = true) : trim text = text := by
  have solid : ∀ c ∈ text.toList, isBlank c = false := fun c => isBlank_of_identifier identifier
  have reversed : ∀ c ∈ text.toList.reverse, isBlank c = false :=
    fun c member => solid c (List.mem_reverse.1 member)
  rw [trim, trimChars, dropWhile_isBlank solid, dropWhile_isBlank reversed, List.reverse_reverse,
    String.ofList_toList]

end Text

namespace Syntax

def IsName (text : String) : Prop :=
  Text.isIdentifier text = true ∧ text ∉ keywords

theorem IsName.trim {text : String} (name : IsName text) : Text.trim text = text :=
  Text.trim_identifier name.1

theorem IsName.ne_empty {text : String} (name : IsName text) : text ≠ "" := by
  rintro rfl
  have identifier := name.1
  simp [Text.isIdentifier, Text.isIdentifierChars] at identifier

namespace Node

theorem ownName?_isName {node : Node} {text : String} (own : node.ownName? = some text) :
    IsName text := by
  unfold ownName? at own
  dsimp only at own
  split at own
  next accepted =>
    cases own
    simp only [Bool.and_eq_true, Bool.not_eq_true', List.contains_eq_mem, decide_eq_false_iff_not]
      at accepted
    exact ⟨accepted.1.2, accepted.2⟩
  next => cases own

theorem namesWithin_isName {levels : Nat} {node : Node} {text : String}
    (member : text ∈ node.namesWithin levels) : IsName text := by
  induction levels generalizing node text with
  | zero => cases member
  | succ levels ih =>
      have below : ∀ {text}, text ∈ node.children.flatMap (namesWithin levels) → IsName text := by
        intro text listed
        obtain ⟨child, -, member⟩ := List.mem_flatMap.1 listed
        exact ih member
      unfold namesWithin at member
      split at member
      next => cases member
      next =>
        split at member
        next => exact below (List.mem_of_getLast? (Option.mem_toList.1 member))
        next =>
          split at member
          next =>
            cases value : node.field? "value" with
            | none =>
                rw [value] at member
                cases member
            | some inner =>
                rw [value] at member
                exact ih member
          next =>
            split at member
            next => exact ownName?_isName (Option.mem_toList.1 member)
            next => exact below member

theorem names_isName {node : Node} {text : String} (member : text ∈ node.names) : IsName text :=
  namesWithin_isName member

end Node

end Syntax

namespace Extract

open Syntax

def AllNamed (parents : List Parent) : Prop :=
  ∀ parent ∈ parents, IsName parent.symbol

theorem allNamed_nil : AllNamed [] := by
  simp [AllNamed]

theorem parentsIn_named (heritage : Heritage) (node : Node) : AllNamed (parentsIn heritage node) := by
  intro parent member
  obtain ⟨symbol, listed, rfl⟩ := List.mem_map.1 member
  exact Node.names_isName listed

theorem flatMap_named {nodes : List Node} {rule : Node → List Parent}
    (each : ∀ node, AllNamed (rule node)) : AllNamed (nodes.flatMap rule) := by
  intro parent member
  obtain ⟨node, -, listed⟩ := List.mem_flatMap.1 member
  exact each node parent listed

theorem javaParents_named (node : Node) : AllNamed (javaParents node) := by
  refine flatMap_named fun child => ?_
  split
  · exact parentsIn_named _ _
  · split
    · exact parentsIn_named _ _
    · exact allNamed_nil

theorem heritageParents_named (heritage : Node) : AllNamed (heritageParents heritage) := by
  unfold heritageParents
  split
  · exact parentsIn_named _ _
  · exact flatMap_named fun clause => parentsIn_named _ _

theorem scriptParents_named (node : Node) : AllNamed (scriptParents node) := by
  refine flatMap_named fun child => ?_
  split
  · exact heritageParents_named child
  · split
    · exact parentsIn_named _ _
    · exact allNamed_nil

theorem pythonParents_named (node : Node) : AllNamed (pythonParents node) := by
  unfold pythonParents
  split
  · exact allNamed_nil
  · refine flatMap_named fun entry => ?_
    split
    · exact allNamed_nil
    · exact parentsIn_named _ _

theorem mixinParents_named (call : Node) : AllNamed (mixinParents call) := by
  unfold mixinParents
  split
  · split
    · exact flatMap_named (parentsIn_named _)
    · exact allNamed_nil
  · exact allNamed_nil

theorem rubyParents_named (node : Node) : AllNamed (rubyParents node) := by
  refine flatMap_named fun child => ?_
  split
  · exact parentsIn_named _ _
  · split
    · exact mixinParents_named child
    · split
      · exact flatMap_named mixinParents_named
      · exact allNamed_nil

theorem rustParents_named (node : Node) : AllNamed (rustParents node) := by
  unfold rustParents
  split
  · refine flatMap_named fun child => ?_
    split
    · exact allNamed_nil
    · exact parentsIn_named _ _
  · exact allNamed_nil

theorem usedTraits_named (body : Node) : AllNamed (usedTraits body) := by
  refine flatMap_named fun usage => flatMap_named fun name => ?_
  split
  · exact allNamed_nil
  · exact parentsIn_named _ _

theorem phpParents_named (node : Node) : AllNamed (phpParents node) := by
  refine flatMap_named fun child => ?_
  split
  · exact parentsIn_named _ _
  · split
    · exact parentsIn_named _ _
    · split
      · exact usedTraits_named child
      · exact allNamed_nil

theorem goParents_named (node : Node) : AllNamed (goParents node) := by
  unfold goParents
  split
  · exact allNamed_nil
  · split
    · refine flatMap_named fun fields => flatMap_named fun field => ?_
      split
      · exact allNamed_nil
      · exact parentsIn_named _ _
    · split
      · exact flatMap_named (parentsIn_named _)
      · exact allNamed_nil

/-- Whatever the language, its rule collects names. -/
theorem parentRule?_named {language : Language} {rule : Node → List Parent}
    (known : parentRule? language = some rule) (node : Node) : AllNamed (rule node) := by
  cases language <;> cases known
  case java => exact javaParents_named node
  case typescript => exact scriptParents_named node
  case tsx => exact scriptParents_named node
  case javascript => exact scriptParents_named node
  case jsx => exact scriptParents_named node
  case python => exact pythonParents_named node
  case csharp => exact flatMap_named (parentsIn_named _)
  case cpp => exact flatMap_named (parentsIn_named _)
  case ruby => exact rubyParents_named node
  case rust => exact rustParents_named node
  case swift => exact flatMap_named (parentsIn_named _)
  case php => exact phpParents_named node
  case go => exact goParents_named node

theorem firstOccurrences_subset {α : Type} [DecidableEq α] (seen items : List α) :
    firstOccurrences seen items ⊆ items := by
  induction items generalizing seen with
  | nil => exact List.Subset.refl _
  | cons item rest ih =>
      unfold firstOccurrences
      split
      · exact List.subset_cons_of_subset item (ih seen)
      · exact List.cons_subset_cons item (ih (item :: seen))

theorem parents_named (language : Language) (node : Node) : AllNamed (parents language node) := by
  unfold parents
  split
  · exact allNamed_nil
  next rule known =>
    intro parent member
    exact parentRule?_named known node parent (firstOccurrences_subset _ _ member)

theorem MakesDefinition.allNamed {language : Language} {storeSource : Bool} {node : Node}
    {definition : Definition} (made : MakesDefinition language storeSource node definition) :
    AllNamed definition.parents := by
  rw [made.parents]
  split
  · exact parents_named language node
  · exact allNamed_nil

theorem MakesBlock.allNamed {language : Language} {node : Node} {block : ImplBlock}
    (made : MakesBlock language node block) : AllNamed block.parents := by
  rw [made.parents]
  exact parents_named language node

/-- Definitions and blocks of an extracted file name their parents by collected names. -/
theorem FileFacts.Extracted.named {file : FileFacts} (extracted : file.Extracted) :
    (∀ definition ∈ file.definitions, AllNamed definition.parents) ∧
      ∀ block ∈ file.impls, AllNamed block.parents := by
  obtain ⟨storeSource, root, walked⟩ := extracted.walked
  constructor
  · intro definition member
    obtain ⟨place, -, node, -, made⟩ := exists_left_of_mem walked.definitions member
    exact made.allNamed
  · intro block member
    obtain ⟨place, -, node, -, made⟩ := exists_left_of_mem walked.blocks member
    exact made.allNamed

end Extract

end DeclGraph
