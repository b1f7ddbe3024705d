import Mathlib
import DeclGraph.Proofs.StorableSymbols
import DeclGraph.Proofs.VisibleLeaves

/-! How a call and a declaration spell one name. Both read the last name below a node. Where there is none, a
declaration takes the text of the node instead, and a call is left out. So the two agree where a name can be
seen, and a declaration whose symbol is no name is never found as a callee. -/
namespace DeclGraph

namespace Syntax.Node

variable {target : Node}

/-- In a tree that is not too high, there is a name where there is a leaf to read it from. -/
theorem names_ne_nil_iff (labelled : target.FieldsAreChildren)
    (reached : target.Shallow (maxWalkDepth + 1)) :
    target.names ≠ [] ↔ ∃ place leaf, target.Visible place leaf := by
  obtain ⟨leaves, collected⟩ := namesWithin_collected (maxWalkDepth + 1) target labelled
  constructor
  · intro named
    obtain ⟨name, listed⟩ := List.exists_mem_of_ne_nil _ named
    obtain ⟨place, -, -, leaf, visible, -⟩ := exists_left_of_mem collected.read listed
    exact ⟨place, leaf, visible⟩
  · rintro ⟨place, leaf, visible⟩ unnamed
    obtain ⟨later, listed, -⟩ := collected.covered reached place leaf visible
    obtain ⟨name, pair, -⟩ := exists_right_of_mem collected.read listed
    have member : name ∈ target.names := (List.of_mem_zip pair).2
    rw [unnamed] at member
    cases member

end Syntax.Node

namespace Extract

open Syntax

variable {language : Language} {declaration call target : Node} {symbol : String}

/-- The declaration takes its name from a node under its name field. A function of C does not. -/
structure NamedBy (language : Language) (declaration target : Node) : Prop where
  field : declaration.field? "name" = some target
  direct : ¬ ((language = .c ∨ language = .cpp) ∧ declaration.kind = "function_definition")

def CalledBy (call target : Node) : Prop :=
  (call.field? "function").or ((call.field? "method").or (call.field? "name")) = some target

theorem NamedBy.definitionName?_eq (named : NamedBy language declaration target) :
    definitionName? language declaration = target.lastSegment? := by
  have direct := named.direct
  rw [definitionName?, if_neg (by simpa using direct), named.field, Option.bind_some]

theorem CalledBy.calleeName?_eq (called : CalledBy call target) :
    calleeName? call = target.names.getLast? := by
  have found : callTarget? call = some target := by
    rw [callTarget?, ← Option.some_or, ← called, Option.or_assoc, Option.or_assoc]
  rw [calleeName?, found, Option.bind_some]

theorem callee_ne_of_not_isName (other : ¬ IsName symbol) (filename : String) (language : Language)
    (storeSource : Bool) (root : Node) :
    ∀ site ∈ (fileFacts filename language storeSource root).calls, site.callee ≠ symbol := by
  rintro site member rfl
  have walked := fileFacts_walked filename language storeSource root
  obtain ⟨place, -, node, outer, -, made, -⟩ := exists_left_of_mem walked.calls member
  exact other (calleeName?_isName made.callee)

/-- A call is spelled as the declaration of its target exactly if some name is read from the target. If none
is, the call is left out, while the declaration has the text of the target for its symbol. -/
theorem call_spelled_as_declared_iff (named : NamedBy language declaration target)
    (called : CalledBy call target) (recorded : definitionName? language declaration = some symbol) :
    (calleeName? call = some symbol ↔ target.names ≠ []) ∧
    (target.FieldsAreChildren → target.Shallow (maxWalkDepth + 1) →
      (calleeName? call = some symbol ↔ ∃ place leaf, target.Visible place leaf)) ∧
    (calleeName? call ≠ some symbol → calleeName? call = none ∧ symbol = Text.trim target.text ∧
      Text.IsWord symbol ∧ ∀ enclosing, callSite? enclosing call = none) ∧
    (¬ IsName symbol → calleeName? call = none ∧
      ∀ filename language storeSource root,
        ∀ site ∈ (fileFacts filename language storeSource root).calls, site.callee ≠ symbol) := by
  have last := named.definitionName?_eq ▸ recorded
  rw [Node.lastSegment?_eq] at last
  have agrees : calleeName? call = some symbol ↔ target.names ≠ [] := by
    rw [called.calleeName?_eq]
    constructor
    · intro same unnamed
      rw [unnamed] at same
      cases same
    · intro present
      rw [List.getLast?_eq_some_getLast present, Option.some_or] at last
      rw [List.getLast?_eq_some_getLast present, last]
  have silent : calleeName? call ≠ some symbol →
      calleeName? call = none ∧ symbol = Text.trim target.text := by
    intro differs
    have unnamed : target.names = [] := not_not.1 fun present => differs (agrees.2 present)
    rw [unnamed, List.getLast?_nil, Option.none_or, Option.ite_none_right_eq_some] at last
    rw [called.calleeName?_eq, unnamed]
    exact ⟨rfl, (Option.some.inj last.2).symm⟩
  refine ⟨agrees, ?_, ?_, ?_⟩
  · intro labelled reached
    exact agrees.trans (Node.names_ne_nil_iff labelled reached)
  · intro differs
    obtain ⟨absent, text⟩ := silent differs
    refine ⟨absent, text, definitionName?_isWord recorded, ?_⟩
    intro enclosing
    cases enclosing <;> simp [callSite?, absent]
  · intro other
    have differs : calleeName? call ≠ some symbol := fun same => other (calleeName?_isName same)
    exact ⟨(silent differs).1, callee_ne_of_not_isName other⟩

/-! A function that calls itself, under a name with or without a mark. -/

def selfCall (symbol : String) : Node :=
  .branch "call" [.token "identifier" symbol, .branch "argument_list" [.token "integer" "1"]]
    [("method", ⟨0, []⟩), ("arguments", ⟨1, []⟩)]

def selfCalling (symbol : String) : Node :=
  .branch "method"
    [.token "def" "def", .token "identifier" symbol, .branch "body_statement" [selfCall symbol]]
    [("name", ⟨1, []⟩), ("body", ⟨2, []⟩)]

theorem selfCalling_namedBy (symbol : String) :
    NamedBy .ruby (selfCalling symbol) (.token "identifier" symbol) where
  field := rfl
  direct := by simp

theorem selfCall_calledBy (symbol : String) : CalledBy (selfCall symbol) (.token "identifier" symbol) :=
  rfl

theorem selfCalling_marked : definitionName? .ruby (selfCalling "save!") = some "save!" := by
  rw [(selfCalling_namedBy "save!").definitionName?_eq, Node.lastSegment?_eq]
  decide +kernel

theorem self_call_spellings :
    definitionName? .ruby (selfCalling "save") = some "save" ∧
    calleeName? (selfCall "save") = some "save" ∧
    definitionName? .ruby (selfCalling "save!") = some "save!" ∧
    calleeName? (selfCall "save!") = none := by
  have plain : definitionName? .ruby (selfCalling "save") = some "save" := by decide +kernel
  have marked : definitionName? .ruby (selfCalling "save!") = some "save!" := selfCalling_marked
  have same := call_spelled_as_declared_iff (selfCalling_namedBy "save") (selfCall_calledBy "save") plain
  have lost := call_spelled_as_declared_iff (selfCalling_namedBy "save!") (selfCall_calledBy "save!")
    marked
  have name : ¬ IsName "save!" := fun accepted => absurd accepted.1 (by decide +kernel)
  exact ⟨plain, same.1.2 (by decide +kernel), marked, (lost.2.2.2 name).1⟩

/-- The call under a name with a mark is in none of the findings, though its function is. -/
theorem marked_call_left_out :
    NamedBy .ruby (selfCalling "save!") (.token "identifier" "save!") ∧
    CalledBy (selfCall "save!") (.token "identifier" "save!") ∧
    definitionName? .ruby (selfCalling "save!") = some "save!" ∧
    calleeName? (selfCall "save!") = none ∧
    (fileFacts "sample.rb" .ruby false (selfCalling "save!")).definitions =
      [⟨"save!", .function, 1, 1, none, []⟩] ∧
    (fileFacts "sample.rb" .ruby false (selfCalling "save!")).calls = [] := by
  have step : visitNode .ruby false none (selfCalling "save!") {} =
      ({ definitions := [⟨"save!", .function, 1, 1, none, []⟩] }, some 0) := by
    have kind : definitionKind? .ruby (selfCalling "save!") = some .function := by decide +kernel
    rw [visitNode, if_pos (by rw [kind]; rfl), definition?, kind, selfCalling_marked]
    rfl
  have facts : visit .ruby false none (selfCalling "save!") {} =
      { definitions := [⟨"save!", .function, 1, 1, none, []⟩] } := by
    rw [selfCalling, Node.branch, visit]
    change visitAll .ruby false (visitNode .ruby false none (selfCalling "save!") {}).2
      (selfCalling "save!").children (visitNode .ruby false none (selfCalling "save!") {}).1 = _
    rw [step]
    decide +kernel
  refine ⟨selfCalling_namedBy "save!", selfCall_calledBy "save!", selfCalling_marked, by decide +kernel, ?_, ?_⟩
  · rw [fileFacts_eq_visit, facts]
  · rw [fileFacts_eq_visit, facts]

end Extract

end DeclGraph
