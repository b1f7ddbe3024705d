import Mathlib
import DeclGraph.Extract.File
import DeclGraph.Proofs.Places
import DeclGraph.Proofs.Reading

/-! What a file contributes, in source order. The walk takes nodes from a stack. It comes to every place of
the syntax tree once, and knows at each the function that encloses it most closely. So definitions, blocks
and calls are those of the places that make one, in the order of the places, and each call belongs to the
innermost function around it. -/
namespace DeclGraph.Extract

open Syntax

variable {language : Language} {storeSource : Bool} {root node : Node} {found : Findings}
  {enclosing : Option Nat} {place outer : List Nat} {visited defined : List (List Nat)}

def isDefined (language : Language) (node : Node) : Bool :=
  (definitionKind? language node).isSome && (definitionName? language node).isSome

def isFunction (language : Language) (node : Node) : Bool :=
  definitionKind? language node == some .function && (definitionName? language node).isSome

def isBlock (language : Language) (node : Node) : Bool :=
  node.kind == "impl_item" && (implSubject? node).isSome && !(parents language node).isEmpty

def isCall (language : Language) (node : Node) : Bool :=
  callKinds.contains node.kind && (definitionKind? language node).isNone && (calleeName? node).isSome

structure MakesDefinition (language : Language) (storeSource : Bool) (node : Node)
    (definition : Definition) : Prop where
  kind : definitionKind? language node = some definition.kind
  symbol : definitionName? language node = some definition.symbol
  startLine : definition.startLine = node.startLine
  endLine : definition.endLine = node.endLine
  source : definition.source = if storeSource then some node.text else none
  parents : definition.parents = if definition.kind.isType then parents language node else []

structure MakesBlock (language : Language) (node : Node) (block : ImplBlock) : Prop where
  subject : implSubject? node = some block.subject
  line : block.line = node.startLine
  parents : block.parents = parents language node

structure MakesCall (node : Node) (call : CallSite) : Prop where
  callee : calleeName? node = some call.callee
  line : call.line = node.startLine
  snippet : call.snippet = snippet? node.text

theorem definition?_eq_none (plain : isDefined language node = false) :
    definition? language storeSource node = none := by
  unfold isDefined at plain
  unfold definition?
  cases kind : definitionKind? language node with
  | none => rfl
  | some kind' =>
      cases symbol : definitionName? language node with
      | none => rfl
      | some symbol' => simp [kind, symbol] at plain

theorem definition?_makes (storeSource : Bool) (defines : isDefined language node = true) :
    ∃ definition, definition? language storeSource node = some definition ∧
      MakesDefinition language storeSource node definition := by
  unfold isDefined at defines
  rw [Bool.and_eq_true, Option.isSome_iff_exists, Option.isSome_iff_exists] at defines
  obtain ⟨⟨kind, hasKind⟩, symbol, hasSymbol⟩ := defines
  refine ⟨⟨symbol, kind, node.startLine, node.endLine, if storeSource then some node.text else none,
    if kind.isType then parents language node else []⟩, ?_, ⟨hasKind, hasSymbol, rfl, rfl, rfl, rfl⟩⟩
  simp only [definition?, hasKind, hasSymbol, Option.bind_eq_bind, Option.bind_some]

theorem implBlock?_eq_none (plain : isBlock language node = false) (block : node.kind = "impl_item") :
    implBlock? language node = none := by
  unfold isBlock at plain
  unfold implBlock?
  split
  next subject first rest hasSubject listed => simp [block, hasSubject, listed] at plain
  next => rfl

theorem implBlock?_makes (adds : isBlock language node = true) :
    ∃ block, implBlock? language node = some block ∧ MakesBlock language node block := by
  unfold isBlock at adds
  simp only [Bool.and_eq_true, Option.isSome_iff_exists, Bool.not_eq_true', List.isEmpty_eq_false_iff]
    at adds
  obtain ⟨⟨-, subject, hasSubject⟩, some⟩ := adds
  obtain ⟨first, rest, listed⟩ := List.exists_cons_of_ne_nil some
  refine ⟨⟨subject, node.startLine, first :: rest⟩, ?_, ⟨hasSubject, rfl, listed.symm⟩⟩
  simp only [implBlock?, hasSubject, listed]

theorem callSite?_eq_none (calls : isCall language node = true)
    (none : callSite? enclosing node = none) : enclosing = .none := by
  unfold isCall at calls
  rw [Bool.and_eq_true, Option.isSome_iff_exists] at calls
  obtain ⟨-, callee, named⟩ := calls
  cases enclosing with
  | none => rfl
  | some caller => simp [callSite?, named] at none

theorem callSite?_makes {call : CallSite} (made : callSite? enclosing node = some call) :
    enclosing = some call.caller ∧ MakesCall node call := by
  cases enclosing with
  | none => cases made
  | some caller =>
      cases named : calleeName? node with
      | none => simp [callSite?, named] at made
      | some callee =>
          simp only [callSite?, named, Option.some.injEq] at made
          subst made
          exact ⟨rfl, ⟨named, rfl, by dsimp only⟩⟩

/-- No language lets such a block declare anything. -/
theorem definitionKind?_block (language : Language) (block : node.kind = "impl_item") :
    definitionKind? language node = none := by
  cases language <;>
    simp [definitionKind?, scriptKind?, goKind?, cKind?, swiftKind?, kindTable, block]

theorem MakesDefinition.isFunction_eq {definition : Definition}
    (made : MakesDefinition language storeSource node definition) :
    isFunction language node = decide (definition.kind = .function) := by
  rw [isFunction, made.kind, made.symbol, Option.isSome_some, Bool.and_true]
  rfl

theorem isFunction_of_not_defined (plain : isDefined language node = false) :
    isFunction language node = false := by
  unfold isDefined at plain
  unfold isFunction
  cases kind : definitionKind? language node with
  | none => rfl
  | some kind' =>
      rw [kind, Option.isSome_some, Bool.true_and] at plain
      rw [plain, Bool.and_false]

inductive NodeStep (language : Language) (storeSource : Bool) (enclosing : Option Nat) (node : Node)
    (found : Findings) : Findings × Option Nat → Prop
  | definition (definition : Definition) (defines : isDefined language node = true)
      (noBlock : isBlock language node = false) (noCall : isCall language node = false)
      (made : MakesDefinition language storeSource node definition) :
      NodeStep language storeSource enclosing node found (found.addDefinition definition,
        if definition.kind = .function then some found.definitions.length else enclosing)
  | block (block : ImplBlock) (plain : isDefined language node = false)
      (adds : isBlock language node = true) (noCall : isCall language node = false)
      (made : MakesBlock language node block) :
      NodeStep language storeSource enclosing node found (found.addImpl block, enclosing)
  | call (call : CallSite) (plain : isDefined language node = false)
      (noBlock : isBlock language node = false) (calls : isCall language node = true)
      (inside : enclosing = some call.caller) (made : MakesCall node call) :
      NodeStep language storeSource enclosing node found (found.addCall call, enclosing)
  | nothing (plain : isDefined language node = false) (noBlock : isBlock language node = false)
      (silent : isCall language node = true → enclosing = none) :
      NodeStep language storeSource enclosing node found (found, enclosing)

/-- The step of a node of a declaring kind. -/
theorem declaring_step (declares : (definitionKind? language node).isSome = true) :
    NodeStep language storeSource enclosing node found
      (visitNode language storeSource enclosing node found) := by
  have noBlock : isBlock language node = false := by
    by_contra adds
    simp only [isBlock, Bool.not_eq_false, Bool.and_eq_true, beq_iff_eq] at adds
    rw [definitionKind?_block language adds.1.1] at declares
    cases declares
  have noCall : isCall language node = false := by
    obtain ⟨kind, hasKind⟩ := Option.isSome_iff_exists.1 declares
    simp [isCall, hasKind]
  rw [visitNode, if_pos declares]
  by_cases defines : isDefined language node = true
  · obtain ⟨definition, same, made⟩ := definition?_makes storeSource defines
    rw [same]
    exact .definition definition defines noBlock noCall made
  · rw [Bool.not_eq_true] at defines
    rw [definition?_eq_none defines]
    exact .nothing defines noBlock (by simp [noCall])

theorem visitNode_step (language : Language) (storeSource : Bool) (enclosing : Option Nat) (node : Node)
    (found : Findings) :
    NodeStep language storeSource enclosing node found
      (visitNode language storeSource enclosing node found) := by
  by_cases declares : (definitionKind? language node).isSome = true
  · exact declaring_step declares
  · have undeclared := Option.not_isSome_iff_eq_none.1 declares
    have plain : isDefined language node = false := by simp [isDefined, undeclared]
    rw [visitNode, if_neg declares]
    by_cases block : node.kind = "impl_item"
    · have noCall : isCall language node = false := by
        rw [isCall, block]
        rfl
      rw [if_pos (beq_iff_eq.2 block)]
      by_cases adds : isBlock language node = true
      · obtain ⟨block, same, made⟩ := implBlock?_makes adds
        rw [same]
        exact .block block plain adds noCall made
      · rw [Bool.not_eq_true] at adds
        rw [implBlock?_eq_none adds block]
        exact .nothing plain adds (by simp [noCall])
    · have noBlock : isBlock language node = false := by simp [isBlock, block]
      rw [if_neg (by simpa using block)]
      by_cases kind : callKinds.contains node.kind = true
      · rw [if_pos kind]
        cases made : callSite? enclosing node with
        | none => exact .nothing plain noBlock fun calls => callSite?_eq_none calls made
        | some call =>
            obtain ⟨inside, made⟩ := callSite?_makes made
            have calls : isCall language node = true := by
              rw [isCall, kind, undeclared, made.callee]
              rfl
            exact .call call plain noBlock calls inside made
      · rw [if_neg kind]
        have silent : isCall language node = false := by
          rw [isCall, Bool.eq_false_iff.2 kind]
          rfl
        exact .nothing plain noBlock (by simp [silent])

/-! What is on the stack is visited as if each node were visited with all that is below it. -/

mutual

def visit (language : Language) (storeSource : Bool) (enclosing : Option Nat) :
    Node → Findings → Findings
  | ⟨row, kind, text, startLine, endLine, fields, children⟩, found =>
    let visited := visitNode language storeSource enclosing
      ⟨row, kind, text, startLine, endLine, fields, children⟩ found
    visitAll language storeSource visited.2 children visited.1

def visitAll (language : Language) (storeSource : Bool) (enclosing : Option Nat) :
    List Node → Findings → Findings
  | [], found => found
  | node :: rest, found =>
    visitAll language storeSource enclosing rest
      (visit language storeSource enclosing node found)

end

theorem visit_eq (enclosing : Option Nat) (node : Node) (found : Findings) :
    visit language storeSource enclosing node found =
      visitAll language storeSource (visitNode language storeSource enclosing node found).2 node.children
        (visitNode language storeSource enclosing node found).1 := by
  cases node
  rw [visit]

theorem visitAll_eq_foldl (enclosing : Option Nat) (nodes : List Node) (found : Findings) :
    visitAll language storeSource enclosing nodes found =
      nodes.foldl (fun found node => visit language storeSource enclosing node found) found := by
  induction nodes generalizing found with
  | nil => rw [visitAll, List.foldl_nil]
  | cons node rest ih => rw [visitAll, ih, List.foldl_cons]

/-- The trees on the stack are visited whole, one after the other, whatever is pushed meanwhile. -/
theorem walk_eq_foldl (stack : List Pending) (found : Findings) :
    walk language storeSource stack found =
      stack.foldl (fun found top => visit language storeSource top.enclosing top.node found) found := by
  induction stack, found using walk.induct language storeSource with
  | case1 found => rw [walk, List.foldl_nil]
  | case2 found top stack visited ih =>
      -- The children of the top come before what was on the stack below it.
      rw [walk, ih, pushChildren_eq, List.foldl_append, List.foldl_map, List.foldl_cons, visit_eq,
        visitAll_eq_foldl]

theorem fileFacts_eq_visit (filename : String) (language : Language) (storeSource : Bool) (root : Node) :
    (fileFacts filename language storeSource root).toFindings =
      visit language storeSource none root {} := by
  rw [fileFacts, walk_eq_foldl, List.foldl_cons, List.foldl_nil]

structure Encloses (language : Language) (root : Node) (outer place : List Nat) : Prop where
  function : root.holdsAt (isFunction language) outer = true
  above : outer <+: place
  proper : outer ≠ place

structure Innermost (language : Language) (root : Node) (outer place : List Nat) : Prop
    extends Encloses language root outer place where
  nearest : ∀ other, Encloses language root other place → other <+: outer

def isEnclosed (language : Language) (root : Node) (place : List Nat) : Bool :=
  place.inits.any fun outer => outer != place && root.holdsAt (isFunction language) outer

theorem isEnclosed_iff :
    isEnclosed language root place = true ↔ ∃ outer, Encloses language root outer place := by
  simp only [isEnclosed, List.any_eq_true, List.mem_inits, Bool.and_eq_true, bne_iff_ne]
  constructor
  · rintro ⟨outer, above, proper, function⟩
    exact ⟨outer, function, above, proper⟩
  · rintro ⟨outer, function, above, proper⟩
    exact ⟨outer, above, proper, function⟩

/-- A function encloses a child if it encloses the node or is made by it. -/
theorem encloses_child_iff {child : Nat} :
    Encloses language root outer (place ++ [child]) ↔
      Encloses language root outer place ∨
        outer = place ∧ root.holdsAt (isFunction language) place = true := by
  constructor
  · rintro ⟨function, above, proper⟩
    rcases List.prefix_concat_iff.1 above with same | above
    · exact absurd same proper
    · by_cases here : outer = place
      · exact Or.inr ⟨here, here ▸ function⟩
      · exact Or.inl ⟨function, above, here⟩
  · rintro (⟨function, above, proper⟩ | ⟨rfl, function⟩)
    · refine ⟨function, above.trans (List.prefix_append _ _), ?_⟩
      rintro rfl
      have short := above.length_le
      simp at short
    · exact ⟨function, List.prefix_append _ _, by simp⟩

def ScopeAt (language : Language) (root : Node) (defined : List (List Nat)) (place : List Nat) :
    Option Nat → Prop
  | none => ∀ outer, ¬ Encloses language root outer place
  | some position => ∃ outer, defined[position]? = some outer ∧ Innermost language root outer place

theorem getElem?_of_prefix {later : List (List Nat)} {position : Nat} (grown : defined <+: later)
    (here : defined[position]? = some outer) : later[position]? = some outer := by
  obtain ⟨more, rfl⟩ := grown
  rw [List.getElem?_append_left (List.getElem?_eq_some_iff.1 here).1, here]

theorem ScopeAt.mono {later : List (List Nat)} (known : ScopeAt language root defined place enclosing)
    (grown : defined <+: later) : ScopeAt language root later place enclosing := by
  cases enclosing with
  | none => exact known
  | some position =>
      obtain ⟨outer, here, innermost⟩ := known
      exact ⟨outer, getElem?_of_prefix grown here, innermost⟩

/-- Below a node that is no function, the scope stays. -/
theorem ScopeAt.child {child : Nat} (known : ScopeAt language root defined place enclosing)
    (plain : root.holdsAt (isFunction language) place = false) :
    ScopeAt language root defined (place ++ [child]) enclosing := by
  have same : ∀ outer, Encloses language root outer (place ++ [child]) ↔
      Encloses language root outer place := by
    intro outer
    simp [encloses_child_iff, plain]
  cases enclosing with
  | none => exact fun outer encloses => known outer ((same outer).1 encloses)
  | some position =>
      obtain ⟨outer, here, innermost⟩ := known
      exact ⟨outer, here, (same outer).2 innermost.toEncloses,
        fun other encloses => innermost.nearest other ((same other).1 encloses)⟩

theorem innermost_child {child : Nat} (function : root.holdsAt (isFunction language) place = true) :
    Innermost language root place (place ++ [child]) := by
  refine ⟨encloses_child_iff.2 (Or.inr ⟨rfl, function⟩), fun other encloses => ?_⟩
  rcases encloses_child_iff.1 encloses with outside | ⟨rfl, -⟩
  · exact outside.above
  · exact List.prefix_rfl

/-- The findings after visits to some places in turn, each with its scope. -/
inductive Walked (language : Language) (storeSource : Bool) (root : Node) :
    List (List Nat) → Findings → Prop
  | start : Walked language storeSource root [] {}
  | next {visited : List (List Nat)} {found : Findings} {place : List Nat} {node : Node}
      {enclosing : Option Nat} (before : Walked language storeSource root visited found)
      (here : root.descend place = some node)
      (known : ScopeAt language root (visited.filter (root.holdsAt (isDefined language))) place enclosing) :
      Walked language storeSource root (visited ++ [place])
        (visitNode language storeSource enclosing node found).1

theorem filter_concat_of_pos {α : Type} {test : α → Bool} {items : List α} {item : α}
    (passes : test item = true) : (items ++ [item]).filter test = items.filter test ++ [item] := by
  rw [List.filter_append, List.filter_cons_of_pos passes, List.filter_nil]

theorem filter_concat_of_neg {α : Type} {test : α → Bool} {items : List α} {item : α}
    (fails : test item = false) : (items ++ [item]).filter test = items.filter test := by
  rw [List.filter_append, List.filter_cons_of_neg (by simp [fails]), List.filter_nil, List.append_nil]

section
variable {α β : Type} {R : α → β → Prop} {test : α → Bool} {items : List α} {item : α} {made : List β}

theorem forall₂_filter_of_pos {new : β} (earlier : List.Forall₂ R (items.filter test) made)
    (passes : test item = true) (related : R item new) :
    List.Forall₂ R ((items ++ [item]).filter test) (made ++ [new]) := by
  rw [filter_concat_of_pos passes]
  exact List.rel_append earlier (.cons related .nil)

theorem forall₂_filter_of_neg (earlier : List.Forall₂ R (items.filter test) made)
    (fails : test item = false) : List.Forall₂ R ((items ++ [item]).filter test) made := by
  rw [filter_concat_of_neg fails]
  exact earlier

end

/-- The definitions are those of the visited places that make one. -/
theorem Walked.definitions (walked : Walked language storeSource root visited found) :
    List.Forall₂ (fun place definition => ∃ node, root.descend place = some node ∧
        MakesDefinition language storeSource node definition)
      (visited.filter (root.holdsAt (isDefined language))) found.definitions := by
  induction walked with
  | start => exact .nil
  | @next visited found place node enclosing before here known ih =>
      have atPlace : root.holdsAt (isDefined language) place = isDefined language node :=
        Node.holdsAt_eq here
      have step := visitNode_step language storeSource enclosing node found
      generalize visitNode language storeSource enclosing node found = result at step ⊢
      cases step with
      | definition definition defines noBlock noCall made =>
          exact forall₂_filter_of_pos ih (atPlace.trans defines) ⟨node, here, made⟩
      | block block plain adds noCall made =>
          exact forall₂_filter_of_neg ih (atPlace.trans plain)
      | call call plain noBlock calls inside made =>
          exact forall₂_filter_of_neg ih (atPlace.trans plain)
      | nothing plain noBlock silent =>
          exact forall₂_filter_of_neg ih (atPlace.trans plain)

theorem Walked.blocks (walked : Walked language storeSource root visited found) :
    List.Forall₂ (fun place block => ∃ node, root.descend place = some node ∧
        MakesBlock language node block)
      (visited.filter (root.holdsAt (isBlock language))) found.impls := by
  induction walked with
  | start => exact .nil
  | @next visited found place node enclosing before here known ih =>
      have atPlace : root.holdsAt (isBlock language) place = isBlock language node :=
        Node.holdsAt_eq here
      have step := visitNode_step language storeSource enclosing node found
      generalize visitNode language storeSource enclosing node found = result at step ⊢
      cases step with
      | definition definition defines noBlock noCall made =>
          exact forall₂_filter_of_neg ih (atPlace.trans noBlock)
      | block block plain adds noCall made =>
          exact forall₂_filter_of_pos ih (atPlace.trans adds) ⟨node, here, made⟩
      | call call plain noBlock calls inside made =>
          exact forall₂_filter_of_neg ih (atPlace.trans noBlock)
      | nothing plain noBlock silent =>
          exact forall₂_filter_of_neg ih (atPlace.trans noBlock)

def isCallAt (language : Language) (root : Node) (place : List Nat) : Bool :=
  root.holdsAt (isCall language) place && isEnclosed language root place

def Sited (language : Language) (root : Node) (defined : List (List Nat)) (place : List Nat)
    (call : CallSite) : Prop :=
  ∃ node outer, root.descend place = some node ∧ MakesCall node call ∧
    defined[call.caller]? = some outer ∧ Innermost language root outer place

theorem Sited.mono {later : List (List Nat)} {call : CallSite}
    (sited : Sited language root defined place call) (grown : defined <+: later) :
    Sited language root later place call := by
  obtain ⟨node, outer, here, made, within, innermost⟩ := sited
  exact ⟨node, outer, here, made, getElem?_of_prefix grown within, innermost⟩

theorem Walked.calls (walked : Walked language storeSource root visited found) :
    List.Forall₂ (Sited language root (visited.filter (root.holdsAt (isDefined language))))
      (visited.filter (isCallAt language root)) found.calls := by
  induction walked with
  | start => exact .nil
  | @next visited found place node enclosing before here known ih =>
      have atPlace : root.holdsAt (isCall language) place = isCall language node :=
        Node.holdsAt_eq here
      have grown : visited.filter (root.holdsAt (isDefined language)) <+:
          (visited ++ [place]).filter (root.holdsAt (isDefined language)) :=
        (List.prefix_append visited [place]).filter _
      have earlier := ih.imp fun _ _ sited => sited.mono grown
      have step := visitNode_step language storeSource enclosing node found
      generalize visitNode language storeSource enclosing node found = result at step ⊢
      cases step with
      | definition definition defines noBlock noCall made =>
          have elsewhere : isCallAt language root place = false := by simp [isCallAt, atPlace, noCall]
          exact forall₂_filter_of_neg earlier elsewhere
      | block block plain adds noCall made =>
          have elsewhere : isCallAt language root place = false := by simp [isCallAt, atPlace, noCall]
          exact forall₂_filter_of_neg earlier elsewhere
      | call call plain noBlock calls inside made =>
          rw [inside] at known
          obtain ⟨outer, within, innermost⟩ := known
          have called : isCallAt language root place = true := by
            rw [isCallAt, atPlace, calls, isEnclosed_iff.2 ⟨outer, innermost.toEncloses⟩]
            rfl
          have sited : Sited language root (visited.filter (root.holdsAt (isDefined language))) place call :=
            ⟨node, outer, here, made, within, innermost⟩
          exact forall₂_filter_of_pos earlier called (sited.mono grown)
      | nothing plain noBlock silent =>
          have elsewhere : isCallAt language root place = false := by
            by_contra called
            rw [Bool.not_eq_false, isCallAt, Bool.and_eq_true, atPlace, isEnclosed_iff] at called
            obtain ⟨calls, outer, encloses⟩ := called
            rw [silent calls] at known
            exact known outer encloses
          exact forall₂_filter_of_neg earlier elsewhere

/-- Visiting a node leaves the right scope for its children. -/
theorem Walked.scope (walked : Walked language storeSource root visited found)
    (here : root.descend place = some node)
    (known : ScopeAt language root (visited.filter (root.holdsAt (isDefined language))) place enclosing)
    (child : Nat) :
    ScopeAt language root ((visited ++ [place]).filter (root.holdsAt (isDefined language)))
      (place ++ [child]) (visitNode language storeSource enclosing node found).2 := by
  have atPlace : root.holdsAt (isDefined language) place = isDefined language node :=
    Node.holdsAt_eq here
  have functionAt : root.holdsAt (isFunction language) place = isFunction language node :=
    Node.holdsAt_eq here
  have counted := walked.definitions.length_eq
  have unchanged (plain : isFunction language node = false) :
      ScopeAt language root ((visited ++ [place]).filter (root.holdsAt (isDefined language)))
        (place ++ [child]) enclosing :=
    (known.child (functionAt.trans plain)).mono ((List.prefix_append visited [place]).filter _)
  have step := visitNode_step language storeSource enclosing node found
  generalize visitNode language storeSource enclosing node found = result at step ⊢
  cases step with
  | definition definition defines noBlock noCall made =>
      by_cases function : definition.kind = .function
      · -- The function stands behind all definitions made before it.
        have counts : root.holdsAt (isFunction language) place = true := by
          rw [functionAt, made.isFunction_eq, decide_eq_true function]
        rw [filter_concat_of_pos (atPlace.trans defines)]
        simp only [function, if_true]
        refine ⟨place, ?_, innermost_child counts⟩
        rw [← counted, List.getElem?_concat_length]
      · simp only [function, if_false]
        exact unchanged (by rw [made.isFunction_eq, decide_eq_false function])
  | block block plain adds noCall made => exact unchanged (isFunction_of_not_defined plain)
  | call call plain noBlock calls inside made => exact unchanged (isFunction_of_not_defined plain)
  | nothing plain noBlock silent => exact unchanged (isFunction_of_not_defined plain)

mutual

/-- The walk over a node comes to the places below it, in their order. -/
theorem visit_walked (enclosing : Option Nat) : ∀ (node : Node) (place : List Nat)
    (visited : List (List Nat)) (found : Findings), Walked language storeSource root visited found →
      root.descend place = some node →
      ScopeAt language root (visited.filter (root.holdsAt (isDefined language))) place enclosing →
      Walked language storeSource root (visited ++ node.places.map (place ++ ·))
        (visit language storeSource enclosing node found)
  | ⟨row, kind, text, startLine, endLine, fields, children⟩, place, visited, found, walked, here, known => by
      have present : ∀ offset child, children[offset]? = some child →
          root.descend (place ++ [0 + offset]) = some child := by
        intro offset child listed
        rw [Node.descend_append, here, Option.bind_some, Nat.zero_add, Node.descend_cons_eq_some_iff]
        exact ⟨child, listed, rfl⟩
      have below := visitAll_walked _ children 0 place _ _ (walked.next here known) present
        (walked.scope here known)
      rw [visit, Node.places]
      simpa using below

theorem visitAll_walked (enclosing : Option Nat) : ∀ (nodes : List Node) (position : Nat) (place : List Nat)
    (visited : List (List Nat)) (found : Findings), Walked language storeSource root visited found →
      (∀ offset node, nodes[offset]? = some node →
        root.descend (place ++ [position + offset]) = some node) →
      (∀ child, ScopeAt language root (visited.filter (root.holdsAt (isDefined language)))
        (place ++ [child]) enclosing) →
      Walked language storeSource root (visited ++ (Node.placesFrom position nodes).map (place ++ ·))
        (visitAll language storeSource enclosing nodes found)
  | [], position, place, visited, found, walked, present, known => by
      rw [visitAll, Node.placesFrom, List.map_nil, List.append_nil]
      exact walked
  | node :: rest, position, place, visited, found, walked, present, known => by
      have first := visit_walked enclosing node (place ++ [position]) visited found walked
        (present 0 node rfl) (known position)
      have later : ∀ offset other, rest[offset]? = some other →
          root.descend (place ++ [position + 1 + offset]) = some other := by
        intro offset other listed
        rw [Nat.add_assoc, Nat.add_comm 1]
        exact present (offset + 1) other listed
      have others := visitAll_walked enclosing rest (position + 1) place _ _ first later
        fun child => (known child).mono ((List.prefix_append _ _).filter _)
      rw [visitAll, Node.placesFrom]
      simpa [Function.comp_def] using others

end

theorem fileFacts_walked (filename : String) (language : Language) (storeSource : Bool) (root : Node) :
    Walked language storeSource root root.places
      (fileFacts filename language storeSource root).toFindings := by
  have outside : ScopeAt language root [] [] none := fun outer encloses =>
    encloses.proper (List.prefix_nil.1 encloses.above)
  have nothing : Walked language storeSource root [] {} := .start
  rw [fileFacts_eq_visit]
  simpa using visit_walked none root [] [] {} nothing rfl outside

def Findings.HasFunction (found : Findings) (position : Nat) : Prop :=
  ∃ definition, found.definitions[position]? = some definition ∧ definition.kind = .function

/-- At the place of a function, a function is made. -/
theorem Walked.function (walked : Walked language storeSource root visited found) {position : Nat}
    (within : (visited.filter (root.holdsAt (isDefined language)))[position]? = some outer)
    (function : root.holdsAt (isFunction language) outer = true) :
    found.HasFunction position := by
  obtain ⟨inside, rfl⟩ := List.getElem?_eq_some_iff.1 within
  have inside' : position < found.definitions.length := walked.definitions.length_eq ▸ inside
  obtain ⟨node, here, made⟩ := walked.definitions.get inside inside'
  rw [List.get_eq_getElem] at here
  rw [Node.holdsAt_eq here, made.isFunction_eq] at function
  exact ⟨_, List.getElem?_eq_getElem inside', of_decide_eq_true function⟩

def FileFacts.Extracted (file : FileFacts) : Prop :=
  ∃ storeSource root, file = fileFacts file.filename file.language storeSource root

theorem FileFacts.Extracted.walked {file : FileFacts} (extracted : file.Extracted) :
    ∃ storeSource root, Walked file.language storeSource root root.places file.toFindings := by
  obtain ⟨storeSource, root, same⟩ := extracted
  have walked := fileFacts_walked file.filename file.language storeSource root
  rw [← same] at walked
  exact ⟨storeSource, root, walked⟩

/-- Every call of a file has its caller among the functions of that file. -/
theorem FileFacts.Extracted.callers {file : FileFacts} (extracted : file.Extracted) :
    ∀ call ∈ file.calls, file.HasFunction call.caller := by
  intro call member
  obtain ⟨storeSource, root, walked⟩ := extracted.walked
  obtain ⟨place, -, node, outer, -, -, within, innermost⟩ := exists_left_of_mem walked.calls member
  exact walked.function within innermost.function

/-- The facts of a file, place by place. The walk comes to every place of the tree once, in source order. A
definition is made wherever a node declares something and has a name, a block wherever one adds parents to a
subject, and a call wherever something is called by name inside a function. The caller of a call is the
innermost function around it, which is found among the definitions under the call's index. -/
theorem facts_follow_the_source (filename : String) (language : Language) (storeSource : Bool) (root : Node) :
    (fileFacts filename language storeSource root).toFindings =
      visit language storeSource none root {} ∧
    root.places.Pairwise (· < ·) ∧
    (∀ place, place ∈ root.places ↔ ∃ node, root.descend place = some node) ∧
    Walked language storeSource root root.places
      (fileFacts filename language storeSource root).toFindings ∧
    List.Forall₂ (fun place definition => ∃ node, root.descend place = some node ∧
        MakesDefinition language storeSource node definition)
      (root.places.filter (root.holdsAt (isDefined language)))
      (fileFacts filename language storeSource root).definitions ∧
    List.Forall₂ (fun place block => ∃ node, root.descend place = some node ∧
        MakesBlock language node block)
      (root.places.filter (root.holdsAt (isBlock language)))
      (fileFacts filename language storeSource root).impls ∧
    List.Forall₂ (fun place call => ∃ node outer definition,
        root.descend place = some node ∧ MakesCall node call ∧
        (root.places.filter (root.holdsAt (isDefined language)))[call.caller]? = some outer ∧
        Innermost language root outer place ∧ outer < place ∧
        (fileFacts filename language storeSource root).definitions[call.caller]? = some definition ∧
        definition.kind = .function)
      (root.places.filter (isCallAt language root))
      (fileFacts filename language storeSource root).calls := by
  have walked := fileFacts_walked filename language storeSource root
  refine ⟨fileFacts_eq_visit filename language storeSource root, root.places_ordered,
    fun place => Node.mem_places, walked, walked.definitions, walked.blocks, ?_⟩
  refine walked.calls.imp fun place call sited => ?_
  obtain ⟨node, outer, here, made, within, innermost⟩ := sited
  obtain ⟨definition, listed, function⟩ := walked.function within innermost.function
  exact ⟨node, outer, definition, here, made, within, innermost,
    Node.lt_of_isPrefix innermost.above innermost.proper, listed, function⟩

end DeclGraph.Extract
