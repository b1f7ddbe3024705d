import Mathlib
import DeclGraph.Proofs.Reading
import DeclGraph.Proofs.RefreshBalance
import DeclGraph.Proofs.SourceOrder

/-! Symbols that can be stored as they are. Every symbol found in a file is one word, and those that refer to
something, the callees, the subjects of blocks and the parents, are names. The parents of a declaration are
the first mentions of what its language's rule finds. So trimming changes none of them, and storing drops
none. -/
namespace DeclGraph

namespace Text

def IsWord (text : String) : Prop :=
  text ≠ "" ∧ ∀ c ∈ text.toList, isBlank c = false

instance (text : String) : Decidable (IsWord text) :=
  @instDecidableAnd _ _ inferInstance (List.decidableBAll _ text.toList)

end Text

namespace Syntax

theorem IsName.isWord {text : String} (name : IsName text) : Text.IsWord text :=
  ⟨name.ne_empty, fun _ member => Text.isBlank_of_identifier name.1 member⟩

namespace Node

/-- Where there is no name, the text of a node stands in for it if it is one word. -/
theorem lastSegment?_eq (node : Node) :
    node.lastSegment? = node.names.getLast?.or
      (if Text.IsWord (Text.trim node.text) then some (Text.trim node.text) else none) := by
  unfold lastSegment?
  cases node.names.getLast? with
  | some name => rfl
  | none =>
      have word : ((Text.trim node.text).isEmpty || (Text.trim node.text).any Text.isBlank) = true ↔
          ¬ Text.IsWord (Text.trim node.text) := by
        rw [Text.IsWord, Bool.or_eq_true, String.isEmpty_iff, String.any, String.contains_bool_eq,
          List.any_eq_true]
        grind
      rw [Option.none_or]
      by_cases broken : Text.IsWord (Text.trim node.text)
      · rw [if_pos broken, if_neg (fun empty => word.1 empty broken)]
      · rw [if_neg broken, if_pos (word.2 broken)]

theorem lastSegment?_isWord {node : Node} {text : String} (last : node.lastSegment? = some text) :
    Text.IsWord text := by
  rw [lastSegment?_eq, Option.or_eq_some_iff] at last
  rcases last with name | ⟨-, own⟩
  · exact (names_isName (List.mem_of_getLast? name)).isWord
  · rw [Option.ite_none_right_eq_some] at own
    cases own.2
    exact own.1

end Node

end Syntax

namespace Extract

open Syntax

theorem definitionName?_isWord {language : Language} {node : Node} {symbol : String}
    (named : definitionName? language node = some symbol) : Text.IsWord symbol := by
  unfold definitionName? at named
  split at named
  next =>
    obtain ⟨declarator, -, last⟩ := Option.bind_eq_some_iff.1 named
    exact Node.lastSegment?_isWord last
  next =>
    obtain ⟨name, -, last⟩ := Option.bind_eq_some_iff.1 named
    exact Node.lastSegment?_isWord last

theorem calleeName?_isName {node : Node} {callee : String} (called : calleeName? node = some callee) :
    IsName callee := by
  obtain ⟨target, -, last⟩ := Option.bind_eq_some_iff.1 called
  exact Node.names_isName (List.mem_of_getLast? last)

theorem implSubject?_isName {node : Node} {subject : String} (owner : implSubject? node = some subject) :
    IsName subject := by
  unfold implSubject? at owner
  split at owner
  next =>
    obtain ⟨type, -, first⟩ := Option.bind_eq_some_iff.1 owner
    exact Node.names_isName (List.mem_of_head? first)
  next => cases owner

section
variable {α : Type} [DecidableEq α]

structure FirstMentions (found kept : List α) : Prop where
  same : ∀ item, item ∈ kept ↔ item ∈ found
  distinct : kept.Nodup
  order : kept.Pairwise fun earlier later => found.idxOf earlier < found.idxOf later

theorem mem_firstOccurrences {seen items : List α} {item : α} :
    item ∈ firstOccurrences seen items ↔ item ∈ items ∧ item ∉ seen := by
  induction items generalizing seen with
  | nil => simp [firstOccurrences]
  | cons first rest ih =>
      by_cases known : first ∈ seen
      · rw [firstOccurrences, if_pos (by simpa using known), ih]
        grind
      · rw [firstOccurrences, if_neg (by simpa using known), List.mem_cons, ih]
        grind

/-- What is kept besides an element seen before stands one place further on behind it. -/
theorem idxOf_cons_of_kept {seen rest : List α} {first item : α} (known : first ∈ seen)
    (kept : item ∈ firstOccurrences seen rest) : (first :: rest).idxOf item = rest.idxOf item + 1 := by
  refine List.idxOf_cons_ne rest ?_
  rintro rfl
  exact (mem_firstOccurrences.1 kept).2 known

theorem firstOccurrences_order (seen items : List α) :
    (firstOccurrences seen items).Pairwise fun earlier later =>
      items.idxOf earlier < items.idxOf later := by
  induction items generalizing seen with
  | nil => exact .nil
  | cons first rest ih =>
      have behind : ∀ {seen}, first ∈ seen → (firstOccurrences seen rest).Pairwise fun earlier later =>
          (first :: rest).idxOf earlier < (first :: rest).idxOf later := by
        intro seen known
        refine (ih seen).imp_of_mem fun earlier later before => ?_
        rw [idxOf_cons_of_kept known earlier, idxOf_cons_of_kept known later]
        exact Nat.succ_lt_succ before
      by_cases known : first ∈ seen
      · rw [firstOccurrences, if_pos (by simpa using known)]
        exact behind known
      · rw [firstOccurrences, if_neg (by simpa using known), List.pairwise_cons]
        refine ⟨fun later kept => ?_, behind List.mem_cons_self⟩
        rw [List.idxOf_cons_self, idxOf_cons_of_kept List.mem_cons_self kept]
        exact Nat.succ_pos _

theorem firstOccurrences_firstMentions (items : List α) :
    FirstMentions items (firstOccurrences [] items) := by
  refine ⟨fun item => by simp [mem_firstOccurrences], ?_, firstOccurrences_order [] items⟩
  refine (firstOccurrences_order [] items).imp fun {earlier later} before => ?_
  rintro rfl
  exact Nat.lt_irrefl _ before

end

def mentioned (language : Language) (node : Node) : List Parent :=
  (parentRule? language).elim [] (· node)

theorem parents_firstMentions (language : Language) (node : Node) :
    FirstMentions (mentioned language node) (parents language node) := by
  unfold mentioned parents
  cases parentRule? language with
  | none => exact firstOccurrences_firstMentions []
  | some rule => exact firstOccurrences_firstMentions (rule node)

end Extract

namespace Store

/-- Whatever else a batch holds, a complete draft of it is stored after it. -/
theorem addParents_stores (store : Store) {drafts : List ParentDraft} {draft : ParentDraft}
    {key : Int × String × String} (member : draft ∈ drafts) (complete : draft.complete? = some key) :
    ∃ edge ∈ (store.addParents drafts).2.parents.rows, edge.key = key := by
  obtain ⟨added, rows, -, keys⟩ := store.addParents_rows drafts
  rw [rows]
  by_cases old : key ∈ store.parents.rows.map ParentRow.key
  · obtain ⟨edge, stored, same⟩ := List.mem_map.1 old
    exact ⟨edge, List.mem_append_left _ stored, same⟩
  · have new : key ∈ added.map ParentRow.key := by
      rw [keys, List.removeAll, List.mem_filter, List.mem_eraseDups]
      exact ⟨List.mem_filterMap.2 ⟨draft, member, complete⟩, by simpa using old⟩
    obtain ⟨edge, stored, same⟩ := List.mem_map.1 new
    exact ⟨edge, List.mem_append_right _ stored, same⟩

end Store

open Refresh

structure Parent.Storable (parent : Parent) : Prop where
  stored : ∀ (store : Store) (before after : List ParentDraft) (childId : Int),
    ∃ edge ∈ (store.addParents (before ++ parentDraft (some childId) parent :: after)).2.parents.rows,
      edge.childId = childId ∧ edge.symbol = parent.symbol ∧ edge.heritage = parent.heritage.name
  kept : ∀ (store : Store) (before after : List ParentDraft) (childId : Int),
    (store.addParents (before ++ parentDraft (some childId) parent :: after)).1.dropped =
      (before ++ after).countP (!·.isComplete)

theorem Parent.storable {parent : Parent} (named : Syntax.IsName parent.symbol) : parent.Storable := by
  have complete : ∀ childId : Int, (parentDraft (some childId) parent).complete? =
      some (storedKey (parent.mention childId)) :=
    fun childId => parentDraft_complete? named (some childId)
  constructor
  · intro store before after childId
    obtain ⟨edge, stored, same⟩ := store.addParents_stores
      (List.mem_append_right before List.mem_cons_self) (complete childId)
    simp only [ParentRow.key, Parent.mention, storedKey, Prod.mk.injEq] at same
    exact ⟨edge, stored, same⟩
  · intro store before after childId
    have whole : (parentDraft (some childId) parent).isComplete = true := by
      rw [ParentDraft.isComplete, complete]
      rfl
    rw [(store.addParents_accounts _).dropped, List.countP_append, List.countP_append,
      List.countP_cons_of_neg (by simp [whole])]

theorem eraseDups_of_nodup {α : Type} [BEq α] [LawfulBEq α] {items : List α} (distinct : items.Nodup) :
    items.eraseDups = items := by
  induction items with
  | nil => rfl
  | cons first rest ih =>
      rw [List.nodup_cons] at distinct
      have others : rest.filter (fun item => !item == first) = rest := by
        refine List.filter_eq_self.2 fun item member => ?_
        rw [Bool.not_eq_true', beq_eq_false_iff_ne]
        rintro rfl
        exact distinct.1 member
      rw [List.eraseDups_cons, others, ih distinct.2]

/-- Storing all the parents of a declaration drops none, and adds those that are not stored yet in their
order. -/
def StoredWhole (parents : List Parent) : Prop :=
  ∀ (store : Store) (childId : Int),
    (store.addParents (parents.map (parentDraft (some childId)))).1.dropped = 0 ∧
    ∃ added, (store.addParents (parents.map (parentDraft (some childId)))).2.parents.rows =
        store.parents.rows ++ added ∧
      added.map ParentRow.key =
        (parents.map fun parent => storedKey (parent.mention childId)).removeAll
          (store.parents.rows.map ParentRow.key)

theorem storedWhole {parents : List Parent} (named : Extract.AllNamed parents) (distinct : parents.Nodup) :
    StoredWhole parents := by
  intro store childId
  constructor
  · rw [(store.addParents_accounts _).dropped, List.countP_map, List.countP_eq_zero]
    intro parent member
    simp [ParentDraft.isComplete, parentDraft_complete? (named parent member)]
  · obtain ⟨added, rows, -, keys⟩ := store.addParents_rows (parents.map (parentDraft (some childId)))
    have mentions : (parents.map fun parent => storedKey (parent.mention childId)).Nodup := by
      refine distinct.map fun first second same => ?_
      have mentioned := storedKey_injective same
      cases first
      cases second
      simpa [Parent.mention] using mentioned
    refine ⟨added, rows, ?_⟩
    rw [keys, parentDrafts_complete? named, Option.elim_some, List.map_map]
    exact congrArg (List.removeAll · _) (eraseDups_of_nodup mentions)

namespace Extract

open Syntax

structure KeepsStorable (found kept : List Parent) : Prop where
  mentions : FirstMentions found kept
  named : ∀ parent ∈ kept, IsName parent.symbol ∧ Text.IsWord parent.symbol
  storable : ∀ parent ∈ kept, parent.Storable
  whole : StoredWhole kept

theorem FirstMentions.keepsStorable {found kept : List Parent} (mentions : FirstMentions found kept)
    (named : AllNamed kept) : KeepsStorable found kept where
  mentions := mentions
  named parent member := ⟨named parent member, (named parent member).isWord⟩
  storable parent member := Parent.storable (named parent member)
  whole := storedWhole named mentions.distinct

theorem MakesDefinition.keepsStorable {language : Language} {storeSource : Bool} {node : Node}
    {definition : Definition} (made : MakesDefinition language storeSource node definition) :
    KeepsStorable (if definition.kind.isType then mentioned language node else []) definition.parents := by
  rw [made.parents]
  by_cases type : definition.kind.isType = true
  · rw [if_pos type, if_pos type]
    exact (parents_firstMentions language node).keepsStorable (parents_named language node)
  · rw [if_neg type, if_neg type]
    exact (firstOccurrences_firstMentions []).keepsStorable allNamed_nil

theorem MakesBlock.keepsStorable {language : Language} {node : Node} {block : ImplBlock}
    (made : MakesBlock language node block) :
    KeepsStorable (mentioned language node) block.parents := by
  rw [made.parents]
  exact (parents_firstMentions language node).keepsStorable (parents_named language node)

/-- Every symbol found in a file is one word, every one that refers to something is a name, and the parents
are stored under the symbols they were found with. -/
theorem extracted_symbols_storable (filename : String) (language : Language) (storeSource : Bool)
    (root : Node) :
    (∀ definition ∈ (fileFacts filename language storeSource root).definitions,
      Text.IsWord definition.symbol ∧
      ∃ place node, root.descend place = some node ∧
        MakesDefinition language storeSource node definition ∧
        KeepsStorable (if definition.kind.isType then mentioned language node else [])
          definition.parents) ∧
    (∀ block ∈ (fileFacts filename language storeSource root).impls,
      IsName block.subject ∧ Text.IsWord block.subject ∧
      ∃ place node, root.descend place = some node ∧ MakesBlock language node block ∧
        KeepsStorable (mentioned language node) block.parents) ∧
    ∀ call ∈ (fileFacts filename language storeSource root).calls,
      IsName call.callee ∧ Text.IsWord call.callee := by
  have walked := fileFacts_walked filename language storeSource root
  refine ⟨?_, ?_, ?_⟩
  · intro definition member
    obtain ⟨place, -, node, here, made⟩ := exists_left_of_mem walked.definitions member
    exact ⟨definitionName?_isWord made.symbol, place, node, here, made, made.keepsStorable⟩
  · intro block member
    obtain ⟨place, -, node, here, made⟩ := exists_left_of_mem walked.blocks member
    have name := implSubject?_isName made.subject
    exact ⟨name, name.isWord, place, node, here, made, made.keepsStorable⟩
  · intro call member
    obtain ⟨place, -, node, outer, -, made, -⟩ := exists_left_of_mem walked.calls member
    have name := calleeName?_isName made.callee
    exact ⟨name, name.isWord⟩

/-! A class mixes one module in twice and has a function. A block gives a trait to a type. -/

def mixinNode (symbol : String) : Node :=
  .branch "call" [.token "identifier" "include", .branch "argument_list" [.token "constant" symbol]]
    [("method", ⟨0, []⟩), ("arguments", ⟨1, []⟩)]

def stockNode : Node :=
  .branch "class"
    [.token "constant" "Stock", .branch "superclass" [.token "<" "<", .token "constant" "Base"],
      .branch "body_statement"
        [mixinNode "Countable", mixinNode "Countable",
          .branch "method"
            [.token "identifier" "save",
              .branch "call" [.token "identifier" "track"] [("method", ⟨0, []⟩)]]
            [("name", ⟨0, []⟩)]]]
    [("name", ⟨0, []⟩)]

def shapeNode : Node :=
  .branch "impl_item"
    [.token "type_identifier" "Shape", .token "for" "for", .token "type_identifier" "Circle"]
    [("type", ⟨2, []⟩)]

theorem stock_symbols_storable :
    (fileFacts "stock.rb" .ruby false stockNode).definitions.map
        (fun definition => (definition.symbol, definition.parents)) =
      [("Stock", [⟨"Base", .extension⟩, ⟨"Countable", .mixin⟩]), ("save", [])] ∧
    (fileFacts "stock.rb" .ruby false stockNode).calls.map (·.callee) = ["track"] ∧
    (∀ definition ∈ (fileFacts "stock.rb" .ruby false stockNode).definitions,
      Text.IsWord definition.symbol ∧ StoredWhole definition.parents) ∧
    (∀ call ∈ (fileFacts "stock.rb" .ruby false stockNode).calls, IsName call.callee) ∧
    (fileFacts "shape.rs" .rust false shapeNode).impls =
      [⟨"Circle", 1, [⟨"Shape", .implementation⟩]⟩] ∧
    ∀ block ∈ (fileFacts "shape.rs" .rust false shapeNode).impls,
      IsName block.subject ∧ StoredWhole block.parents := by
  have stock := extracted_symbols_storable "stock.rb" .ruby false stockNode
  have shape := extracted_symbols_storable "shape.rs" .rust false shapeNode
  refine ⟨by decide +kernel, by decide +kernel, ?_, ?_, by decide +kernel, ?_⟩
  · intro definition member
    obtain ⟨word, _, _, -, -, kept⟩ := stock.1 definition member
    exact ⟨word, kept.whole⟩
  · exact fun call member => (stock.2.2 call member).1
  · intro block member
    obtain ⟨name, -, _, _, -, -, kept⟩ := shape.2.1 block member
    exact ⟨name, kept.whole⟩

end Extract

end DeclGraph
