import Mathlib
import DeclGraph.Proofs.ExtractedNames
import DeclGraph.Proofs.Places
import DeclGraph.Proofs.Reading

/-! Which names are collected below a node. A leaf is visible if it can be a name, nothing above it is skipped,
and every subscript on the way is left through its value. The names are those of the visible leaves in source
order, but of the leaves below an outermost qualified name only the last one counts. Names nested in it need no
rule of their own: the last of the last leaves is the last of them all. -/
namespace DeclGraph.Syntax

namespace Node

variable {root node child leaf : Node} {place above other : List Nat} {position levels : Nat}

def fieldPlace? (node : Node) (name : String) : Option (List Nat) :=
  (node.fields.lookup name).map fun route => route.child :: route.below

def FieldsAreChildren (root : Node) : Prop :=
  ∀ place node, root.descend place = some node →
    ∀ name route, node.fields.lookup name = some route → route.below = []

theorem FieldsAreChildren.inChild (labelled : root.FieldsAreChildren)
    (here : root.children[position]? = some child) : child.FieldsAreChildren := by
  intro place node found
  exact labelled (position :: place) node (descend_cons_eq_some_iff.2 ⟨child, here, found⟩)

def entered (node : Node) : List (Node × Nat) :=
  node.children.zipIdx.filter fun entry =>
    node.kind != "subscript" || node.fieldPlace? "value" == some [entry.2]

theorem mem_entered : (child, position) ∈ node.entered ↔ node.children[position]? = some child ∧
    (node.kind = "subscript" → node.fieldPlace? "value" = some [position]) := by
  simp only [entered, List.mem_filter, List.mem_zipIdx_iff_getElem?, Bool.or_eq_true, bne_iff_ne,
    beq_iff_eq, imp_iff_not_or, ne_eq]

theorem entered_ordered (node : Node) : node.entered.Pairwise fun a b => a.2 < b.2 :=
  (zipIdx_ordered node.children 0).filter _

def inner (levels : Nat) (node : Node) : List String :=
  node.entered.flatMap fun entry => entry.1.namesWithin levels

theorem inner_eq (plain : node.kind ≠ "subscript") :
    node.inner levels = node.children.flatMap (namesWithin levels) := by
  have all : node.entered = node.children.zipIdx := by
    rw [entered, List.filter_eq_self]
    simp [plain]
  rw [inner, all, ← List.flatMap_map, List.zipIdx_map_fst]

theorem filter_zipIdx_eq {α : Type} (items : List α) (start offset : Nat) :
    (items.zipIdx start).filter (fun entry => entry.2 == start + offset) =
      (items[offset]?.map fun item => (item, start + offset)).toList := by
  induction items generalizing start offset with
  | nil => rfl
  | cons item rest ih =>
      rw [List.zipIdx_cons]
      cases offset with
      | zero =>
          have others : (rest.zipIdx (start + 1)).filter (fun entry => entry.2 == start + 0) = [] := by
            rw [List.filter_eq_nil_iff]
            intro entry member
            have := List.le_snd_of_mem_zipIdx member
            simp only [beq_iff_eq]
            omega
          rw [List.filter_cons_of_pos (by simp), others]
          rfl
      | succ offset =>
          rw [List.filter_cons_of_neg (by simp)]
          have shifted := ih (start + 1) offset
          rw [Nat.add_assoc, Nat.add_comm 1] at shifted
          exact shifted

theorem inner_subscript (subscript : node.kind = "subscript")
    (labelled : ∀ name route, node.fields.lookup name = some route → route.below = []) :
    node.inner levels = ((node.field? "value").map (namesWithin levels)).getD [] := by
  cases value : node.fields.lookup "value" with
  | none =>
      have nothing : node.entered = [] := by
        rw [entered, List.filter_eq_nil_iff]
        simp [subscript, fieldPlace?, value]
      simp [inner, nothing, field?, value]
  | some route =>
      have direct := labelled "value" route value
      have single : node.entered =
          (node.children[route.child]?.map fun child => (child, route.child)).toList := by
        have chosen := filter_zipIdx_eq node.children 0 route.child
        rw [Nat.zero_add] at chosen
        rw [entered, ← chosen]
        refine List.filter_congr fun entry _ => ?_
        simp [subscript, fieldPlace?, value, direct, eq_comm]
      rw [inner, single, field?, value, Option.bind_some, direct]
      cases node.children[route.child]? with
      | none => rfl
      | some child => simp [descend]

/-- The names of a node, told by the names of the children that are entered. -/
theorem namesWithin_succ (labelled : ∀ name route, node.fields.lookup name = some route → route.below = []) :
    node.namesWithin (levels + 1) =
      if node.kind ∈ skippedKinds then []
      else if node.kind ∈ qualifiedKinds then (node.inner levels).getLast?.toList
      else if node.children = [] ∧ node.kind ≠ "subscript" then node.ownName?.toList
      else node.inner levels := by
  have noQualified : "subscript" ∉ qualifiedKinds := by decide
  rw [namesWithin]
  by_cases skipped : node.kind ∈ skippedKinds
  · rw [if_pos (List.contains_iff_mem.2 skipped), if_pos skipped]
  · rw [if_neg (by simpa using skipped), if_neg skipped]
    by_cases qualified : node.kind ∈ qualifiedKinds
    · have plain : node.kind ≠ "subscript" := fun same => noQualified (same ▸ qualified)
      rw [if_pos (List.contains_iff_mem.2 qualified), if_pos qualified, inner_eq plain]
    · rw [if_neg (by simpa using qualified), if_neg qualified]
      by_cases subscript : node.kind = "subscript"
      · rw [if_pos (beq_iff_eq.2 subscript), if_neg (by simp [subscript]),
          inner_subscript subscript labelled]
      · rw [if_neg (by simpa using subscript)]
        by_cases childless : node.children = []
        · rw [if_pos (List.isEmpty_iff.2 childless), if_pos ⟨childless, subscript⟩]
        · rw [if_neg (by simpa using childless), if_neg (fun both => childless both.1),
            inner_eq subscript]

/-- A leaf that is seen from the root: it can be a name, no node from the root down to it is skipped, and
subscripts are left through their value. -/
structure Visible (root : Node) (place : List Nat) (leaf : Node) : Prop where
  there : root.descend place = some leaf
  childless : leaf.children = []
  named : isIdentifierKind leaf.kind = true
  unqualified : leaf.kind ∉ qualifiedKinds
  plain : leaf.kind ≠ "subscript"
  text : IsName (Text.trim leaf.text)
  unskipped : ∀ above node, above <+: place → root.descend above = some node →
    node.kind ∉ skippedKinds
  through : ∀ above position node, above ++ [position] <+: place → root.descend above = some node →
    node.kind = "subscript" → node.fieldPlace? "value" = some [position]

theorem Visible.root_unskipped (visible : root.Visible place leaf) : root.kind ∉ skippedKinds :=
  visible.unskipped [] root List.nil_prefix rfl

theorem ownName?_eq_some_iff {name : String} : node.ownName? = some name ↔
    name = Text.trim node.text ∧ isIdentifierKind node.kind = true ∧ IsName (Text.trim node.text) := by
  rw [ownName?, IsName]
  simp only [Bool.and_eq_true, Bool.not_eq_true', List.contains_eq_mem, decide_eq_false_iff_not,
    Option.ite_none_right_eq_some, Option.some.injEq, and_assoc]
  constructor
  · rintro ⟨kind, identifier, noKeyword, rfl⟩
    exact ⟨rfl, kind, identifier, noKeyword⟩
  · rintro ⟨rfl, kind, identifier, noKeyword⟩
    exact ⟨kind, identifier, noKeyword, rfl⟩

theorem visible_nil_iff : root.Visible [] leaf ↔ leaf = root ∧ root.kind ∉ skippedKinds ∧
    root.kind ∉ qualifiedKinds ∧ root.children = [] ∧ root.kind ≠ "subscript" ∧
    root.ownName? = some (Text.trim root.text) := by
  rw [ownName?_eq_some_iff, and_iff_right rfl]
  constructor
  · intro visible
    have same : root = leaf := Option.some.inj visible.there
    subst same
    exact ⟨rfl, visible.root_unskipped, visible.unqualified, visible.childless, visible.plain,
      visible.named, visible.text⟩
  · rintro ⟨rfl, unskipped, unqualified, childless, plain, named, text⟩
    refine ⟨rfl, childless, named, unqualified, plain, text, ?_, ?_⟩
    · intro above node leads found
      rw [List.prefix_nil.1 leads] at found
      cases found
      exact unskipped
    · intro above position node leads
      simp at leads

theorem visible_cons_iff : root.Visible (position :: place) leaf ↔
    root.kind ∉ skippedKinds ∧ ∃ child, (child, position) ∈ root.entered ∧ child.Visible place leaf := by
  constructor
  · intro visible
    obtain ⟨child, here, there⟩ := descend_cons_eq_some_iff.1 visible.there
    have leave := visible.through [] position root (List.prefix_append [position] place) rfl
    refine ⟨visible.root_unskipped, child, mem_entered.2 ⟨here, leave⟩, there, visible.childless,
      visible.named, visible.unqualified, visible.plain, visible.text, ?_, ?_⟩
    · intro above node leads found
      exact visible.unskipped (position :: above) node ((List.prefix_cons_inj position).2 leads)
        (descend_cons_eq_some_iff.2 ⟨child, here, found⟩)
    · intro above next node leads found
      exact visible.through (position :: above) next node ((List.prefix_cons_inj position).2 leads)
        (descend_cons_eq_some_iff.2 ⟨child, here, found⟩)
  · rintro ⟨unskipped, child, entry, visible⟩
    obtain ⟨here, leave⟩ := mem_entered.1 entry
    refine ⟨descend_cons_eq_some_iff.2 ⟨child, here, visible.there⟩, visible.childless, visible.named,
      visible.unqualified, visible.plain, visible.text, ?_, ?_⟩
    · intro above node leads found
      cases above with
      | nil =>
          cases found
          exact unskipped
      | cons first above =>
          obtain ⟨rfl, inside⟩ := List.cons_prefix_cons.1 leads
          obtain ⟨other, there, found⟩ := descend_cons_eq_some_iff.1 found
          cases here.symm.trans there
          exact visible.unskipped above node inside found
    · intro above next node leads found
      cases above with
      | nil =>
          cases found
          obtain ⟨rfl, -⟩ := List.cons_prefix_cons.1 leads
          exact leave
      | cons first above =>
          obtain ⟨rfl, inside⟩ := List.cons_prefix_cons.1 leads
          obtain ⟨other, there, found⟩ := descend_cons_eq_some_iff.1 found
          cases here.symm.trans there
          exact visible.through above next node inside found

def Qualified (root : Node) (place : List Nat) : Prop :=
  ∃ node, root.descend place = some node ∧ node.kind ∈ qualifiedKinds

structure Outermost (root : Node) (place : List Nat) : Prop where
  qualified : root.Qualified place
  outermost : ∀ above, above <+: place → above ≠ place → ¬ root.Qualified above

/-- A visible leaf that counts: where it lies below an outermost qualified name, no visible leaf comes later
below that name. -/
structure Kept (root : Node) (place : List Nat) : Prop where
  visible : ∃ leaf, root.Visible place leaf
  last : ∀ above, root.Outermost above → above <+: place →
    ∀ other leaf, root.Visible other leaf → above <+: other → ¬ place < other

theorem qualified_nil_iff : root.Qualified [] ↔ root.kind ∈ qualifiedKinds := by
  constructor
  · rintro ⟨node, found, qualified⟩
    cases found
    exact qualified
  · exact fun qualified => ⟨root, rfl, qualified⟩

theorem qualified_cons_iff (here : root.children[position]? = some child) :
    root.Qualified (position :: place) ↔ child.Qualified place := by
  simp only [Qualified, descend, here, Option.bind_some]

theorem outermost_cons_iff (plain : root.kind ∉ qualifiedKinds)
    (here : root.children[position]? = some child) :
    root.Outermost (position :: above) ↔ child.Outermost above := by
  constructor
  · rintro ⟨qualified, outermost⟩
    refine ⟨(qualified_cons_iff here).1 qualified, fun outer leads proper inside => ?_⟩
    exact outermost (position :: outer) ((List.prefix_cons_inj position).2 leads)
      (fun same => proper (List.cons.inj same).2) ((qualified_cons_iff here).2 inside)
  · rintro ⟨qualified, outermost⟩
    refine ⟨(qualified_cons_iff here).2 qualified, fun outer leads proper outside => ?_⟩
    cases outer with
    | nil => exact plain (qualified_nil_iff.1 outside)
    | cons first outer =>
        obtain ⟨rfl, inside⟩ := List.cons_prefix_cons.1 leads
        exact outermost outer inside (fun same => proper (congrArg (first :: ·) same))
          ((qualified_cons_iff here).1 outside)

/-- Below a qualified root only the last visible leaf counts. -/
theorem kept_qualified_iff (qualified : root.kind ∈ qualifiedKinds) :
    root.Kept place ↔ (∃ leaf, root.Visible place leaf) ∧
      ∀ other leaf, root.Visible other leaf → ¬ place < other := by
  have whole : root.Outermost [] := by
    refine ⟨qualified_nil_iff.2 qualified, fun above leads proper => ?_⟩
    exact absurd (List.prefix_nil.1 leads) proper
  constructor
  · rintro ⟨visible, last⟩
    exact ⟨visible, fun other leaf seen => last [] whole List.nil_prefix other leaf seen List.nil_prefix⟩
  · rintro ⟨visible, last⟩
    exact ⟨visible, fun above _ _ other leaf seen _ => last other leaf seen⟩

theorem kept_nil_iff (plain : root.kind ∉ qualifiedKinds) :
    root.Kept [] ↔ ∃ leaf, root.Visible [] leaf := by
  refine ⟨Kept.visible, fun visible => ⟨visible, fun above outermost leads => ?_⟩⟩
  rw [List.prefix_nil.1 leads] at outermost
  exact absurd (qualified_nil_iff.1 outermost.qualified) plain

/-- Below any other root a leaf counts as it does below the child that leads to it. -/
theorem kept_cons_iff (plain : root.kind ∉ qualifiedKinds) : root.Kept (position :: place) ↔
    root.kind ∉ skippedKinds ∧ ∃ child, (child, position) ∈ root.entered ∧ child.Kept place := by
  constructor
  · rintro ⟨⟨leaf, visible⟩, last⟩
    obtain ⟨unskipped, child, entry, visible⟩ := visible_cons_iff.1 visible
    have here := (mem_entered.1 entry).1
    refine ⟨unskipped, child, entry, ⟨leaf, visible⟩, fun above outermost leads other leaf seen below => ?_⟩
    have later := last (position :: above) ((outermost_cons_iff plain here).2 outermost)
      ((List.prefix_cons_inj position).2 leads) (position :: other) leaf
      (visible_cons_iff.2 ⟨unskipped, child, entry, seen⟩) ((List.prefix_cons_inj position).2 below)
    exact fun less => later (List.cons_lt_cons_iff.2 (Or.inr ⟨rfl, less⟩))
  · rintro ⟨unskipped, child, entry, ⟨leaf, visible⟩, last⟩
    have here := (mem_entered.1 entry).1
    refine ⟨⟨leaf, visible_cons_iff.2 ⟨unskipped, child, entry, visible⟩⟩, ?_⟩
    intro above outermost leads other leaf seen below
    cases above with
    | nil => exact absurd (qualified_nil_iff.1 outermost.qualified) plain
    | cons first above =>
        obtain ⟨rfl, inside⟩ := List.cons_prefix_cons.1 leads
        obtain ⟨rest, rfl⟩ := below
        obtain ⟨-, child', entry', seen⟩ := visible_cons_iff.1 seen
        cases here.symm.trans (mem_entered.1 entry').1
        have later := last above ((outermost_cons_iff plain here).1 outermost) inside _ leaf seen
          (List.prefix_append above rest)
        intro less
        rcases List.cons_lt_cons_iff.1 less with less | ⟨-, less⟩
        · exact absurd less (Nat.lt_irrefl _)
        · exact later less

def Shallow (root : Node) (levels : Nat) : Prop :=
  ∀ place node, root.descend place = some node → place.length < levels

/-- Names that were read from leaves, in source order. Where the tree is seen as a whole, no visible leaf comes
behind all of them, and they are the leaves that count. -/
structure Collected (visible : List Nat → Node → Prop) (counts : List Nat → Prop) (levels : Nat)
    (whole : Prop) (leaves : List (List Nat)) (names : List String) : Prop where
  ordered : leaves.Pairwise (· < ·)
  read : List.Forall₂ (fun place name => place.length < levels ∧
    ∃ leaf, visible place leaf ∧ name = Text.trim leaf.text) leaves names
  covered : whole → ∀ place leaf, visible place leaf → ∃ later ∈ leaves, ¬ later < place
  complete : whole → ∀ place, place ∈ leaves ↔ counts place

section Collected

variable {visible : List Nat → Node → Prop} {counts : List Nat → Prop} {whole : Prop}
  {leaves : List (List Nat)} {names : List String} {entries : List (Node × Nat)}

theorem Collected.seen (collected : Collected visible counts levels whole leaves names)
    (member : place ∈ leaves) : ∃ leaf, visible place leaf := by
  obtain ⟨name, -, -, leaf, seen, -⟩ := exists_right_of_mem collected.read member
  exact ⟨leaf, seen⟩

def Among (entries : List (Node × Nat)) (holds : Node → List Nat → Prop) (place : List Nat) : Prop :=
  ∃ entry ∈ entries, ∃ below, place = entry.2 :: below ∧ holds entry.1 below

theorem among_cons_iff {holds : Node → List Nat → Prop} :
    Among entries holds (position :: place) ↔
      ∃ child, (child, position) ∈ entries ∧ holds child place := by
  constructor
  · rintro ⟨⟨child, index⟩, member, below, same, here⟩
    cases same
    exact ⟨child, member, here⟩
  · rintro ⟨child, member, here⟩
    exact ⟨(child, position), member, place, rfl, here⟩

theorem not_among_nil {holds : Node → List Nat → Prop} : ¬ Among entries holds [] := by
  rintro ⟨entry, -, below, same, -⟩
  cases same

theorem among_entries_cons {entry : Node × Nat} {holds : Node → List Nat → Prop} :
    Among (entry :: entries) holds place ↔
      (∃ below, place = entry.2 :: below ∧ holds entry.1 below) ∨ Among entries holds place := by
  simp only [Among, List.exists_mem_cons_iff]

/-- One neighbour in front of others: what is below it comes before all that is below them. -/
theorem collected_cons {entry : Node × Nat} {early late : List (List Nat)}
    (before : ∀ next ∈ entries, entry.2 < next.2)
    (first : Collected entry.1.Visible entry.1.Kept levels (entry.1.Shallow levels) early
      (entry.1.namesWithin levels))
    (others : Collected (fun place leaf => Among entries (fun node below => node.Visible below leaf) place)
      (Among entries Kept) (levels + 1) (∀ next ∈ entries, next.1.Shallow levels) late
      (entries.flatMap fun next => next.1.namesWithin levels)) :
    Collected (fun place leaf => Among (entry :: entries) (fun node below => node.Visible below leaf) place)
      (Among (entry :: entries) Kept) (levels + 1) (∀ next ∈ entry :: entries, next.1.Shallow levels)
      (early.map (entry.2 :: ·) ++ late)
      ((entry :: entries).flatMap fun next => next.1.namesWithin levels) := by
  refine ⟨?_, ?_, ?_, ?_⟩
  · refine List.pairwise_append.2 ⟨?_, others.ordered, ?_⟩
    · exact List.pairwise_map.2 (first.ordered.imp fun less =>
        List.cons_lt_cons_iff.2 (Or.inr ⟨rfl, less⟩))
    · intro place listed later behind
      obtain ⟨below, -, rfl⟩ := List.mem_map.1 listed
      obtain ⟨leaf, next, member, rest, rfl, -⟩ := others.seen behind
      exact List.cons_lt_cons_iff.2 (Or.inl (before next member))
  · rw [List.flatMap_cons]
    refine List.rel_append (List.forall₂_map_left_iff.2 (first.read.imp ?_)) (others.read.imp ?_)
    · rintro place name ⟨short, leaf, seen, text⟩
      exact ⟨Nat.succ_lt_succ short, leaf, among_entries_cons.2 (Or.inl ⟨place, rfl, seen⟩), text⟩
    · rintro place name ⟨short, leaf, seen, text⟩
      exact ⟨short, leaf, among_entries_cons.2 (Or.inr seen), text⟩
  · intro whole place leaf seen
    rw [List.forall_mem_cons] at whole
    rcases among_entries_cons.1 seen with ⟨below, rfl, here⟩ | there
    · obtain ⟨later, listed, behind⟩ := first.covered whole.1 below leaf here
      refine ⟨entry.2 :: later, List.mem_append_left late (List.mem_map_of_mem listed), fun less => ?_⟩
      rcases List.cons_lt_cons_iff.1 less with less | ⟨-, less⟩
      · exact Nat.lt_irrefl _ less
      · exact behind less
    · obtain ⟨later, listed, behind⟩ := others.covered whole.2 place leaf there
      exact ⟨later, List.mem_append_right _ listed, behind⟩
  · intro whole place
    rw [List.forall_mem_cons] at whole
    rw [List.mem_append, others.complete whole.2, List.mem_map, among_entries_cons]
    simp only [first.complete whole.1, and_comm, eq_comm]

/-- Neighbours are collected one after the other. -/
theorem collected_entries (ordered : entries.Pairwise fun a b => a.2 < b.2)
    (each : ∀ entry ∈ entries, ∃ leaves, Collected entry.1.Visible entry.1.Kept levels
      (entry.1.Shallow levels) leaves (entry.1.namesWithin levels)) :
    ∃ leaves, Collected (fun place leaf => Among entries (fun node below => node.Visible below leaf) place)
      (Among entries Kept) (levels + 1) (∀ entry ∈ entries, entry.1.Shallow levels) leaves
      (entries.flatMap fun entry => entry.1.namesWithin levels) := by
  induction entries with
  | nil => exact ⟨[], .nil, .nil, by simp [Among], by simp [Among]⟩
  | cons entry rest ih =>
      rw [List.pairwise_cons] at ordered
      rw [List.forall_mem_cons] at each
      obtain ⟨early, first⟩ := each.1
      obtain ⟨late, others⟩ := ih ordered.2 each.2
      exact ⟨_, collected_cons ordered.1 first others⟩

/-- Leaves in source order come no later than the last of them. -/
theorem not_last_lt {last : List Nat} (ordered : leaves.Pairwise (· < ·))
    (final : leaves.getLast? = some last) (member : place ∈ leaves) : ¬ last < place := by
  obtain ⟨early, rfl⟩ := List.getLast?_eq_some_iff.1 final
  rcases List.mem_append.1 member with before | same
  · exact lt_asymm ((List.pairwise_append.1 ordered).2.2 place before last (List.mem_singleton_self last))
  · rw [List.mem_singleton.1 same]
    exact lt_irrefl last

theorem forall₂_getLast? {α β : Type} {R : α → β → Prop} {left : List α} {right : List β}
    (pairs : List.Forall₂ R left right) : List.Forall₂ R left.getLast?.toList right.getLast?.toList := by
  induction pairs with
  | nil => exact .nil
  | cons first rest ih =>
      cases rest with
      | nil => exact .cons first .nil
      | cons second rest => exact ih

/-- Of what lies below a qualified name, the last leaf is collected. It is the last visible one, since none
comes behind all that would be collected without the name. -/
theorem Collected.last (collected : Collected visible counts levels whole leaves names)
    {remains : List Nat → Prop}
    (alone : ∀ place, remains place ↔ (∃ leaf, visible place leaf) ∧
      ∀ other leaf, visible other leaf → ¬ place < other) :
    Collected visible remains levels whole leaves.getLast?.toList names.getLast?.toList := by
  have behind : whole → ∀ place leaf, visible place leaf →
      ∃ last, leaves.getLast? = some last ∧ ¬ last < place := by
    intro sees place leaf seen
    obtain ⟨later, listed, behind⟩ := collected.covered sees place leaf seen
    obtain ⟨last, final⟩ := Option.isSome_iff_exists.1
      (List.getLast?_isSome.2 (List.ne_nil_of_mem listed))
    refine ⟨last, final, fun less => behind ?_⟩
    exact lt_of_le_of_lt (not_lt.1 (not_last_lt collected.ordered final listed)) less
  refine ⟨?_, forall₂_getLast? collected.read, ?_, ?_⟩
  · cases leaves.getLast? with
    | none => exact .nil
    | some last => exact List.pairwise_singleton _ last
  · intro sees place leaf seen
    obtain ⟨last, final, behind⟩ := behind sees place leaf seen
    exact ⟨last, by simp [final], behind⟩
  · intro sees place
    rw [Option.mem_toList, alone]
    constructor
    · intro final
      refine ⟨collected.seen (List.mem_of_getLast? final), fun other leaf seen => ?_⟩
      obtain ⟨last, same, behind⟩ := behind sees other leaf seen
      cases final.symm.trans same
      exact behind
    · rintro ⟨⟨leaf, seen⟩, latest⟩
      obtain ⟨last, final, behind⟩ := behind sees place leaf seen
      obtain ⟨lastLeaf, lastSeen⟩ := collected.seen (List.mem_of_getLast? final)
      rw [le_antisymm (not_lt.1 behind) (not_lt.1 (latest last lastLeaf lastSeen))]
      exact final

theorem Collected.congr (collected : Collected visible counts levels whole leaves names)
    {visible' : List Nat → Node → Prop} {counts' : List Nat → Prop} {whole' : Prop}
    (sameVisible : ∀ place leaf, visible' place leaf ↔ visible place leaf)
    (sameCounts : ∀ place, counts' place ↔ counts place) (sees : whole' → whole) :
    Collected visible' counts' levels whole' leaves names := by
  refine ⟨collected.ordered, collected.read.imp ?_, ?_, ?_⟩
  · rintro place name ⟨short, leaf, seen, text⟩
    exact ⟨short, leaf, (sameVisible place leaf).2 seen, text⟩
  · intro all place leaf seen
    exact collected.covered (sees all) place leaf ((sameVisible place leaf).1 seen)
  · intro all place
    rw [collected.complete (sees all), sameCounts]

end Collected

theorem Shallow.entered (shallow : root.Shallow (levels + 1)) :
    ∀ entry ∈ root.entered, entry.1.Shallow levels := by
  rintro ⟨child, position⟩ member place node found
  have here := (mem_entered.1 member).1
  exact Nat.lt_of_succ_lt_succ
    (shallow (position :: place) node (descend_cons_eq_some_iff.2 ⟨child, here, found⟩))

/-- Unless the root is a leaf by itself, its leaves are those of the children that are entered. -/
theorem visible_iff_among (unskipped : root.kind ∉ skippedKinds)
    (inner : root.kind ∈ qualifiedKinds ∨ root.children ≠ [] ∨ root.kind = "subscript")
    (place : List Nat) (leaf : Node) : root.Visible place leaf ↔
      Among root.entered (fun node below => node.Visible below leaf) place := by
  cases place with
  | nil =>
      refine iff_of_false (fun visible => ?_) not_among_nil
      obtain ⟨-, -, unqualified, childless, plain, -⟩ := visible_nil_iff.1 visible
      rcases inner with qualified | children | subscript
      · exact unqualified qualified
      · exact children childless
      · exact plain subscript
  | cons position place => rw [visible_cons_iff, among_cons_iff, and_iff_right unskipped]

theorem kept_iff_among (unskipped : root.kind ∉ skippedKinds) (plain : root.kind ∉ qualifiedKinds)
    (inner : root.children ≠ [] ∨ root.kind = "subscript") (place : List Nat) :
    root.Kept place ↔ Among root.entered Kept place := by
  cases place with
  | nil =>
      refine iff_of_false (fun kept => ?_) not_among_nil
      obtain ⟨leaf, visible⟩ := kept.visible
      exact not_among_nil ((visible_iff_among unskipped (Or.inr inner) [] leaf).1 visible)
  | cons position place => rw [kept_cons_iff plain, among_cons_iff, and_iff_right unskipped]

theorem collected_nothing (hidden : ∀ place leaf, ¬ root.Visible place leaf) :
    ∃ leaves, Collected root.Visible root.Kept levels (root.Shallow levels) leaves [] := by
  refine ⟨[], .nil, .nil, fun _ place leaf visible => absurd visible (hidden place leaf), ?_⟩
  intro _ place
  refine iff_of_false List.not_mem_nil fun kept => ?_
  obtain ⟨leaf, visible⟩ := kept.visible
  exact hidden place leaf visible

/-- A node without children is collected by itself. -/
theorem collected_leaf (unskipped : root.kind ∉ skippedKinds) (plain : root.kind ∉ qualifiedKinds)
    (childless : root.children = []) (single : root.kind ≠ "subscript") :
    ∃ leaves, Collected root.Visible root.Kept (levels + 1) (root.Shallow (levels + 1)) leaves
      root.ownName?.toList := by
  have ended : ∀ {place leaf}, root.Visible place leaf → place = [] := by
    intro place leaf visible
    cases place with
    | nil => rfl
    | cons position place =>
        obtain ⟨-, child, entry, -⟩ := visible_cons_iff.1 visible
        have here := (mem_entered.1 entry).1
        rw [childless] at here
        cases here
  cases own : root.ownName? with
  | none =>
      refine collected_nothing fun place leaf visible => ?_
      cases ended visible
      obtain ⟨-, -, -, -, -, named⟩ := visible_nil_iff.1 visible
      rw [own] at named
      cases named
  | some name =>
      have text : name = Text.trim root.text := (ownName?_eq_some_iff.1 own).1
      have visible : root.Visible [] root :=
        visible_nil_iff.2 ⟨rfl, unskipped, plain, childless, single, text ▸ own⟩
      refine ⟨[[]], List.pairwise_singleton _ _, .cons ⟨Nat.succ_pos _, root, visible, text⟩ .nil, ?_, ?_⟩
      · intro _ place leaf seen
        rw [ended seen]
        exact ⟨[], List.mem_singleton_self _, lt_irrefl _⟩
      · intro _ place
        rw [List.mem_singleton]
        constructor
        · rintro rfl
          exact (kept_nil_iff plain).2 ⟨root, visible⟩
        · intro kept
          obtain ⟨leaf, seen⟩ := kept.visible
          exact ended seen

/-- The names on any number of levels. The induction is on the levels; a tree that is higher is cut, and then
only the leaves above the cut are read. -/
theorem namesWithin_collected (levels : Nat) (root : Node) (labelled : root.FieldsAreChildren) :
    ∃ leaves, Collected root.Visible root.Kept levels (root.Shallow levels) leaves
      (root.namesWithin levels) := by
  induction levels generalizing root with
  | zero =>
      have higher : ¬ root.Shallow 0 := fun shallow => Nat.not_lt_zero _ (shallow [] root rfl)
      exact ⟨[], .nil, .nil, fun shallow => absurd shallow higher, fun shallow => absurd shallow higher⟩
  | succ levels ih =>
      obtain ⟨leaves, inside⟩ := collected_entries root.entered_ordered fun entry member =>
        ih entry.1 (labelled.inChild (mem_entered.1 member).1)
      rw [namesWithin_succ (labelled [] root rfl)]
      by_cases skipped : root.kind ∈ skippedKinds
      · rw [if_pos skipped]
        exact collected_nothing fun place leaf visible => visible.root_unskipped skipped
      · rw [if_neg skipped]
        by_cases qualified : root.kind ∈ qualifiedKinds
        · have seen : Collected root.Visible (Among root.entered Kept) (levels + 1)
              (root.Shallow (levels + 1)) leaves (root.inner levels) :=
            inside.congr (visible_iff_among skipped (Or.inl qualified)) (fun _ => Iff.rfl) Shallow.entered
          rw [if_pos qualified]
          exact ⟨_, seen.last fun place => kept_qualified_iff qualified⟩
        · rw [if_neg qualified]
          by_cases alone : root.children = [] ∧ root.kind ≠ "subscript"
          · rw [if_pos alone]
            exact collected_leaf skipped qualified alone.1 alone.2
          · have inner : root.children ≠ [] ∨ root.kind = "subscript" := by
              rw [← not_ne_iff (b := "subscript")]
              exact not_and_or.1 alone
            rw [if_neg alone]
            exact ⟨leaves, inside.congr (visible_iff_among skipped (Or.inr inner))
              (kept_iff_among skipped qualified inner) Shallow.entered⟩

theorem names_length_of_qualified (qualified : root.kind ∈ qualifiedKinds) : root.names.length ≤ 1 := by
  rw [names, namesWithin, if_pos (List.contains_iff_mem.2 qualified)]
  split
  · exact Nat.zero_le 1
  · exact Option.length_toList_le

/-- The names of a node in closed form. They are read from visible leaves, in source order and each leaf once,
none further down than a walk goes. If the walk reaches all nodes, these are the leaves that count: all visible
ones but those which a later one follows below the same outermost qualified name. A qualified node has one name
at most. -/
theorem names_are_visible_leaves (root : Node) (labelled : root.FieldsAreChildren) :
    ∃ leaves : List (List Nat), leaves.Pairwise (· < ·) ∧
      List.Forall₂ (fun place name => place.length ≤ maxWalkDepth ∧
        ∃ leaf, root.Visible place leaf ∧ name = Text.trim leaf.text) leaves root.names ∧
      ((∀ place node, root.descend place = some node → place.length ≤ maxWalkDepth) →
        ∀ place, place ∈ leaves ↔ root.Kept place) ∧
      (root.kind ∈ qualifiedKinds → root.names.length ≤ 1) := by
  obtain ⟨leaves, collected⟩ := namesWithin_collected (maxWalkDepth + 1) root labelled
  refine ⟨leaves, collected.ordered, collected.read.imp ?_, fun reached => collected.complete ?_,
    names_length_of_qualified⟩
  · rintro place name ⟨short, leaf, visible, text⟩
    exact ⟨Nat.le_of_lt_succ short, leaf, visible, text⟩
  · exact fun place node found => Nat.lt_succ_of_le (reached place node found)

/-! Bases of a class: one qualified name inside another, a subscript, a keyword and a type with arguments. -/

def bases : Node :=
  branch "bases"
    [branch "attribute"
      [branch "attribute" [token "identifier" "a", token "." ".", token "identifier" "b"],
        branch "type_arguments" [token "identifier" "c"]],
      branch "subscript" [token "identifier" "Generic", token "identifier" "T"] [("value", ⟨0, []⟩)],
      token "identifier" "public",
      branch "generic_type"
        [token "type_identifier" " List ", branch "type_arguments" [token "type_identifier" "String"]]]

theorem bases_names :
    bases.FieldsAreChildren ∧
    (∀ place node, bases.descend place = some node → place.length ≤ maxWalkDepth) ∧
    bases.names = ["b", "Generic", "List"] ∧
    ∃ leaves : List (List Nat), leaves.Pairwise (· < ·) ∧ leaves.length = 3 ∧
      ∀ place, place ∈ leaves ↔ bases.Kept place := by
  have checked : ∀ place ∈ bases.places, place.length ≤ maxWalkDepth ∧
      bases.holdsAt (fun node => node.fields.all fun field => field.2.below == []) place = true := by
    decide
  have reached : ∀ place node, bases.descend place = some node → place.length ≤ maxWalkDepth :=
    fun place node found => (checked place (mem_places.2 ⟨node, found⟩)).1
  have labelled : bases.FieldsAreChildren := by
    intro place node found name route listed
    have direct := (checked place (mem_places.2 ⟨node, found⟩)).2
    obtain ⟨before, after, split, -⟩ := List.lookup_eq_some_iff.1 listed
    rw [holdsAt_eq found, split] at direct
    simpa using List.all_eq_true.1 direct (name, route) (by simp)
  have names : bases.names = ["b", "Generic", "List"] := by decide +kernel
  obtain ⟨leaves, ordered, read, kept, -⟩ := names_are_visible_leaves bases labelled
  refine ⟨labelled, reached, names, leaves, ordered, ?_, kept reached⟩
  rw [read.length_eq, names]
  rfl

end Node

end DeclGraph.Syntax
