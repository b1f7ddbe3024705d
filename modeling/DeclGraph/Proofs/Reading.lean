import Mathlib
import DeclGraph.Proofs.Indexed
import DeclGraph.Store.Parents

/-! What a successful reading of the store says about its rows. Traversals see the tables through
`Store.entity?`, `Store.root?` and `Store.groups` only, so what they find is stated here once, in
terms of stored declarations and stored calls. -/
namespace DeclGraph

section Attempts
variable {ε α β : Type}

theorem bind_eq_ok {attempt : Except ε α} {next : α → Except ε β} {result : β} :
    attempt >>= next = .ok result ↔ ∃ value, attempt = .ok value ∧ next value = .ok result := by
  cases attempt <;> simp [bind, Except.bind]

theorem mapM_eq_ok {read : α → Except ε β} {rows : List α} {values : List β} :
    rows.mapM read = .ok values ↔
      List.Forall₂ (fun row value => read row = .ok value) rows values := by
  induction rows generalizing values with
  | nil => cases values <;> simp [pure, Except.pure]
  | cons row rest ih =>
      rw [List.mapM_cons, bind_eq_ok]
      simp only [bind_eq_ok, ih, pure, Except.pure, Except.ok.injEq]
      constructor
      · rintro ⟨value, first, others, remaining, rfl⟩
        exact .cons first remaining
      · rintro (_ | ⟨first, remaining⟩)
        exact ⟨_, first, _, remaining, rfl⟩

/-- What holds of the values read from a list is what holds of the reading of its rows. -/
theorem exists_read_iff {read : α → Except ε β} {rows : List α} {values : List β}
    {P : β → Prop} {Q : α → Prop} (success : rows.mapM read = .ok values)
    (agree : ∀ row ∈ rows, ∀ value, read row = .ok value → (P value ↔ Q row)) :
    (∃ value ∈ values, P value) ↔ ∃ row ∈ rows, Q row := by
  have pairs := mapM_eq_ok.1 success
  clear success
  induction pairs with
  | nil => simp
  | cons first _ ih =>
      have head := agree _ (by simp) _ first
      have tail := ih fun row member => agree row (List.mem_cons_of_mem _ member)
      simp only [List.exists_mem_cons_iff, head, tail]

theorem exists_row_of_read {read : α → Except ε β} {rows : List α} {values : List β} {value : β}
    (success : rows.mapM read = .ok values) (member : value ∈ values) :
    ∃ row ∈ rows, read row = .ok value := by
  refine (exists_read_iff (P := (· = value)) success fun row _ other reads => ?_).1
    ⟨value, member, rfl⟩
  rw [reads, Except.ok.injEq]

/-- What the values show is what the rows show. -/
theorem map_read {γ : Type} {read : α → Except ε β} {rows : List α} {values : List β} {f : β → γ}
    {g : α → γ} (success : rows.mapM read = .ok values)
    (agree : ∀ row value, read row = .ok value → f value = g row) : values.map f = rows.map g := by
  have pairs := mapM_eq_ok.1 success
  clear success
  induction pairs with
  | nil => rfl
  | cons first _ ih => rw [List.map_cons, List.map_cons, ih, agree _ _ first]

/-- Reading part of the rows gives that part of the values. -/
theorem mapM_filter {read : α → Except ε β} {rows : List α} {values : List β} {test : β → Bool}
    {check : α → Bool} (success : rows.mapM read = .ok values)
    (agree : ∀ row value, read row = .ok value → test value = check row) :
    (rows.filter check).mapM read = .ok (values.filter test) := by
  rw [mapM_eq_ok] at success ⊢
  induction success with
  | nil => exact .nil
  | @cons row value _ _ first _ ih =>
      have same := agree row value first
      by_cases kept : check row = true
      · rw [List.filter_cons_of_pos kept, List.filter_cons_of_pos (same.trans kept)]
        exact .cons first ih
      · rw [List.filter_cons_of_neg kept, List.filter_cons_of_neg (same.trans_ne kept)]
        exact ih

/-- Where every row can be read, the list can. -/
theorem mapM_succeeds {read : α → Except ε β} {rows : List α}
    (readable : ∀ row ∈ rows, ∃ value, read row = .ok value) :
    ∃ values, rows.mapM read = .ok values := by
  induction rows with
  | nil => exact ⟨[], rfl⟩
  | cons row rest ih =>
      obtain ⟨value, first⟩ := readable row List.mem_cons_self
      obtain ⟨values, others⟩ := ih fun row member => readable row (List.mem_cons_of_mem _ member)
      exact ⟨value :: values, mapM_eq_ok.2 (.cons first (mapM_eq_ok.1 others))⟩

/-- What every step preserves, all of them together do. -/
theorem foldlM_preserves {P : β → Prop} {step : β → α → Except ε β} {items : List α}
    (each : ∀ item ∈ items, ∀ before after, step before item = .ok after → P before → P after)
    {before after : β} (start : P before) (success : items.foldlM step before = .ok after) :
    P after := by
  induction items generalizing before with
  | nil =>
      cases success
      exact start
  | cons item rest ih =>
      rw [List.foldlM_cons] at success
      obtain ⟨between, first, others⟩ := bind_eq_ok.1 success
      have holds := each item List.mem_cons_self before between first start
      exact ih (fun later member => each later (List.mem_cons_of_mem item member)) holds others

theorem foldlM_fixed {step : β → α → Except ε β} {items : List α} {state : β}
    (fixed : ∀ item ∈ items, step state item = .ok state) : items.foldlM step state = .ok state := by
  induction items with
  | nil => rfl
  | cons item rest ih =>
      rw [List.foldlM_cons, fixed item List.mem_cons_self]
      exact ih fun other member => fixed other (List.mem_cons_of_mem item member)

/-- Where every step succeeds, all of them together do. -/
theorem foldlM_succeeds {step : β → α → Except ε β}
    (each : ∀ before item, ∃ after, step before item = .ok after) (items : List α) (before : β) :
    ∃ after, items.foldlM step before = .ok after := by
  induction items generalizing before with
  | nil => exact ⟨before, rfl⟩
  | cons item rest ih =>
      obtain ⟨between, first⟩ := each before item
      obtain ⟨after, others⟩ := ih between
      rw [List.foldlM_cons]
      exact ⟨after, bind_eq_ok.2 ⟨between, first, others⟩⟩

def Alike (related : α → β → Prop) : Except ε α → Except ε β → Prop
  | .ok value, .ok other => related value other
  | .error error, .error other => error = other
  | _, _ => False

namespace Alike

variable {γ δ : Type} {related : α → β → Prop} {attempt : Except ε α} {other : Except ε β}

theorem refl (attempt : Except ε α) : Alike (· = ·) attempt attempt := by
  cases attempt <;> rfl

theorem bind {related' : γ → δ → Prop} {next : α → Except ε γ} {next' : β → Except ε δ}
    (alike : Alike related attempt other)
    (further : ∀ a b, related a b → Alike related' (next a) (next' b)) :
    Alike related' (attempt >>= next) (other >>= next') := by
  cases attempt with
  | error =>
      cases other with
      | error => exact alike
      | ok => exact alike.elim
  | ok value =>
      cases other with
      | error => exact alike.elim
      | ok value' => exact further value value' alike

theorem bind_eq {next : α → Except ε γ} {next' : β → Except ε γ}
    (alike : Alike related attempt other) (further : ∀ a b, related a b → next a = next' b) :
    attempt >>= next = other >>= next' := by
  cases attempt with
  | error =>
      cases other with
      | error => exact congrArg Except.error alike
      | ok => exact alike.elim
  | ok value =>
      cases other with
      | error => exact alike.elim
      | ok value' => exact further value value' alike

end Alike

end Attempts

section Pairs
variable {α β : Type} {R : α → β → Prop} {left : List α} {right : List β} {a : α} {b : β}

theorem exists_right_of_mem (pairs : List.Forall₂ R left right) (member : a ∈ left) :
    ∃ b, (a, b) ∈ left.zip right ∧ R a b := by
  induction pairs with
  | nil => cases member
  | cons first _ ih =>
      rcases List.mem_cons.1 member with rfl | later
      · exact ⟨_, List.mem_cons_self, first⟩
      · obtain ⟨b, pair, related⟩ := ih later
        exact ⟨b, List.mem_cons_of_mem _ pair, related⟩

theorem exists_left_of_mem (pairs : List.Forall₂ R left right) (member : b ∈ right) :
    ∃ a, (a, b) ∈ left.zip right ∧ R a b := by
  induction pairs with
  | nil => cases member
  | cons first _ ih =>
      rcases List.mem_cons.1 member with rfl | later
      · exact ⟨_, List.mem_cons_self, first⟩
      · obtain ⟨a, pair, related⟩ := ih later
        exact ⟨a, List.mem_cons_of_mem _ pair, related⟩

theorem forall₂_comp {γ : Type} {S : β → γ → Prop} {T : α → γ → Prop} {last : List γ}
    (first : List.Forall₂ R left right) (second : List.Forall₂ S right last)
    (join : ∀ a b c, R a b → S b c → T a c) : List.Forall₂ T left last := by
  induction first generalizing last with
  | nil =>
      cases second
      exact .nil
  | cons pair _ ih =>
      cases second with
      | cons pair' rest => exact .cons (join _ _ _ pair pair') (ih rest)

/-- Lists that are related to one list are equal if the relations determine their items. -/
theorem eq_of_forall₂ {S : α → β → Prop} {right' : List β} (first : List.Forall₂ R left right)
    (second : List.Forall₂ S left right') (unique : ∀ a ∈ left, ∀ b c, R a b → S a c → b = c) :
    right = right' := by
  induction first generalizing right' with
  | nil =>
      cases second
      rfl
  | cons here _ ih =>
      cases second with
      | cons here' rest' =>
          rw [unique _ List.mem_cons_self _ _ here here',
            ih rest' fun a member => unique a (List.mem_cons_of_mem _ member)]

theorem filterMap_forall₂ {make : α → Option β} (all : ∀ a ∈ left, ∃ b, make a = some b ∧ R a b) :
    List.Forall₂ R left (left.filterMap make) := by
  induction left with
  | nil => exact .nil
  | cons a rest ih =>
      obtain ⟨b, made, related⟩ := all a List.mem_cons_self
      rw [List.filterMap_cons_some made]
      exact .cons related (ih fun later member => all later (List.mem_cons_of_mem a member))

theorem flatMap_forall₂ {γ : Type} {items : List γ} {f : γ → List α} {g : γ → List β}
    (all : ∀ item ∈ items, List.Forall₂ R (f item) (g item)) :
    List.Forall₂ R (items.flatMap f) (items.flatMap g) := by
  induction items with
  | nil => exact .nil
  | cons item rest ih =>
      rw [List.flatMap_cons, List.flatMap_cons]
      exact List.rel_append (all item List.mem_cons_self)
        (ih fun later member => all later (List.mem_cons_of_mem item member))

end Pairs

/-- The first match of a list in the order of a rank has the least rank. -/
theorem find?_least {α κ : Type} [Preorder κ] {rank : α → κ} {rows : List α} {test : α → Bool}
    {row other : α} (sorted : rows.Pairwise fun a b => rank a ≤ rank b)
    (found : rows.find? test = some row) (member : other ∈ rows) (passes : test other = true) :
    rank row ≤ rank other := by
  obtain ⟨-, early, late, split, fails⟩ := List.find?_eq_some_iff_append.1 found
  rw [split] at sorted member
  rcases List.mem_append.1 member with before | after
  · have failed := fails other before
    simp [passes] at failed
  · rcases List.mem_cons.1 after with rfl | after
    · exact le_refl _
    · exact (List.pairwise_cons.1 (List.pairwise_append.1 sorted).2.1).1 other after

/-- Sorting by a comparison of keys puts the keys in order. -/
theorem pairwise_mergeSort_key {α κ : Type} [LinearOrder κ] {key : α → κ} {le : α → α → Bool}
    (compares : ∀ a b, le a b = true ↔ key a ≤ key b) (items : List α) :
    (items.mergeSort le).Pairwise fun a b => key a ≤ key b := by
  refine (List.pairwise_mergeSort (fun a b c first second => ?_) (fun a b => ?_) items).imp
    fun {a b} => (compares a b).1
  · rw [compares] at first second ⊢
    exact first.trans second
  · rw [Bool.or_eq_true, compares, compares]
    exact le_total (key a) (key b)

/-- Where no key occurs twice, a search by key finds the row of that key. -/
theorem find?_key_eq_some_iff {α κ : Type} [BEq κ] [LawfulBEq κ] {key : α → κ} {rows : List α}
    {row : α} {wanted : κ} (distinct : (rows.map key).Nodup) :
    rows.find? (key · == wanted) = some row ↔ row ∈ rows ∧ key row = wanted := by
  constructor
  · intro found
    have hit := List.find?_some found
    exact ⟨List.mem_of_find?_eq_some found, beq_iff_eq.1 hit⟩
  · rintro ⟨member, keyed⟩
    cases found : rows.find? (key · == wanted) with
    | none =>
        have absent := List.find?_eq_none.1 found row member
        simp [keyed] at absent
    | some other =>
        have hit := List.find?_some found
        exact congrArg some (List.inj_on_of_nodup_map distinct (List.mem_of_find?_eq_some found)
          member ((beq_iff_eq.1 hit).trans keyed.symm))

namespace Table
variable {ρ : Type} [Numbered ρ] {table : Table ρ} {id : Int} {row : ρ}

theorem ids_nodup (table : Table ρ) : (table.rows.map Numbered.id).Nodup :=
  List.pairwise_map.2 (table.ordered.imp fun {_ _} less => Int.ne_of_lt less)

theorem find?_eq_some_iff : table.find? id = some row ↔ row ∈ table.rows ∧ Numbered.id row = id :=
  find?_key_eq_some_iff table.ids_nodup

theorem find?_eq_none_iff : table.find? id = none ↔ ∀ row ∈ table.rows, Numbered.id row ≠ id := by
  simp [find?]

theorem eq_of_rows {other : Table ρ} (rows : table.rows = other.rows)
    (issued : table.issued = other.issued) : table = other := by
  cases table
  cases other
  cases rows
  cases issued
  rfl

end Table

theorem readLine_toNat (line : UInt32) (column : Nat) :
    readLine (line.toNat : Int) column = .ok line := by
  have bound := line.toNat_lt
  rw [readLine, if_pos (by omega), Int.toNat_natCast, UInt32.ofNat_toNat]

/-- A stored line number is read as itself. -/
theorem readLine_eq_ok {value : Int} {column : Nat} {line : UInt32}
    (success : readLine value column = .ok line) : (line.toNat : Int) = value := by
  unfold readLine at success
  split at success
  next bounds =>
    cases success
    rw [UInt32.toNat_ofNat_of_lt' (by simp only [UInt32.size]; omega)]
    omega
  next => cases success

theorem EntityRow.read_id {row : EntityRow} {entity : Entity} (success : row.read = .ok entity) :
    entity.id = row.id := by
  obtain ⟨_, -, _, -, _, -, _, -, same⟩ : ∃ language, readLanguage row.language = .ok language ∧
      ∃ kind, readKind row.kind = .ok kind ∧ ∃ first, readLine row.startLine 6 = .ok first ∧
      ∃ last, readLine row.endLine 7 = .ok last ∧ _ := by
    simpa only [EntityRow.read, bind_eq_ok] using success
  cases same
  rfl

namespace Store
variable {store : Store} {id : Int} {entity : Entity}

/-- What is read keeps the order of the rows. -/
theorem read_ids {rows : List EntityRow} {values : List Entity}
    (success : rows.mapM EntityRow.read = .ok values) : values.map (·.id) = rows.map (·.id) := by
  exact map_read success fun row value => EntityRow.read_id

theorem mem_read_iff {ε ρ α : Type} {read : ρ → Except ε α} {rows : List ρ} {values : List α} {value : α}
    (success : rows.mapM read = .ok values) : value ∈ values ↔ ∃ row ∈ rows, read row = .ok value := by
  refine ⟨exists_row_of_read success, ?_⟩
  rintro ⟨row, member, reads⟩
  obtain ⟨other, pair, reads'⟩ := exists_right_of_mem (mapM_eq_ok.1 success) member
  rw [reads, Except.ok.injEq] at reads'
  exact reads' ▸ (List.of_mem_zip pair).2

def Holds (store : Store) (id : Int) : Prop :=
  ∃ row ∈ store.entities.rows, row.id = id

theorem entity?_eq_none_iff : store.entity? id = .ok none ↔ ¬ store.Holds id := by
  unfold entity? Holds
  cases found : store.entities.find? id with
  | none =>
      have absent := Table.find?_eq_none_iff.1 found
      exact iff_of_true rfl fun ⟨row, member, numbered⟩ => absent row member numbered
  | some row =>
      have stored := Table.find?_eq_some_iff.1 found
      cases read : row.read with
      | error reason => simpa [Except.map, read] using ⟨row, stored⟩
      | ok value => simpa [Except.map, read] using ⟨row, stored⟩

theorem entity?_eq_some_iff : store.entity? id = .ok (some entity) ↔
    ∃ row ∈ store.entities.rows, row.id = id ∧ row.read = .ok entity := by
  unfold entity?
  constructor
  · cases found : store.entities.find? id with
    | none => simp
    | some row =>
        have stored := Table.find?_eq_some_iff.1 found
        cases read : row.read with
        | error reason => simp [Except.map, read]
        | ok value =>
            simp only [Except.map, read, Except.ok.injEq, Option.some.injEq]
            rintro rfl
            exact ⟨row, stored.1, stored.2, read⟩
  · rintro ⟨row, member, numbered, read⟩
    rw [Table.find?_eq_some_iff.2 ⟨member, numbered⟩]
    simp [Except.map, read]

theorem entity?_id (found : store.entity? id = .ok (some entity)) : entity.id = id := by
  obtain ⟨row, -, numbered, read⟩ := entity?_eq_some_iff.1 found
  exact (EntityRow.read_id read).trans numbered

theorem holds_of_entity? (found : store.entity? id = .ok (some entity)) : store.Holds id := by
  obtain ⟨row, member, numbered, -⟩ := entity?_eq_some_iff.1 found
  exact ⟨row, member, numbered⟩

/-- The declaration a query starts from is read from a row of the project. -/
theorem root?_row {projectId : Int} {symbol : String}
    (found : store.root? projectId symbol = .ok (some entity)) :
    ∃ row ∈ store.entities.rows, row.projectId = projectId ∧ row.read = .ok entity := by
  simp only [root?, entitiesNamed, bind_eq_ok] at found
  obtain ⟨entities, ⟨values, read, same⟩, chosen⟩ := found
  simp only [List.isEmpty_nil, if_true, Except.ok.injEq] at same chosen
  subst same
  have member : entity ∈ values := by
    rcases Option.or_eq_some_iff.1 chosen with first | ⟨-, first⟩
    · exact List.mem_of_find?_eq_some first
    · exact List.mem_of_head? first
  obtain ⟨row, listed, success⟩ := exists_row_of_read read member
  simp only [List.mem_filter, Bool.and_eq_true, beq_iff_eq] at listed
  exact ⟨row, listed.1, listed.2.1, success⟩

theorem root?_stored {projectId : Int} {symbol : String}
    (found : store.root? projectId symbol = .ok (some entity)) :
    store.entity? entity.id = .ok (some entity) := by
  obtain ⟨row, member, -, success⟩ := root?_row found
  exact entity?_eq_some_iff.2 ⟨row, member, (EntityRow.read_id success).symm, success⟩

end Store

theorem Heritage.ofName?_eq_some_iff {text : String} {heritage : Heritage} :
    ofName? text = some heritage ↔ text = heritage.name := by
  constructor
  · intro known
    have named := List.find?_some known
    exact (beq_iff_eq.1 named).symm
  · rintro rfl
    cases heritage <;> rfl

theorem Heritage.name_injective : Function.Injective name := fun _ _ same =>
  Option.some.inj ((ofName?_eq_some_iff.2 rfl).symm.trans (ofName?_eq_some_iff.2 same))

theorem readHeritage_eq_ok {text : String} {column : Nat} {heritage : Heritage} :
    readHeritage text column = .ok heritage ↔ text = heritage.name := by
  rw [← Heritage.ofName?_eq_some_iff, readHeritage]
  cases Heritage.ofName? text <;> simp

def ParentEdge.row (edge : ParentEdge) : ParentRow where
  id := edge.id
  childId := edge.childId
  parentId := edge.parentId
  symbol := edge.symbol
  heritage := edge.heritage.name

def ParentEdge.key (edge : ParentEdge) : Int × String × Heritage :=
  (edge.childId, edge.symbol, edge.heritage)

theorem ParentRow.read_eq_ok {row : ParentRow} {edge : ParentEdge} :
    row.read = .ok edge ↔ row = edge.row := by
  simp only [ParentRow.read, bind_eq_ok, readHeritage_eq_ok, Except.ok.injEq]
  constructor
  · rintro ⟨heritage, named, rfl⟩
    rw [ParentEdge.row, ← named]
  · rintro rfl
    exact ⟨edge.heritage, rfl, rfl⟩

theorem mapM_read_parents {rows : List ParentRow} {edges : List ParentEdge} :
    rows.mapM ParentRow.read = .ok edges ↔ rows = edges.map ParentEdge.row := by
  rw [mapM_eq_ok, ← List.forall₂_eq_eq_eq, List.forall₂_map_right_iff]
  simp only [ParentRow.read_eq_ok]

/-! Calls are read in both directions, from rows that are sorted and joined to their ends. -/

theorem endpoint_eq_known_iff {entityId : Option Int} {symbol : String} {id : Int} :
    endpoint entityId symbol = .known id ↔ entityId = some id := by
  cases entityId <;> simp [endpoint]

namespace NeighborGroup

/-- A call joins the group of its endpoint or opens one. -/
theorem add_keys (neighbor : Neighbor) (groups : List NeighborGroup) :
    (add neighbor groups).map key =
      if neighbor.key ∈ groups.map key then groups.map key
      else groups.map key ++ [neighbor.key] := by
  induction groups with
  | nil => simp [add, key, Neighbor.key]
  | cons group rest ih =>
      simp only [add]
      split
      next same =>
        have joined : group.key = neighbor.key := same
        simp [← joined, key]
      next different =>
        have apart : neighbor.key ≠ group.key := Ne.symm different
        simp only [List.map_cons, ih, List.mem_cons, apart, false_or]
        split <;> simp

theorem add_key (neighbor : Neighbor) (groups : List NeighborGroup) (shared : Endpoint) :
    (∃ group ∈ add neighbor groups, group.key = shared) ↔
      (∃ group ∈ groups, group.key = shared) ∨ neighbor.key = shared := by
  simp only [← List.mem_map, add_keys]
  split
  next joined => exact ⟨Or.inl, fun known => known.elim id fun same => same ▸ joined⟩
  next => simp [eq_comm]

theorem foldl_add_key (neighbors : List Neighbor) (groups : List NeighborGroup)
    (shared : Endpoint) :
    (∃ group ∈ neighbors.foldl (fun groups neighbor => add neighbor groups) groups,
        group.key = shared) ↔
      (∃ group ∈ groups, group.key = shared) ∨ ∃ neighbor ∈ neighbors, neighbor.key = shared := by
  induction neighbors generalizing groups with
  | nil => simp
  | cons neighbor rest ih =>
      rw [List.foldl_cons, ih, add_key, List.exists_mem_cons_iff, or_assoc]

/-- The groups of a list of calls have the endpoints of the calls, no more and no less. -/
theorem collect_key (neighbors : List Neighbor) (shared : Endpoint) :
    (∃ group ∈ collect neighbors, group.key = shared) ↔
      ∃ neighbor ∈ neighbors, neighbor.key = shared := by
  rw [collect_eq_foldl, foldl_add_key]
  simp

theorem collect_known (neighbors : List Neighbor) (id : Int) :
    (∃ group ∈ collect neighbors, group.entityId = some id) ↔
      ∃ neighbor ∈ neighbors, neighbor.entityId = some id := by
  simpa only [key, Neighbor.key, endpoint_eq_known_iff] using collect_key neighbors (.known id)

theorem collect_eq_nil_iff (neighbors : List Neighbor) :
    collect neighbors = [] ↔ neighbors = [] := by
  constructor
  · intro none
    by_contra some
    obtain ⟨neighbor, member⟩ := List.exists_mem_of_ne_nil neighbors some
    obtain ⟨group, listed, -⟩ := (collect_key neighbors neighbor.key).2 ⟨neighbor, member, rfl⟩
    simp [none] at listed
  · rintro rfl
    rfl

end NeighborGroup

namespace Store
variable {store : Store} {id other : Int} {neighbors : List Neighbor}

def Calls (store : Store) (caller callee : Int) : Prop :=
  (∃ row ∈ store.calls.rows, row.callerId = caller ∧ row.calleeId = some callee) ∧
    store.Holds caller ∧ store.Holds callee

theorem calleesOf_known (success : store.calleesOf id = .ok neighbors) :
    (∃ neighbor ∈ neighbors, neighbor.entityId = some other) ↔
      ∃ row ∈ store.calls.rows, row.callerId = id ∧ row.calleeId = some other := by
  rw [exists_read_iff (Q := fun row => row.calleeId = some other) success]
  · simp [and_assoc]
  · intro row _ neighbor read
    obtain ⟨line, -, same⟩ := bind_eq_ok.1 read
    cases same
    rfl

theorem callersOf_known (success : store.callersOf id = .ok neighbors) :
    (∃ neighbor ∈ neighbors, neighbor.entityId = some other) ↔
      (∃ row ∈ store.calls.rows, row.callerId = other ∧ row.calleeId = some id) ∧
        store.Holds other := by
  rw [exists_read_iff (Q := fun pair => pair.2.callerId = other) success]
  · simp only [List.mem_mergeSort, List.mem_filterMap]
    constructor
    · rintro ⟨⟨symbol, row⟩, ⟨call, member, kept⟩, same⟩
      split at kept
      next calls =>
        obtain ⟨caller, found, pair⟩ := Option.map_eq_some_iff.1 kept
        cases pair
        have stored := Table.find?_eq_some_iff.1 found
        exact ⟨⟨row, member, same, beq_iff_eq.1 calls⟩, caller, stored.1, stored.2.trans same⟩
      next => simp at kept
    · rintro ⟨⟨row, member, same, calls⟩, caller, stored, numbered⟩
      have found : store.entities.find? row.callerId = some caller :=
        Table.find?_eq_some_iff.2 ⟨stored, numbered.trans same.symm⟩
      exact ⟨(caller.symbol, row), ⟨row, member, by simp [calls, found]⟩, same⟩
  · rintro ⟨symbol, row⟩ _ neighbor read
    obtain ⟨line, -, same⟩ := bind_eq_ok.1 read
    cases same
    simp

/-- A stored neighbour: a call leads to `other` from `id`, whether or not `id` is stored. -/
def Adjacent (store : Store) : Direction → Int → Int → Prop
  | .callers => fun id other =>
    (∃ row ∈ store.calls.rows, row.callerId = other ∧ row.calleeId = some id) ∧ store.Holds other
  | .callees => fun id other =>
    (∃ row ∈ store.calls.rows, row.callerId = id ∧ row.calleeId = some other) ∧ store.Holds other

/-- The stored declarations among the neighbours are those that a call leads to. -/
theorem groups_known {direction : Direction} {groups : List NeighborGroup}
    (success : store.groups direction id = .ok groups) :
    (∃ group ∈ groups, group.entityId = some other) ∧ store.Holds other ↔
      store.Adjacent direction id other := by
  obtain ⟨neighbors, read, same⟩ := bind_eq_ok.1 success
  cases same
  rw [NeighborGroup.collect_known]
  cases direction with
  | callers =>
      rw [callersOf_known read]
      exact and_iff_left_of_imp And.right
  | callees =>
      rw [calleesOf_known read]
      exact Iff.rfl

/-- Callers are stored declarations. -/
theorem groups_callers_stored {groups : List NeighborGroup} {group : NeighborGroup}
    (success : store.groups .callers id = .ok groups) (member : group ∈ groups) :
    ∃ other, group.entityId = some other ∧ store.Holds other := by
  obtain ⟨neighbors, read, same⟩ := bind_eq_ok.1 success
  cases same
  obtain ⟨neighbor, listed, shared⟩ :=
    (NeighborGroup.collect_key neighbors group.key).1 ⟨group, member, rfl⟩
  obtain ⟨⟨symbol, row⟩, -, reads⟩ := exists_row_of_read read listed
  obtain ⟨line, -, same⟩ := bind_eq_ok.1 reads
  cases same
  exact ⟨row.callerId, endpoint_eq_known_iff.1 shared.symm,
    ((callersOf_known read).1 ⟨_, listed, rfl⟩).2⟩

def Arc (store : Store) : Direction → Int → Int → Prop
  | .callers => fun id other => store.Calls other id
  | .callees => fun id other => store.Calls id other

theorem Arc.holds {direction : Direction} (arc : store.Arc direction id other) :
    store.Holds other := by
  cases direction with
  | callers => exact arc.2.1
  | callees => exact arc.2.2

theorem adjacent_iff_arc {direction : Direction} (held : store.Holds id) :
    store.Adjacent direction id other ↔ store.Arc direction id other := by
  cases direction with
  | callers => exact ⟨fun ⟨call, held'⟩ => ⟨call, held', held⟩, fun ⟨call, held', _⟩ => ⟨call, held'⟩⟩
  | callees => exact ⟨fun ⟨call, held'⟩ => ⟨call, held, held'⟩, fun ⟨call, _, held'⟩ => ⟨call, held'⟩⟩

/-! A declaration calls itself and another one that calls it back, nothing calls the third, and one call
is of a declaration that is not stored. -/

def recursiveDraft (symbol : String) : EntityDraft :=
  ⟨.python, symbol, .function, "loop.py", 1, 9, none⟩

def recursiveStore : Store :=
  let store := (empty.putEntities 1 1 (["even", "odd", "main"].map recursiveDraft)).2
  (store.replaceCalls 1
    [⟨1, some 2, "odd", 2, none⟩, ⟨1, some 1, "even", 3, none⟩, ⟨1, some 7, "gone", 4, none⟩,
      ⟨2, some 1, "even", 5, none⟩, ⟨3, some 1, "even", 6, none⟩]).2

end Store
end DeclGraph
