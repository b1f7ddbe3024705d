import Mathlib
import DeclGraph.Calls.Walk

/-! An index saves the search of a list. As long as it is faithful, the entry of a key is the first one
that a search would come to, so grouping calls by an index is grouping them by search. -/
namespace DeclGraph

namespace Indexed

variable {κ α : Type} [DecidableEq κ] {list : Indexed κ α} {keyOf : α → κ}

/-- The index has the place of the first entry of each key. -/
def Faithful (list : Indexed κ α) (keyOf : α → κ) : Prop :=
  ∀ key, list.place? key = list.entries.findIdx? (keyOf · == key)

omit [DecidableEq κ] in
theorem map_modify_key (change : α → α) (kept : ∀ entry, keyOf (change entry) = keyOf entry)
    (place : Nat) (entries : List α) : (entries.modify place change).map keyOf = entries.map keyOf := by
  refine List.ext_getElem? fun position => ?_
  rw [List.getElem?_map, List.getElem?_map, List.getElem?_modify]
  cases entries[position]? with
  | none => rfl
  | some entry =>
      by_cases here : place = position
      · simp [here, kept]
      · simp [here]

theorem place?_push (list : Indexed κ α) (key : κ) (entry : α) :
    (list.push key entry).place? key = some list.entries.length := by
  simp [push, place?]

namespace Faithful

theorem push (faithful : list.Faithful keyOf) (entry : α)
    (missing : list.place? (keyOf entry) = none) :
    (list.push (keyOf entry) entry).Faithful keyOf := by
  intro key
  rw [Indexed.push, place?, List.lookup_cons, List.findIdx?_append, ← faithful key, List.findIdx?_singleton]
  by_cases same : key = keyOf entry
  · subst same
    simp [missing]
  · have apart : (keyOf entry == key) = false := beq_false_of_ne (Ne.symm same)
    simp [apart, beq_false_of_ne same, place?]

theorem modify (faithful : list.Faithful keyOf) (change : α → α)
    (kept : ∀ entry, keyOf (change entry) = keyOf entry) (place : Nat) :
    (list.modify place change).Faithful keyOf := by
  intro key
  have search : ∀ entries : List α,
      entries.findIdx? (keyOf · == key) = (entries.map keyOf).findIdx? (· == key) := by
    intro entries
    rw [List.findIdx?_map]
    rfl
  rw [search, Indexed.modify, map_modify_key change kept, ← search]
  exact faithful key

theorem upsert (faithful : list.Faithful keyOf) (change : α → α)
    (kept : ∀ entry, keyOf (change entry) = keyOf entry) (fresh : α) :
    (list.upsert (keyOf fresh) change fresh).Faithful keyOf := by
  rw [Indexed.upsert]
  split
  next place _ => exact faithful.modify change kept place
  next missing => exact faithful.push fresh missing

/-- What `upsert` does to the entries is done by any search for the key. -/
theorem upsert_entries (faithful : list.Faithful keyOf) {key : κ} {change : α → α} {fresh : α}
    (search : List α → List α) (ended : search [] = [fresh])
    (step : ∀ entry rest, search (entry :: rest) =
      if keyOf entry = key then change entry :: rest else entry :: search rest) :
    (list.upsert key change fresh).entries = search list.entries := by
  have searched : ∀ entries : List α, search entries =
      (entries.findIdx? (keyOf · == key)).elim (entries ++ [fresh]) (entries.modify · change) := by
    intro entries
    induction entries with
    | nil => exact ended
    | cons entry rest ih =>
        rw [step, List.findIdx?_cons]
        by_cases same : keyOf entry = key
        · simp [same]
        · rw [if_neg same, if_neg (by simpa using same), ih]
          cases rest.findIdx? (keyOf · == key) <;> rfl
  rw [searched, ← faithful key, Indexed.upsert]
  cases list.place? key <;> rfl

end Faithful
end Indexed

def Neighbor.key (neighbor : Neighbor) : Endpoint :=
  endpoint neighbor.entityId neighbor.symbol

namespace NeighborGroup

def key (group : NeighborGroup) : Endpoint :=
  endpoint group.entityId group.symbol

def add (neighbor : Neighbor) : List NeighborGroup → List NeighborGroup
  | [] => [⟨neighbor.entityId, neighbor.symbol, [neighbor.line]⟩]
  | group :: rest =>
    if endpoint group.entityId group.symbol = endpoint neighbor.entityId neighbor.symbol then
      { group with lines := group.lines ++ [neighbor.line] } :: rest
    else group :: add neighbor rest

theorem collect_eq_foldl (neighbors : List Neighbor) :
    collect neighbors = neighbors.foldl (fun groups neighbor => add neighbor groups) [] := by
  have joined : ∀ groups : Indexed Endpoint NeighborGroup, groups.Faithful key →
      (neighbors.foldl join groups).entries =
        neighbors.foldl (fun groups neighbor => add neighbor groups) groups.entries := by
    induction neighbors with
    | nil => exact fun _ _ => rfl
    | cons neighbor rest ih =>
        intro groups faithful
        have still : (join groups neighbor).Faithful key :=
          faithful.upsert (fun group => { group with lines := group.lines ++ [neighbor.line] })
            (fun _ => rfl) ⟨neighbor.entityId, neighbor.symbol, [neighbor.line]⟩
        have entries : (join groups neighbor).entries = add neighbor groups.entries :=
          faithful.upsert_entries (add neighbor) rfl fun _ _ => rfl
        rw [List.foldl_cons, List.foldl_cons, ih _ still, entries]
  exact joined ⟨[], []⟩ fun _ => rfl

end NeighborGroup

end DeclGraph
