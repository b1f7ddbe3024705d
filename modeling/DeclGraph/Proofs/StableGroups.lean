import Mathlib
import DeclGraph.Proofs.CallLines

/-! The groups of a list of calls are its stable partition. A call joins the group of its endpoint or
opens a new one at the end, so groups stand in the order of their first calls and keep the lines of
all of them in order. Nothing else does the same: the partition determines the groups. -/
namespace DeclGraph

def sameEnd : Option Int → String → Option Int → String → Bool
  | some id, _, some id', _ => id == id'
  | none, symbol, none, symbol' => symbol == symbol'
  | _, _, _, _ => false

def Neighbor.joins (neighbor : Neighbor) (group : NeighborGroup) : Bool :=
  sameEnd neighbor.entityId neighbor.symbol group.entityId group.symbol

theorem sameEnd_eq (entityId entityId' : Option Int) (symbol symbol' : String) :
    sameEnd entityId symbol entityId' symbol' =
      (endpoint entityId symbol == endpoint entityId' symbol') := by
  rw [Bool.eq_iff_iff, beq_iff_eq]
  cases entityId <;> cases entityId' <;> simp [sameEnd, endpoint]

namespace NeighborGroup
variable {neighbor : Neighbor} {neighbors : List Neighbor} {group : NeighborGroup}
  {groups groups' : List NeighborGroup} {shared : Endpoint}

theorem joins_eq (group : NeighborGroup) :
    (fun neighbor : Neighbor => neighbor.joins group) = fun neighbor => neighbor.key == group.key := by
  funext neighbor
  exact sameEnd_eq _ _ _ _

theorem pairwise_sameEnd_iff :
    (groups.Pairwise fun a b => sameEnd a.entityId a.symbol b.entityId b.symbol = false) ↔
      (groups.map key).Nodup := by
  simp only [sameEnd_eq, beq_eq_false_iff_ne, List.Nodup, List.pairwise_map, key]

theorem pairwise_findIdx_iff :
    (groups.Pairwise fun a b => neighbors.findIdx (·.joins a) < neighbors.findIdx (·.joins b)) ↔
      (groups.map key).Pairwise fun a b =>
        neighbors.findIdx (·.key == a) < neighbors.findIdx (·.key == b) := by
  rw [List.pairwise_map]
  simp only [joins_eq]

theorem entityId_eq_of_key_eq (same : neighbor.key = group.key) :
    neighbor.entityId = group.entityId := by
  unfold Neighbor.key key at same
  cases known : group.entityId with
  | some id =>
      rw [known] at same
      exact endpoint_eq_known_iff.1 same
  | none =>
      cases known' : neighbor.entityId with
      | none => rfl
      | some id => simp [known, known', endpoint] at same

/-- A list of calls taken apart: each group has its own endpoint, and groups stand in the order in
which their endpoints occur first. A group has the symbol of its first call and the lines of all its
calls in their order. So no line is lost or added, and no group is empty. -/
structure StablePartition (neighbors : List Neighbor) (groups : List NeighborGroup) : Prop where
  distinct : groups.Pairwise fun a b => sameEnd a.entityId a.symbol b.entityId b.symbol = false
  covers : ∀ neighbor ∈ neighbors, ∃ group ∈ groups, neighbor.joins group
  ordered : groups.Pairwise fun a b =>
    neighbors.findIdx (·.joins a) < neighbors.findIdx (·.joins b)
  opened : ∀ group ∈ groups, ∃ first, neighbors.find? (·.joins group) = some first ∧
    first.symbol = group.symbol
  lines : ∀ group ∈ groups, group.lines = (neighbors.filter (·.joins group)).map (·.line)
  all_lines : (groups.flatMap (·.lines)).Perm (neighbors.map (·.line))
  filled : ∀ group ∈ groups, group.lines ≠ []

/-- A group after a call is one from before, with a line more perhaps, or is opened by the call. -/
theorem mem_add (member : group ∈ add neighbor groups) :
    (∃ old ∈ groups, old.key = group.key ∧ old.symbol = group.symbol) ∨
      neighbor.key ∉ groups.map key ∧ neighbor.key = group.key ∧ neighbor.symbol = group.symbol := by
  induction groups with
  | nil =>
      obtain rfl := List.mem_singleton.1 member
      exact Or.inr ⟨List.not_mem_nil, rfl, rfl⟩
  | cons first rest ih =>
      simp only [add] at member
      split at member
      next same =>
        refine Or.inl ?_
        rcases List.mem_cons.1 member with rfl | later
        · exact ⟨first, List.mem_cons_self, rfl, rfl⟩
        · exact ⟨group, List.mem_cons_of_mem first later, rfl, rfl⟩
      next different =>
        have apart : neighbor.key ≠ first.key := Ne.symm different
        rcases List.mem_cons.1 member with rfl | later
        · exact Or.inl ⟨group, List.mem_cons_self, rfl, rfl⟩
        · rcases ih later with ⟨old, listed, kept⟩ | ⟨fresh, opened⟩
          · exact Or.inl ⟨old, List.mem_cons_of_mem first listed, kept⟩
          · exact Or.inr ⟨by simp [apart, fresh], opened⟩

/-- A call adds its line and moves no other out of the groups. -/
theorem add_lines (neighbor : Neighbor) (groups : List NeighborGroup) :
    ((add neighbor groups).flatMap (·.lines)).Perm (groups.flatMap (·.lines) ++ [neighbor.line]) := by
  induction groups with
  | nil => exact List.Perm.refl _
  | cons first rest ih =>
      simp only [add]
      split
      next same =>
        simp only [List.flatMap_cons, List.append_assoc]
        exact List.perm_append_comm.append_left _
      next different =>
        simp only [List.flatMap_cons, List.append_assoc]
        exact ih.append_left _

theorem mem_collect_keys :
    shared ∈ (collect neighbors).map key ↔ ∃ neighbor ∈ neighbors, neighbor.key = shared := by
  rw [List.mem_map]
  exact collect_key neighbors shared

theorem collect_all_lines (neighbors : List Neighbor) :
    ((collect neighbors).flatMap (·.lines)).Perm (neighbors.map (·.line)) := by
  induction neighbors using List.reverseRecOn with
  | nil => exact List.Perm.refl _
  | append_singleton earlier last ih =>
      rw [collect_concat, List.map_append]
      exact (add_lines last _).trans (ih.append_right _)

/-- The first call of an endpoint opens its group. -/
theorem collect_opened (member : group ∈ collect neighbors) :
    ∃ first, neighbors.find? (·.key == group.key) = some first ∧ first.symbol = group.symbol := by
  induction neighbors using List.reverseRecOn generalizing group with
  | nil => simp [collect] at member
  | append_singleton earlier last ih =>
      rw [collect_concat] at member
      rw [List.find?_append]
      rcases mem_add member with ⟨old, listed, keyed, named⟩ | ⟨fresh, keyed, named⟩
      · obtain ⟨first, found, same⟩ := ih listed
        rw [keyed] at found
        exact ⟨first, by rw [found, Option.some_or], same.trans named⟩
      · have absent : earlier.find? (·.key == group.key) = none := by
          rw [List.find?_eq_none]
          intro neighbor listed here
          exact fresh (mem_collect_keys.2 ⟨neighbor, listed, (beq_iff_eq.1 here).trans keyed.symm⟩)
        exact ⟨last, by simp [absent, keyed], named⟩

/-- A call at the end is not the first of an endpoint that has occurred. -/
theorem findIdx_concat {earlier : List Neighbor} (occurs : ∃ neighbor ∈ earlier, neighbor.key = shared)
    (last : Neighbor) : (earlier ++ [last]).findIdx (·.key == shared) =
      earlier.findIdx (·.key == shared) ∧ earlier.findIdx (·.key == shared) < earlier.length := by
  obtain ⟨neighbor, member, here⟩ := occurs
  have inside : earlier.findIdx (·.key == shared) < earlier.length :=
    List.findIdx_lt_length_of_exists ⟨neighbor, member, by simp [here]⟩
  rw [List.findIdx_append, if_pos inside]
  exact ⟨rfl, inside⟩

theorem collect_ordered (neighbors : List Neighbor) :
    ((collect neighbors).map key).Pairwise fun a b =>
      neighbors.findIdx (·.key == a) < neighbors.findIdx (·.key == b) := by
  induction neighbors using List.reverseRecOn with
  | nil => exact List.Pairwise.nil
  | append_singleton earlier last ih =>
      have kept : ((collect earlier).map key).Pairwise fun a b =>
          (earlier ++ [last]).findIdx (·.key == a) < (earlier ++ [last]).findIdx (·.key == b) := by
        refine ih.imp_of_mem fun {a b} first second before => ?_
        rwa [(findIdx_concat (mem_collect_keys.1 first) last).1,
          (findIdx_concat (mem_collect_keys.1 second) last).1]
      rw [collect_concat, add_keys]
      split
      next => exact kept
      next fresh =>
        refine List.pairwise_append.2 ⟨kept, List.pairwise_singleton _ _, fun a listed b added => ?_⟩
        obtain ⟨same, inside⟩ := findIdx_concat (mem_collect_keys.1 listed) last
        obtain rfl := List.mem_singleton.1 added
        rw [same, List.findIdx_append]
        split
        next early =>
          -- The endpoint is new, so none of the earlier calls has it.
          obtain ⟨neighbor, member, here⟩ := List.findIdx_lt_length.1 early
          exact absurd (mem_collect_keys.2 ⟨neighbor, member, beq_iff_eq.1 here⟩) fresh
        next => omega

theorem collect_stablePartition (neighbors : List Neighbor) :
    StablePartition neighbors (collect neighbors) where
  distinct := pairwise_sameEnd_iff.2 (collect_distinct neighbors)
  covers neighbor member := by
    obtain ⟨group, listed, same⟩ := (collect_key neighbors neighbor.key).2 ⟨neighbor, member, rfl⟩
    refine ⟨group, listed, ?_⟩
    rw [congrFun (joins_eq group) neighbor, same]
    exact BEq.rfl
  ordered := pairwise_findIdx_iff.2 (collect_ordered neighbors)
  opened group member := by
    rw [joins_eq]
    exact collect_opened member
  lines group member := by
    rw [joins_eq]
    exact lines_of_mem member
  all_lines := collect_all_lines neighbors
  filled group member := by
    obtain ⟨first, found, -⟩ := collect_opened member
    have here := List.find?_some found
    have listed : first ∈ neighbors.filter (·.key == group.key) :=
      List.mem_filter.2 ⟨List.mem_of_find?_eq_some found, here⟩
    rw [lines_of_mem member]
    exact List.ne_nil_of_mem (List.mem_map_of_mem listed)

def groupOf? (neighbors : List Neighbor) (shared : Endpoint) : Option NeighborGroup :=
  (neighbors.find? (·.key == shared)).map fun first =>
    ⟨first.entityId, first.symbol, (neighbors.filter (·.key == shared)).map (·.line)⟩

namespace StablePartition

theorem first_call (partition : StablePartition neighbors groups) (member : group ∈ groups) :
    ∃ first, neighbors.find? (·.key == group.key) = some first ∧ first.symbol = group.symbol := by
  have opened := partition.opened group member
  rwa [joins_eq] at opened

theorem mem_keys (partition : StablePartition neighbors groups) :
    shared ∈ groups.map key ↔ shared ∈ neighbors.map Neighbor.key := by
  simp only [List.mem_map]
  constructor
  · rintro ⟨group, member, rfl⟩
    obtain ⟨first, found, -⟩ := partition.first_call member
    have here := List.find?_some found
    exact ⟨first, List.mem_of_find?_eq_some found, beq_iff_eq.1 here⟩
  · rintro ⟨neighbor, member, rfl⟩
    obtain ⟨group, listed, joined⟩ := partition.covers neighbor member
    rw [congrFun (joins_eq group) neighbor, beq_iff_eq] at joined
    exact ⟨group, listed, joined.symm⟩

theorem keys_eq (partition : StablePartition neighbors groups)
    (other : StablePartition neighbors groups') : groups.map key = groups'.map key := by
  have same : (groups.map key).Perm (groups'.map key) := by
    refine (List.perm_ext_iff_of_nodup (pairwise_sameEnd_iff.1 partition.distinct)
      (pairwise_sameEnd_iff.1 other.distinct)).2 fun shared => ?_
    rw [partition.mem_keys, other.mem_keys]
  refine same.eq_of_pairwise (fun a b _ _ before after => ?_)
    (pairwise_findIdx_iff.1 partition.ordered) (pairwise_findIdx_iff.1 other.ordered)
  exact absurd before (Nat.lt_asymm after)

theorem groupOf?_key (partition : StablePartition neighbors groups) (member : group ∈ groups) :
    groupOf? neighbors group.key = some group := by
  obtain ⟨first, found, named⟩ := partition.first_call member
  have lines := partition.lines group member
  have here := List.find?_some found
  rw [joins_eq] at lines
  rw [groupOf?, found, Option.map_some, ← lines, entityId_eq_of_key_eq (beq_iff_eq.1 here), named]

/-- Endpoints and their order are given by the calls, and so is the group of each of them. -/
theorem unique (partition : StablePartition neighbors groups)
    (other : StablePartition neighbors groups') : groups = groups' := by
  have rebuilt : ∀ {groups : List NeighborGroup}, StablePartition neighbors groups →
      groups.map some = (groups.map key).map (groupOf? neighbors) := by
    intro groups partition
    rw [List.map_map]
    exact List.map_congr_left fun group member => (partition.groupOf?_key member).symm
  apply (Option.some_injective NeighborGroup).list_map
  rw [rebuilt partition, rebuilt other, partition.keys_eq other]

end StablePartition

/-- The groups of a list of calls are its stable partition, and the only one. -/
theorem groups_are_the_stable_partition (neighbors : List Neighbor) (groups : List NeighborGroup) :
    collect neighbors = groups ↔ StablePartition neighbors groups := by
  constructor
  · rintro rfl
    exact collect_stablePartition neighbors
  · exact (collect_stablePartition neighbors).unique

example : collect [⟨some 2, "print", 3⟩, ⟨none, "print", 4⟩, ⟨some 2, "show", 9⟩, ⟨none, "len", 9⟩,
    ⟨none, "print", 12⟩] =
    [⟨some 2, "print", [3, 9]⟩, ⟨none, "print", [4, 12]⟩, ⟨none, "len", [9]⟩] := by
  decide

end NeighborGroup

end DeclGraph
