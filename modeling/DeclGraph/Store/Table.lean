/-! Tables of numbered rows. The numbers come from a counter that never goes back, not even when
rows are deleted, so rows stand in the order of their numbers and no number is used twice. -/
namespace DeclGraph

class Numbered (ρ : Type) where
  id : ρ → Int

structure Table (ρ : Type) [Numbered ρ] where
  rows : List ρ := []
  /-- The last number handed out. -/
  issued : Int := 0
  ordered : rows.Pairwise fun a b => Numbered.id a < Numbered.id b := by exact List.Pairwise.nil
  bounded : ∀ row ∈ rows, Numbered.id row ≤ issued := by simp

namespace Table

variable {ρ : Type} [Numbered ρ]

def find? (table : Table ρ) (id : Int) : Option ρ :=
  table.rows.find? (Numbered.id · == id)

def next (table : Table ρ) : Int :=
  table.issued + 1

/-- Takes a number without using it for a row. -/
def skip (table : Table ρ) : Table ρ where
  rows := table.rows
  issued := table.next
  ordered := table.ordered
  bounded row member := Int.le_trans (table.bounded row member) (by simp only [next]; omega)

def append (table : Table ρ) (row : Int → ρ)
    (numbered : ∀ id, Numbered.id (row id) = id := by intro _; rfl) : Table ρ where
  rows := table.rows ++ [row table.next]
  issued := table.next
  ordered := by
    refine List.pairwise_append.2 ⟨table.ordered, List.pairwise_singleton _ _, ?_⟩
    intro old member new last
    rw [List.mem_singleton.1 last, numbered]
    have := table.bounded old member
    simp only [next]
    omega
  bounded := by
    intro old member
    rcases List.mem_append.1 member with earlier | last
    · have := table.bounded old earlier
      simp only [next]
      omega
    · exact Int.le_of_eq (by rw [List.mem_singleton.1 last, numbered])

def modify (table : Table ρ) (change : ρ → ρ)
    (keeps : ∀ row, Numbered.id (change row) = Numbered.id row) : Table ρ where
  rows := table.rows.map change
  issued := table.issued
  ordered := List.pairwise_map.2 (table.ordered.imp fun {a b} less => by
    rw [keeps a, keeps b]
    exact less)
  bounded := by
    intro row member
    obtain ⟨old, earlier, rfl⟩ := List.mem_map.1 member
    rw [keeps old]
    exact table.bounded old earlier

def filter (table : Table ρ) (keep : ρ → Bool) : Table ρ where
  rows := table.rows.filter keep
  issued := table.issued
  ordered := table.ordered.filter keep
  bounded row member := table.bounded row ((List.mem_filter.1 member).1)

end Table

end DeclGraph
