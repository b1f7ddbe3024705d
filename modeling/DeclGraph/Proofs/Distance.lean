import Mathlib
import DeclGraph.Proofs.Reading

/-! Distances along stored calls. A distance is the least number of steps of any way there is, so it
says nothing about the order in which a traversal meets declarations. The one fact traversals need is
`shortest_succ_iff`: what is one step further than a level is what a step leads to from that level,
without what is nearer. -/
namespace DeclGraph

inductive Steps (R : Int → Int → Prop) (start : Int) : Nat → Int → Prop where
  | refl : Steps R start 0 start
  | step {count : Nat} {last next : Int} :
      Steps R start count last → R last next → Steps R start (count + 1) next

def Shortest (R : Int → Int → Prop) (start finish : Int) (count : Nat) : Prop :=
  IsLeast {n | Steps R start n finish} count

section
variable {R : Int → Int → Prop} {start finish next : Int} {count other : Nat}

theorem Steps.before (first : R start next) (way : Steps R next count finish) :
    Steps R start (count + 1) finish := by
  induction way with
  | refl => exact .step .refl first
  | step _ last ih => exact .step ih last

theorem Steps.reverse (way : Steps R start count finish) :
    Steps (fun a b => R b a) finish count start := by
  induction way with
  | refl => exact .refl
  | step _ last ih => exact ih.before last

theorem steps_reverse_iff :
    Steps (fun a b => R b a) finish count start ↔ Steps R start count finish :=
  ⟨Steps.reverse, Steps.reverse⟩

theorem shortest_reverse_iff :
    Shortest (fun a b => R b a) finish start count ↔ Shortest R start finish count := by
  simp only [Shortest, steps_reverse_iff]

theorem Shortest.unique (one : Shortest R start finish count)
    (two : Shortest R start finish other) : count = other :=
  IsLeast.unique one two

theorem shortest_zero_iff : Shortest R start finish 0 ↔ finish = start := by
  constructor
  · rintro ⟨way, -⟩
    cases way
    rfl
  · rintro rfl
    exact ⟨.refl, fun _ _ => Nat.zero_le _⟩

theorem Steps.exists_shortest (way : Steps R start count finish) :
    ∃ least ≤ count, Shortest R start finish least := by
  classical
  have some : ∃ n, Steps R start n finish := ⟨count, way⟩
  exact ⟨Nat.find some, Nat.find_min' some way, Nat.find_spec some,
    fun _ other => Nat.find_min' some other⟩

/-- One more step leads from a level to the next, or to a point nearer than that. -/
theorem shortest_succ_iff : Shortest R start next (count + 1) ↔
    (∃ last, Shortest R start last count ∧ R last next) ∧
      ∀ nearer ≤ count, ¬ Shortest R start next nearer := by
  constructor
  · rintro ⟨way, least⟩
    have far : ∀ nearer ≤ count, ¬ Steps R start nearer next := by
      intro nearer bound short
      have := least short
      omega
    refine ⟨?_, fun nearer bound short => far nearer bound short.1⟩
    cases way with
    | step before last =>
        obtain ⟨best, bound, short⟩ := before.exists_shortest
        -- A shorter way to the last point but one would make the whole way shorter.
        have : count + 1 ≤ best + 1 := least (Steps.step short.1 last)
        obtain rfl : best = count := by omega
        exact ⟨_, short, last⟩
  · rintro ⟨⟨last, short, step⟩, far⟩
    refine ⟨Steps.step short.1 step, fun other way => ?_⟩
    obtain ⟨best, bound, nearest⟩ := way.exists_shortest
    by_contra smaller
    exact far best (by omega) nearest

end

namespace Store
variable {store : Store} {direction : Direction} {root id other : Int} {count : Nat}

/-- How far a declaration is from a root: along the calls that lead to the root, or along those that
lead away from it. -/
def Distance (store : Store) : Direction → Int → Int → Nat → Prop
  | .callers => fun root id => Shortest store.Calls id root
  | .callees => fun root id => Shortest store.Calls root id

theorem distance_iff_arc :
    store.Distance direction root id count ↔ Shortest (store.Arc direction) root id count := by
  cases direction with
  | callers => exact shortest_reverse_iff.symm
  | callees => exact Iff.rfl

theorem Distance.unique {count' : Nat} (one : store.Distance direction root id count)
    (two : store.Distance direction root id count') : count = count' :=
  (distance_iff_arc.1 one).unique (distance_iff_arc.1 two)

theorem distance_zero_iff : store.Distance direction root id 0 ↔ id = root := by
  rw [distance_iff_arc, shortest_zero_iff]

theorem distance_succ_iff : store.Distance direction root other (count + 1) ↔
    (∃ id, store.Distance direction root id count ∧ store.Arc direction id other) ∧
      ∀ nearer ≤ count, ¬ store.Distance direction root other nearer := by
  simp only [distance_iff_arc, shortest_succ_iff]

/-- All that has a distance from a stored root is stored. -/
theorem Distance.holds (distance : store.Distance direction root id count)
    (held : store.Holds root) : store.Holds id := by
  cases (distance_iff_arc.1 distance).1 with
  | refl => exact held
  | step _ last => exact last.holds

end Store
end DeclGraph
