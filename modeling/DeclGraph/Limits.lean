/-! The bounds of a traversal: limits a client may lower, and ceilings nobody can lift. -/
namespace DeclGraph

def hardMaxDepth : Nat := 64

def hardMaxNodes : Nat := 50000

def clamp (low high n : Nat) : Nat :=
  max low (min n high)

structure Limits where
  defaultDepth : UInt32 := 3
  maxTreeDepth : UInt32 := 10
  maxGraphDepth : UInt32 := 32
  reverseGraphMaxDepth : UInt32 := 5
  maxNodes : UInt64 := 2000
  deriving DecidableEq, Repr

namespace Limits

def clampedDepth (depth : UInt32) : UInt32 :=
  UInt32.ofNat (clamp 1 hardMaxDepth depth.toNat)

def clamped (limits : Limits) : Limits where
  defaultDepth := clampedDepth limits.defaultDepth
  maxTreeDepth := clampedDepth limits.maxTreeDepth
  maxGraphDepth := clampedDepth limits.maxGraphDepth
  reverseGraphMaxDepth := clampedDepth limits.reverseGraphMaxDepth
  maxNodes := UInt64.ofNat (clamp 1 hardMaxNodes limits.maxNodes.toNat)

end Limits

/-- The depth a query is answered with. Asking for depth zero asks for all that the ceiling allows. -/
def effectiveDepth (requested ceiling : Nat) : Nat :=
  let ceiling := clamp 1 hardMaxDepth ceiling
  if requested = 0 then ceiling else min requested ceiling

end DeclGraph
