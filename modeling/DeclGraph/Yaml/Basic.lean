/-! YAML documents as settings look at them. A scalar keeps its text, its style and its tag, so that
each setting can read it in its own way. -/
namespace DeclGraph

inductive Yaml.Style where
  | plain
  | quoted
  | literal
  | folded
  deriving DecidableEq, Repr

inductive Yaml where
  | scalar (text : String) (style : Yaml.Style) (tag : Option String)
  | sequence (items : List Yaml)
  | mapping (entries : List (Yaml × Yaml))
  /-- The node that bears an anchor, by the anchor's number. -/
  | reference (anchor : Nat)

namespace Yaml

def empty : Yaml :=
  .scalar "" .plain none

structure Anchored where
  /-- How many different names were in use before it. -/
  anchor : Nat
  /-- How many anchors stand before it. -/
  start : Nat
  node : Yaml

structure Document where
  root : Yaml
  anchored : List Anchored := []

namespace Document

/-- The node that bears an anchor. A name that is given again takes a number that the next new name
takes too: of the nodes with one number the last one counts. -/
def bearer? (document : Document) (anchor : Nat) : Option Anchored :=
  (document.anchored.filter (·.anchor == anchor)).foldl
    (fun best? next =>
      match best? with
      | some best => if best.start < next.start then some next else some best
      | none => some next)
    none

def resolve (document : Document) : Yaml → Yaml
  | .reference anchor => (document.bearer? anchor).elim .empty Anchored.node
  | node => node

end Document

end Yaml

end DeclGraph
