import Nodal.Element.Kind
/-!
# The layout of the unknowns

The unknowns of a system are numbered from one: first the nodes, then one block of auxiliary
unknowns for each family of kinds, in the order of `Family.all`. Within a block the members of the
family follow each other, each with as many unknowns as the family is wide.
-/

namespace Nodal

/-- The sizes that decide where each unknown stands. -/
structure Layout where
  /-- The number of nodes other than ground. -/
  nodeCount : Nat
  kinds : List Kind := []
deriving DecidableEq, Repr

namespace Layout

def count (l : Layout) (f : Family) : Nat :=
  l.kinds.countP (·.family? == some f)

def auxCount (l : Layout) (f : Family) : Nat :=
  l.count f * f.width

/-- The number of auxiliary unknowns of several families. -/
def auxTotal (l : Layout) (fs : List Family) : Nat :=
  fs.foldr (fun f n => l.auxCount f + n) 0

def size (l : Layout) : Nat :=
  l.nodeCount + l.auxTotal Family.all

/-- The index at which the block of a family starts. -/
def start (l : Layout) (f : Family) : Nat :=
  l.nodeCount + 1 + l.auxTotal (Family.all.takeWhile (· != f))

end Layout

/-- A layout together with the next free index in the block of each family. -/
structure Allocator where
  layout : Layout
  /-- The next free index in the block of each family, at first the start of the block. -/
  next : Family → Nat := layout.start

namespace Allocator

/-- The index of the next free place in the block of a family. -/
def offset (a : Allocator) (f : Family) : Nat :=
  a.next f

/-- Gives out the next place in the block of a family. -/
def take (a : Allocator) (f : Family) : Allocator :=
  { a with next := fun g => if g = f then a.next f + f.width else a.next g }

def reset (a : Allocator) : Allocator :=
  { layout := a.layout }

/-- Gives out places to elements in their order; an element without auxiliary unknowns gets none. -/
def assign (a : Allocator) : List Kind → List (Option Nat)
  | [] => []
  | k :: ks =>
    match k.family? with
    | none => none :: a.assign ks
    | some f => some (a.offset f) :: (a.take f).assign ks

end Allocator

namespace Layout

/-- The index of the first auxiliary unknown of each element. -/
def offsets (l : Layout) : List (Option Nat) :=
  ({ layout := l } : Allocator).assign l.kinds

end Layout

end Nodal
