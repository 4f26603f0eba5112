import Nodal.Element.Kind
import Nodal.Expr.Printer
import Nodal.Node.Table
/-!
# Circuit elements

An element has a kind, a name, the names of the nets at its terminals and a value. Its nodes are
filled in by `resolve`, which numbers its nets in a table; replacing the nets clears them again.
-/

namespace Nodal

/-- An element of a circuit, with constants in `K`. -/
structure Element (K : Type) where
  kind : Kind
  /-- The designator, behind the labels of the subcircuit calls it stands in. -/
  name : String
  /-- The names of the nets at the terminals, in order. -/
  nets : List String
  /-- The impedance, gain or source value. -/
  value : Expr K
  /-- The nodes of the nets, or nothing as long as they are not numbered. -/
  nodes : List Node := []

namespace Element

variable {K L : Type}

def auxCount (e : Element K) : Nat :=
  e.kind.auxCount

def auxLabels (e : Element K) : List String :=
  e.kind.auxSuffixes.map (e.name ++ ·)

/-- An element has a label for each of its auxiliary unknowns. -/
@[simp] theorem length_auxLabels (e : Element K) : e.auxLabels.length = e.auxCount := by
  simp [auxLabels, auxCount]

/-- Connects the element to other nets, not yet numbered. -/
def setNets (e : Element K) (nets : List String) : Element K :=
  { e with nets, nodes := [] }

/-- Puts `front` before the name of the element. -/
def prependName (e : Element K) (front : String) : Element K :=
  { e with name := front ++ e.name }

/-- Numbers the nets of the element in a table. -/
def resolve (e : Element K) (t : NodeTable) : Element K × NodeTable :=
  let (nodes, t) := t.internAll e.nets
  ({ e with nodes }, t)

/-- Replaces every constant in the value of the element. -/
def map (f : K → L) (e : Element K) : Element L :=
  { kind := e.kind, name := e.name, nets := e.nets, value := e.value.map f, nodes := e.nodes }

/-- The line that writes an element: name, nets and value, with a space between them. -/
def text (e : Element Float) : String :=
  " ".intercalate ((e.name :: e.nets) ++ [e.value.text])

instance : ToString (Element Float) where
  toString := text

end Element

end Nodal
