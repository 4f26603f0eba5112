import Nodal.Expr.Symbols
import Nodal.LinearSystem.Assembly
import Nodal.Netlist.Basic
/-!
# Circuits

A circuit is what a netlist comes to once its subcircuit calls are expanded: a flat list of elements
with their nets numbered, and what was noted along the way. Only a circuit whose netlist was read to
the end is valid, and only a valid circuit has a system.
-/

namespace Nodal

/-- A flat circuit. -/
structure Circuit where
  /-- The elements, in the order of the netlist. -/
  elements : List (Element Float) := []
  nodes : NodeTable := .empty
  directives : List Directive := []
  /-- The flaws that were passed over, in order. -/
  warnings : List Warning := []
  /-- The texts of comments and directives, if they were asked for. -/
  echoed : List String := []
  commentCount : Nat := 0
  /-- Whether the netlist was read to the end. -/
  valid : Bool := false

namespace Circuit

def empty : Circuit := {}

instance : Inhabited Circuit := ⟨empty⟩

def findNode (c : Circuit) (name : String) : Except Error Node :=
  c.nodes.find name

/-- The position of the first element of a name. -/
def findElement? (c : Circuit) (name : String) : Option Nat :=
  c.elements.findIdx? (·.name == name)

def ofKind (c : Circuit) (k : Kind) : List (Element Float) :=
  c.elements.filter (·.kind == k)

def kindCount (c : Circuit) (k : Kind) : Nat :=
  (c.ofKind k).length

def layout (c : Circuit) : Layout :=
  LinearSystem.layoutOf c.elements c.nodes

/-- The number of resistors, capacitors and inductors. -/
def impedanceCount (c : Circuit) : Nat :=
  c.layout.count .impedance

def size (c : Circuit) : Nat :=
  c.layout.size

/-- The labels of the unknowns of the circuit, each written at the place of its unknown. -/
def unknownLabels (c : Circuit) : Except Error (List String) :=
  LinearSystem.unknownLabels c.elements c.nodes

/-- The symbols in the values of the elements, each once, in ascending order. -/
def symbols (c : Circuit) : List String :=
  Text.sorted (c.elements.flatMap (·.value.names))

/-- The system of a valid circuit. -/
def assemble (c : Circuit) : Except Error (LinearSystem Float) :=
  if c.valid then LinearSystem.assemble c.elements c.nodes else .error .notValid

def text (c : Circuit) : String :=
  String.join (c.elements.map (·.text ++ "\n"))

instance : ToString Circuit where
  toString := text

end Circuit

end Nodal
