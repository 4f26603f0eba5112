import Nodal.Element.Reading
import Nodal.Subcircuit.Library
/-!
# Expanding subcircuit calls

A call puts a copy of the elements of a subcircuit into the circuit. The copies are named
`label/name`. A net that is a port becomes the net at the same place of the call; if a port is
listed twice, its last place counts. Of the other nets, those that hold the mark `!` and ground keep
their names; the rest belong to this copy alone and are named `label:net`.
-/

namespace Nodal

/-- Whether a net is the same in every copy of every subcircuit. -/
def isGlobalNet (net : String) : Bool :=
  net.toList.contains '!'

namespace Call

/-- The name of a net that belongs to the copy a call makes. -/
def localNet (c : Call) (net : String) : String :=
  c.label ++ ":" ++ net

def elementName (c : Call) (name : String) : String :=
  c.label ++ "/" ++ name

end Call

/-- The net that the call puts in place of a port, if `net` is one. -/
def actualNet? (ports nets : List String) (net : String) : Option String :=
  (ports.zip nets).reverse.lookup net

/-- The net of the circuit that a net of the subcircuit becomes. -/
def renameNet (s : Subcircuit) (c : Call) (net : String) : String :=
  match actualNet? s.ports c.nets net with
  | some actual => actual
  | none => if isGlobalNet net || isGroundName net then net else c.localNet net

/-- What a call of a subcircuit comes to. -/
structure Expansion where
  /-- The copies of the elements, in the order of the body. -/
  elements : List (Element Float)
  /-- The warnings about elements of unknown kinds, in the order of the body. -/
  warnings : List Warning

namespace Subcircuit

/-- The copy of an element that a call makes. -/
def instantiate (s : Subcircuit) (c : Call) (e : Element Float) : Element Float :=
  (e.setNets (e.nets.map (renameNet s c))).prependName (c.elementName "")

/-- Expands a call of the subcircuit, which needs one net for each port. -/
def expand (s : Subcircuit) (c : Call) : Except Error Expansion :=
  if s.ports.length = c.nets.length then
    .ok
      { elements := (Element.ofLines s.elementLines).map (s.instantiate c)
        warnings := Element.warnings s.elementLines }
  else .error (.portMismatch s.name c.label s.ports.length c.nets.length)

end Subcircuit

namespace Library

def expand (lib : Library) (c : Call) : Except Error Expansion :=
  match lib.find? c.subcircuit with
  | some s => s.expand c
  | none => .error (.unknownSubcircuit c.subcircuit c.label c.line)

end Library

end Nodal
