import Nodal.Dialect.Basic
import Nodal.Element.Kind
/-!
# Netlists

A netlist is a list of records, which say in either dialect what its lines say: elements,
directives, comments, subcircuits with their bodies, and calls of subcircuits. A record keeps the
number of its line.
-/

namespace Nodal

/-- A line that describes an element. Its letter need not be that of a known kind. -/
structure ElementLine where
  /-- The first letter of the name, in upper case. -/
  letter : Char
  name : String
  nets : List String
  value : String
  line : Nat
deriving DecidableEq, Repr

/-- A line that is kept as written and says nothing about elements and nets. -/
structure Directive where
  keyword : String
  args : List String
  text : String
  /-- The dialect of the line. A line that switches the dialect counts as one of the new dialect. -/
  dialect : Dialect
  line : Nat
deriving DecidableEq, Repr

structure Comment where
  /-- The line from its first word on, with the comment mark. -/
  text : String
  line : Nat
deriving DecidableEq, Repr

/-- A record that may stand inside a subcircuit as well as outside. -/
inductive Item where
  | element (e : ElementLine)
  | directive (d : Directive)
  | comment (c : Comment)
deriving DecidableEq, Repr

structure Subcircuit where
  name : String
  ports : List String
  /-- What stands between title and closing line. -/
  body : List Item
  /-- The number of the title line. -/
  line : Nat
  /-- The number of the closing line. -/
  lastLine : Nat
deriving DecidableEq, Repr

structure Call where
  label : String
  /-- The nets put in place of the ports, in order. -/
  nets : List String
  subcircuit : String
  line : Nat
deriving DecidableEq, Repr

inductive Record where
  /-- An element, a directive or a comment. -/
  | item (i : Item)
  | subcircuit (s : Subcircuit)
  | call (c : Call)
deriving DecidableEq, Repr

namespace Item

def line : Item → Nat
  | .element e => e.line
  | .directive d => d.line
  | .comment c => c.line

def element? : Item → Option ElementLine
  | .element e => some e
  | _ => none

end Item

namespace Subcircuit

/-- The element lines of the body, in order. -/
def elementLines (s : Subcircuit) : List ElementLine :=
  s.body.filterMap Item.element?

end Subcircuit

namespace Record

def line : Record → Nat
  | .item i => i.line
  | .subcircuit s => s.line
  | .call c => c.line

/-- The numbers of all lines that make up a record, in order. -/
def lineNumbers : Record → List Nat
  | .item i => [i.line]
  | .subcircuit s => s.line :: s.body.map Item.line ++ [s.lastLine]
  | .call c => [c.line]

end Record

structure Netlist where
  records : List Record
  /-- The dialect in effect at the end. -/
  dialect : Dialect
deriving DecidableEq, Repr

end Nodal
