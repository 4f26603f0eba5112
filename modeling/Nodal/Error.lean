import Nodal.Dialect.Basic
import Nodal.Text.Quoted
/-!
# Errors and warnings

What can go wrong with a netlist, each cause with the text that reports it. A warning leaves the
rest of the netlist usable; an error does not.
-/

namespace Nodal

/-- A line that is no record, or the title of a subcircuit that is never closed. -/
structure SyntaxError where
  line : Nat
  column : Nat
  /-- The text from the start of the line on. -/
  remainder : String
  /-- The dialect in effect where reading stopped. -/
  dialect : Dialect
deriving DecidableEq, Repr

inductive StampFault where
  /-- Its nets are not numbered, or there are not as many as its kind has terminals. -/
  | unresolved
  /-- It owns auxiliary unknowns but was given no index for them. -/
  | noOffset
  /-- An index it was given for an auxiliary unknown lies outside the system. -/
  | offsetOutside
  /-- Its stamp has an entry outside the matrix, which has `size` rows and columns. -/
  | outside (row col size : Nat)
deriving DecidableEq, Repr

inductive FileFault where
  | missing
  /-- Its bytes are not UTF-8. -/
  | notText
deriving DecidableEq, Repr

/-- A flaw that leaves the rest of a netlist usable. -/
inductive Warning where
  /-- An element line whose letter is that of no kind; the element is left out. -/
  | unknownKind (letter : Char) (name : String) (line : Nat)
  /-- A subcircuit that replaces one of the same name, whose title stood at `firstLine`. -/
  | redefined (name : String) (firstLine : Nat)
deriving DecidableEq, Repr

inductive Error where
  | malformed (e : SyntaxError)
  | nodeNotFound (name : String)
  /-- A call of a subcircuit that was not defined before. -/
  | unknownSubcircuit (name label : String) (line : Nat)
  /-- A call with another number of nets than the subcircuit has ports. -/
  | portMismatch (subcircuit label : String) (expected found : Nat)
  | notStampable (element : String) (fault : StampFault)
  /-- A system was asked of a netlist that was not read successfully. -/
  | notValid
  | unreadable (path : String) (fault : FileFault)
  | unknownDialect (name : String)
deriving DecidableEq, Repr

namespace SyntaxError

def message (e : SyntaxError) : String :=
  "Parse failed at line " ++ toString e.line ++ ", column " ++ toString e.column ++
    ". Remaining unparsed: " ++ Text.quoted e.remainder

end SyntaxError

namespace StampFault

def message : StampFault → String
  | .unresolved => "nodes are not resolved"
  | .noOffset => "no auxiliary offset assigned"
  | .offsetOutside => "auxiliary offset outside the system"
  | .outside row col size =>
    "entry (" ++ toString row ++ ", " ++ toString col ++ ") outside " ++ toString size ++ "x" ++
      toString size ++ " matrix"

end StampFault

namespace FileFault

def message : FileFault → String
  | .missing => "No such file or directory (os error 2)"
  | .notText => "stream did not contain valid UTF-8"

end FileFault

namespace Warning

def message : Warning → String
  | .unknownKind letter name line =>
    "Unknown component kind '" ++ letter.toString ++ "' for '" ++ name ++ "' at line " ++
      toString line
  | .redefined name firstLine =>
    "Subcircuit '" ++ name ++ "' redefined, replacing the definition at line " ++
      toString firstLine

instance : ToString Warning where
  toString := message

end Warning

namespace Error

def message : Error → String
  | .malformed e => e.message
  | .nodeNotFound name => "Node '" ++ name ++ "' not found in netlist"
  | .unknownSubcircuit name label line =>
    "Unknown subcircuit '" ++ name ++ "' referenced by instance '" ++ label ++ "' at line " ++
      toString line
  | .portMismatch subcircuit label expected found =>
    "Instance '" ++ label ++ "' of subcircuit '" ++ subcircuit ++ "' connects " ++ toString found ++
      " nodes, expected " ++ toString expected
  | .notStampable element fault =>
    "Component '" ++ element ++ "' cannot be stamped: " ++ fault.message
  | .notValid => "Netlist is not valid for stamping"
  | .unreadable path fault =>
    "Failed to read netlist file '" ++ path ++ "': " ++ fault.message
  | .unknownDialect name =>
    "unknown dialect '" ++ name ++ "' (expected spice or spectre)"

instance : ToString Error where
  toString := message

end Error

end Nodal
