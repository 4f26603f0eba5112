import Nodal.Netlist.Basic
/-!
# Writing netlists

The lines that write a record in either dialect, words separated by single spaces. Elements,
directives and comments are written alike in both; titles, closing lines and calls are not.
-/

namespace Nodal

/-- A line of words with a space between them. -/
def wordLine (words : List String) : String :=
  " ".intercalate words

/-- The words in parentheses that touch the first and the last of them. -/
def parenthesized (words : List String) : String :=
  "(" ++ wordLine words ++ ")"

namespace ElementLine

def text (e : ElementLine) : String :=
  wordLine (e.name :: e.nets ++ [e.value])

end ElementLine

namespace Item

def text : Item → String
  | .element e => e.text
  | .directive d => d.text
  | .comment c => c.text

end Item

namespace Subcircuit

/-- The title line. In Spice the number of ports stands at its end. -/
def titleText (d : Dialect) (s : Subcircuit) : String :=
  match d with
  | .spice => wordLine (".subckt" :: s.name :: s.ports ++ [toString s.ports.length])
  | .spectre => wordLine ["subckt", s.name, parenthesized s.ports]

/-- The closing line. In Spectre it repeats the name. -/
def closingText (d : Dialect) (s : Subcircuit) : String :=
  match d with
  | .spice => ".ends"
  | .spectre => wordLine ["ends", s.name]

end Subcircuit

namespace Call

def text (d : Dialect) (c : Call) : String :=
  match d with
  | .spice => wordLine (c.label :: c.nets ++ [c.subcircuit])
  | .spectre => wordLine [c.label, parenthesized c.nets, c.subcircuit]

end Call

namespace Record

def texts (d : Dialect) : Record → List String
  | .item i => [i.text]
  | .subcircuit s => s.titleText d :: s.body.map Item.text ++ [s.closingText d]
  | .call c => [c.text d]

end Record

namespace Netlist

/-- The text that writes records, each line closed by a line feed. -/
def render (d : Dialect) (records : List Record) : String :=
  String.join ((records.flatMap (Record.texts d)).map (· ++ "\n"))

end Netlist

end Nodal
