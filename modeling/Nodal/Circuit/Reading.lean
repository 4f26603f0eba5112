import Nodal.Circuit.Basic
import Nodal.Netlist.Reader
import Nodal.Subcircuit.Expansion
/-!
# Reading a circuit

The records of a netlist are taken one after another: elements go into the circuit, subcircuits into
a library, and calls are expanded with the library as it stands. A call that cannot be expanded ends
the reading and leaves the circuit as it was before the call.
-/

namespace Nodal

/-- How a netlist is to be read. -/
structure Options where
  /-- The dialect in effect at the start. -/
  dialect : Dialect := .spice
  /-- Whether the texts of comments and directives are kept. -/
  echo : Bool := false
deriving DecidableEq, Repr

namespace Circuit

/-- Numbers the nets of an element and puts it at the end of the circuit. -/
def addElement (c : Circuit) (e : Element Float) : Circuit :=
  let (e, nodes) := e.resolve c.nodes
  { c with elements := c.elements ++ [e], nodes }

/-- Puts elements at the end of the circuit, in their order. -/
def addElements (c : Circuit) (es : List (Element Float)) : Circuit :=
  es.foldl addElement c

def warn (c : Circuit) (ws : List Warning) : Circuit :=
  { c with warnings := c.warnings ++ ws }

/-- Keeps a text if texts are asked for. -/
def keepText (c : Circuit) (o : Options) (text : String) : Circuit :=
  if o.echo then { c with echoed := c.echoed ++ [text] } else c

def addComment (c : Circuit) (o : Options) (comment : Comment) : Circuit :=
  let c := c.keepText o comment.text
  { c with commentCount := c.commentCount + 1 }

/-- Takes an item that stands outside of subcircuits. -/
def addItem (c : Circuit) (o : Options) : Item → Circuit
  | .element l =>
    match Element.ofLine l with
    | .ok e => c.addElement e
    | .error w => c.warn [w]
  | .directive d =>
    let c := c.keepText o d.text
    { c with directives := c.directives ++ [d] }
  | .comment comment => c.addComment o comment

/-- Takes an item of the body of a subcircuit, whose elements wait for a call. -/
def noteItem (c : Circuit) (o : Options) : Item → Circuit
  | .element _ => c
  | .directive d => c.keepText o d.text
  | .comment comment => c.addComment o comment

end Circuit

/-- A circuit in the making, with the subcircuits defined so far. -/
structure Draft where
  circuit : Circuit := {}
  library : Library := {}

namespace Draft

def step (o : Options) (d : Draft) : Record → Except Error Draft
  | .item i => .ok { d with circuit := d.circuit.addItem o i }
  | .subcircuit s =>
    let noted := s.body.foldl (fun c i => c.noteItem o i) d.circuit
    .ok
      { circuit := noted.warn (d.library.redefinition? s).toList
        library := d.library.define s }
  | .call call =>
    match d.library.expand call with
    | .error e => .error e
    | .ok x => .ok { d with circuit := (d.circuit.warn x.warnings).addElements x.elements }

/-- Takes records in their order, up to the first that fails: the draft before it, and the error. -/
def run (o : Options) (d : Draft) : List Record → Draft × Option Error
  | [] => (d, none)
  | r :: rs =>
    match d.step o r with
    | .error e => (d, some e)
    | .ok d => d.run o rs

end Draft

/-- The outcome of reading a netlist: the circuit as far as it was read, and the error if reading
failed. -/
structure Reading where
  circuit : Circuit
  error? : Option Error := none

namespace Circuit

def read (o : Options) (text : String) : Reading :=
  match Netlist.read o.dialect text with
  | .error e => { circuit := {}, error? := some (.malformed e) }
  | .ok netlist =>
    match Draft.run o {} netlist.records with
    | (d, some e) => { circuit := d.circuit, error? := some e }
    | (d, none) => { circuit := { d.circuit with valid := true } }

/-- Reads a netlist as a whole or not at all. -/
def parse (o : Options) (text : String) : Except Error Circuit :=
  match read o text with
  | { circuit := _, error? := some e } => .error e
  | { circuit, error? := none } => .ok circuit

/-- Reads the netlist in a file with the given contents; a file that cannot be read leaves an empty
circuit. -/
def ofFile (o : Options) (path : String) : Except FileFault String → Reading
  | .error fault => { circuit := {}, error? := some (.unreadable path fault) }
  | .ok text => read o text

end Circuit

/-- Where a netlist comes from. -/
inductive Origin where
  | text (text : String)
  /-- The file at a path, with its contents or the reason why it cannot be read. -/
  | file (path : String) (contents : Except FileFault String)

namespace Circuit

/-- Reads into a circuit. Nothing that the circuit held is kept, whether the reading succeeds or
fails. -/
def reread (_held : Circuit) (o : Options) : Origin → Reading
  | .text text => read o text
  | .file path contents => ofFile o path contents

/-- The circuit after reading into it several times, one reading after another. -/
def rereadAll (c : Circuit) : List (Options × Origin) → Circuit
  | [] => c
  | (o, origin) :: rest => (c.reread o origin).circuit.rereadAll rest

end Circuit

end Nodal
