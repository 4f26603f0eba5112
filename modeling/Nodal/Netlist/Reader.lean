import Nodal.Dialect.Rules
import Nodal.Error
import Nodal.Netlist.Basic
import Nodal.Source.Line
/-!
# Reading netlists

A netlist is read line by line. Blank lines say nothing. A line that switches the dialect takes
effect at once, also inside a subcircuit. Any other line is, in this order, an element, a directive,
a comment, the title of a subcircuit or a subcircuit call; inside a subcircuit it is the closing
line, an element, a directive or a comment. The first line that is none of these ends the reading,
and so does the end of the text inside a subcircuit, which counts against the title.
-/

namespace Nodal

namespace ElementLine

/-- Whether the number of nets, or the dialect, lets a line be an element: a known kind needs as
many nets as it has terminals, an unknown one a line that the dialect does not claim. -/
def admits (d : Dialect) (letter : Char) (nets words : List String) : Bool :=
  match Kind.ofLetter? letter with
  | some kind => nets.length == kind.terminalCount
  | none => !d.reserves words

/-- Recognises an element: a designator that starts with an ASCII letter, at least one net, and a
value. -/
def ofWords? (d : Dialect) (line : Nat) (words : List String) : Option ElementLine :=
  match words with
  | name :: net :: rest =>
    match rest.getLast?, name.toList with
    | some value, letter :: _ =>
      let nets := net :: rest.dropLast
      if letter.isAlpha && isNetName name && !d.reservesName name && admits d letter nets words &&
          nets.all isNetName then
        some { letter := letter.toUpper, name, nets, value, line }
      else none
    | _, _ => none
  | _ => none

end ElementLine

namespace Directive

def ofLine (d : Dialect) (l : Line) : Directive where
  keyword := l.words.headD ""
  args := l.words.tail
  text := l.trimmed
  dialect := d
  line := l.number

end Directive

namespace Item

/-- Recognises an element, a directive or a comment, in this order. -/
def ofLine? (d : Dialect) (l : Line) : Option Item :=
  match ElementLine.ofWords? d l.number l.words with
  | some e => some (.element e)
  | none =>
    if d.isDirective l.words then some (.directive (Directive.ofLine d l))
    else if d.isComment l.words then some (.comment { text := l.trimmed, line := l.number })
    else none

end Item

/-- A subcircuit whose closing line has not been read. -/
structure OpenBlock where
  title : Title
  opening : Line
  body : List Item := []
deriving DecidableEq, Repr

namespace OpenBlock

/-- The subcircuit that a block becomes when line number `lastLine` closes it. -/
def close (b : OpenBlock) (lastLine : Nat) : Subcircuit where
  name := b.title.name
  ports := b.title.ports
  body := b.body
  line := b.opening.number
  lastLine := lastLine

end OpenBlock

/-- Where the reading of a netlist stands between two lines. -/
structure Reader where
  dialect : Dialect
  block : Option OpenBlock := none
deriving DecidableEq, Repr

/-- Where the reading of a netlist stopped short. -/
structure Stop where
  line : Line
  dialect : Dialect
deriving DecidableEq, Repr

namespace Reader

/-- Takes an item into the open subcircuit, or else gives it out as a record. -/
def take (r : Reader) (i : Item) : Reader × Option Record :=
  match r.block with
  | none => (r, some (.item i))
  | some b => ({ r with block := some { b with body := b.body ++ [i] } }, none)

/-- Reads a line outside of subcircuits that is not blank and no switch. -/
def stepOutside (r : Reader) (l : Line) : Except Line (Reader × Option Record) :=
  match Item.ofLine? r.dialect l with
  | some i => .ok (r.take i)
  | none =>
    match r.dialect.title? l.words with
    | some title => .ok ({ r with block := some { title, opening := l } }, none)
    | none =>
      match r.dialect.call? l.words with
      | some c =>
        .ok (r, some (.call
          { label := c.label, nets := c.nets, subcircuit := c.subcircuit, line := l.number }))
      | none => .error l

/-- Reads a line inside a subcircuit that is not blank and no switch. -/
def stepInside (r : Reader) (b : OpenBlock) (l : Line) : Except Line (Reader × Option Record) :=
  if r.dialect.closes b.title.name l.words then
    .ok ({ r with block := none }, some (.subcircuit (b.close l.number)))
  else
    match Item.ofLine? r.dialect l with
    | some i => .ok (r.take i)
    | none => .error l

/-- Reads one line: the new state and the record completed by the line, or the line at fault. -/
def step (r : Reader) (l : Line) : Except Line (Reader × Option Record) :=
  if l.isBlank then .ok (r, none)
  else
    match Dialect.switch? l.words with
    | some d => .ok ({ r with dialect := d }.take (.directive (Directive.ofLine d l)))
    | none =>
      match r.block with
      | none => r.stepOutside l
      | some b => r.stepInside b l

def run (r : Reader) : List Line → Except Stop Netlist
  | [] =>
    match r.block with
    | none => .ok { records := [], dialect := r.dialect }
    -- nothing from the title on has been given out, so the title is at fault
    | some b => .error { line := b.opening, dialect := r.dialect }
  | l :: ls =>
    match r.step l with
    | .error bad => .error { line := bad, dialect := r.dialect }
    | .ok (r', record) =>
      match r'.run ls with
      | .error stop => .error stop
      | .ok n => .ok { n with records := record.toList ++ n.records }

end Reader

namespace Stop

/-- The report of a reading that stopped short, with everything from the line at fault on. -/
def toSyntaxError (s : Stop) (ls : List Line) : SyntaxError where
  line := s.line.number
  column := s.line.firstColumn
  remainder := Line.join (ls.drop (s.line.number - 1))
  dialect := s.dialect

end Stop

namespace Netlist

/-- Reads a netlist that starts in dialect `d`. -/
def read (d : Dialect) (text : String) : Except SyntaxError Netlist :=
  let ls := Source.lines text
  match Reader.run { dialect := d } ls with
  | .ok n => .ok n
  | .error stop => .error (stop.toSyntaxError ls)

end Netlist

end Nodal
