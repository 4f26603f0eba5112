import Nodal.Element.Basic
import Nodal.Error
import Nodal.Expr.Token
import Nodal.Netlist.Basic
/-!
# Elements from their lines

An element line becomes an element if its letter is that of a kind; otherwise a warning names it.
-/

namespace Nodal.Element

/-- The element that a line describes, its nets not yet numbered. -/
def ofLine (l : ElementLine) : Except Warning (Element Float) :=
  match Kind.ofLetter? l.letter with
  | some kind => .ok { kind, name := l.name, nets := l.nets, value := Expr.ofToken l.value }
  | none => .error (.unknownKind l.letter l.name l.line)

/-- The elements that lines describe, in order, without those of unknown kinds. -/
def ofLines (ls : List ElementLine) : List (Element Float) :=
  ls.filterMap fun l => (ofLine l).toOption

/-- The warnings about lines of unknown kinds, in order. -/
def warnings (ls : List ElementLine) : List Warning :=
  ls.filterMap fun l =>
    match ofLine l with
    | .ok _ => none
    | .error w => some w

end Nodal.Element
