/-!
# Kinds of circuit elements

Eleven kinds of elements, each with a designator letter and a fixed number of terminals. Most kinds
own auxiliary unknowns, such as the current through the element; these are grouped in six families,
and a system keeps the unknowns of each family together in one block.
-/

namespace Nodal

/-- The groups of kinds whose auxiliary unknowns share a block. -/
inductive Family where
  /-- Resistors, capacitors and inductors. -/
  | impedance
  | voltageSource
  | opamp
  /-- Voltage-controlled voltage sources. -/
  | vcvs
  /-- Current-controlled voltage sources. -/
  | ccvs
  /-- Current-controlled current sources. -/
  | cccs
deriving DecidableEq, Repr

namespace Family

/-- The families in the order of their blocks. -/
def all : List Family :=
  [.impedance, .voltageSource, .opamp, .vcvs, .ccvs, .cccs]

/-- The number of auxiliary unknowns of each member. -/
def width : Family → Nat
  | .ccvs => 2
  | _ => 1

end Family

inductive Kind where
  | resistor
  | capacitor
  | inductor
  | voltageSource
  | currentSource
  | opamp
  /-- A voltage-controlled voltage source. -/
  | vcvs
  /-- A current-controlled voltage source. -/
  | ccvs
  /-- A voltage-controlled current source. -/
  | vccs
  /-- A current-controlled current source. -/
  | cccs
  /-- An external port, which adds nothing to a system. -/
  | port
deriving DecidableEq, Repr

namespace Kind

def all : List Kind :=
  [.resistor, .capacitor, .inductor, .voltageSource, .currentSource, .opamp, .vcvs, .ccvs, .vccs,
    .cccs, .port]

def letter : Kind → Char
  | .resistor => 'R'
  | .capacitor => 'C'
  | .inductor => 'L'
  | .voltageSource => 'V'
  | .currentSource => 'I'
  | .opamp => 'O'
  | .vcvs => 'E'
  | .ccvs => 'F'
  | .vccs => 'G'
  | .cccs => 'H'
  | .port => 'P'

/-- The kind that a letter of either case designates. -/
def ofLetter? (c : Char) : Option Kind :=
  match c.toUpper with
  | 'R' => some .resistor
  | 'C' => some .capacitor
  | 'L' => some .inductor
  | 'V' => some .voltageSource
  | 'I' => some .currentSource
  | 'O' => some .opamp
  | 'E' => some .vcvs
  | 'F' => some .ccvs
  | 'G' => some .vccs
  | 'H' => some .cccs
  | 'P' => some .port
  | _ => none

/-- The number of terminals. An amplifier has two inputs and an output, a controlled source an
output pair and a controlling pair, every other element two ends. -/
def terminalCount : Kind → Nat
  | .opamp => 3
  | .vcvs => 4
  | .ccvs => 4
  | .vccs => 4
  | .cccs => 4
  | _ => 2

/-- The family of a kind that owns auxiliary unknowns. -/
def family? : Kind → Option Family
  | .resistor => some .impedance
  | .capacitor => some .impedance
  | .inductor => some .impedance
  | .voltageSource => some .voltageSource
  | .currentSource => none
  | .opamp => some .opamp
  | .vcvs => some .vcvs
  | .ccvs => some .ccvs
  | .vccs => none
  | .cccs => some .cccs
  | .port => none

def auxCount (k : Kind) : Nat :=
  match k.family? with
  | some f => f.width
  | none => 0

/-- What is appended to an element's name to label its auxiliary unknowns, in their order. -/
def auxSuffixes : Kind → List String
  | .opamp => [".out"]
  | .ccvs => [".p", ".cp"]
  | .currentSource => []
  | .vccs => []
  | .port => []
  | _ => [".p"]

/-- A kind is found under the letter that designates it. -/
@[simp] theorem ofLetter?_letter (k : Kind) : ofLetter? k.letter = some k := by
  cases k <;> decide

/-- A kind has a suffix for each of its auxiliary unknowns. -/
@[simp] theorem length_auxSuffixes (k : Kind) : k.auxSuffixes.length = k.auxCount := by
  cases k <;> rfl

end Kind

end Nodal
