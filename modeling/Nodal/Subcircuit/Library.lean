import Nodal.Error
import Nodal.Netlist.Basic
/-!
# Libraries of subcircuits

A library holds one subcircuit for each name that was defined. A later definition replaces an
earlier one of the same name.
-/

namespace Nodal

/-- The subcircuits defined so far. -/
structure Library where
  /-- The definitions in effect, the latest first. -/
  definitions : List Subcircuit := []
deriving DecidableEq, Repr

namespace Library

def empty : Library := {}

instance : Inhabited Library := ⟨empty⟩

def size (lib : Library) : Nat :=
  lib.definitions.length

def isEmpty (lib : Library) : Bool :=
  lib.definitions.isEmpty

def find? (lib : Library) (name : String) : Option Subcircuit :=
  lib.definitions.find? (·.name == name)

/-- Puts a subcircuit in, in place of one of the same name. -/
def define (lib : Library) (s : Subcircuit) : Library where
  definitions := s :: lib.definitions.filter (·.name != s.name)

/-- The warning that defining `s` replaces an earlier subcircuit. -/
def redefinition? (lib : Library) (s : Subcircuit) : Option Warning :=
  (lib.find? s.name).map fun earlier => .redefined s.name earlier.line

/-- A subcircuit that was defined is found under its name. -/
@[simp] theorem find?_define_self (lib : Library) (s : Subcircuit) :
    (lib.define s).find? s.name = some s := by
  simp [find?, define]

/-- A definition leaves other names alone. -/
theorem find?_define_of_ne (lib : Library) {s : Subcircuit} {name : String} (h : s.name ≠ name) :
    (lib.define s).find? name = lib.find? name := by
  have hs : (s.name == name) = false := by simpa using h
  simp only [find?, define, List.find?_cons, hs]
  induction lib.definitions with
  | nil => rfl
  | cons d ds ih =>
    by_cases hd : d.name = s.name
    · have hn : (d.name == name) = false := by simpa [hd] using h
      simp [hd, ih, hs]
    · have hd' : (d.name != s.name) = true := by simpa using hd
      simp only [List.filter_cons, hd', if_true, List.find?_cons, ih]

end Library

end Nodal
