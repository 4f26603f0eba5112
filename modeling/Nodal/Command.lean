import Nodal.Circuit.Reading
/-!
# The command

The command reads the netlist in a file and says whether that succeeded. On request it also lists
the elements, shows the matrix of the system, or repeats the comments and directives of the netlist.
-/

namespace Nodal

/-- What the command is asked to do. -/
structure Request where
  path : String
  options : Options := {}
  list : Bool := false
  matrix : Bool := false
deriving DecidableEq, Repr

/-- What the command writes and the exit code it ends with. -/
structure Report where
  code : Nat := 0
  out : String := ""
  err : String := ""
deriving DecidableEq, Repr

/-- Why the arguments of the command are refused. -/
inductive UsageError where
  | noFile
  | extraFile (path : String)
  | noValue (option : String)
  | unknownOption (option : String)
  | badValue (e : Error)
deriving DecidableEq, Repr

namespace UsageError

def message : UsageError → String
  | .noFile => "a netlist file is required"
  | .extraFile path => "unexpected argument '" ++ path ++ "'"
  | .noValue option => "option '" ++ option ++ "' needs a value"
  | .unknownOption option => "unknown option '" ++ option ++ "'"
  | .badValue e => e.message

end UsageError

structure Arguments where
  path? : Option String := none
  options : Options := {}
  list : Bool := false
  matrix : Bool := false
deriving DecidableEq, Repr

namespace Arguments

def setDialect (a : Arguments) (name : String) : Except UsageError Arguments :=
  match Dialect.ofName? name with
  | some d => .ok { a with options := { a.options with dialect := d } }
  | none => .error (.badValue (.unknownDialect name))

def setPath (a : Arguments) (path : String) : Except UsageError Arguments :=
  match a.path? with
  | none => .ok { a with path? := some path }
  | some _ => .error (.extraFile path)

/-- Sets the switch that a letter means. -/
def setSwitch? (a : Arguments) : Char → Option Arguments
  | 'e' => some { a with options := { a.options with echo := true } }
  | 'l' => some { a with list := true }
  | 'm' => some { a with matrix := true }
  | _ => none

/-- Takes letters joined behind one dash. The letter `d` takes the rest as the name of a dialect, or
waits for the next argument; the answer says whether it waits. -/
def takeLetters (a : Arguments) : List Char → Except UsageError (Arguments × Bool)
  | [] => .ok (a, false)
  | ['d'] => .ok (a, true)
  | 'd' :: '=' :: name => (a.setDialect (String.ofList name)).map (·, false)
  | 'd' :: name => (a.setDialect (String.ofList name)).map (·, false)
  | c :: cs =>
    match a.setSwitch? c with
    | some a => a.takeLetters cs
    | none => .error (.unknownOption ("-" ++ c.toString))

/-- Takes one argument; the answer says whether it waits for the name of a dialect. -/
def takeOne (a : Arguments) (arg : String) : Except UsageError (Arguments × Bool) :=
  if arg = "--echo" then a.takeLetters ['e']
  else if arg = "--list" then a.takeLetters ['l']
  else if arg = "--matrix" then a.takeLetters ['m']
  else if arg = "--dialect" then .ok (a, true)
  else
    match "--dialect=".toList.isPrefixOf? arg.toList with
    | some name => (a.setDialect (String.ofList name)).map (·, false)
    | none =>
      match arg.toList with
      | '-' :: '-' :: _ => .error (.unknownOption arg)
      | '-' :: c :: cs => a.takeLetters (c :: cs)
      | _ => (a.setPath arg).map (·, false)

def takeAll (a : Arguments) : List String → Except UsageError Arguments
  | [] => .ok a
  | arg :: rest =>
    match a.takeOne arg with
    | .error e => .error e
    | .ok (a, false) => a.takeAll rest
    | .ok (a, true) =>
      match rest with
      | [] => .error (.noValue arg)
      | name :: rest =>
        match a.setDialect name with
        | .error e => .error e
        | .ok a => a.takeAll rest

end Arguments

namespace Request

/-- The request that the arguments of the command make. -/
def ofArguments (args : List String) : Except UsageError Request :=
  match Arguments.takeAll {} args with
  | .error e => .error e
  | .ok a =>
    match a.path? with
    | none => .error .noFile
    | some path => .ok { path, options := a.options, list := a.list, matrix := a.matrix }

end Request

/-- The text in a file with the given bytes; no bytes stand for a missing file. -/
def fileText : Option ByteArray → Except FileFault String
  | none => .error .missing
  | some bytes =>
    match String.fromUTF8? bytes with
    | some text => .ok text
    | none => .error .notText

namespace Report

/-- Each text on a line of its own. -/
def ofLines (ls : List String) : String :=
  String.join (ls.map (· ++ "\n"))

/-- The counts and the elements of a circuit. -/
def listing (c : Circuit) : String :=
  ofLines
    [toString c.elements.length ++ " components, " ++ toString c.nodes.count ++ " nodes, " ++
      toString c.size ++ " unknowns"] ++ c.text

/-- The line that names the unknown at an index. -/
def unknownLine (s : LinearSystem Float) (index : Nat) : Option String :=
  (s.classify? index).bind fun u => (s.label? index).map fun label => u.text ++ " = " ++ label

def systemText (s : LinearSystem Float) : String :=
  ofLines ((List.range s.labels.length).filterMap fun i => unknownLine s (i + 1)) ++ s.matrix.text

def ofReading (r : Request) (reading : Reading) : Report :=
  let c := reading.circuit
  let echoed := ofLines c.echoed
  let err := ofLines ((reading.error?.map Error.message).toList ++
    c.warnings.map fun w => "warning: " ++ w.message)
  if !c.valid then { code := 1, out := echoed ++ ofLines ["parse failed"], err }
  else
    let out := echoed ++ ofLines ["parse succeeded"] ++ (if r.list then listing c else "")
    if !r.matrix then { out, err }
    else
      match c.assemble with
      | .ok s => { out := out ++ systemText s, err }
      | .error e => { code := 1, out, err := err ++ ofLines [e.message] }

end Report

namespace Request

/-- Runs the command on a file with the given bytes. -/
def run (r : Request) (bytes : Option ByteArray) : Report :=
  Report.ofReading r (Circuit.ofFile r.options r.path (fileText bytes))

end Request

end Nodal
