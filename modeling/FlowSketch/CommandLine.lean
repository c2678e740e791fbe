/-
# The command line

    flowsketch compile FILE    print the program text of a saved sketch
    flowsketch run FILE        run the program of a saved sketch
    flowsketch inspect FILE    print the graph of a saved sketch and its untied flows

A saved sketch is a journal.  The options `--width` and `--height` give the size of the surface
on which it is played.  A run takes the lines that it reads from the options `--input`, or
from the standard input if there are none.

Everything here is a function from the arguments and the texts that were read to what is to
be printed; reading and printing are left to the program's main function.
-/
import FlowSketch.Graph.Inspection
import FlowSketch.Session.Checked

namespace FlowSketch

namespace CommandLine

/-- What can be asked for. -/
inductive Command where
  | compile
  | run
  | inspect
deriving DecidableEq, Repr

/-- The command of a name. -/
def Command.ofName? : String → Option Command
  | "compile" => some .compile
  | "run" => some .run
  | "inspect" => some .inspect
  | _ => none

/-- The arguments of the program. -/
structure Invocation where
  /-- What is asked for. -/
  command : Command
  /-- The file with the journal. -/
  file : String
  /-- The width of the surface, if it is given. -/
  width : Option Nat := none
  /-- The height of the surface, if it is given. -/
  height : Option Nat := none
  /-- The lines given for a run. -/
  inputs : List String := []
deriving DecidableEq, Repr

/-- What the program prints, and its exit code. -/
structure Result where
  /-- The exit code. -/
  exit : UInt32
  /-- The text for the standard output. -/
  stdout : String
  /-- The text for the standard error. -/
  stderr : String
deriving DecidableEq, Repr

/-! ## Arguments -/

/-- A size in pixels: decimal digits with a value below 2 ^ 32. -/
def size? (text : String) : Option Nat :=
  let s := text.toList
  let ds := if s.head? = some '+' then s.tail else s
  let n := Decimal.valueOf ds
  if !ds.isEmpty && ds.all Char.isDigit && n < 0x100000000 then some n else none

/-- The options that take a value. -/
inductive Flag where
  | width
  | height
  | input
deriving DecidableEq, Repr

/-- The text of an argument behind a given beginning. -/
def behind? (beginning argument : String) : Option String :=
  (beginning.toList.isPrefixOf? argument.toList).map String.ofList

/-- The option that an argument names, and the value that it gives in the same argument. -/
def flag? (argument : String) : Option (Flag × Option String) :=
  match argument with
  | "--width" => some (.width, none)
  | "--height" => some (.height, none)
  | "--input" => some (.input, none)
  | "-i" => some (.input, none)
  | _ =>
    match behind? "--width=" argument, behind? "--height=" argument,
        behind? "--input=" argument, behind? "-i=" argument, behind? "-i" argument with
    | some v, _, _, _, _ => some (.width, some v)
    | _, some v, _, _, _ => some (.height, some v)
    | _, _, some v, _, _ => some (.input, some v)
    | _, _, _, some v, _ => some (.input, some v)
    | _, _, _, _, some v => some (.input, some v)
    | _, _, _, _, _ => none

/-- The invocation with an option set.  A size is given at most once, and only a run takes
input lines. -/
def Invocation.set? (i : Invocation) : Flag → String → Option Invocation
  | .width, v => if i.width.isSome then none else (size? v).map fun n => { i with width := n }
  | .height, v => if i.height.isSome then none else (size? v).map fun n => { i with height := n }
  | .input, v => if i.command = .run then some { i with inputs := i.inputs ++ [v] } else none

/-- Whether an argument can stand for itself.  One that begins with a hyphen cannot, but for
the hyphen alone. -/
def isPlain (argument : String) : Bool := argument = "-" || !argument.startsWith "-"

/-- Takes in the arguments behind the options; `file` tells whether a file was named
already. -/
def Invocation.finish? (i : Invocation) (file : Bool) : List String → Option Invocation
  | [] => if file then some i else none
  | [argument] => if file then none else some { i with file := argument }
  | _ => none

/-- Takes in the arguments behind the command; `file` tells whether a file was named
already.  Two hyphens end the options. -/
def Invocation.extend? (i : Invocation) (file : Bool) : List String → Option Invocation
  | [] => i.finish? file []
  | "--" :: rest => i.finish? file rest
  | argument :: rest =>
    match flag? argument, rest with
    | some (flag, some v), rest => (i.set? flag v).bind fun i => i.extend? file rest
    | some (_, none), [] => none
    | some (flag, none), v :: rest =>
      if isPlain v then (i.set? flag v).bind fun i => i.extend? file rest else none
    | none, rest =>
      if !file && isPlain argument then { i with file := argument }.extend? true rest
      else none

/-- The invocation that the arguments of the program say. -/
def Invocation.parse? : List String → Option Invocation
  | [] => none
  | name :: arguments => do
    let command ← Command.ofName? name
    Invocation.extend? { command, file := "" } false arguments

/-- How the program is to be called. -/
def usage : String :=
  "usage: flowsketch <compile|run|inspect> FILE [--width N] [--height N] [--input LINE]\n"

/-! ## Standard input -/

/-- The lines of a text.  A line ends with a line feed, perhaps with a carriage return in
front of it; the last one may lack it. -/
def lines (text : String) : List String :=
  let pieces := text.toList.splitOn '\n'
  let ended := pieces.dropLast.map fun l => if l.getLast? = some '\r' then l.dropLast else l
  let final := pieces.getLast?.getD []
  (if final.isEmpty then ended else ended ++ [final]).map String.ofList

/-! ## Answers -/

/-- The words for a file that does not exist. -/
def missingFile : String := "No such file or directory (os error 2)"

/-- The program ends well. -/
def success (stdout : String) : Result := ⟨0, stdout, ""⟩

/-- The program ends with an error that has no cause besides it. -/
def failure (stdout message : String) : Result := ⟨1, stdout, "Error: " ++ message ++ "\n"⟩

/-- The program ends with an error that has a cause. -/
def failureOf (stdout message cause : String) : Result :=
  ⟨1, stdout, "Error: " ++ message ++ "\n\nCaused by:\n    " ++ cause ++ "\n"⟩

/-- A graph with its untied flows, as a document. -/
def inspection (s : Session) : Document :=
  .record [
    ("graph", s.sketch.graph.document),
    ("untied", .list (s.sketch.untied.toList.map fun f =>
      .list [f.start.document, f.finish.document]))]

/-- The answer for a session. -/
def answer (s : Session) (command : Command) (inputs : List String) : Result :=
  match command with
  | .compile =>
    match s.compile with
    | .ok text => success text
    | .error p => failure "" p.message
  | .run =>
    let report := s.run inputs
    let printed := String.join (report.output.map (· ++ "\n"))
    match report.failure with
    | none => success printed
    | some e => failureOf printed "running program" e.message
  | .inspect => success ((inspection s).render ++ "\n")

/-- The settings of the session, with the sizes that were given. -/
def Invocation.settings (i : Invocation) : Settings :=
  let usual : Settings := {}
  { usual with width := i.width.getD usual.width, height := i.height.getD usual.height }

/-- What the program does: `journal` is the text of the file, or the words for why it
cannot be read, and `stdin` the standard input.  A journal with coordinates that cannot be
computed with leads to no answer. -/
def Invocation.execute (i : Invocation) (journal : Except String String) (stdin : String) :
    Except Overflow Result := do
  match journal with
  | .error cause => return failureOf "" ("reading " ++ i.file) cause
  | .ok text =>
    match ← Checked.replay text i.settings with
    | .error e => return failureOf "" ("replaying " ++ i.file) e.message
    | .ok s => return answer s i.command (if i.inputs.isEmpty then lines stdin else i.inputs)

end CommandLine

end FlowSketch
