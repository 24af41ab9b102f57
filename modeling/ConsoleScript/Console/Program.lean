import ConsoleScript.Console.Input
import ConsoleScript.Console.Options
import ConsoleScript.Console.Session

/-!
# The program

Runs a script, or every line of the input as a unit of its own in one session. Lines go to the
standard output and messages to the standard error; the status tells whether all went well.
-/

namespace ConsoleScript

structure Outcome where
  status : UInt32
  stdout : String
  stderr : String

namespace Program

def version : String := "lexis 0.1.0"

def usage : String :=
  "Usage: lexis [--file] [--pipe-mode] [--log-level <LOG_LEVEL>] [CONTENTS]"

/-- Runs one unit, reports its failures and says whether there were none. In pipe mode the value of
the unit is written after what the unit prints, unless it is null. -/
def runUnit (pipeMode : Bool) (text : String) : StateM State Bool := do
  match ← Session.run text with
  | .error e =>
    modify (State.reportMessage e.message)
    return false
  | .ok value =>
    match pipeMode, value with
    | true, some value => unless value.isNull do modify (State.write value.display)
    | _, _ => pure ()
    let success := Session.succeeded (← get)
    modify State.report
    return success

def refuseInput (e : ReadError) : StateM State Bool := do
  modify (State.reportMessage ("Failed to read standard input: " ++ e.message))
  return false

/-- Runs every line as a unit, and says whether all succeeded, including those run before. The first
line that cannot be read ends the run. -/
def runLines (pipeMode success : Bool) : List (Except ReadError String) → StateM State Bool
  | [] => return success
  | .error e :: _ => refuseInput e
  | .ok line :: lines => do
    let unit ← runUnit pipeMode line
    runLines pipeMode (success && unit) lines

def refuseFile (name : String) (e : ReadError) : StateM State Bool := do
  modify (State.reportMessage ("Failed to read the input file '" ++ name ++ "': " ++ e.message))
  return false

def run (options : Options) (input : ByteArray)
    (contentsOf : String → Except ReadError ByteArray) : StateM State Bool :=
  match options.contents, options.file with
  | none, _ => runLines options.pipeMode true (inputLines [] input.toList)
  | some script, false => runUnit options.pipeMode script
  | some name, true =>
    match (contentsOf name).bind decode with
    | .ok script => runUnit options.pipeMode script
    | .error e => refuseFile name e

def textOfLines (lines : Array String) : String :=
  lines.foldl (fun text line => text ++ line ++ "\n") ""

def execute (arguments : List String) (input : ByteArray)
    (contentsOf : String → Except ReadError ByteArray) : Outcome :=
  match Options.parse arguments with
  | .error e => ⟨2, "", e.message ++ "\n" ++ usage ++ "\n"⟩
  | .ok .version => ⟨0, version ++ "\n", ""⟩
  | .ok .help => ⟨0, usage ++ "\n", ""⟩
  | .ok (.run options) =>
    let (success, s) := run options input contentsOf State.initial
    ⟨if success then 0 else 1, textOfLines s.output.lines, textOfLines s.output.reports⟩

end Program

end ConsoleScript
