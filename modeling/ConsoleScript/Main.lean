import ConsoleScript.Console.Program

/-! The command line program. Every unit's output is written before the next line is read. -/

namespace ConsoleScript.Main

def writeOutput (s : State) : IO State := do
  IO.print (Program.textOfLines s.output.lines)
  IO.eprint (Program.textOfLines s.output.reports)
  (← IO.getStdout).flush
  return { s with output := .empty }

def readError : IO.Error → ReadError
  | .noFileOrDirectory .. => .notFound
  | .inappropriateType .. => .isDirectory
  | other => .other (toString other)

def contentsOf (name : String) : IO (Except ReadError ByteArray) := do
  try
    return .ok (← IO.FS.readBinFile name)
  catch e =>
    return .error (readError e)

/-- Reads bytes up to a line break, in reverse, and says whether there was one. -/
partial def readLine (input : IO.FS.Stream) (before : List UInt8) :
    IO (Option (List UInt8 × Bool)) := do
  match (← input.read 1).toList with
  | [] => return if before.isEmpty then none else some (before, false)
  | byte :: _ => if byte = 10 then return some (before, true) else readLine input (byte :: before)

partial def runInput (input : IO.FS.Stream) (pipeMode success : Bool) (s : State) : IO Bool := do
  match ← readLine input [] with
  | none => return success
  | some (bytes, broken) =>
    match decodeLine bytes broken with
    | .error e =>
      let (refused, s) := Program.refuseInput e s
      let _ ← writeOutput s
      return refused
    | .ok line =>
      let (unit, s) := Program.runUnit pipeMode line s
      runInput input pipeMode (success && unit) (← writeOutput s)

def run (options : Options) : IO Bool := do
  match options.contents with
  | none => runInput (← IO.getStdin) options.pipeMode true State.initial
  | some name =>
    let contents ← if options.file then contentsOf name else pure (.error .notFound)
    let (success, s) := Program.run options ByteArray.empty (fun _ => contents) State.initial
    let _ ← writeOutput s
    return success

def start (arguments : List String) : IO UInt32 := do
  match Options.parse arguments with
  | .ok (.run options) => return if ← run options then 0 else 1
  | _ =>
    let outcome := Program.execute arguments ByteArray.empty fun _ => .error .notFound
    IO.print outcome.stdout
    IO.eprint outcome.stderr
    return outcome.status

end ConsoleScript.Main

def main (arguments : List String) : IO UInt32 :=
  ConsoleScript.Main.start arguments
