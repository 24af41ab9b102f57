/-!
# The command line

    options := ("-f" | "--file" | "-p" | "--pipe-mode" | "--log-level" level | "-V" | "--version"
             | "-h" | "--help" | contents)* ("--" contents?)?

Short flags may be written together, and a level may also follow an equals sign. Nothing may be
given twice. Asking for the version or for help ends the reading, whatever comes after it.
-/

namespace ConsoleScript

structure Options where
  /-- The contents are the name of a file. -/
  file : Bool
  pipeMode : Bool
  logLevel : Option String
  contents : Option String

inductive Request where
  | run (options : Options)
  | version
  | help

inductive UsageError where
  | unknownOption (argument : String)
  | repeatedOption (argument : String)
  | unexpectedValue (argument : String)
  | missingValue (argument : String)
  | extraArgument (argument : String)
deriving DecidableEq

def UsageError.message : UsageError → String
  | unknownOption argument => s!"error: unknown option '{argument}'"
  | repeatedOption argument => s!"error: option '{argument}' is given twice"
  | unexpectedValue argument => s!"error: option '{argument}' takes no value"
  | missingValue argument => s!"error: option '{argument}' needs a value"
  | extraArgument argument => s!"error: unexpected argument '{argument}'"

namespace Options

def empty : Options :=
  ⟨false, false, none, none⟩

inductive Progress where
  | more (options : Options)
  | done (request : Request)

def setFile (o : Options) (argument : String) : Except UsageError Progress :=
  if o.file then .error (.repeatedOption argument) else .ok (.more { o with file := true })

def setPipeMode (o : Options) (argument : String) : Except UsageError Progress :=
  if o.pipeMode then .error (.repeatedOption argument) else .ok (.more { o with pipeMode := true })

def setLogLevel (o : Options) (level argument : String) : Except UsageError Options :=
  if o.logLevel.isSome then .error (.repeatedOption argument)
  else .ok { o with logLevel := some level }

def setContents (o : Options) (argument : String) : Except UsageError Options :=
  if o.contents.isSome then .error (.extraArgument argument)
  else .ok { o with contents := some argument }

def readShort (argument : String) : Options → List Char → Except UsageError Progress
  | o, [] => .ok (.more o)
  | o, flag :: flags => do
    let progress ← match flag with
      | 'f' => o.setFile argument
      | 'p' => o.setPipeMode argument
      | 'V' => .ok (.done .version)
      | 'h' => .ok (.done .help)
      | _ => .error (.unknownOption argument)
    match progress with
    | .more o => readShort argument o flags
    | .done request => return .done request

def readLong (o : Options) (name argument : String) : Except UsageError Progress :=
  match name with
  | "file" => o.setFile argument
  | "pipe-mode" => o.setPipeMode argument
  | "version" => .ok (.done .version)
  | "help" => .ok (.done .help)
  | _ => .error (.unknownOption argument)

def isOption (argument : String) : Bool :=
  argument.startsWith "-" && argument ≠ "-"

def readPlain : Options → List String → Except UsageError Request
  | o, [] => .ok (.run o)
  | o, argument :: rest => do readPlain (← o.setContents argument) rest

def read : Options → List String → Except UsageError Request
  | o, [] => .ok (.run o)
  | o, "--" :: rest => readPlain o rest
  | o, argument :: rest =>
    if !isOption argument then do
      read (← o.setContents argument) rest
    else if !argument.startsWith "--" then do
      match ← readShort argument o (argument.toList.drop 1) with
      | .more o => read o rest
      | .done request => return request
    else
      let body := argument.toList.drop 2
      let name := String.ofList (body.takeWhile (· ≠ '='))
      match name, body.dropWhile (· ≠ '='), rest with
      | "log-level", _ :: level, rest => do
        read (← o.setLogLevel (String.ofList level) argument) rest
      | "log-level", [], level :: rest =>
        if isOption level then .error (.missingValue argument)
        else do read (← o.setLogLevel level argument) rest
      | "log-level", [], [] => .error (.missingValue argument)
      | _, [], rest => do
        match ← o.readLong name argument with
        | .more o => read o rest
        | .done request => return request
      | _, _ :: _, _ => do
        let _ ← o.readLong name argument
        throw (.unexpectedValue argument)

def parse (arguments : List String) : Except UsageError Request :=
  read empty arguments

end Options

end ConsoleScript
