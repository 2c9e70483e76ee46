import RationalCalculator.Program

/-!
# The executable

The outer layer: it gathers the arguments, the environment and the environment file, carries out
the plan of the program, and writes each line as soon as it is known.
-/

namespace RationalCalculator.Main

def variableNames : List String :=
  "HOME" :: Environment.File.ignoringVariable :: Settings.shortVariable ::
    [.historyFile, .logLevel, .strict, .showApproximation, .prompt].map Settings.Field.variable

/-- The environment of the process, as far as the program or the file asks for it. -/
def processEnvironment (file : String) : IO Environment := do
  let found ← (variableNames ++ Environment.File.names .takesAny file).filterMapM fun name => do
    return (← IO.getEnv name).map (name, ·)
  return ⟨found⟩

/-- The environment file in the working directory, or nothing. -/
def environmentFile : IO String := do
  try IO.FS.readFile ".env" catch _ => return ""

def write (view : LogView) (lines : List Line) : IO Unit := do
  for line in lines do
    if let some text := line.outText? then IO.println text
    if let some text := view.errText? line then IO.eprintln text

def writeError (e : Numeral.Overlong) : IO UInt32 := do
  IO.eprintln e.message
  return 1

/-- Read and answer lines until the console is ended or the input is over. -/
partial def serve (view : LogView) (s : Settings) (c : Console) : IO UInt32 := do
  if !c.running then return 0
  IO.print s.prompt
  (← IO.getStdout).flush
  let line ← (← IO.getStdin).getLine
  if line.isEmpty then
    write view [.out Console.farewell]
    return 0
  let t := c.take s.showApproximation (some line)
  write view t.lines
  match t.result with
  | .ok () => serve view s t.console
  | .error e => writeError e

def work (view : LogView) (approximate : Bool) (s : Session) (succeeded : Bool) :
    List String → IO UInt32
  | [] => return (Batch.status succeeded).toUInt32
  | argument :: rest => do
    let r := Batch.serve approximate s argument
    write view r.lines
    match r.result with
    | .ok b => work view approximate r.session (succeeded && b) rest
    | .error e => writeError e

def carryOut (p : Program.Plan) : IO UInt32 := do
  let view := Program.logView .package p.settings
  let session := Session.start p.settings.strict
  write view [Program.openingNote p.settings]
  if p.expressions.isEmpty then
    write view Console.banner
    serve view p.settings ⟨session, true⟩
  else work view p.settings.showApproximation session true p.expressions

def refuse (refusal : Program.Refusal) : IO UInt32 := do
  let (ending, lines) := Program.refuse refusal
  write (Program.silentView .package) lines
  match ending with
  | .done status | .cutShort status => return status.toUInt32
  | .illegalVariable i =>
    IO.eprintln i.message
    return 1
  | .refusedSettings violations =>
    IO.eprintln (Settings.report violations)
    return 1
  | .overlong => return 1

end RationalCalculator.Main

open RationalCalculator in
def main (arguments : List String) : IO UInt32 := do
  let file ← Main.environmentFile
  let prepared := Program.prepare .earlier arguments (← Main.processEnvironment file) file
  Main.write (Program.silentView .package) prepared.lines
  match prepared.plan with
  | .ok p => Main.carryOut p
  | .error refusal => Main.refuse refusal
