import Gateway.Console
import Std.Time.DateTime.Timestamp

/-!
# Running the program

The outermost layer: it reads the environment, the clock and the lines of the input, and hands them
to the definitions that decide. The server is stopped by the end of its input, and then drains as
it does when it is told to stop.

## Main definitions

* `main`: The program.
-/

namespace Gateway

namespace Main

/-- The variables of the environment that the program looks at. -/
def environment : IO (String → Option String) := do
  let names := Flag.all.map Flag.environmentName ++ Registry.variableNames
  let found ← names.mapM fun name => do return (name, ← IO.getEnv name)
  return fun name => (found.lookup name).join

/-- The time, in milliseconds since 1970. -/
def moment : IO Nat := do
  return (← Std.Time.Timestamp.now).toMillisecondsSinceUnixEpoch.toInt.toNat

/-- Writes lines of the log. -/
def log (format : LogFormat) (lines : List LogLine) : IO Unit := do
  let now ← moment
  for l in lines do IO.eprintln (l.write format now)

/-- Answers requests as they come, until there are no more. -/
partial def answerAll (input output : IO.FS.Stream) (began : Nat) (r : Rehearsal) :
    IO Rehearsal := do
  let line ← input.getLine
  if line.isEmpty then return r
  let r := { r with api := { r.api with wall := ← moment } }
  let r := r.advance ((← IO.monoMsNow) - began - r.now)
  let (r, upshot) := r.step (.perform (.request (Console.request (Utf8.encode line))))
  output.putStrLn (Console.answer upshot).text
  output.flush
  answerAll input output began r

/-- Serves as the options say, until the input ends. -/
def serve (o : Options) (lookup : String → Option String) : IO Unit := do
  let registry := Registry.fromLookup lookup
  let r := (Program.server o registry (← moment)).occur .begin
  log o.logFormat (Program.opening registry ++ Program.saidLines r)
  let r ← answerAll (← IO.getStdin) (← IO.getStdout) (← IO.monoMsNow) { r with said := [] }
  log o.logFormat (Program.saidLines (r.conclude o.serverSettings.drainTimeout))

end Main

end Gateway

/-- The program. -/
def main (args : List String) : IO UInt32 := do
  let lookup ← Gateway.Main.environment
  match Gateway.Program.plan (Gateway.Invocation.parse args lookup) with
  | .inl o => Gateway.Main.serve o lookup; return 0
  | .inr reply =>
    for l in reply.output do IO.println l
    for l in reply.errors do IO.eprintln l
    return reply.code.toUInt32
