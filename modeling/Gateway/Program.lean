import Gateway.Options
import Gateway.Rehearsal
import Gateway.Settings

/-!
# The program

What the program makes of its options: the settings of the gateway and of its server, the backends
where the environment says they are, and a server that is ready to begin. What it writes to its log
on the way is listed here, line by line.

## Main definitions

* `Options.callSettings`, `Options.serverSettings`: The settings that options stand for.
* `Rehearsal.ofServer`: A server over some clients.
* `Program.plan`, `Program.Reply`: Whether the program serves, and what it writes if it does not.
* `LogLine`, `Program.opening`: What the program writes before it serves.
* `Program.server`: The server it serves with.
-/

namespace Gateway

/-- How backends are called. -/
def Options.callSettings (o : Options) : CallSettings :=
  { callTimeout := o.callTimeout, maxCalls := o.maxCalls }

/-- How the server is reached. -/
def Options.serverSettings (o : Options) : ServerSettings :=
  { host := o.host, port := o.port, origins := o.origins }

/-- The layers around the interface of a server. -/
def Envelope.ofSettings (s : ServerSettings) : Envelope :=
  ⟨.ofList s.origins, s.requestTimeout⟩

/-- What the handlers of a server share. -/
def Api.ofSettings (secret : String) (s : CallSettings) (recorded : Bool) (wall : Nat) : Api :=
  { secret := secret, probeTimeout := s.probeTimeout, recorded := recorded, wall := wall }

/-- A server over some clients that does not serve yet. -/
def Rehearsal.ofServer (board : Switchboard) (api : Api) (s : ServerSettings) (isBound : Bool) :
    Rehearsal :=
  { board := board, api := api, envelope := some (.ofSettings s), stage := some (.idle isBound) }

/-- A line of the log. -/
structure LogLine where
  level : Server.Level
  message : String
  -- The backend it is about, with its address.
  backend : Option String := none
  address : Option String := none
  deriving DecidableEq, Repr

namespace Program

/-- The name and version of the program. -/
def version : String :=
  "gatehouse-server 0.1.0"

/-- What the program is. -/
def about : String :=
  "Gatehouse server: axum gateway, backend routing and broadcast fan-out"

/-- How the program is used. -/
def usage : String :=
  "Usage: gatehouse [OPTIONS] --jwt-secret <JWT_SECRET>"

/-- The lines of the help. -/
def help : List String :=
  [about, "", usage, "", "Options:"]
    ++ (Flag.all.flatMap fun f =>
      ["      " ++ f.display,
        "          " ++ f.summary ++ " [env: " ++ f.environmentName ++ "=]"])
    ++ ["  -h, --help", "          Print help", "  -V, --version", "          Print version"]

/-- What the program writes when it does not serve. -/
structure Reply where
  code : Nat
  output : List String
  errors : List String
  deriving DecidableEq, Repr

/-- What the program makes of a command line: it serves as its options say, or it only replies. -/
def plan : Except UsageError Invocation → Options ⊕ Reply
  | .ok (.serve o) => .inl o
  | .ok .help => .inr ⟨0, help, []⟩
  | .ok .version => .inr ⟨0, [version], []⟩
  | .error e => .inr ⟨2, [], e.lines ++ ["", usage, "", "For more information, try '--help'."]⟩

/-- What the program writes before it serves. -/
def opening (r : Registry) : List LogLine :=
  (r.endpoints.map fun e =>
      { level := .info, message := "backend registered", backend := some e.display })
    ++ (r.endpoints.map fun e =>
      { level := .info, message := "registering backend client", address := some e.address })
    ++ [{ level := .info, message := "gatehouse listening" }]

/-- A backend at an address where nothing listens. -/
def absent (t : Target) : Backend :=
  ⟨fun _ _ => ⟨none, .error (.transport t .connectionRefused "Connection refused (os error 111)")⟩,
    true⟩

/-- The server that some options ask for, where no backend listens. -/
def server (o : Options) (r : Registry) (wall : Nat) : Rehearsal :=
  let settings := o.callSettings
  .ofServer
    (.ofLines (r.targets.map fun t => (t, absent t)) settings.maxCalls settings.callTimeout)
    (.ofSettings o.secret settings true wall) o.serverSettings true

/-- What a server has said, as lines of the log. -/
def saidLines (r : Rehearsal) : List LogLine :=
  r.said.reverse.map fun (level, message) => { level := level, message := message }

end Program

end Gateway
