import Gateway.Decimal.Digits
import Gateway.Text.Terminal

/-!
# The command line

The server is told what to do by options. Each has a value, which stands behind an equals sign or
in the next argument, and each may come from an environment variable instead; one that comes from
neither has a default, apart from the secret, which has to be given. Arguments are looked at from
left to right, and the first thing that is wrong with them is reported; variables are looked at
only when nothing is wrong with the arguments, and only for options that were not given.

An argument that starts with a hyphen is never taken for the value of the option before it, and a
value in an argument of its own is looked at only when the next option comes or nothing does. Two
options have no value: they ask for help or for the version, and nothing that follows them is
looked at.

## Main definitions

* `Flag`: The options with a value.
* `Options`: What they say.
* `UsageError`: What can be wrong with a command line.
* `Invocation.parse`: Reads a command line.
-/

namespace Gateway

/-- How the server writes its log. -/
inductive LogFormat where
  | pretty
  | json
  deriving DecidableEq, Repr

/-- The name of a format. -/
def LogFormat.name : LogFormat → String
  | .pretty => "pretty"
  | .json => "json"

/-- Every format. -/
def LogFormat.all : List LogFormat :=
  [.pretty, .json]

/-- The options with a value, in the order in which variables are looked at. -/
inductive Flag where
  | host
  | port
  | secret
  | callTimeout
  | maxCalls
  | logFormat
  | origins
  deriving DecidableEq, Repr

namespace Flag

/-- Every option with a value. -/
def all : List Flag :=
  [.host, .port, .secret, .callTimeout, .maxCalls, .logFormat, .origins]

/-- The name of an option. -/
def name : Flag → String
  | .host => "host"
  | .port => "port"
  | .secret => "jwt-secret"
  | .callTimeout => "call-timeout-ms"
  | .maxCalls => "max-concurrent-calls"
  | .logFormat => "log-format"
  | .origins => "cors-origins"

/-- The environment variable of an option, which also stands for its value. -/
def environmentName : Flag → String
  | .host => "HOST"
  | .port => "PORT"
  | .secret => "JWT_SECRET"
  | .callTimeout => "CALL_TIMEOUT_MS"
  | .maxCalls => "MAX_CONCURRENT_CALLS"
  | .logFormat => "LOG_FORMAT"
  | .origins => "CORS_ORIGINS"

/-- What an option is for. -/
def summary : Flag → String
  | .host => "Address to bind the HTTP listener to [default: 0.0.0.0]"
  | .port => "Port to bind the HTTP listener to [default: 3000]"
  | .secret => "HS256 secret used to verify bearer tokens"
  | .callTimeout => "Per-call timeout for backend requests, in milliseconds [default: 5000]"
  | .maxCalls => "Outbound calls allowed in flight before new ones are shed [default: 1000]"
  | .logFormat => "How log lines are written [default: pretty] [possible values: pretty, json]"
  | .origins => "Comma-separated list of allowed CORS origins [default: *]"

/-- What stands for the value of an option. -/
def placeholder (f : Flag) : String :=
  String.ofList (f.name.toList.map fun c => if c = '-' then '_' else c.toUpper)

/-- An option with what stands for its value. -/
def display (f : Flag) : String :=
  "--" ++ f.name ++ " <" ++ f.placeholder ++ ">"

/-- The option of a given name. -/
def ofName? (s : String) : Option Flag :=
  all.find? fun f => f.name == s

/-- The values an option may have, if it is one of a few. -/
def choices : Flag → List String
  | .logFormat => LogFormat.all.map LogFormat.name
  | _ => []

end Flag

/-- What can be wrong with a command line. -/
inductive UsageError where
  -- There is no such option, or it is no option at all.
  | unexpected (argument : String)
  | noValue (flag : Flag)
  | noChoice (flag : Flag) (value : String)
  | badValue (flag : Flag) (value reason : String)
  | repeated (flag : Flag)
  -- An option without a value is given one.
  | superfluous (name value : String)
  | noSecret
  deriving DecidableEq, Repr

/-- A text from the command line in quotes, without orders to a terminal. -/
def UsageError.quoted (s : String) : String :=
  "'" ++ Terminal.plain s ++ "'"

/-- What is said of an error, up to the first empty line. -/
def UsageError.lines : UsageError → List String
  | .unexpected a => ["error: unexpected argument " ++ quoted a ++ " found"]
  | .noValue f =>
    ("error: a value is required for '" ++ f.display ++ "' but none was supplied")
      :: choiceLines f
  | .noChoice f v =>
    (if v.isEmpty then "error: a value is required for '" ++ f.display ++ "' but none was supplied"
      else "error: invalid value " ++ quoted v ++ " for '" ++ f.display ++ "'") :: choiceLines f
  | .badValue f v reason =>
    ["error: invalid value " ++ quoted v ++ " for '" ++ f.display ++ "': " ++ reason]
  | .repeated f => ["error: the argument '" ++ f.display ++ "' cannot be used multiple times"]
  | .superfluous name v =>
    ["error: unexpected value " ++ quoted v ++ " for '--" ++ name
      ++ "' found; no more were expected"]
  | .noSecret =>
    ["error: the following required arguments were not provided:", Flag.secret.display]
where
  choiceLines (f : Flag) : List String :=
    if f.choices.isEmpty then []
    else ["[possible values: " ++ ", ".intercalate f.choices ++ "]"]

/-- What the options say. -/
structure Options where
  host : String
  port : Nat
  secret : String
  -- How long a call may take, in milliseconds.
  callTimeout : Nat
  maxCalls : Nat
  logFormat : LogFormat
  origins : List String
  deriving DecidableEq, Repr

/-- The options that were given so far. -/
structure Options.Draft where
  host : Option String := none
  port : Option Nat := none
  secret : Option String := none
  callTimeout : Option Nat := none
  maxCalls : Option Nat := none
  logFormat : Option LogFormat := none
  origins : Option (List String) := none

namespace Options

/-- Why a text is no integer. -/
inductive IntegerFault where
  | empty
  | digit
  | large
  | small
  deriving DecidableEq, Repr

/-- What is said of a text that is no integer. -/
def IntegerFault.message : IntegerFault → String
  | .empty => "cannot parse integer from empty string"
  | .digit => "invalid digit found in string"
  | .large => "number too large to fit in target type"
  | .small => "number too small to fit in target type"

/-- Reads digits behind `n`, up to a bound; the first that is no digit, or that leads out of the
    bound, decides. -/
def readDigits (bound : Nat) (fault : IntegerFault) : Nat → List Char → Except IntegerFault Nat
  | n, [] => .ok n
  | n, c :: rest =>
    if !(48 ≤ c.toNat && c.toNat ≤ 57) then .error .digit
    else
      let n := n * 10 + (c.toNat - 48)
      if bound < n then .error fault else readDigits bound fault n rest

/-- Reads an integer of 64 bits, with or without sign. -/
def readInteger (isSigned : Bool) (s : String) : Except IntegerFault Int :=
  let largest := if isSigned then 0x7FFFFFFFFFFFFFFF else 0xFFFFFFFFFFFFFFFF
  match s.toList with
  | [] => .error .empty
  | ['+'] | ['-'] => .error .digit
  | '+' :: ds => (readDigits largest .large 0 ds).map Int.ofNat
  | '-' :: ds =>
    if isSigned then (readDigits 0x8000000000000000 .small 0 ds).map fun n => -(Int.ofNat n)
    else .error .digit
  | ds => (readDigits largest .large 0 ds).map Int.ofNat

/-- The text of an integer. -/
def integerText (n : Int) : String :=
  if n < 0 then "-" ++ Decimal.text n.natAbs else Decimal.text n.natAbs

/-- The value of an option that is a number of at most `largest`. -/
def number (f : Flag) (largest : Nat) (s : String) : Except UsageError Nat :=
  match readInteger true s with
  | .error e => .error (.badValue f s e.message)
  | .ok n =>
    if 0 ≤ n ∧ n ≤ largest then .ok n.toNat
    else .error (.badValue f s (integerText n ++ " is not in 0..=" ++ Decimal.text largest))

/-- The value of an option that is a number of one word. -/
def word (f : Flag) (s : String) : Except UsageError Nat :=
  match readInteger false s with
  | .error e => .error (.badValue f s e.message)
  | .ok n => .ok n.toNat

/-- The value of the option that is a format. -/
def format (s : String) : Except UsageError LogFormat :=
  match LogFormat.all.find? fun l => l.name == s with
  | some l => .ok l
  | none => .error (.noChoice .logFormat s)

namespace Draft

/-- Whether an option was given. -/
def has (d : Draft) : Flag → Bool
  | .host => d.host.isSome
  | .port => d.port.isSome
  | .secret => d.secret.isSome
  | .callTimeout => d.callTimeout.isSome
  | .maxCalls => d.maxCalls.isSome
  | .logFormat => d.logFormat.isSome
  | .origins => d.origins.isSome

/-- Gives an option. Origins may be given more than once, and several at a time. -/
def put (d : Draft) (f : Flag) (s : String) : Except UsageError Draft :=
  match f with
  | .host => .ok { d with host := some s }
  | .port => (number f 65535 s).map fun n => { d with port := some n }
  | .secret => .ok { d with secret := some s }
  | .callTimeout => (word f s).map fun n => { d with callTimeout := some n }
  | .maxCalls => (number f 4294967295 s).map fun n => { d with maxCalls := some n }
  | .logFormat => (format s).map fun l => { d with logFormat := some l }
  | .origins => .ok { d with origins := some (d.origins.getD [] ++ s.splitOn ",") }

/-- Gives an option in an argument. -/
def give (d : Draft) (f : Flag) (s : String) : Except UsageError Draft :=
  -- Origins add up; any other option is given once.
  if d.has f ∧ f ≠ .origins then .error (.repeated f) else d.put f s

/-- Gives the options that variables have and arguments do not. -/
def fill (lookup : String → Option String) : List Flag → Draft → Except UsageError Draft
  | [], d => .ok d
  | f :: rest, d =>
    -- Arguments win, and then the variable is not even read.
    if d.has f then fill lookup rest d
    else match lookup f.environmentName with
      | none => fill lookup rest d
      | some s =>
        match d.put f s with
        | .error e => .error e
        | .ok d => fill lookup rest d

/-- The options, once all that were given are in the draft. -/
def finish (d : Draft) : Except UsageError Options :=
  match d.secret with
  | none => .error .noSecret
  | some secret => .ok
    { host := d.host.getD "0.0.0.0"
      port := d.port.getD 3000
      secret := secret
      callTimeout := d.callTimeout.getD 5000
      maxCalls := d.maxCalls.getD 1000
      logFormat := d.logFormat.getD .pretty
      origins := d.origins.getD ["*"] }

end Draft

end Options

/-- What a command line asks for. -/
inductive Invocation where
  | serve (options : Options)
  | help
  | version

namespace Invocation

/-- What is asked for by an option without a value. -/
def ofName? (name : String) : Option Invocation :=
  if name == "help" then some .help
  else if name == "version" then some .version
  else none

/-- What is asked for by an option of one letter. -/
def ofLetter? (c : Char) : Option Invocation :=
  if c = 'h' then some .help
  else if c = 'V' then some .version
  else none

/-- An argument as it stands. -/
inductive Argument where
  -- Two hyphens alone: no options follow.
  | separator
  -- An option of a name, and its value if one stands in the same argument.
  | long (name : String) (value : Option String)
  | short (letter : Char)
  | plain (s : String)

/-- What an argument is. -/
def Argument.of (s : String) : Argument :=
  match s.toList with
  | ['-', '-'] => .separator
  | '-' :: '-' :: rest =>
    let name := rest.takeWhile (· != '=')
    .long (String.ofList name)
      (match rest.drop name.length with
        | _ :: value => some (String.ofList value)
        | [] => none)
  | '-' :: c :: _ => .short c
  | _ => .plain s

/-- An option whose value stands in an argument of its own, and the value once that has been read.
    It is given only when the next option comes or nothing does, so what is out of place behind it
    is reported before what is wrong with its value. -/
abbrev Pending := Option (Flag × Option String)

/-- Gives the option that is pending. -/
def settle (d : Options.Draft) (pending : Pending) : Except UsageError Options.Draft :=
  match pending with
  | none => .ok d
  | some (f, none) => .error (.noValue f)
  | some (f, some s) => d.give f s

/-- Reads the arguments that are left. Gives the options that were given, or what was asked for
    instead. -/
def read : Pending → Options.Draft → List String → Except UsageError (Options.Draft ⊕ Invocation)
  | pending, d, [] => (settle d pending).map .inl
  | pending, d, a :: rest =>
    match Argument.of a with
    | .separator =>
      match rest with
      | [] => (settle d pending).map .inl
      | b :: _ => .error (.unexpected b)
    | .long name value =>
      match Flag.ofName? name, ofName? name, value with
      -- Whatever comes next, the option that is pending is given first.
      | some f, _, some v => do
        let d ← settle d pending
        read none (← d.give f v) rest
      | some f, _, none => do
        let d ← settle d pending
        read (some (f, none)) d rest
      | none, some _, some v => .error (.superfluous name v)
      | none, some i, none => (settle d pending).map fun _ => .inr i
      | none, none, _ => .error (.unexpected ("--" ++ name))
    | .short c =>
      match ofLetter? c with
      | some i => (settle d pending).map fun _ => .inr i
      | none => .error (.unexpected ("-" ++ String.singleton c))
    | .plain s =>
      match pending with
      | some (f, none) => read (some (f, some s)) d rest
      | _ => .error (.unexpected s)

/-- Reads a command line. -/
def parse (args : List String) (lookup : String → Option String) :
    Except UsageError Invocation := do
  match ← read none {} args with
  | .inr i => pure i
  | .inl d => do
    let d ← Options.Draft.fill lookup Flag.all d
    pure (.serve (← d.finish))

end Invocation

end Gateway
