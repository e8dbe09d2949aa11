import Gateway.Http.Envelope
import Gateway.Server
import Gateway.Switchboard
import Gateway.Text.Uuid
import Gateway.Upshot

/-!
# Rehearsals

The whole gateway on a clock that moves only when everything waits, and then straight to the next
thing that is due. Work takes no time. What is started may be waited for at once, or run in the
background under a name, to be joined, looked at or given up later.

Something that runs is an `Errand`: some calls, perhaps on behalf of a request, or a wait. An
errand does what it can when it is woken, and it is woken by its own timers and, while it waits for
the server to be idle, by the last request that ends. Errands that are woken at one time do their
work in the order in which the timers that woke them were set, except that one that is waited for
at once goes before those in the background. Of a request with a time limit the limit is looked at
first, so an answer that comes at the very limit is late; of a call the answer is looked at first.

## Main definitions

* `Rehearsal`: The gateway, the clock and what runs.
* `Command`: What can be done.
* `Rehearsal.start`: Starts a command.
* `Rehearsal.advance`, `Rehearsal.await`: Move the clock.
* `Step`, `Rehearsal.step`: One step of a rehearsal.
-/

namespace Gateway

/-- One call of an errand. -/
structure Leg where
  target : Target
  -- Whether it has settled, and how, or under which number it is under way.
  state : Placed

/-- A request that waits for its answer. -/
structure Visit where
  request : Http.Request
  -- The id it gets if it has none.
  fresh : String
  counted : Bool
  -- When its answer is too late, if ever.
  limit : Option Timer

/-- Something that runs. -/
inductive Errand where
  -- Calls, perhaps on behalf of a request.
  | calls (legs : List Leg) (purpose : Purpose) (visit : Option Visit)
  -- Ends a request that was counted by hand, after a while.
  | letGo (name : String) (timer : Timer)
  -- Waits until nothing is under way, or for so long.
  | drain (limit : Timer)
  -- Ends the server: waits for the requests under way, at most for so long, and then for the last
  -- connections.
  | shutdown (limit : Timer)

/-- Whether something is a request that waits for its answer. -/
def Errand.isVisit : Errand → Bool
  | .calls _ _ (some _) => true
  | _ => false

/-- Whether something waits for nothing to be under way. -/
def Errand.waitsForIdle : Errand → Bool
  | .drain _ | .shutdown _ => true
  | _ => false

/-- Whether something ends the server. -/
def Errand.isShutdown : Errand → Bool
  | .shutdown _ => true
  | _ => false

/-- What can be done. -/
inductive Command where
  | none
  | place (kind : CallKind) (target : Target) (pattern : String) (payload : Json)
      (timeout : Option Nat)
  -- A call on the line of a given number, through the given layers.
  | placeOn (layers : Layers) (line : Nat) (context : Context) (pattern : String) (payload : Json)
  | broadcast (pattern : String) (payload : Json) (timeout : Option Nat)
  | probe (timeout : Nat)
  | close
  | targets
  | wiring
  -- How many permits are free.
  | free
  | setReady
  | trigger
  | phase
  -- Counts a request by hand, under a name.
  | hold (name : String)
  | letGo (name : String) (after : Option Nat)
  | subscribe (name : String)
  -- What a receiver sees.
  | look (name : String)
  | unsubscribe (name : String)
  | drain (limit : Nat)
  | request (r : Except Http.RequestFault Http.Request)
  | sweep (longest : Nat)
  -- How many windows are kept.
  | tracked
  | stop (limit : Nat)

/-- How something that was started stands. -/
inductive Progress where
  | running (errand : Errand)
  | ended (outcome : Upshot)
  | givenUp
  | taken

/-- Something that was started. -/
structure Activity where
  name : Option String
  progress : Progress

/-- The gateway on its clock. -/
structure Rehearsal where
  board : Switchboard
  api : Api
  -- The layers around the interface, if it is reached over the network.
  envelope : Option Envelope := none
  -- The stage of the server, if it is one that is served from its own sockets.
  stage : Option Server.Stage := none
  -- What the server said, latest first.
  said : List (Server.Level × String) := []
  -- The time, in milliseconds.
  now : Nat := 0
  -- The next place in the order of timers.
  orders : Nat := 0
  -- How many ids were given to requests.
  visits : Nat := 0
  -- The names of requests that are counted by hand.
  held : List String := []
  receivers : List (String × Receiver) := []
  -- What was started, in order.
  activities : List Activity := []
  -- What is woken and has not run since, in order.
  ready : List Nat := []

namespace Rehearsal

/-! ## Helpers on parts of the gateway -/

/-- The controller of the server's life. -/
def lifecycle (r : Rehearsal) : Lifecycle :=
  r.api.lifecycle

/-- The gateway with another controller. -/
def withLifecycle (r : Rehearsal) (l : Lifecycle) : Rehearsal :=
  { r with api := { r.api with lifecycle := l } }

/-- The activity of a given number. -/
def activity? (r : Rehearsal) (n : Nat) : Option Activity :=
  r.activities[n]?

/-- The errand of an activity that runs. -/
def errand? (r : Rehearsal) (n : Nat) : Option Errand :=
  match r.activity? n with
  | some ⟨_, .running e⟩ => some e
  | _ => none

/-- The gateway with an activity that stands otherwise. -/
def setProgress (r : Rehearsal) (n : Nat) (p : Progress) : Rehearsal :=
  match r.activity? n with
  | some a => { r with activities := r.activities.set n { a with progress := p } }
  | none => r

/-- The last activity of a given name, unless its outcome has been taken. -/
def numberOf? (r : Rehearsal) (name : String) : Option Nat :=
  -- A name may be given again, and then the earlier activity of it is out of reach.
  match r.activities.zipIdx.reverse.find? fun (a, _) => a.name == some name with
  | some (a, n) => if a.progress matches .taken then none else some n
  | none => none

/-- Wakes what runs and fulfils a condition. -/
def wake (r : Rehearsal) (p : Errand → Bool) : Rehearsal :=
  -- What is woken already keeps its place.
  let waiting := (List.range r.activities.length).filter fun n =>
    (r.errand? n).any p && !r.ready.contains n
  { r with ready := r.ready ++ waiting }

/-- Ends one request that was under way, and wakes what waits for the last. -/
def leave (r : Rehearsal) : Rehearsal :=
  let (l, last) := r.lifecycle.leave
  let r := r.withLifecycle l
  if last then r.wake Errand.waitsForIdle else r

/-- Does what the server does in passing to another stage. -/
def act (r : Rehearsal) : Server.Action → Rehearsal
  | .say level message => { r with said := (level, message) :: r.said }
  | .subscribe => r.withLifecycle r.lifecycle.subscribe.1
  | .setReady => r.withLifecycle r.lifecycle.setReady
  | .trigger => r.withLifecycle r.lifecycle.trigger
  | .closeClients => { r with board := r.board.close }

/-- Binds the server to its address, and tells whether the system gave it. -/
def bindAddress (r : Rehearsal) (given : Except IoKind Unit) : Rehearsal × Except IoKind Unit :=
  match r.stage with
  | none => (r, given)
  | some s =>
    let (s, bound) := s.bind given
    ({ r with stage := some s }, bound)

/-- Something occurs to the server. -/
def occur (r : Rehearsal) (o : Server.Occurrence) : Rehearsal :=
  match r.stage with
  | none => r
  | some s =>
    let (s, actions) := s.next o
    actions.foldl act { r with stage := some s }

/-- Whether a request waits for its answer. -/
def hasVisits (r : Rehearsal) : Bool :=
  (List.range r.activities.length).any fun n => (r.errand? n).any Errand.isVisit

/-! ## Errands -/

/-- Settles what is due among the calls of an errand, in order. -/
def landLegs : Rehearsal → List Leg → Rehearsal × List Leg
  | r, [] => (r, [])
  | r, leg :: rest =>
    match leg.state with
    | .settled _ =>
      let (r, rest) := landLegs r rest
      (r, leg :: rest)
    | .flying n =>
      let (board, result) := r.board.land n r.now
      let leg := match result with
        | some result => { leg with state := .settled result }
        | none => leg
      let (r, rest) := landLegs { r with board := board } rest
      (r, leg :: rest)

/-- Gives up the calls of an errand that have not settled. -/
def abandonLegs (r : Rehearsal) (legs : List Leg) : Rehearsal :=
  legs.foldl (fun r leg =>
    match leg.state with
    | .flying n => { r with board := r.board.abandon n }
    | .settled _ => r) r

/-- The outcome of a call that has settled. -/
def Leg.outcome? (leg : Leg) : Option Outcome :=
  match leg.state with
  | .settled result => some ⟨leg.target, result⟩
  | .flying _ => none

/-- The outcomes of calls that have all settled. -/
def outcomes? (legs : List Leg) : Option (List Outcome) :=
  legs.mapM Leg.outcome?

/-- The answer to a request once its calls have all settled. -/
def answer (kind : Upshot) : Http.Response :=
  match kind with
  | .call result => Api.created result
  | .report report => Api.acknowledged report
  | .health report => Api.probed report
  | .response response => response
  | _ => .bare 500

/-- Sends an answer out: the request ends, is counted, and its answer passes the layers around the
    interface. -/
def respond (r : Rehearsal) (visit : Visit) (response : Http.Response) :
    Rehearsal × Http.Response :=
  let request := visit.request
  let r := if visit.counted then r.leave else r
  -- The counter sits inside of the layers, and is past before they see the answer.
  let board := { r.board with
    metrics := r.board.metrics.recordRequest (Http.Route.label (Http.Route.ofPath? request.path))
      request.method response.status }
  let response := match r.envelope with
    | some e => e.deliver request visit.fresh response
    | none => response
  let response := Api.addressed request response
  ({ r with board := board }, if request.isHead then response.headOnly else response)

/-- Gives a request up: its calls are, and it ends without being counted. -/
def withdraw (r : Rehearsal) (legs : List Leg) (visit : Visit) : Rehearsal :=
  let r := r.abandonLegs legs
  if visit.counted then r.leave else r

/-- Whether an answer is too late. -/
def isLate (r : Rehearsal) (visit : Visit) : Bool :=
  match visit.limit with
  | some t => t.due ≤ r.now
  | none => false

/-- Ends the server if its last connection has ended. -/
def finishServing (r : Rehearsal) (limit : Timer) : Rehearsal × (Upshot ⊕ Errand) :=
  if r.hasVisits then (r, .inr (.shutdown limit)) else (r.occur .finished, .inl .silent)

/-- Does what an errand can do now, and tells what comes of it or what is left of it. -/
def work (r : Rehearsal) : Errand → Rehearsal × (Upshot ⊕ Errand)
  | .calls legs purpose none =>
    let (r, legs) := r.landLegs legs
    match outcomes? legs with
    | some os => (r, .inl (purpose.conclude os))
    | none => (r, .inr (.calls legs purpose none))
  | .calls legs purpose (some visit) =>
    -- Being late comes first: what settles at the same time is given up with the rest.
    match r.envelope, r.isLate visit with
    | some e, true =>
      (r.withdraw legs visit, .inl (.response (Api.addressed visit.request (e.late visit.request))))
    | _, _ =>
      let (r, legs) := r.landLegs legs
      match outcomes? legs with
      | some os =>
        let (r, response) := r.respond visit (answer (purpose.conclude os))
        (r, .inl (.response response))
      | none => (r, .inr (.calls legs purpose (some visit)))
  | .letGo name timer =>
    if timer.due ≤ r.now then
      if r.held.contains name then
        let r := { r with held := r.held.erase name }
        let r := r.leave
        (r, .inl (.controller (.flag true) r.lifecycle))
      else (r, .inl (.controller (.flag false) r.lifecycle))
    else (r, .inr (.letGo name timer))
  | .drain limit =>
    -- And here it comes last: what is idle at its limit is idle in time.
    let (l, done) := r.lifecycle.settle
    if done then (r.withLifecycle l, .inl (.controller (.flag true) l))
    else if limit.due ≤ r.now then (r, .inl (.controller (.flag false) r.lifecycle))
    else (r, .inr (.drain limit))
  | .shutdown limit =>
    match r.stage with
    | some .draining =>
      let (l, done) := r.lifecycle.settle
      if done then ((r.withLifecycle l).occur .idle).finishServing limit
      else if limit.due ≤ r.now then (r.occur .overdue, .inl .silent)
      else (r, .inr (.shutdown limit))
    | some .finishing => r.finishServing limit
    | _ => (r, .inl .silent)

/-- Lets an activity work that was woken. -/
def run (r : Rehearsal) (n : Nat) : Rehearsal :=
  match r.errand? n with
  | none => r
  | some errand =>
    match r.work errand with
    | (r, .inl outcome) =>
      let r := r.setProgress n (.ended outcome)
      if errand.isVisit then r.wake Errand.isShutdown else r
    | (r, .inr errand) => r.setProgress n (.running errand)

/-- Lets everything that is woken work, in order, until nothing is. -/
def runReady : Nat → Rehearsal → Rehearsal
  | 0, r => r
  | fuel + 1, r =>
    match r.ready with
    | [] => r
    | n :: rest => runReady fuel (run { r with ready := rest } n)

/-- Lets everything work that is woken. Only the end of a request wakes others, and each activity
    ends once, so the square of their number bounds the rounds. -/
def settle (r : Rehearsal) : Rehearsal :=
  let n := r.activities.length + 1
  runReady (r.ready.length + n * n) r

/-! ## The clock -/

/-- The timers of an errand. -/
def timers (r : Rehearsal) : Errand → List Timer
  | .calls legs _ visit =>
    (visit.bind Visit.limit).toList ++ legs.flatMap fun leg =>
      match leg.state with
      | .flying n => ((r.board.flight? n).map Flight.timers).getD []
      | .settled _ => []
  | .letGo _ timer => [timer]
  | .drain limit => [limit]
  | .shutdown limit => if r.stage = some .draining then [limit] else []

/-- The timers of everything that runs, with the numbers of the activities. -/
def allTimers (r : Rehearsal) : List (Timer × Nat) :=
  (List.range r.activities.length).flatMap fun n =>
    match r.errand? n with
    | some e => (r.timers e).map (·, n)
    | none => []

/-- The next time at which something is due. -/
def nextDue? (r : Rehearsal) : Option Nat :=
  (Timer.first? (r.allTimers.map Prod.fst)).map Timer.due

/-- Wakes what is due now: the activity in front if there is one and it is due, and the others in
    the order in which the timers were set. -/
def ring (r : Rehearsal) (front : Option Nat) : Rehearsal :=
  -- The sorting is stable, and an activity that has two timers due works once.
  let due := (r.allTimers.filter fun e => e.1.due ≤ r.now).mergeSort fun a b =>
    !(b.1.before a.1)
  let (first, others) := (due.map Prod.snd).eraseDups.partition fun n => front == some n
  { r with ready := r.ready ++ first ++ others }

/-- Moves the clock to the next time at which something is due, unless that is after a limit. -/
def tick? (r : Rehearsal) (front limit : Option Nat) : Option Rehearsal :=
  match r.nextDue? with
  | none => none
  | some t =>
    if limit.any (· < t) then none else some (({ r with now := max r.now t }).ring front).settle

/-- Moves the clock until nothing is due up to a time. Every move uses timers up, and none are set
    meanwhile, so their number bounds the moves. -/
def tickUntil : Nat → Nat → Rehearsal → Rehearsal
  | 0, _, r => r
  | fuel + 1, t, r =>
    match r.tick? none (some t) with
    | none => r
    | some r => tickUntil fuel t r

/-- Moves the clock by so many milliseconds. -/
def advance (r : Rehearsal) (ms : Nat) : Rehearsal :=
  let t := r.now + ms
  { tickUntil (r.allTimers.length + 1) t r with now := t }

/-- Moves the clock until an activity has ended. -/
def awaitFor (front : Option Nat) : Nat → Nat → Rehearsal → Rehearsal
  | 0, _, r => r
  | fuel + 1, n, r =>
    match r.errand? n with
    | none => r
    | some _ =>
      match r.tick? front none with
      | none => r
      | some r => awaitFor front fuel n r

/-- Waits for an activity, moving the clock, and takes its outcome. -/
def await (r : Rehearsal) (front : Option Nat) (n : Nat) : Rehearsal × Upshot :=
  let r := awaitFor front (r.allTimers.length + 1) n r
  match r.activity? n with
  | some ⟨_, .ended outcome⟩ => (r.setProgress n .taken, outcome)
  | some ⟨_, .givenUp⟩ => (r.setProgress n .taken, .cancelled)
  | _ => (r, .unknown)

/-- Gives an activity up: its calls are given up, and a request of it ends. -/
def giveUp (r : Rehearsal) (n : Nat) : Rehearsal :=
  match r.errand? n with
  | none => r
  | some errand =>
    let r := match errand with
      | .calls legs _ none => r.abandonLegs legs
      | .calls legs _ (some visit) => r.withdraw legs visit
      | _ => r
    let r := r.setProgress n .givenUp
    (if errand.isVisit then r.wake Errand.isShutdown else r).settle

/-! ## Commands -/

/-- Places a call to a target. -/
def place (r : Rehearsal) (kind : CallKind) (target : Target) (pattern : String) (payload : Json)
    (timeout : Nat) : Rehearsal × Leg :=
  let (board, placed) := r.board.place target kind pattern payload timeout r.now r.orders
  ({ r with board := board, orders := r.orders + 2 }, ⟨target, placed⟩)

/-- Places a call to each of some targets, in order. -/
def placeAll (kind : CallKind) (pattern : String) (payload : Json) (timeout : Nat) :
    Rehearsal → List Target → Rehearsal × List Leg
  | r, [] => (r, [])
  | r, t :: rest =>
    let (r, leg) := r.place kind t pattern payload timeout
    let (r, legs) := placeAll kind pattern payload timeout r rest
    (r, leg :: legs)

/-- Places the calls of an inquiry. -/
def inquire (r : Rehearsal) (inquiry : Inquiry) : Rehearsal × List Leg × Purpose :=
  match inquiry with
  | .send target pattern payload =>
    let (r, leg) := r.place .request target pattern payload r.board.defaultTimeout
    (r, [leg], .single)
  | .broadcast pattern payload =>
    let (r, legs) := placeAll .event pattern payload r.board.defaultTimeout r r.board.targets
    (r, legs, .broadcast)
  | .probe timeout =>
    let (r, legs) := placeAll .request HealthReport.pattern HealthReport.payload timeout r
      r.board.targets
    (r, legs, .probe)

/-- Sets a timer. -/
def timer (r : Rehearsal) (ms : Nat) : Rehearsal × Timer :=
  ({ r with orders := r.orders + 1 }, ⟨r.now + ms, r.orders⟩)

/-- Ends what an operation on the controller shows with the controller after it. -/
def shows (r : Rehearsal) (shown : Shown) : Rehearsal × (Upshot ⊕ Errand) :=
  (r, .inl (.controller shown r.lifecycle))

/-- Receives a request. -/
def visit (r : Rehearsal) (request : Http.Request) : Rehearsal × (Upshot ⊕ Errand) :=
  let fresh := r.visits
  let r := { r with visits := r.visits + 1 }
  -- Whoever asks what is allowed is answered by the layers, without a timer and uncounted.
  match r.envelope.bind (·.preflight? request) with
  | some response => (r, .inl (.response (Api.addressed request response)))
  | none =>
    let (r, limit) := match r.envelope with
      | some e =>
        let (r, t) := r.timer e.timeout
        (r, some t)
      | none => (r, none)
    let visit : Visit := ⟨request, Uuid.numbered fresh, false, limit⟩
    -- If there is no time at all, the request is late before the interface has seen it.
    match r.envelope, r.isLate visit with
    | some e, true => (r, .inl (.response (Api.addressed request (e.late request))))
    | _, _ =>
      let (api, reception, counted) :=
        r.api.receive r.now r.board.targets r.board.metrics.exposition request
      let r := { r with api := api }
      let visit := { visit with counted := counted }
      match reception with
      | .error response =>
        let (r, response) := r.respond visit response
        (r, .inl (.response response))
      | .ok inquiry =>
        let (r, legs, purpose) := r.inquire inquiry
        r.work (.calls legs purpose (some visit))

/-- Starts a command, and tells what comes of it at once or what there is left to do. -/
def start (r : Rehearsal) : Command → Rehearsal × (Upshot ⊕ Errand)
  | .none => (r, .inl .silent)
  | .place kind target pattern payload timeout =>
    let (r, leg) := r.place kind target pattern payload (timeout.getD r.board.defaultTimeout)
    r.work (.calls [leg] .single none)
  | .placeOn layers line context pattern payload =>
    let (board, placed) := r.board.placeOn layers line ⟨context, pattern, payload⟩ r.now r.orders
    let r := { r with board := board, orders := r.orders + 2 }
    r.work (.calls [⟨context.target, placed⟩] .single none)
  | .broadcast pattern payload timeout =>
    let (r, legs) := placeAll .event pattern payload (timeout.getD r.board.defaultTimeout) r
      r.board.targets
    r.work (.calls legs .broadcast none)
  | .probe timeout =>
    let (r, legs) := placeAll .request HealthReport.pattern HealthReport.payload timeout r
      r.board.targets
    r.work (.calls legs .probe none)
  | .close => ({ r with board := r.board.close }, .inl .silent)
  | .targets => (r, .inl (.targets r.board.targets))
  | .wiring => (r, .inl (.wiring r.board.targets r.board.defaultTimeout))
  | .free => (r, .inl (.number r.board.permits.free))
  | .setReady => (r.withLifecycle r.lifecycle.setReady).shows .nothing
  | .trigger => (r.withLifecycle r.lifecycle.trigger).shows .nothing
  | .phase => r.shows .nothing
  | .hold name =>
    -- Of two holds under one name the earlier one ends, once the later one is counted.
    let r := r.withLifecycle r.lifecycle.enter
    let r := if r.held.contains name then r.leave else { r with held := name :: r.held }
    r.shows .nothing
  | .letGo name after =>
    match after with
    | none => r.work (.letGo name ⟨r.now, r.orders⟩)
    | some ms =>
      let (r, t) := r.timer ms
      r.work (.letGo name t)
  | .subscribe name =>
    -- Likewise a receiver takes the place of an earlier one of its name, which stops listening.
    let (l, receiver) := r.lifecycle.subscribe
    let l := if (r.receivers.lookup name).isSome then l.unsubscribe else l
    let kept := r.receivers.filter fun e => e.1 != name
    ({ r.withLifecycle l with receivers := (name, receiver) :: kept }).shows .nothing
  | .look name =>
    match r.receivers.lookup name with
    | some receiver =>
      r.shows (.signal r.lifecycle.signal.raised (r.lifecycle.hasChanged receiver))
    | none => r.shows .nothing
  | .unsubscribe name =>
    if (r.receivers.lookup name).isSome then
      ({ r.withLifecycle r.lifecycle.unsubscribe with
        receivers := r.receivers.filter fun e => e.1 != name }).shows (.flag true)
    else r.shows (.flag false)
  | .drain limit =>
    let (r, t) := r.timer limit
    r.work (.drain t)
  | .request (.error fault) => (r, .inl (.unsendable fault))
  | .request (.ok request) =>
    match r.stage with
    | none => r.visit request
    | some s => if s.listens then r.visit request.arrived else (r, .inl .refused)
  | .sweep longest =>
    let (limiter, removed) := r.api.limiter.sweep r.now longest
    ({ r with api := { r.api with limiter := limiter } }, .inl (.number removed))
  | .tracked => (r, .inl (.number r.api.limiter.tracked))
  | .stop limit =>
    let (r, t) := (r.occur .stop).timer limit
    r.work (.shutdown t)

/-- Starts a command as an activity. -/
def launch (r : Rehearsal) (name : Option String) (c : Command) : Rehearsal :=
  let (r, what) := r.start c
  let progress := match what with
    | .inl outcome => Progress.ended outcome
    | .inr errand => .running errand
  ({ r with activities := r.activities ++ [(⟨name, progress⟩ : Activity)] }).settle

end Rehearsal

/-- One step of a rehearsal. -/
inductive Step where
  -- Does something and waits for what comes of it.
  | perform (c : Command)
  | background (name : String) (c : Command)
  | advance (ms : Nat)
  | join (name : String)
  | poll (name : String)
  | abort (name : String)
  | metrics
  | stop (limit : Nat)

namespace Rehearsal

/-- Does one step and tells what comes of it. -/
def step (r : Rehearsal) : Step → Rehearsal × Upshot
  | .perform c =>
    let n := r.activities.length
    (r.launch none c).await (some n) n
  | .background name c => (r.launch (some name) c, .silent)
  | .advance ms => (r.advance ms, .silent)
  | .join name =>
    match r.numberOf? name with
    | some n => r.await none n
    | none => (r, .unknown)
  | .poll name =>
    match r.numberOf? name with
    | some n => (r, .flag (r.errand? n).isNone)
    | none => (r, .silent)
  | .abort name =>
    match r.numberOf? name with
    | some n => (r.giveUp n, .silent)
    | none => (r, .silent)
  | .metrics => (r, .exposition r.board.metrics.exposition)
  | .stop limit =>
    let n := r.activities.length
    let r := r.launch none (.stop limit)
    -- A server that has requests under way drains while the rehearsal goes on.
    if r.stage = some .draining then (r, .silent) else r.await none n

/-- Ends the server, unless it is ending already, and waits for its end. -/
def conclude (r : Rehearsal) (limit : Nat) : Rehearsal :=
  let r := if r.stage = some .serving then r.launch none (.stop limit) else r
  match (List.range r.activities.length).find? fun n => (r.errand? n).any Errand.isShutdown with
  | some n => (r.await none n).1
  | none => r

end Rehearsal

end Gateway
