import Nearby.Engine

/-!
# Running an engine against a simulated radio

Engine, fetches and radio are a set of moves that may happen in any order. This module fixes one
order, in virtual time: it runs an engine against a radio that is a data structure.

Time stands still while anything can be done. The processes that can go on wait in line; the first
goes on until it has to wait for something, and whatever it sets off joins the line at its end. When
nobody can go on, time moves to the next timer, and the processes whose timers are due join the line
in the order in which the timers were set.

A call that is answered at once does not make its process wait. An answer that comes just at the
deadline of its process still counts.
-/

namespace Nearby

/-- A radio with state `ρ`. -/
structure SimulatedRadio (ρ : Type) where
  /-- Takes a call, and tells the milliseconds until its answer; none if there never is one. -/
  accept : Call → ρ → Option Nat × ρ
  /-- Gives the answer to a call, once its time has come. -/
  answer : Call → ρ → Answer × List Warning × ρ
  /-- The next sighting to deliver, if there is one. -/
  hear : ρ → Option Sighting × ρ
  /-- True if there may be something to hear. -/
  isListening : ρ → Bool

/-- Where the cache takes its time from. -/
inductive Clock
  /-- The virtual time of the schedule. -/
  | virtual
  /-- A clock that does not move with virtual time. -/
  | wall
  deriving DecidableEq, Repr

namespace Schedule

/-- Something that goes its own way. -/
inductive Process
  /-- The driver of the scan pipeline. -/
  | scanDriver
  | fetch (id : FetchId)
  /-- The driver of the publisher. -/
  | publisher
  | sweeper
  /-- Hands sightings from the radio to the pipeline. -/
  | listener
  deriving DecidableEq, Repr

/-- A call that was made and not answered yet. -/
structure Outstanding where
  call : Call
  /-- When the answer comes, if it ever does. -/
  ready : Option Nat
  /-- When the caller stops waiting, if it ever does. -/
  deadline : Option Nat

/-- A process is to join the line at some time. -/
structure Timer where
  due : Nat
  process : Process

/-- The time a link may take to close, in milliseconds. -/
def closeTimeout : Nat := 5000

/-- Milliseconds, rounded up, of a number of nanoseconds. -/
def ceilMillis (nanos : Nat) : Nat := (nanos + 999999) / 1000000

/-- True if a time, if there is one, has come. -/
def isDue (time : Option Nat) (now : Nat) : Bool := time.any (· ≤ now)

end Schedule

/-- An engine and a radio at some moment of virtual time. -/
structure Schedule (ρ : Type) where
  radio : SimulatedRadio ρ
  world : ρ
  engine : Engine
  clock : Clock
  /-- The virtual time in milliseconds. -/
  now : Nat
  /-- The timers, in the order in which they were set. -/
  timers : List Schedule.Timer
  /-- The processes that can go on, in line. -/
  line : List Schedule.Process
  scanCall : Option Schedule.Outstanding
  publisherCall : Option Schedule.Outstanding
  fetchCalls : Table FetchId Schedule.Outstanding
  /-- When each fetch has taken too long. -/
  fetchDeadlines : Table FetchId Nat
  /-- When the cache is swept next, in nanoseconds. -/
  nextSweep : Nat
  /-- The events so far, with their times. -/
  events : Array (Nat × Event)
  /-- The warnings so far. -/
  warnings : Array Warning

namespace Schedule

variable {ρ : Type}

/-- What the cache's clock shows. -/
def timestamp (s : Schedule ρ) : Timestamp :=
  match s.clock with
  | .virtual => ⟨UInt64.ofNat s.now⟩
  | .wall => ⟨0⟩

/-- Has a process join the line, unless it waits there already. -/
def wake (s : Schedule ρ) (process : Process) : Schedule ρ :=
  if process ∈ s.line then s else { s with line := s.line ++ [process] }

/-- Sets a timer, if it is due at all, and not yet. -/
def setTimer (s : Schedule ρ) (due : Option Nat) (process : Process) : Schedule ρ :=
  match due with
  | none => s
  | some due => if due ≤ s.now then s else { s with timers := s.timers ++ [⟨due, process⟩] }

/-- Notes warnings. -/
def warn (s : Schedule ρ) (warnings : List Warning) : Schedule ρ :=
  { s with warnings := s.warnings ++ warnings.toArray }

/-- Makes a call for a process that waits for the answer, at most until a deadline. -/
def makeCall (s : Schedule ρ) (process : Process) (call : Call) (deadline : Option Nat) :
    Schedule ρ × Outstanding :=
  let (delay, world) := s.radio.accept call s.world
  let ready := delay.map (s.now + ·)
  let s := ({ s with world }.setTimer ready process).setTimer deadline process
  (s, ⟨call, ready, deadline⟩)

/-- The time by which the scan driver gives up on a call. -/
def scanDeadline (s : Schedule ρ) : Call → Option Nat
  | .disconnect _ => some (s.now + closeTimeout)
  | .cancelConnect _ => some (s.now + closeTimeout)
  | _ => none

/-- Carries out an effect. -/
def perform (s : Schedule ρ) : Engine.Effect → Schedule ρ
  | .scan (.call .driver call) =>
    let (s, outstanding) := s.makeCall .scanDriver call (s.scanDeadline call)
    { s with scanCall := some outstanding }
  | .scan (.call (.fetch id) call) =>
    let (s, outstanding) := s.makeCall (.fetch id) call none
    { s with fetchCalls := s.fetchCalls.insert id outstanding }
  | .scan (.spawn id) => s.wake (.fetch id)
  | .scan (.cancel id) =>
    { s with fetchCalls := s.fetchCalls.erase id, fetchDeadlines := s.fetchDeadlines.erase id }
  | .scan (.event event) => { s with events := s.events.push (s.now, event) }
  | .scan (.warn warning) => s.warn [warning]
  | .scan (.acknowledge _) => s
  | .publish (.call call) =>
    let (s, outstanding) := s.makeCall .publisher call none
    { s with publisherCall := some outstanding }
  | .publish (.warn warning) => s.warn [warning]

/-- True if the driver of the pipeline waits for messages and there are some. -/
def hasMessages (s : Schedule ρ) : Bool :=
  let p := s.engine.pipeline
  match p.control with
  | .waiting => !(p.commands.isEmpty && p.sightings.isEmpty)
  | _ => false

/-- True if the publisher's driver waits for a change and there is one. -/
def hasChanges (s : Schedule ρ) : Bool :=
  s.engine.publishing && s.engine.publisher.unseen && s.publisherCall.isNone

/-- Has the processes that have something new to do join the line. A driver in the middle of a call
is not disturbed. -/
def wakeAll (s : Schedule ρ) : Schedule ρ :=
  let s := if s.hasMessages then s.wake .scanDriver else s
  let s := if s.hasChanges then s.wake .publisher else s
  if s.radio.isListening s.world then s.wake .listener else s

/-- Carries on with an engine that has moved. -/
def follow (s : Schedule ρ) (moved : Engine × List Engine.Effect) : Schedule ρ :=
  (moved.2.foldl perform { s with engine := moved.1 }).wakeAll

/-- A move of the scan pipeline. -/
def scan (s : Schedule ρ) (move : Scan.Move) : Schedule ρ :=
  s.follow (s.engine.moveScan s.timestamp move)

/-- A move of the publisher's driver. -/
def publish (s : Schedule ρ) (move : Publisher.Move) : Schedule ρ :=
  s.follow (s.engine.movePublisher move)

/-- The result of a call that gives nothing back. -/
def resultOf : Answer → Except RadioError Unit
  | .done result => result
  | .services result => result.map fun _ => ()
  | .value result => result.map fun _ => ()

/-- Takes the answer to a call from the radio. -/
def takeAnswer (s : Schedule ρ) (call : Call) : Schedule ρ × Answer :=
  let (answer, warnings, world) := s.radio.answer call s.world
  ({ s with world }.warn warnings, answer)

/-! ### Processes -/

/-- The scan driver goes on. -/
def pollScanDriver (s : Schedule ρ) : Option (Schedule ρ) :=
  let p := s.engine.pipeline
  match p.control with
  | .exited => none
  | .waiting =>
    if !p.commands.isEmpty then some (s.scan .takeCommand)
    else if !p.sightings.isEmpty then some (s.scan .takeSighting)
    else none
  | .starting _ | .stopping _ =>
    match s.scanCall with
    | none => none
    | some outstanding =>
      if isDue outstanding.ready s.now then
        let (s, answer) := { s with scanCall := none }.takeAnswer outstanding.call
        some (s.scan (.scanAnswered (resultOf answer)))
      else none
  | .closing _ _ =>
    match s.scanCall with
    | none => none
    | some outstanding =>
      if isDue outstanding.ready s.now then
        let (s, answer) := { s with scanCall := none }.takeAnswer outstanding.call
        some (s.scan (.closed (.answered (resultOf answer))))
      else if isDue outstanding.deadline s.now then
        some ({ s with scanCall := none }.scan (.closed .timedOut))
      else none

/-- A fetch goes on. -/
def pollFetch (s : Schedule ρ) (id : FetchId) : Option (Schedule ρ) :=
  if s.engine.pipeline.fetches.contains id then
    match s.fetchCalls.get? id with
    | none =>
      let s := s.scan (.fetchBegins id)
      let deadline := s.now + ceilMillis s.engine.config.fetchTimeout.toNanos
      some ({ s with fetchDeadlines := s.fetchDeadlines.insert id deadline }.setTimer
        (some deadline) (.fetch id))
    | some outstanding =>
      if isDue outstanding.ready s.now then
        let (s, answer) :=
          { s with fetchCalls := s.fetchCalls.erase id }.takeAnswer outstanding.call
        some (s.scan (.fetchAnswered id answer))
      else if isDue (s.fetchDeadlines.get? id) s.now then
        some ({ s with fetchCalls := s.fetchCalls.erase id }.scan (.fetchExpires id))
      else none
  else none

/-- The publisher's driver goes on, unless it was stopped. -/
def pollPublisher (s : Schedule ρ) : Option (Schedule ρ) :=
  if s.engine.publishing then
    match s.publisherCall with
    | some outstanding =>
      if isDue outstanding.ready s.now then
        let (s, answer) := { s with publisherCall := none }.takeAnswer outstanding.call
        some (s.publish (.answered (resultOf answer)))
      else none
    | none => if s.engine.publisher.unseen then some (s.publish .takeDesired) else none
  else none

/-- The time between two sweeps, at least a millisecond, in nanoseconds. -/
def sweepPeriod (s : Schedule ρ) : Nat := max s.engine.config.cache.sweepPeriod.toNanos 1000000

/-- The sweeper goes on: it sweeps when it is time, and sets its timer anew. -/
def pollSweeper (s : Schedule ρ) : Option (Schedule ρ) :=
  if s.engine.sweeping && s.nextSweep ≤ s.now * 1000000 then
    let nextSweep := s.nextSweep + s.sweepPeriod
    let s := s.follow (s.engine.sweep s.timestamp)
    some ({ s with nextSweep }.setTimer (some (ceilMillis nextSweep)) .sweeper)
  else none

/-- The listener hands on one sighting and joins the line again at its end. What the radio hears
without anything to hand on is done with. -/
def pollListener (s : Schedule ρ) : Option (Schedule ρ) :=
  if s.radio.isListening s.world then
    let (heard, world) := s.radio.hear s.world
    let s := { s with world, line := s.line.filter (· ≠ Process.listener) }
    match heard with
    | some sighting => some (s.scan (.hear sighting))
    | none => some s
  else none

/-- A process goes on, if it can. -/
def poll (s : Schedule ρ) : Process → Option (Schedule ρ)
  | .scanDriver => s.pollScanDriver
  | .fetch id => s.pollFetch id
  | .publisher => s.pollPublisher
  | .sweeper => s.pollSweeper
  | .listener => s.pollListener

/-! ### The passing of time -/

/-- Lets the processes in line go on until none can; `fuel` bounds the number of their steps. -/
def settle : (fuel : Nat) → Schedule ρ → Schedule ρ
  | 0, s => s
  | fuel + 1, s =>
    match s.line with
    | [] => s
    | process :: rest =>
      match s.poll process with
      | some s => settle fuel s
      | none => settle fuel { s with line := rest }

/-- The time of the next timer. -/
def nextDue (s : Schedule ρ) : Option Nat :=
  match s.timers with
  | [] => none
  | timer :: rest => some (rest.foldl (fun due t => min due t.due) timer.due)

/-- Moves time to a moment and has the processes whose timers are due join the line. -/
def jump (s : Schedule ρ) (time : Nat) : Schedule ρ :=
  let due := s.timers.filter fun t => t.due ≤ time
  let timers := s.timers.filter fun t => !(t.due ≤ time)
  due.foldl (fun s t => s.wake t.process) { s with now := max s.now time, timers }

/-- The most steps between two moments of a schedule. -/
def settleFuel : Nat := 1000000

/-- Lets everything happen that is due up to a moment; `fuel` bounds the number of moments at which
a timer is due. -/
def runUntil (target : Nat) : (fuel : Nat) → Schedule ρ → Schedule ρ
  | 0, s => s
  | fuel + 1, s =>
    let s := settle settleFuel s
    match s.nextDue with
    | some due => if due ≤ target then runUntil target fuel (s.jump due) else s.jump target
    | none => s.jump target

/-- Lets everything happen that can happen now. -/
def quiesce (s : Schedule ρ) : Schedule ρ := settle settleFuel s

/-- The most moments at which a timer is due while something is waited for. -/
def momentFuel : Nat := 100000000

/-- Lets `millis` milliseconds pass. -/
def advance (s : Schedule ρ) (millis : Nat) : Schedule ρ :=
  (runUntil (s.now + millis) momentFuel s).quiesce

/-! ### Requests -/

/-- Lets time pass until a request is over; there is no result if that never happens. -/
def await : (fuel : Nat) → Schedule ρ → Engine.Waiting → Schedule ρ × Option (Except Engine.Error Unit)
  | 0, s, _ => (s, none)
  | fuel + 1, s, waiting =>
    match waiting with
    | .finished result => (s, some result)
    | waiting =>
      let s := settle settleFuel s
      let (engine, next) := s.engine.proceed waiting
      let s := { s with engine }.wakeAll
      match next with
      | .finished result => (s, some result)
      | next =>
        if s.line.isEmpty then
          match s.nextDue with
          | some due => await fuel (s.jump due) next
          | none => (s, none)
        else await fuel s next

/-- Submits a request. -/
def submit (s : Schedule ρ) (request : Engine.Request) : Schedule ρ × Engine.Waiting :=
  let (engine, waiting, effects) := s.engine.submit request
  (s.follow (engine, effects), waiting)

/-- Submits a request and lets time pass until it is over. -/
def request (s : Schedule ρ) (request : Engine.Request) :
    Schedule ρ × Option (Except Engine.Error Unit) :=
  let (s, waiting) := s.submit request
  let (s, result) := await momentFuel s waiting
  (s.quiesce, result)

/-- Submits several requests one after the other, and then waits for all of them. -/
def requestAll (s : Schedule ρ) (requests : List Engine.Request) :
    Schedule ρ × List (Option (Except Engine.Error Unit)) :=
  let (s, waitings) := requests.foldl (fun (s, waitings) request =>
    let (s, waiting) := s.submit request
    (s, waitings ++ [waiting])) (s, [])
  let (s, results) := waitings.foldl (fun (s, results) waiting =>
    let (s, result) := await momentFuel s waiting
    (s, results ++ [result])) (s, [])
  (s.quiesce, results)

/-- The schedule of an engine that is about to run. -/
def start (radio : SimulatedRadio ρ) (world : ρ) (engine : Engine) (clock : Clock) : Schedule ρ :=
  let s : Schedule ρ :=
    { radio, world, engine, clock
      now := 0, timers := [], line := [], scanCall := none, publisherCall := none
      fetchCalls := ∅, fetchDeadlines := ∅, nextSweep := 0, events := #[], warnings := #[] }
  let s := { s with nextSweep := s.sweepPeriod }
  s.setTimer (some (ceilMillis s.nextSweep)) .sweeper

/-- Takes out the events and warnings noted so far. -/
def drain (s : Schedule ρ) : Schedule ρ × List (Nat × Event) × List Warning :=
  ({ s with events := #[], warnings := #[] }, s.events.toList, s.warnings.toList)

end Schedule

end Nearby
