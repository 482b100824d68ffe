import Nearby.Config
import Nearby.Scan.Fetch

/-!
# The scan pipeline

One driver owns the pipeline: whether it scans, which peers wait to be fetched, and the one fetch in
flight. Everything reaches it as a message in one of two mailboxes: commands from the engine and
reports from fetches in the one, sightings in the other. Only the driver starts a fetch, and only
when none is in flight, so there is never more than one link.

The driver works on one message at a time, but it may have to wait for the radio on the way: for a
scan to start or stop, or for a link to close. `Control` says what it waits for and how it goes on.
Meanwhile messages pile up, and the fetch, the cache and the subscribers go their own ways.

A `Move` is anything that can happen to a pipeline, and `Pipeline.move` what comes of it. A schedule
is a list of moves; nothing is assumed about their order.

Stopping the pipeline starts a new epoch, so that what a cancelled fetch reported before is told
apart from the reports of the present one.
-/

namespace Nearby.Scan

/-- Identifies a caller that waits until a command was carried out. -/
abbrev Ticket := Nat

/-- A peer to fetch from, with the stamp it announced. -/
structure Pending where
  peer : RadioId
  stamp : Stamp
  deriving DecidableEq

/-- What the pipeline has counted. -/
structure Counters where
  /-- Sightings with a well-formed stamp. -/
  sightings : Nat
  /-- Sightings whose stamp was cached. -/
  sightingsKnown : Nat
  /-- Sightings of a peer that was to be fetched anyway. -/
  sightingsDeduped : Nat
  fetchesStarted : Nat
  fetchesSucceeded : Nat
  fetchesFailed : Nat
  /-- Failed fetches that took too long. -/
  fetchesTimedOut : Nat
  fetchesCancelled : Nat
  deriving DecidableEq, Repr, Inhabited

/-- What the pipeline tells about itself. -/
structure Status where
  active : Bool
  scanning : Bool
  phase : Phase
  inFlight : Option RadioId
  queued : Nat
  counters : Counters
  deriving DecidableEq, Repr, Inhabited

/-- The status of a pipeline that has not done anything. -/
def Status.initial : Status := ⟨false, false, .idle, none, 0, ⟨0, 0, 0, 0, 0, 0, 0, 0⟩⟩

/-- A message in the first mailbox. -/
inductive Command
  /-- Scan if anyone is subscribed, and stop if not. -/
  | sync (ticket : Ticket)
  /-- Stop for good. -/
  | shutdown (ticket : Ticket)
  /-- A fetch reports. -/
  | report (fetch : FetchId) (epoch : Nat) (report : Report)

/-- The command that has the pipeline stop. -/
inductive Halt
  | sync (ticket : Ticket)
  | shutdown (ticket : Ticket)
  deriving DecidableEq, Repr

/-- How the driver goes on once scanning has stopped. -/
inductive AfterPause
  | halt (halt : Halt)
  | launch (pending : Pending)
  deriving DecidableEq

/-- How the driver goes on once a link is closed. -/
inductive AfterClose
  | halt (halt : Halt)
  | settle (pending : Pending) (outcome : Outcome)

/-- What the driver waits for. -/
inductive Control
  /-- The next message. -/
  | waiting
  /-- The radio starts to scan, for a caller or on the driver's own account. -/
  | starting (ticket : Option Ticket)
  /-- The radio stops scanning. -/
  | stopping (next : AfterPause)
  /-- The link to a peer is closed. -/
  | closing (peer : RadioId) (next : AfterClose)
  /-- Nothing any more. -/
  | exited

/-- The fetch in flight. -/
structure InFlight where
  pending : Pending
  fetch : FetchId
  deriving DecidableEq

/-- The pipeline: the driver with its mailboxes, and the fetches it has started. -/
structure Pipeline where
  active : Bool
  scanning : Bool
  phase : Phase
  queue : List Pending
  inFlight : Option InFlight
  epoch : Nat
  counters : Counters
  control : Control
  /-- Commands and reports, oldest first. -/
  commands : List Command
  /-- Sightings, oldest first. -/
  sightings : List Sighting
  /-- The fetches that are not over. -/
  fetches : Table FetchId Fetch
  /-- The fetches whose link nobody has begun to close. -/
  links : List FetchId
  nextFetch : FetchId
  /-- The status as of the last message that was dealt with. -/
  published : Status

/-- Who makes a call. -/
inductive Caller
  | driver
  | fetch (id : FetchId)
  deriving DecidableEq, Repr

/-- What a move asks of the world around the pipeline, or tells it. -/
inductive Effect
  | call (caller : Caller) (call : Call)
  /-- A fetch is to begin. -/
  | spawn (id : FetchId)
  /-- A fetch is cancelled: nobody waits for the answer to its call. -/
  | cancel (id : FetchId)
  | event (event : Event)
  | warn (warning : Warning)
  /-- The caller with this ticket need not wait any longer. -/
  | acknowledge (ticket : Ticket)

/-- How an attempt to close a link ends. -/
inductive Closing
  | answered (result : Except RadioError Unit)
  /-- The radio gave no answer in time. -/
  | timedOut

/-- Anything that can happen to a pipeline. -/
inductive Move
  /-- The engine sends a command. -/
  | send (command : Command)
  /-- The radio hears a broadcast. -/
  | hear (sighting : Sighting)
  /-- The driver takes the oldest command. -/
  | takeCommand
  /-- The driver takes the oldest sighting. -/
  | takeSighting
  /-- The radio answers the driver's call to start or stop scanning. -/
  | scanAnswered (result : Except RadioError Unit)
  /-- The attempt to close a link ends. -/
  | closed (closing : Closing)
  /-- A fetch makes its first call. -/
  | fetchBegins (id : FetchId)
  /-- The radio answers the call of a fetch. -/
  | fetchAnswered (id : FetchId) (answer : Answer)
  /-- A fetch has taken too long. -/
  | fetchExpires (id : FetchId)

/-- What comes of a move. -/
structure Step where
  pipeline : Pipeline
  cache : Cache
  effects : List Effect

/-- The step with more effects before its own. -/
def Step.after (effects : List Effect) (s : Step) : Step :=
  { s with effects := effects ++ s.effects }

namespace Pipeline

/-- The pipeline before anyone subscribes. -/
def initial : Pipeline where
  active := false
  scanning := false
  phase := .idle
  queue := []
  inFlight := none
  epoch := 0
  counters := ⟨0, 0, 0, 0, 0, 0, 0, 0⟩
  control := .waiting
  commands := []
  sightings := []
  fetches := ∅
  links := []
  nextFetch := 0
  published := .initial

/-- What the driver would tell about itself now. -/
def status (p : Pipeline) : Status :=
  ⟨p.active, p.scanning, p.phase, p.inFlight.map (·.pending.peer), p.queue.length, p.counters⟩

/-- The driver is through with a message: it publishes its status and turns to the next one. -/
def finish (p : Pipeline) : Pipeline := { p with published := p.status, control := .waiting }

/-- The driver has stopped as it was told. -/
def finishHalt (p : Pipeline) (halt : Halt) (cache : Cache) : Step :=
  match halt with
  | .sync ticket => ⟨p.finish, cache, [.acknowledge ticket]⟩
  | .shutdown ticket => ⟨{ p.finish with control := .exited }, cache, [.acknowledge ticket]⟩

/-- The driver has done what a caller, if any, waits for. -/
def finishStart (p : Pipeline) (ticket : Option Ticket) (cache : Cache) : Step :=
  ⟨p.finish, cache, ticket.toList.map .acknowledge⟩

/-- Begins the fetch from a peer. -/
def launch (p : Pipeline) (pending : Pending) (cache : Cache) : Step :=
  let id := p.nextFetch
  let p := { p with
    counters.fetchesStarted := p.counters.fetchesStarted + 1
    phase := .connecting
    inFlight := some ⟨pending, id⟩
    fetches := p.fetches.insert id (.new pending.peer p.epoch)
    nextFetch := id + 1 }
  ⟨p.finish, cache, [.spawn id]⟩

/-- Goes on once scanning has stopped. -/
def afterPause (p : Pipeline) (next : AfterPause) (cache : Cache) : Step :=
  match next with
  | .halt halt => { p with phase := .idle }.finishHalt halt cache
  | .launch pending => p.launch pending cache

/-- Stops scanning, if it goes on, before going on. -/
def pause (p : Pipeline) (next : AfterPause) (cache : Cache) : Step :=
  if p.scanning then
    ⟨{ p with scanning := false, control := .stopping next }, cache, [.call .driver .stopScan]⟩
  else p.afterPause next cache

/-- Starts scanning, unless it goes on already. -/
def resume (p : Pipeline) (config : Config) (ticket : Option Ticket) (cache : Cache) : Step :=
  if p.scanning then p.finishStart ticket cache
  else
    ⟨{ p with control := .starting ticket }, cache,
      [.call .driver (.startScan config.manufacturerId)]⟩

/-- Turns to the next peer in the queue, or back to scanning. Nothing is done while a fetch is in
flight. -/
def advance (p : Pipeline) (config : Config) (cache : Cache) : Step :=
  if p.inFlight.isSome || !p.active then ⟨p.finish, cache, []⟩
  else
    match p.queue with
    | [] => { p with phase := .scanning }.resume config none cache
    | pending :: queue =>
      let p := { p with queue }
      if config.pauseScanDuringFetch then p.pause (.launch pending) cache
      else p.launch pending cache

/-- Closes the link of a fetch that is over before going on. A fetch that was abandoned while it
tried to connect has no link yet; the attempt is taken back instead. -/
def close (p : Pipeline) (fetch : InFlight) (abandoned : Bool) (next : AfterClose)
    (otherwise : Pipeline → Step) (cache : Cache) : Step :=
  let peer := fetch.pending.peer
  if fetch.fetch ∈ p.links then
    ⟨{ p with links := p.links.erase fetch.fetch, control := .closing peer next }, cache,
      [.call .driver (.disconnect fetch.fetch)]⟩
  else if abandoned then
    ⟨{ p with control := .closing peer next }, cache, [.call .driver (.cancelConnect peer)]⟩
  else otherwise p

/-! ### Starting and stopping -/

/-- Starts to scan for subscribers. -/
def activate (p : Pipeline) (config : Config) (ticket : Ticket) (cache : Cache) : Step :=
  if p.active then p.finishStart (some ticket) cache
  else { p with active := true, phase := .scanning }.resume config (some ticket) cache

/-- Stops everything: the queue is dropped, the fetch in flight cancelled and its link closed. -/
def deactivate (p : Pipeline) (halt : Halt) (cache : Cache) : Step :=
  if !p.active && p.inFlight.isNone then p.finishHalt halt cache
  else
    let p := { p with active := false, epoch := p.epoch + 1, queue := [] }
    match p.inFlight with
    | none => p.pause (.halt halt) cache
    | some fetch =>
      let p := { p with inFlight := none, fetches := p.fetches.erase fetch.fetch }
      (p.close fetch true (.halt halt) (fun p => p.pause (.halt halt) cache) cache).after
        [.cancel fetch.fetch]

/-! ### Fetches -/

/-- Takes note of what a fetch came to, once its link is closed. -/
def settle (p : Pipeline) (config : Config) (now : Timestamp) (pending : Pending)
    (outcome : Outcome) (cache : Cache) : Step :=
  match outcome with
  | .ok readings =>
    let (ads, warnings) := decodeReadings pending.peer readings
    let update := cache.fetched now pending.stamp pending.peer ads
    let p := { p with counters.fetchesSucceeded := p.counters.fetchesSucceeded + 1 }
    (p.advance config update.cache).after (warnings.map .warn ++ update.events.map .event)
  | .error e =>
    let timedOut := match e with
      | .timeout _ => 1
      | _ => 0
    let p := { p with
      counters.fetchesFailed := p.counters.fetchesFailed + 1
      counters.fetchesTimedOut := p.counters.fetchesTimedOut + timedOut }
    let update := cache.fetchFailed pending.peer
    (p.advance config update.cache).after [.warn (.fetchFailed pending.peer e)]

/-- Deals with the end of the present fetch. -/
def fetchFinished (p : Pipeline) (config : Config) (now : Timestamp) (outcome : Outcome)
    (cache : Cache) : Step :=
  match p.inFlight with
  | none => ⟨p.finish, cache, []⟩
  | some fetch =>
    let timedOut := match outcome with
      | .error (.timeout _) => true
      | _ => false
    { p with inFlight := none }.close fetch timedOut (.settle fetch.pending outcome)
      (fun p => p.settle config now fetch.pending outcome cache) cache

/-- Deals with a report. Reports from before the last stop are dropped. -/
def onReport (p : Pipeline) (config : Config) (now : Timestamp) (epoch : Nat) (report : Report)
    (cache : Cache) : Step :=
  if epoch ≠ p.epoch then ⟨p.finish, cache, []⟩
  else
    match report with
    | .phase phase =>
      let p := if p.inFlight.isSome then { p with phase } else p
      ⟨p.finish, cache, []⟩
    | .finished outcome => p.fetchFinished config now outcome cache

/-! ### Sightings -/

/-- Takes note that a queued peer announces another stamp by now. -/
def restamp (peer : RadioId) (stamp : Stamp) : List Pending → List Pending
  | [] => []
  | pending :: rest =>
    if pending.peer = peer then { pending with stamp } :: rest
    else pending :: restamp peer stamp rest

/-- Deals with a sighting: a stamp that is cached needs no fetch, a peer that is to be fetched anyway
is not queued twice, and what it announced last is what counts. -/
def onSighting (p : Pipeline) (config : Config) (now : Timestamp) (sighting : Sighting)
    (cache : Cache) : Step :=
  if !p.active then ⟨p.finish, cache, []⟩
  else
    match sighting.stamp? with
    | none => ⟨p.finish, cache, []⟩
    | some stamp =>
      let p := { p with counters.sightings := p.counters.sightings + 1 }
      let seen := cache.haveSeen now stamp sighting.peer
      let deduped := { p with counters.sightingsDeduped := p.counters.sightingsDeduped + 1 }
      let step : Step :=
        if seen.value then
          ⟨{ p with counters.sightingsKnown := p.counters.sightingsKnown + 1 }.finish,
            seen.cache, []⟩
        else if (p.inFlight.map fun f => f.pending.peer) = some sighting.peer then
          ⟨deduped.finish, seen.cache, []⟩
        else if p.queue.any (·.peer = sighting.peer) then
          ⟨{ deduped with queue := restamp sighting.peer stamp p.queue }.finish, seen.cache, []⟩
        else
          let pending : Pending := ⟨sighting.peer, stamp⟩
          { p with queue := p.queue ++ [pending] }.advance config seen.cache
      step.after (seen.events.map .event)

/-! ### Moves -/

/-- Deals with a command. -/
def onCommand (p : Pipeline) (config : Config) (now : Timestamp) (command : Command)
    (cache : Cache) : Step :=
  match command with
  | .sync ticket =>
    if cache.subscriptions.isEmpty then p.deactivate (.sync ticket) cache
    else p.activate config ticket cache
  | .shutdown ticket => p.deactivate (.shutdown ticket) cache
  | .report _ epoch report => p.onReport config now epoch report cache

/-- Goes on after the answer to a call to start or stop scanning. -/
def onScanAnswered (p : Pipeline) (result : Except RadioError Unit) (cache : Cache) : Step :=
  match p.control with
  | .starting ticket =>
    match result with
    | .ok () => { p with scanning := true }.finishStart ticket cache
    | .error e => (p.finishStart ticket cache).after [.warn (.scanNotStarted e)]
  | .stopping next =>
    match result with
    | .ok () => p.afterPause next cache
    | .error e => (p.afterPause next cache).after [.warn (.scanNotStopped e)]
  | _ => ⟨p, cache, []⟩

/-- Goes on after an attempt to close a link, whether or not it succeeded. -/
def onClosed (p : Pipeline) (config : Config) (now : Timestamp) (closing : Closing)
    (cache : Cache) : Step :=
  match p.control with
  | .closing peer next =>
    let warnings : List Effect := match closing with
      | .timedOut => [.warn (.disconnectTimedOut peer)]
      | .answered _ => []
    match next with
    | .halt halt =>
      ({ p with counters.fetchesCancelled := p.counters.fetchesCancelled + 1 }.pause (.halt halt)
        cache).after warnings
    | .settle pending outcome => (p.settle config now pending outcome cache).after warnings
  | _ => ⟨p, cache, []⟩

/-- Carries out the turn of a fetch. -/
def applyTurn (p : Pipeline) (id : FetchId) (epoch : Nat) (turn : Fetch.Turn) (cache : Cache) :
    Step :=
  let p := { p with
    commands := p.commands ++ turn.reports.map (Command.report id epoch)
    links := if turn.linked then p.links ++ [id] else p.links }
  let warnings := turn.warnings.map Effect.warn
  match turn.next with
  | none => ⟨{ p with fetches := p.fetches.erase id }, cache, warnings⟩
  | some (fetch, call) =>
    ⟨{ p with fetches := p.fetches.insert id fetch }, cache, warnings ++ [.call (.fetch id) call]⟩

/-- What comes of a move. A move that is not possible at present changes nothing. -/
def move (p : Pipeline) (config : Config) (now : Timestamp) (cache : Cache) : Move → Step
  | .send command => ⟨{ p with commands := p.commands ++ [command] }, cache, []⟩
  | .hear sighting => ⟨{ p with sightings := p.sightings ++ [sighting] }, cache, []⟩
  | .takeCommand =>
    match p.control, p.commands with
    | .waiting, command :: commands =>
      { p with commands }.onCommand config now command cache
    | _, _ => ⟨p, cache, []⟩
  | .takeSighting =>
    match p.control, p.sightings with
    | .waiting, sighting :: sightings =>
      { p with sightings }.onSighting config now sighting cache
    | _, _ => ⟨p, cache, []⟩
  | .scanAnswered result => p.onScanAnswered result cache
  | .closed closing => p.onClosed config now closing cache
  | .fetchBegins id =>
    match p.fetches.get? id with
    | some fetch =>
      if fetch.stage = .ready then p.applyTurn id fetch.epoch (fetch.begin id) cache
      else ⟨p, cache, []⟩
    | none => ⟨p, cache, []⟩
  | .fetchAnswered id answer =>
    match p.fetches.get? id with
    | some fetch =>
      match fetch.resume id answer with
      | some turn => p.applyTurn id fetch.epoch turn cache
      | none => ⟨p, cache, []⟩
    | none => ⟨p, cache, []⟩
  | .fetchExpires id =>
    match p.fetches.get? id with
    | some fetch =>
      p.applyTurn id fetch.epoch
        (Fetch.finished (.error (.timeout (UInt64.ofNat config.fetchTimeout.toMillis))) []) cache
    | none => ⟨p, cache, []⟩

end Pipeline

end Nearby.Scan
