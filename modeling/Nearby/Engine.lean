import Nearby.Publisher
import Nearby.Scan.Pipeline

/-!
# The discovery engine

The engine joins the cache, the scan pipeline and the publisher. Where there is no radio, it is
disabled: every request then succeeds and does nothing, so an application need not care.

A request changes something at once and may then have to wait: for the pipeline to carry out a
command, or for the publisher to apply a generation. `Engine.submit` does the first part and gives
the `Waiting` that is left; `Engine.proceed` looks whether the wait is over. So requests may overlap
in any way.
-/

namespace Nearby

open Scan (Pipeline Ticket)

/-- What an engine tells about itself. -/
structure Engine.Status where
  enabled : Bool
  /-- Why the engine is disabled, if it is. -/
  disabledReason : Option String
  publisher : Publisher.Status
  scanner : Scan.Status
  cache : Cache.Stats
  deriving DecidableEq, Repr

/-- A discovery engine. -/
structure Engine where
  config : Config
  /-- Why the engine is disabled, if it is. -/
  disabled : Option String
  cache : Cache
  pipeline : Pipeline
  publisher : Publisher
  /-- True as long as the publisher's driver is at work. -/
  publishing : Bool
  /-- True as long as the cache is swept. -/
  sweeping : Bool
  nextTicket : Ticket
  /-- The tickets of the commands that were carried out. -/
  acknowledged : List Ticket

namespace Engine

/-- Why a request is refused. Only mistakes of the caller are; the radio's failures are not. -/
inductive Error
  | publish (error : Publisher.Error)
  | duplicateSubscription
  deriving DecidableEq

/-- The fault in words. -/
def Error.message : Error → String
  | .publish (.encode e) => e.message
  | .publish (.duplicate adId service) =>
    s!"Advertisement {adId.text} is already published as service {service.text}"
  | .duplicateSubscription => "Scan handler is already subscribed"

/-- What a failure to subscribe means to the caller of the engine. -/
def Error.ofSubscribeError : Cache.SubscribeError → Error
  | .duplicate => .duplicateSubscription

/-- A request to the engine. The stamps a request may draw come with it. -/
inductive Request
  | publish (service : Uuid) (ad : Advertisement) (draws : List Stamp)
  | unpublish (service : Uuid) (draws : List Stamp)
  | startScan (wanted : String) (handler : Handler)
  | stopScan (handler : Handler)
  | shutdown

/-- What a request still waits for. -/
inductive Waiting
  | finished (result : Except Error Unit)
  /-- The stamps drawn so far have only repeated the present one. -/
  | drawing
  /-- The pipeline has a command to carry out. -/
  | command (ticket : Ticket)
  /-- The publisher has a generation to apply. -/
  | generation (generation : Nat)
  /-- The pipeline is to stop, before everything is withdrawn. -/
  | haltOfScan (ticket : Ticket)
  /-- Everything is being withdrawn. -/
  | withdrawal (generation : Nat)

/-- Why an engine is disabled after it was shut down. -/
def shutDownReason : String := "shut down"

/-- What happens in an engine. -/
inductive Effect
  | scan (effect : Scan.Effect)
  | publish (effect : Publisher.Effect)

/-- An engine with a radio. -/
def new (config : Config) : Engine where
  config
  disabled := none
  cache := .new config.cache
  pipeline := .initial
  publisher := .initial
  publishing := true
  sweeping := true
  nextTicket := 0
  acknowledged := []

/-- An engine without a radio. -/
def withoutRadio (config : Config) (reason : String) : Engine :=
  { new config with disabled := some reason, publishing := false, sweeping := false }

/-- True if the engine has a radio. -/
def isEnabled (e : Engine) : Bool := e.disabled.isNone

/-- The advertisements known from peers. -/
def cachedAdvertisements (e : Engine) : List Advertisement :=
  if e.isEnabled then e.cache.advertisements else []

/-- The status of an engine; a disabled one has nothing to tell but the reason. -/
def status (e : Engine) : Status :=
  match e.disabled with
  | some reason => ⟨false, some reason, .initial, .initial, ⟨0, 0, 0⟩⟩
  | none => ⟨true, none, e.publisher.status, e.pipeline.published, e.cache.stats⟩

/-! ### Moves of the parts -/

/-- Takes note of the commands that were carried out. -/
def acknowledge (e : Engine) : List Scan.Effect → Engine
  | [] => e
  | .acknowledge ticket :: rest =>
    { e with acknowledged := ticket :: e.acknowledged }.acknowledge rest
  | _ :: rest => e.acknowledge rest

/-- A move of the scan pipeline. -/
def moveScan (e : Engine) (now : Timestamp) (move : Scan.Move) : Engine × List Effect :=
  let step := e.pipeline.move e.config now e.cache move
  ({ e with pipeline := step.pipeline, cache := step.cache }.acknowledge step.effects,
    step.effects.map .scan)

/-- A move of the publisher's driver, unless it was stopped. -/
def movePublisher (e : Engine) (move : Publisher.Move) : Engine × List Effect :=
  if e.publishing then
    let (publisher, effects) := e.publisher.move e.config.manufacturerId move
    ({ e with publisher }, effects.map .publish)
  else (e, [])

/-- Sweeps the cache, unless the engine was shut down. -/
def sweep (e : Engine) (now : Timestamp) : Engine × List Effect :=
  if e.sweeping then
    let update := e.cache.sweep now
    ({ e with cache := update.cache }, update.events.map fun event => .scan (.event event))
  else (e, [])

/-! ### Requests -/

/-- Sends the pipeline a command that carries the next ticket. -/
def command (e : Engine) (command : Ticket → Scan.Command) : Engine × Ticket :=
  let ticket := e.nextTicket
  let pipeline := { e.pipeline with commands := e.pipeline.commands ++ [command ticket] }
  ({ e with pipeline, nextTicket := ticket + 1 }, ticket)

/-- Has a request wait until its change of what is published is applied. There is no change before a
new stamp is drawn. -/
def awaitChange (e : Engine) (changed : Option Publisher) : Engine × Waiting :=
  match changed with
  | none => (e, .drawing)
  | some publisher => ({ e with publisher }, .generation publisher.generation)

/-- What a disabled engine does with a request: nothing, but that a shutdown changes the reason. -/
def submitDisabled (e : Engine) : Request → Engine
  | .shutdown => { e with disabled := some shutDownReason }
  | _ => e

/-- Does the first part of a request. -/
def submit (e : Engine) (request : Request) : Engine × Waiting × List Effect :=
  if !e.isEnabled then (e.submitDisabled request, .finished (.ok ()), [])
  else
    match request with
    | .publish service ad draws =>
      match e.publisher.publish service ad draws with
      | .error error => (e, .finished (.error (.publish error)), [])
      | .ok changed =>
        let (e, waiting) := e.awaitChange changed
        (e, waiting, [])
    | .unpublish service draws =>
      if e.publisher.published.contains service then
        let (e, waiting) := e.awaitChange (e.publisher.unpublish service draws)
        (e, waiting, [])
      else (e, .finished (.ok ()), [])
    | .startScan wanted handler =>
      match e.cache.subscribe wanted handler with
      | .error error => (e, .finished (.error (.ofSubscribeError error)), [])
      | .ok (cache, events) =>
        let (e, ticket) := { e with cache }.command .sync
        (e, .command ticket, events.map fun event => .scan (.event event))
    | .stopScan handler =>
      match e.cache.unsubscribe handler with
      | (_, false) => (e, .finished (.ok ()), [])
      | (cache, true) =>
        let (e, ticket) := { e with cache }.command .sync
        (e, .command ticket, [])
    | .shutdown =>
      let (e, ticket) :=
        { e with disabled := some shutDownReason, sweeping := false }.command .shutdown
      (e, .haltOfScan ticket, [])

/-- The last part of a shutdown: the cache is cleared, and the publisher's driver is stopped, whatever
it has still to do. -/
def conclude (e : Engine) : Engine × Waiting :=
  ({ e with cache := e.cache.clear, publishing := false }, .finished (.ok ()))

/-- Goes on with a request whose wait is over. -/
def proceed (e : Engine) (waiting : Waiting) : Engine × Waiting :=
  match waiting with
  | .finished _ => (e, waiting)
  | .drawing => (e, waiting)
  | .command ticket => (e, if ticket ∈ e.acknowledged then .finished (.ok ()) else waiting)
  | .generation generation =>
    (e, if generation ≤ e.publisher.applied then .finished (.ok ()) else waiting)
  | .haltOfScan ticket =>
    if ticket ∈ e.acknowledged then
      if e.publisher.published.isEmpty then e.conclude
      else
        match e.publisher.clear with
        | none => (e, waiting)
        | some publisher => ({ e with publisher }, .withdrawal publisher.generation)
    else (e, waiting)
  | .withdrawal generation =>
    if generation ≤ e.publisher.applied then e.conclude else (e, waiting)

end Engine

end Nearby
