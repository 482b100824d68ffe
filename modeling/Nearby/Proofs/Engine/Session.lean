import Nearby.Engine
import Nearby.Proofs.Publisher.Withdrawal
import Nearby.Proofs.Scan.Connections
import Nearby.Proofs.Scan.Orders

/-!
# An engine in use

Applications call the engine whenever they like, and several calls may be under way at a time. Each
does its work in steps, between which anything else may happen: a call to start or stop scanning
changes the subscriptions, sends the pipeline a command, and waits until that is acknowledged; a call
that changes what is published waits for the publisher (`Errand`). An application may drop a call
while it waits. What the call has set off takes its course then, but nobody waits for it. A shutdown
takes the engine for itself, so it begins only when nobody waits for another call; and it is let
finish, which is when the drivers are stopped.

A `Session` is an engine with the calls under way, and with what the radio does: the connections it
holds, whether it scans, and the states of the publisher that were applied. The radio may fail to do
as it is told, and the engine does not come back to what has failed; the session keeps what is left
behind. What may happen in it is a call's next step, or its end, a move of the pipeline's or the
publisher's driver, a sweep, or something on the radio's side; nothing is assumed about their order.
The ways in which a happening comes about (`Session.Moves`) are what the invariants go by.
-/

namespace Nearby

open Scan (Halt Ticket)
open Publisher (Application Edition Logbook)

namespace Engine

/-- What a call has still to do. -/
inductive Errand
  /-- The subscriptions have changed, and the pipeline is to be told. -/
  | sync
  /-- The pipeline has a command to carry out. -/
  | command (ticket : Ticket)
  /-- The publisher has a generation to apply. -/
  | generation (generation : Nat)
  /-- The pipeline is to stop, before everything is withdrawn. -/
  | haltOfScan (ticket : Ticket)
  /-- Everything is being withdrawn. -/
  | withdrawal (generation : Nat)
  /-- Nobody waits for the call any more. -/
  | dropped (errand : Errand)
  deriving DecidableEq

/-- What is left to do for a call that waits. One that has drawn no new stamp yet has had no effect
either. -/
def Waiting.errand? : Waiting → Option Errand
  | .finished _ => none
  | .drawing => none
  | .command ticket => some (.command ticket)
  | .generation number => some (.generation number)
  | .haltOfScan ticket => some (.haltOfScan ticket)
  | .withdrawal number => some (.withdrawal number)

/-- The first step of a call. To start or stop scanning, it only changes the subscriptions. -/
def begin (e : Engine) (request : Request) : Engine × Option Errand × List Effect :=
  match e.isEnabled, request with
  | true, .startScan wanted handler =>
    match e.cache.subscribe wanted handler with
    | .error _ => (e, none, [])
    | .ok (cache, events) =>
      ({ e with cache }, some .sync, events.map fun event => .scan (.event event))
  | true, .stopScan handler =>
    match e.cache.unsubscribe handler with
    | (_, false) => (e, none, [])
    | (cache, true) => ({ e with cache }, some .sync, [])
  | _, request =>
    let (e, waiting, effects) := e.submit request
    (e, waiting.errand?, effects)

/-- Looks whether a wait is over. -/
def goOn (e : Engine) (waiting : Waiting) : Engine × Option Errand :=
  let (e, waiting) := e.proceed waiting
  (e, waiting.errand?)

/-- Another step of a call. -/
def step (e : Engine) : Errand → Engine × Option Errand
  | .sync =>
    let (e, ticket) := e.command .sync
    (e, some (.command ticket))
  | .command ticket => e.goOn (.command ticket)
  | .generation number => e.goOn (.generation number)
  | .haltOfScan ticket => e.goOn (.haltOfScan ticket)
  | .withdrawal number => e.goOn (.withdrawal number)
  | .dropped errand => (e, some (.dropped errand))

/-- **The steps make up the request.** -/
theorem submit_eq_begin (e : Engine) (request : Request) :
    let first := e.begin request
    let whole := e.submit request
    whole.2.2 = first.2.2 ∧
      (whole.1, whole.2.1.errand?) =
        match first.2.1 with
        | some .sync => first.1.step .sync
        | errand => (first.1, errand) := by
  intro first whole
  -- all requests but those for scanning begin as the engine carries them out
  have hwhole : first = (whole.1, whole.2.1.errand?, whole.2.2) →
      whole.2.2 = first.2.2 ∧ (whole.1, whole.2.1.errand?) =
        match first.2.1 with
        | some .sync => first.1.step .sync
        | errand => (first.1, errand) := by
    intro hfirst
    rw [hfirst]
    refine ⟨rfl, ?_⟩
    cases whole.2.1 with
    | finished | drawing | command | generation | haltOfScan | withdrawal => rfl
  rcases henabled : e.isEnabled with _ | _
  · refine hwhole ?_
    simp only [first, begin, henabled]
    rfl
  cases request with
  | publish | unpublish | shutdown =>
    refine hwhole ?_
    simp only [first, begin, henabled]
    rfl
  | startScan wanted handler =>
    simp only [first, whole, begin, submit, henabled, Bool.not_true, Bool.false_eq_true, if_false]
    rcases e.cache.subscribe wanted handler with error | ⟨cache, events⟩
    · exact ⟨rfl, rfl⟩
    · exact ⟨rfl, rfl⟩
  | stopScan handler =>
    simp only [first, whole, begin, submit, henabled, Bool.not_true, Bool.false_eq_true, if_false]
    rcases e.cache.unsubscribe handler with ⟨cache, _ | _⟩
    · exact ⟨rfl, rfl⟩
    · exact ⟨rfl, rfl⟩

variable {e : Engine} {ticket : Ticket}

/-- A request that is over at once leaves nothing to do. -/
theorem begin_of_finished {request : Request} {f : Engine} {result : Except Error Unit}
    {effects : List Effect} (h : e.submit request = (f, .finished result, effects)) :
    e.begin request = (f, none, effects) := by
  obtain ⟨heffects, hrest⟩ := e.submit_eq_begin request
  rw [h] at heffects hrest
  rcases hbegin : e.begin request with ⟨engine, errand, caused⟩
  rw [hbegin] at heffects hrest
  cases errand with
  | none =>
    obtain ⟨rfl, -⟩ := Prod.mk.inj hrest
    rw [show effects = caused from heffects]
  | some errand =>
    -- a call that has something to do is not over
    cases errand with
    | sync => cases congrArg Prod.snd hrest
    | command | generation | haltOfScan | withdrawal | dropped => cases congrArg Prod.snd hrest

/-- A handler that is subscribed already is refused. -/
theorem submit_startScan (henabled : e.isEnabled = true) {handler : Handler}
    (hsubscribed : e.cache.isSubscribed handler = true) (wanted : String) :
    e.submit (.startScan wanted handler) =
      (e, .finished (.error .duplicateSubscription), []) := by
  simp [submit, henabled, Cache.subscribe, hsubscribed, Error.ofSubscribeError]

/-- A handler that is not subscribed has nothing to leave. -/
theorem submit_stopScan (henabled : e.isEnabled = true) {handler : Handler}
    (hsubscribed : e.cache.isSubscribed handler = false) :
    e.submit (.stopScan handler) = (e, .finished (.ok ()), []) := by
  simp [submit, henabled, Cache.unsubscribe, hsubscribed]

/-- The pipeline has stopped, and something is published. -/
theorem step_haltOfScan_of_isEmpty_eq_false (hdone : ticket ∈ e.acknowledged)
    (hempty : e.publisher.published.isEmpty = false) :
    e.step (.haltOfScan ticket) =
      ({ e with publisher := e.publisher.handOver ⟨∅, none⟩ },
        some (.withdrawal (e.publisher.generation + 1))) := by
  simp only [step, goOn, proceed, hdone, hempty]
  rfl

/-- The pipeline has stopped, and nothing is published. -/
theorem step_haltOfScan_of_isEmpty (hdone : ticket ∈ e.acknowledged)
    (hempty : e.publisher.published.isEmpty = true) :
    e.step (.haltOfScan ticket) = (e.conclude.1, none) := by
  simp [step, goOn, proceed, conclude, hdone, hempty, Waiting.errand?]

/-- Everything is withdrawn. -/
theorem step_withdrawal {generation : Nat} (hdone : generation ≤ e.publisher.applied) :
    e.step (.withdrawal generation) = (e.conclude.1, none) := by
  simp [step, goOn, proceed, conclude, hdone, Waiting.errand?]

/-- The call is done with what it had to do. -/
def Errand.IsOver (e : Engine) : Errand → Prop
  | .sync => False
  | .command ticket => ticket ∈ e.acknowledged
  | .generation number => number ≤ e.publisher.applied
  | .haltOfScan ticket => ticket ∈ e.acknowledged ∧ e.publisher.published.isEmpty = true
  | .withdrawal number => number ≤ e.publisher.applied
  | .dropped _ => False

/-- True for what a shutdown has to do. -/
def Errand.isTeardown : Errand → Bool
  | .haltOfScan _ => true
  | .withdrawal _ => true
  | _ => false

/-- True for what an application may cease to wait for. A call that changes the subscriptions goes on
to tell the pipeline without a pause, and a shutdown is let finish. -/
def Errand.isDroppable : Errand → Bool
  | .command _ => true
  | .generation _ => true
  | _ => false

/-- True if nobody waits for the call any more. -/
def Errand.isDropped : Errand → Bool
  | .dropped _ => true
  | _ => false

end Engine

/-! ## Closes that time out -/

namespace Scan

/-- The move that the pipeline makes if a close ends in time. -/
def Move.inTime : Move → Move
  | .closed _ => .closed (.answered (.ok ()))
  | move => move

/-- What the driver has called to be closed. -/
def Adapter.released (a : Adapter) : Adapter :=
  match a.closing with
  | some (.disconnect link) => ⟨[], a.links.filter (· = link), none⟩
  | some (.cancelConnect peer) => ⟨a.attempts.filter (·.peer = peer), [], none⟩
  | _ => .silent

/-- What the radio holds still although it was called to close it, after a move: what a close that
has timed out should have taken is left, and an attempt is taken back along with later ones to
the same peer. -/
def Adapter.leftAfter (left a : Adapter) : Move → Adapter
  | .closed (.answered _) => { left with closing := a.closing }.closeAnswered
  | .closed .timedOut =>
    { left with
      attempts := left.attempts ++ a.released.attempts
      links := left.links ++ a.released.links }
  | _ => left

/-- The pipeline goes on in the same way, whether or not a close ends in time. -/
theorem Pipeline.onClosed_inTime (p : Pipeline) (config : Config) (now : Timestamp)
    (closing : Closing) (cache : Cache) :
    (p.onClosed config now closing cache).pipeline =
        (p.onClosed config now (.answered (.ok ())) cache).pipeline ∧
      (p.onClosed config now closing cache).cache =
        (p.onClosed config now (.answered (.ok ())) cache).cache := by
  rw [onClosed, onClosed]
  rcases p.control with _ | ticket | next | ⟨peer, halt | ⟨pending, outcome⟩⟩ | _
  · exact ⟨rfl, rfl⟩
  · exact ⟨rfl, rfl⟩
  · exact ⟨rfl, rfl⟩
  · exact ⟨rfl, rfl⟩
  · exact ⟨rfl, rfl⟩
  · exact ⟨rfl, rfl⟩

/-- A link that is closed too late makes no difference to the driver but for a warning. -/
theorem Pipeline.move_inTime (p : Pipeline) (config : Config) (now : Timestamp) (cache : Cache)
    (move : Move) :
    (p.move config now cache move).pipeline = (p.move config now cache move.inTime).pipeline ∧
      (p.move config now cache move).cache = (p.move config now cache move.inTime).cache := by
  cases move with
  | closed closing => exact p.onClosed_inTime config now closing cache
  | send | hear | takeCommand | takeSighting | scanAnswered | fetchBegins | fetchAnswered
  | fetchExpires => exact ⟨rfl, rfl⟩

end Scan

open Engine (Errand)

/-- An engine with the calls under way, and its radio. -/
structure Session where
  engine : Engine
  /-- The connections that the radio holds, but for those that are left. -/
  adapter : Scan.Adapter
  /-- The connections that are left of closes that have timed out. -/
  left : Scan.Adapter
  /-- True while the radio scans. -/
  hears : Bool
  /-- True if the radio has failed to stop scanning, and neither started nor stopped with success
  since. -/
  scanLingers : Bool
  /-- The state that the publisher's driver applies. -/
  present : Option Application
  /-- The states that were applied, oldest first. -/
  past : List Application
  /-- What the calls under way have still to do. -/
  calls : List Errand

namespace Session

/-- Nobody has called the engine. -/
def initial (config : Config) : Session :=
  ⟨.new config, .silent, .silent, false, false, none, [], []⟩

/-- The pipeline with its cache and its radio. -/
def system (s : Session) : Scan.System := ⟨s.engine.pipeline, s.engine.cache, s.adapter⟩

/-- The publisher with what its driver did. -/
def logbook (s : Session) : Logbook := ⟨s.engine.publisher, s.present, s.past⟩

/-- What the radio serves and broadcasts. -/
def presence (s : Session) : Presence := s.logbook.presence s.engine.config.manufacturerId

/-- The number of connections that the radio holds. -/
def connections (s : Session) : Nat := s.adapter.connections + s.left.connections

/-- Anything that may happen. -/
inductive Happening
  /-- An application calls the engine. -/
  | requests (request : Engine.Request)
  /-- A call takes another step. -/
  | goes (errand : Errand)
  /-- An application does not wait for its call any longer. -/
  | drops (errand : Errand)
  /-- The pipeline makes a move; commands only come from calls. -/
  | scans (now : Timestamp) (move : Scan.Move)
  /-- The publisher's driver makes a move. -/
  | publishes (move : Publisher.Move)
  | sweeps (now : Timestamp)
  /-- An attempt to connect gets through, or fails again, without an answer. -/
  | turns (link : FetchId) (connected : Bool)
  /-- A link is lost. -/
  | loses (link : FetchId)

/-- True if nobody waits for a call. -/
def isFree (s : Session) : Bool := s.calls.all Errand.isDropped

/-- True for a shutdown while somebody waits for another call: it has to wait. -/
def isBarred (s : Session) : Engine.Request → Bool
  | .shutdown => !s.isFree
  | _ => false

/-- What comes of a happening. -/
def after (s : Session) : Happening → Session
  | .requests request =>
    if s.isBarred request then s
    else
      let (engine, errand, _) := s.engine.begin request
      { s with engine, calls := s.calls ++ errand.toList }
  | .goes errand =>
    let next := s.engine.step errand
    if errand ∈ s.calls ∧ next.2 ≠ some errand then
      { s with engine := next.1, calls := s.calls.erase errand ++ next.2.toList }
    else s
  | .drops errand =>
    if errand ∈ s.calls ∧ errand.isDroppable = true then
      { s with calls := s.calls.erase errand ++ [.dropped errand] }
    else s
  | .scans _ (.send _) => s
  | .scans now move =>
    { s with
      engine := (s.engine.moveScan now move).1
      adapter := (s.system.after s.engine.config (.moves now move.inTime)).adapter
      left := s.left.leftAfter s.adapter move
      hears := s.engine.pipeline.radioNext s.hears move
      scanLingers := s.engine.pipeline.scanLingersNext s.scanLingers move }
  | .publishes move =>
    if s.engine.publishing then
      let logbook := s.logbook.move s.engine.config.manufacturerId move
      { s with
        engine := (s.engine.movePublisher move).1
        present := logbook.present
        past := logbook.past }
    else s
  | .sweeps now => { s with engine := (s.engine.sweep now).1 }
  | .turns link connected =>
    { s with adapter := s.adapter.turns link connected, left := s.left.turns link connected }
  | .loses link => { s with adapter := s.adapter.loses link, left := s.left.loses link }

/-- The calls to the radio that a happening brings about, the events and the warnings. -/
def effects (s : Session) : Happening → List Engine.Effect
  | .requests request => if s.isBarred request then [] else (s.engine.begin request).2.2
  | .goes _ => []
  | .drops _ => []
  | .scans _ (.send _) => []
  | .scans now move => (s.engine.moveScan now move).2
  | .publishes move => (s.engine.movePublisher move).2
  | .sweeps now => (s.engine.sweep now).2
  | .turns .. => []
  | .loses _ => []

/-- What comes of a list of happenings. -/
def run (s : Session) (happenings : List Happening) : Session := happenings.foldl after s

theorem run_append (s : Session) (before rest : List Happening) :
    s.run (before ++ rest) = (s.run before).run rest := List.foldl_append

/-! ## The ways in which a happening comes about -/

/-- The ways in which a happening comes about. -/
inductive Moves (s : Session) : Happening → Session → Prop
  /-- Nothing comes of it. -/
  | rests (x : Happening) : Moves s x s
  /-- An engine without a radio is shut down. -/
  | renames (disabled : s.engine.isEnabled = false) :
    Moves s (.requests .shutdown)
      { s with engine := { s.engine with disabled := some Engine.shutDownReason } }
  | subscribes (request : Engine.Request) (subscriptions : List Subscription)
    (enabled : s.engine.isEnabled = true) :
    Moves s (.requests request)
      { s with
        engine := { s.engine with cache := { s.engine.cache with subscriptions } }
        calls := s.calls ++ [.sync] }
  | changes (request : Engine.Request) (edition : Edition) (quiet : edition.IsQuiet)
    (enabled : s.engine.isEnabled = true) :
    Moves s (.requests request)
      { s with
        engine := { s.engine with publisher := s.engine.publisher.handOver edition }
        calls := s.calls ++ [.generation (s.engine.publisher.generation + 1)] }
  | halts (enabled : s.engine.isEnabled = true) (free : s.isFree = true) :
    Moves s (.requests .shutdown)
      { s with
        engine := ({ s.engine with
          disabled := some Engine.shutDownReason, sweeping := false }.command .shutdown).1
        calls := s.calls ++ [.haltOfScan s.engine.nextTicket] }
  | sends (mem : .sync ∈ s.calls) :
    Moves s (.goes .sync)
      { s with
        engine := (s.engine.command .sync).1
        calls := s.calls.erase .sync ++ [.command s.engine.nextTicket] }
  | returns (errand : Errand) (mem : errand ∈ s.calls) (isOver : errand.IsOver s.engine)
    (kind : errand.isTeardown = false) :
    Moves s (.goes errand) { s with calls := s.calls.erase errand }
  | withdraws (ticket : Ticket) (mem : .haltOfScan ticket ∈ s.calls)
    (done : ticket ∈ s.engine.acknowledged) :
    Moves s (.goes (.haltOfScan ticket))
      { s with
        engine := { s.engine with publisher := s.engine.publisher.handOver ⟨∅, none⟩ }
        calls := s.calls.erase (.haltOfScan ticket) ++
          [.withdrawal (s.engine.publisher.generation + 1)] }
  | concludes (errand : Errand) (mem : errand ∈ s.calls) (isOver : errand.IsOver s.engine)
    (kind : errand.isTeardown = true) :
    Moves s (.goes errand)
      { s with
        engine := { s.engine with cache := s.engine.cache.clear, publishing := false }
        calls := s.calls.erase errand }
  | drops (errand : Errand) (mem : errand ∈ s.calls) (droppable : errand.isDroppable = true) :
    Moves s (.drops errand) { s with calls := s.calls.erase errand ++ [.dropped errand] }
  | scans (now : Timestamp) (move : Scan.Move) (genuine : ∀ command, move ≠ .send command) :
    Moves s (.scans now move)
      { s with
        engine := (s.engine.moveScan now move).1
        adapter := (s.system.after s.engine.config (.moves now move.inTime)).adapter
        left := s.left.leftAfter s.adapter move
        hears := s.engine.pipeline.radioNext s.hears move
        scanLingers := s.engine.pipeline.scanLingersNext s.scanLingers move }
  | publishes (move : Publisher.Move) (publishing : s.engine.publishing = true) :
    Moves s (.publishes move)
      { s with
        engine := { s.engine with
          publisher := (s.logbook.move s.engine.config.manufacturerId move).publisher }
        present := (s.logbook.move s.engine.config.manufacturerId move).present
        past := (s.logbook.move s.engine.config.manufacturerId move).past }
  | sweeps (now : Timestamp) (sweeping : s.engine.sweeping = true) :
    Moves s (.sweeps now)
      { s with engine := { s.engine with cache := (s.engine.cache.sweep now).cache } }
  | turns (link : FetchId) (connected : Bool) :
    Moves s (.turns link connected)
      { s with adapter := s.adapter.turns link connected, left := s.left.turns link connected }
  | loses (link : FetchId) :
    Moves s (.loses link) { s with adapter := s.adapter.loses link, left := s.left.loses link }

variable {s : Session}

/-- A request that has had no effect. -/
theorem moves_of_begin {request : Engine.Request} (hbarred : s.isBarred request = false)
    {engine : Engine} {errand : Option Errand} {effects : List Engine.Effect}
    (hbegin : s.engine.begin request = (engine, errand, effects))
    (h : s.Moves (.requests request) { s with engine, calls := s.calls ++ errand.toList }) :
    s.Moves (.requests request) (s.after (.requests request)) := by
  rw [after, if_neg (by simp [hbarred]), hbegin]
  exact h

/-- A call that returns at once leaves the engine as it is. -/
theorem moves_none (s : Session) (request : Engine.Request) :
    s.Moves (.requests request) { s with calls := s.calls ++ [] } := by
  rw [List.append_nil]
  exact .rests _

/-- A change of what is published, unless no new stamp was drawn. -/
theorem moves_awaitChange (henabled : s.engine.isEnabled = true) (request : Engine.Request)
    {changed : Option Publisher}
    (hchanged : ∀ q, changed = some q →
      q.edition.IsQuiet ∧ ∃ edition, q = s.engine.publisher.handOver edition) :
    s.Moves (.requests request)
      { s with
        engine := (s.engine.awaitChange changed).1
        calls := s.calls ++ (s.engine.awaitChange changed).2.errand?.toList } := by
  cases changed with
  | none => exact s.moves_none request
  | some q =>
    obtain ⟨hquiet, edition, rfl⟩ := hchanged q rfl
    exact .changes request edition hquiet henabled

/-- The shutdown of an engine begins with a command to the pipeline. -/
theorem after_shutdown (henabled : s.engine.isEnabled = true) (hfree : s.isFree = true) :
    s.after (.requests .shutdown) =
      { s with
        engine := ({ s.engine with
          disabled := some Engine.shutDownReason, sweeping := false }.command .shutdown).1
        calls := s.calls ++ [.haltOfScan s.engine.nextTicket] } := by
  simp only [after, isBarred, hfree, Engine.begin, Engine.submit, henabled]
  rfl

/-- What a call does at first is one of these moves. -/
theorem moves_requests (s : Session) (request : Engine.Request) :
    s.Moves (.requests request) (s.after (.requests request)) := by
  rcases hbarred : s.isBarred request with _ | _
  · rcases henabled : s.engine.isEnabled with _ | _
    · have hsubmit : s.engine.submit request =
          (s.engine.submitDisabled request, .finished (.ok ()), []) := by
        simp [Engine.submit, henabled]
      refine moves_of_begin hbarred (Engine.begin_of_finished hsubmit) ?_
      cases request with
      | shutdown =>
        rw [Option.toList_none, List.append_nil]
        exact .renames henabled
      | publish | unpublish | startScan | stopScan => exact s.moves_none _
    cases request with
    | publish service ad draws =>
      rcases hpublish : s.engine.publisher.publish service ad draws with error | changed
      · have hsubmit : s.engine.submit (.publish service ad draws) =
            (s.engine, .finished (.error (.publish error)), []) := by
          simp [Engine.submit, henabled, hpublish]
        exact moves_of_begin hbarred (Engine.begin_of_finished hsubmit) (s.moves_none _)
      · have hbegin : s.engine.begin (.publish service ad draws) =
            ((s.engine.awaitChange changed).1, (s.engine.awaitChange changed).2.errand?, []) := by
          simp [Engine.begin, Engine.submit, henabled, hpublish]
        refine moves_of_begin hbarred hbegin (moves_awaitChange henabled _ fun q hq => ?_)
        subst hq
        exact ⟨Publisher.isQuiet_of_publish hpublish, Publisher.eq_of_publish hpublish⟩
    | unpublish service draws =>
      rcases hpublished : s.engine.publisher.published.contains service with _ | _
      · have hsubmit : s.engine.submit (.unpublish service draws) =
            (s.engine, .finished (.ok ()), []) := by
          simp [Engine.submit, henabled, hpublished]
        exact moves_of_begin hbarred (Engine.begin_of_finished hsubmit) (s.moves_none _)
      · let changed := s.engine.publisher.unpublish service draws
        have hbegin : s.engine.begin (.unpublish service draws) =
            ((s.engine.awaitChange changed).1, (s.engine.awaitChange changed).2.errand?, []) := by
          simp [Engine.begin, Engine.submit, henabled, hpublished, changed]
        exact moves_of_begin hbarred hbegin (moves_awaitChange henabled _ fun q hq =>
          ⟨Publisher.isQuiet_of_republish hq, Publisher.eq_of_republish hq⟩)
    | startScan wanted handler =>
      rcases hsubscribed : s.engine.cache.isSubscribed handler with _ | _
      · have hbegin : s.engine.begin (.startScan wanted handler) =
            ({ s.engine with cache := { s.engine.cache with
              subscriptions := s.engine.cache.subscriptions ++ [⟨wanted, handler⟩] } }, some .sync,
              (s.engine.cache.replay wanted handler).map fun event => .scan (.event event)) := by
          simp [Engine.begin, henabled, Cache.subscribe, hsubscribed]
        exact moves_of_begin hbarred hbegin (.subscribes _ _ henabled)
      · have hsubmit := Engine.submit_startScan henabled hsubscribed wanted
        exact moves_of_begin hbarred (Engine.begin_of_finished hsubmit) (s.moves_none _)
    | stopScan handler =>
      rcases hsubscribed : s.engine.cache.isSubscribed handler with _ | _
      · have hsubmit := Engine.submit_stopScan henabled hsubscribed
        exact moves_of_begin hbarred (Engine.begin_of_finished hsubmit) (s.moves_none _)
      · have hbegin : s.engine.begin (.stopScan handler) =
            ({ s.engine with cache := (s.engine.cache.unsubscribe handler).1 }, some .sync, []) := by
          simp [Engine.begin, henabled, Cache.unsubscribe, hsubscribed]
        exact moves_of_begin hbarred hbegin (.subscribes _ _ henabled)
    | shutdown =>
      have hfree : s.isFree = true := by simpa [isBarred] using hbarred
      rw [after_shutdown henabled hfree]
      exact .halts henabled hfree
  · rw [after, if_pos hbarred]
    exact .rests _

/-- A step of a call that is under way and not left as it was. -/
theorem moves_of_step {errand : Errand} (mem : errand ∈ s.calls) {engine : Engine}
    {left : Option Errand} (hstep : s.engine.step errand = (engine, left))
    (hleft : left ≠ some errand)
    (h : s.Moves (.goes errand) { s with engine, calls := s.calls.erase errand ++ left.toList }) :
    s.Moves (.goes errand) (s.after (.goes errand)) := by
  rw [after, hstep]
  dsimp only
  rw [if_pos ⟨mem, hleft⟩]
  exact h

/-- A step of a call that waits on. -/
theorem moves_of_waits {errand : Errand} (h : (s.engine.step errand).2 = some errand) :
    s.Moves (.goes errand) (s.after (.goes errand)) := by
  rw [after, if_neg fun hand => hand.2 h]
  exact .rests _

/-- A call returns. -/
theorem moves_of_returns {errand : Errand} (mem : errand ∈ s.calls)
    (isOver : errand.IsOver s.engine) (kind : errand.isTeardown = false)
    (hstep : s.engine.step errand = (s.engine, none)) :
    s.Moves (.goes errand) (s.after (.goes errand)) := by
  refine moves_of_step mem hstep nofun ?_
  rw [Option.toList_none, List.append_nil]
  exact .returns errand mem isOver kind

/-- A shutdown returns. -/
theorem moves_of_concludes {errand : Errand} (mem : errand ∈ s.calls)
    (isOver : errand.IsOver s.engine) (kind : errand.isTeardown = true)
    (hstep : s.engine.step errand = (s.engine.conclude.1, none)) :
    s.Moves (.goes errand) (s.after (.goes errand)) := by
  refine moves_of_step mem hstep nofun ?_
  rw [Option.toList_none, List.append_nil]
  exact .concludes errand mem isOver kind

/-- What a call does next is one of these moves. -/
theorem moves_goes (s : Session) (errand : Errand) :
    s.Moves (.goes errand) (s.after (.goes errand)) := by
  by_cases mem : errand ∈ s.calls
  · cases errand with
    | sync => exact moves_of_step mem rfl (by simp) (.sends mem)
    | command ticket =>
      by_cases hdone : ticket ∈ s.engine.acknowledged
      · refine moves_of_returns mem hdone rfl ?_
        simp [Engine.step, Engine.goOn, Engine.proceed, hdone, Engine.Waiting.errand?]
      · refine moves_of_waits ?_
        simp [Engine.step, Engine.goOn, Engine.proceed, hdone, Engine.Waiting.errand?]
    | generation number =>
      by_cases hdone : number ≤ s.engine.publisher.applied
      · refine moves_of_returns mem hdone rfl ?_
        simp [Engine.step, Engine.goOn, Engine.proceed, hdone, Engine.Waiting.errand?]
      · refine moves_of_waits ?_
        simp [Engine.step, Engine.goOn, Engine.proceed, hdone, Engine.Waiting.errand?]
    | haltOfScan ticket =>
      by_cases hdone : ticket ∈ s.engine.acknowledged
      · rcases hempty : s.engine.publisher.published.isEmpty with _ | _
        · have hstep := Engine.step_haltOfScan_of_isEmpty_eq_false hdone hempty
          exact moves_of_step mem hstep (by simp) (.withdraws ticket mem hdone)
        · have hstep := Engine.step_haltOfScan_of_isEmpty hdone hempty
          exact moves_of_concludes mem ⟨hdone, hempty⟩ rfl hstep
      · refine moves_of_waits ?_
        simp [Engine.step, Engine.goOn, Engine.proceed, hdone, Engine.Waiting.errand?]
    | withdrawal number =>
      by_cases hdone : number ≤ s.engine.publisher.applied
      · exact moves_of_concludes mem hdone rfl (Engine.step_withdrawal hdone)
      · refine moves_of_waits ?_
        simp [Engine.step, Engine.goOn, Engine.proceed, hdone, Engine.Waiting.errand?]
    | dropped errand => exact moves_of_waits rfl
  · rw [after, if_neg fun hand => mem hand.1]
    exact .rests _

/-- **Every happening comes about in one of these ways.** -/
theorem moves (s : Session) (x : Happening) : s.Moves x (s.after x) := by
  cases x with
  | requests request => exact s.moves_requests request
  | goes errand => exact s.moves_goes errand
  | drops errand =>
    rw [after]
    split
    · rename_i hdrop
      exact .drops errand hdrop.1 hdrop.2
    · exact .rests _
  | scans now move =>
    cases move with
    | send command => exact .rests _
    | hear | takeCommand | takeSighting | scanAnswered | closed | fetchBegins | fetchAnswered
    | fetchExpires => exact .scans now _ nofun
  | publishes move =>
    rw [after]
    split
    · rename_i hpublishing
      have hpublisher : (s.logbook.move s.engine.config.manufacturerId move).publisher =
          (s.engine.publisher.move s.engine.config.manufacturerId move).1 :=
        s.logbook.publisher_move s.engine.config.manufacturerId move
      rw [Engine.movePublisher, if_pos hpublishing]
      dsimp only
      rw [← hpublisher]
      exact .publishes move hpublishing
    · exact .rests _
  | sweeps now =>
    rw [after, Engine.sweep]
    split
    · rename_i hsweeping
      exact .sweeps now hsweeping
    · exact .rests _
  | turns link connected => exact .turns link connected
  | loses link => exact .loses link

/-! ## Pipeline, cache and radio -/

/-- True for what happens while the radio does as it is told, and closes links in time. Fetches may
fail in any way. -/
def Happening.Succeeds : Happening → Prop
  | .scans _ (.scanAnswered (.error _)) => False
  | .scans _ (.closed .timedOut) => False
  | .publishes (.answered (.error _)) => False
  | _ => True

end Session

/-- What a step acknowledges is put on record. -/
theorem Engine.acknowledge_eq (e : Engine) (effects : List Scan.Effect) :
    e.acknowledge effects =
      { e with
        acknowledged := (effects.filterMap Scan.Effect.acknowledged?).reverse ++ e.acknowledged } := by
  induction effects generalizing e with
  | nil => rfl
  | cons effect rest ih =>
    cases effect with
    | acknowledge ticket =>
      rw [acknowledge, ih]
      simp [Scan.Effect.acknowledged?]
    | call | spawn | cancel | event | warn =>
      rw [acknowledge, ih]
      · rfl
      · exact nofun

namespace Engine

/-- The pipeline moves, and the rest of the engine takes note of it. -/
theorem moveScan_eq (e : Engine) (now : Timestamp) (move : Scan.Move) :
    let step := e.pipeline.move e.config now e.cache move
    (e.moveScan now move).1 =
      { e with
        pipeline := step.pipeline
        cache := step.cache
        acknowledged := step.acknowledged.reverse ++ e.acknowledged } :=
  acknowledge_eq _ _

variable (e : Engine) (now : Timestamp) (move : Scan.Move)

@[simp] theorem config_moveScan : (e.moveScan now move).1.config = e.config := by rw [moveScan_eq]

@[simp] theorem disabled_moveScan : (e.moveScan now move).1.disabled = e.disabled := by
  rw [moveScan_eq]

@[simp] theorem isEnabled_moveScan : (e.moveScan now move).1.isEnabled = e.isEnabled := by
  simp [isEnabled]

@[simp] theorem sweeping_moveScan : (e.moveScan now move).1.sweeping = e.sweeping := by
  rw [moveScan_eq]

@[simp] theorem publishing_moveScan : (e.moveScan now move).1.publishing = e.publishing := by
  rw [moveScan_eq]

@[simp] theorem publisher_moveScan : (e.moveScan now move).1.publisher = e.publisher := by
  rw [moveScan_eq]

@[simp] theorem pipeline_moveScan :
    (e.moveScan now move).1.pipeline = (e.pipeline.move e.config now e.cache move).pipeline := by
  rw [moveScan_eq]

@[simp] theorem cache_moveScan :
    (e.moveScan now move).1.cache = (e.pipeline.move e.config now e.cache move).cache := by
  rw [moveScan_eq]

@[simp] theorem acknowledged_moveScan :
    (e.moveScan now move).1.acknowledged =
      (e.pipeline.move e.config now e.cache move).acknowledged.reverse ++ e.acknowledged := by
  rw [moveScan_eq]

end Engine

namespace Session

variable {s t : Session} {x : Happening}

/-- Nothing that happens changes the configuration. -/
theorem Moves.config (h : s.Moves x t) : t.engine.config = s.engine.config := by
  cases h with
  | scans now move genuine => simp
  | rests | renames | subscribes | changes | halts | sends | returns | withdraws | concludes | drops
  | publishes | sweeps | turns | loses => rfl

/-- An engine that was shut down stays so. -/
theorem Moves.isEnabled (h : s.Moves x t) (henabled : t.engine.isEnabled = true) :
    s.engine.isEnabled = true := by
  cases h with
  | renames | halts => cases henabled
  | scans now move genuine => simpa using henabled
  | rests | subscribes | changes | sends | returns | withdraws | concludes | drops | publishes
  | sweeps | turns | loses => exact henabled

/-- What a happening means to pipeline, cache and radio. A close that has timed out counts as ended,
since what it leaves is kept apart. -/
theorem Moves.system (h : s.Moves x t) :
    ∃ happenings : List Scan.Happening,
      t.system = s.system.run s.engine.config happenings ∧
        ∀ y ∈ happenings, y.IsGenuine ∧ y.IsFair := by
  -- what happens is one happening of the system, or none
  have hone : ∀ y : Scan.Happening, t.system = s.system.after s.engine.config y → y.IsGenuine →
      y.IsFair → ∃ happenings : List Scan.Happening,
        t.system = s.system.run s.engine.config happenings ∧
          ∀ y ∈ happenings, y.IsGenuine ∧ y.IsFair := fun y heq hgenuine hfair =>
    ⟨[y], heq, List.forall_mem_singleton.mpr ⟨hgenuine, hfair⟩⟩
  have hnone : t.system = s.system → ∃ happenings : List Scan.Happening,
      t.system = s.system.run s.engine.config happenings ∧
        ∀ y ∈ happenings, y.IsGenuine ∧ y.IsFair := fun heq => ⟨[], heq, List.forall_mem_nil _⟩
  cases h with
  | rests | renames | changes | returns | withdraws | drops | publishes => exact hnone rfl
  | subscribes request subscriptions enabled =>
    exact hone (.caches { s.engine.cache with subscriptions }) rfl trivial trivial
  | halts enabled free =>
    exact hone (.moves ⟨0⟩ (.send (.shutdown s.engine.nextTicket))) rfl trivial trivial
  | sends mem => exact hone (.moves ⟨0⟩ (.send (.sync s.engine.nextTicket))) rfl trivial trivial
  | concludes errand mem isOver kind => exact hone (.caches s.engine.cache.clear) rfl trivial trivial
  | scans now move genuine =>
    obtain ⟨hpipeline, hcache⟩ :=
      s.engine.pipeline.move_inTime s.engine.config now s.engine.cache move
    refine hone (.moves now move.inTime) ?_ ?_ ?_
    · simp [system, Scan.System.after, hpipeline, hcache]
    · cases move with
      | send command => exact absurd rfl (genuine command)
      | hear | takeCommand | takeSighting | scanAnswered | closed | fetchBegins | fetchAnswered
      | fetchExpires => trivial
    · cases move with
      | send command => exact absurd rfl (genuine command)
      | hear | takeCommand | takeSighting | scanAnswered | closed | fetchBegins | fetchAnswered
      | fetchExpires => trivial
  | sweeps now sweeping =>
    exact hone (.caches (s.engine.cache.sweep now).cache) rfl trivial trivial
  | turns link connected => exact hone (.turns link connected) rfl trivial trivial
  | loses link => exact hone (.loses link) rfl trivial trivial

end Session

/-! ## Who waits for what -/

/-- The ticket of a command to stop for good. -/
def Scan.Halt.shutdown? : Halt → Option Ticket
  | .sync _ => none
  | .shutdown ticket => some ticket

theorem Scan.Halt.mem_filterMap_shutdown? {halts : List Halt} {ticket : Ticket} :
    ticket ∈ halts.filterMap Halt.shutdown? ↔ .shutdown ticket ∈ halts := by
  rw [List.mem_filterMap]
  constructor
  · rintro ⟨halt, hmem, hticket⟩
    cases halt with
    | sync other => cases hticket
    | shutdown other =>
      obtain rfl := Option.some.inj hticket
      exact hmem
  · exact fun hmem => ⟨_, hmem, rfl⟩

/-- **The invariant of commands and calls**: a ticket is given out once, and acknowledged once; a
command that is owed is waited for; and the pipeline is not told to stop for good before the engine is
shut down. Whoever waited for a command may have dropped his call. -/
structure Engine.Accounts (e : Engine) (calls : List Errand) : Prop where
  tickets : (e.acknowledged ++ e.pipeline.owed.map Halt.ticket).Nodup
  issued : ∀ ticket ∈ e.acknowledged ++ e.pipeline.owed.map Halt.ticket, ticket < e.nextTicket
  awaited : ∀ ticket, .sync ticket ∈ e.pipeline.owed →
    .command ticket ∈ calls ∨ .dropped (.command ticket) ∈ calls
  running : e.isEnabled = true →
    e.pipeline.owed.filterMap Halt.shutdown? = [] ∧ e.pipeline.control.isExited = false

namespace Engine.Accounts

variable {e f : Engine} {calls left : List Errand}

/-- A ticket that was acknowledged is not owed any more. -/
theorem notMem_owed (h : e.Accounts calls) {halt : Halt} (hdone : halt.ticket ∈ e.acknowledged) :
    halt ∉ e.pipeline.owed := fun howed =>
  List.disjoint_of_nodup_append h.tickets hdone (List.mem_map_of_mem howed)

/-- What does not concern the pipeline. -/
theorem of_same (h : e.Accounts calls) (hpipeline : f.pipeline = e.pipeline)
    (hacknowledged : f.acknowledged = e.acknowledged) (hnext : f.nextTicket = e.nextTicket)
    (hcalls : ∀ ticket, .sync ticket ∈ e.pipeline.owed →
      .command ticket ∈ calls ∨ .dropped (.command ticket) ∈ calls →
        .command ticket ∈ left ∨ .dropped (.command ticket) ∈ left)
    (henabled : f.isEnabled = true → e.isEnabled = true) : f.Accounts left := by
  refine ⟨?_, ?_, ?_, ?_⟩
  · rw [hpipeline, hacknowledged]
    exact h.tickets
  · rw [hpipeline, hacknowledged, hnext]
    exact h.issued
  · rw [hpipeline]
    exact fun ticket howed => hcalls ticket howed (h.awaited ticket howed)
  · rw [hpipeline]
    exact fun hf => h.running (henabled hf)

/-- The next ticket is new. -/
theorem fresh (h : e.Accounts calls) :
    (e.acknowledged ++ (e.pipeline.owed.map Halt.ticket ++ [e.nextTicket])).Nodup ∧
      ∀ ticket ∈ e.acknowledged ++ (e.pipeline.owed.map Halt.ticket ++ [e.nextTicket]),
        ticket < e.nextTicket + 1 := by
  rw [← List.append_assoc]
  refine ⟨List.nodup_append.mpr ⟨h.tickets, List.nodup_singleton _, ?_⟩, ?_⟩
  · intro ticket hticket other hother
    obtain rfl := List.mem_singleton.mp hother
    exact Nat.ne_of_lt (h.issued ticket hticket)
  · refine List.forall_mem_append.mpr ⟨fun ticket hticket => ?_, ?_⟩
    · exact Nat.lt_succ_of_lt (h.issued ticket hticket)
    · exact List.forall_mem_singleton.mpr (Nat.lt_succ_self _)

/-- A call tells the pipeline that the subscriptions have changed. -/
theorem sync (h : e.Accounts calls) :
    (e.command .sync).1.Accounts (calls.erase .sync ++ [.command e.nextTicket]) := by
  have howed : (e.command .sync).1.pipeline.owed = e.pipeline.owed ++ [.sync e.nextTicket] :=
    e.pipeline.owed_send (.sync e.nextTicket)
  refine ⟨?_, ?_, ?_, fun henabled => ⟨?_, (h.running henabled).2⟩⟩
  · rw [howed, List.map_append]
    exact h.fresh.1
  · rw [howed, List.map_append]
    exact h.fresh.2
  · rw [howed]
    intro ticket hticket
    rcases List.mem_append.mp hticket with hticket | hticket
    · refine (h.awaited ticket hticket).imp (fun hmem => ?_) fun hmem => ?_
      · exact List.mem_append_left _ ((List.mem_erase_of_ne Errand.noConfusion).mpr hmem)
      · exact List.mem_append_left _ ((List.mem_erase_of_ne Errand.noConfusion).mpr hmem)
    · cases List.mem_singleton.mp hticket
      exact .inl (List.mem_append_right _ List.mem_cons_self)
  · rw [howed, List.filterMap_append, (h.running henabled).1]
    rfl

/-- The engine is shut down. -/
theorem shutdown (h : e.Accounts calls) {stopped : Engine}
    (hstopped : stopped = { e with disabled := some shutDownReason, sweeping := false }) :
    (stopped.command .shutdown).1.Accounts (calls ++ [.haltOfScan e.nextTicket]) := by
  subst hstopped
  have howed : (Engine.command { e with disabled := some shutDownReason, sweeping := false }
      .shutdown).1.pipeline.owed = e.pipeline.owed ++ [.shutdown e.nextTicket] :=
    e.pipeline.owed_send (.shutdown e.nextTicket)
  refine ⟨?_, ?_, ?_, fun henabled => ?_⟩
  · rw [howed, List.map_append]
    exact h.fresh.1
  · rw [howed, List.map_append]
    exact h.fresh.2
  · rw [howed]
    intro ticket hticket
    rcases List.mem_append.mp hticket with hticket | hticket
    · exact (h.awaited ticket hticket).imp (List.mem_append_left _) (List.mem_append_left _)
    · cases List.mem_singleton.mp hticket
  · cases henabled

/-- A move of the pipeline acknowledges what it takes off. -/
theorem moveScan (h : e.Accounts calls) (hd : e.pipeline.driver.Consistent e.config)
    (now : Timestamp) {move : Scan.Move} (hmove : ∀ command, move ≠ .send command) :
    (e.moveScan now move).1.Accounts calls := by
  obtain ⟨done, howed, hacknowledged, hexits⟩ := Scan.Pipeline.pays_move hd now e.cache hmove
  rw [Engine.moveScan_eq, hacknowledged]
  generalize e.pipeline.move e.config now e.cache move = step at howed hexits
  have hperm : ((done.map Halt.ticket).reverse ++ e.acknowledged ++
      step.pipeline.owed.map Halt.ticket).Perm
        (e.acknowledged ++ e.pipeline.owed.map Halt.ticket) := by
    rw [howed, List.map_append, ← List.append_assoc]
    refine List.Perm.append_right _ ?_
    exact ((List.reverse_perm _).append_right _).trans List.perm_append_comm
  refine ⟨hperm.nodup_iff.mpr h.tickets, ?_, ?_, ?_⟩
  · intro ticket hticket
    exact h.issued ticket (hperm.mem_iff.mp hticket)
  · intro ticket hticket
    refine h.awaited ticket ?_
    rw [howed]
    exact List.mem_append_right _ hticket
  · intro henabled
    obtain ⟨hnone, hrunning⟩ := h.running henabled
    rw [howed, List.filterMap_append, List.append_eq_nil_iff] at hnone
    refine ⟨hnone.2, ?_⟩
    rw [← Bool.not_eq_true, hexits, hrunning]
    rintro (hexited | ⟨ticket, hticket⟩)
    · cases hexited
    · rw [← Halt.mem_filterMap_shutdown?, hnone.1] at hticket
      cases hticket

end Engine.Accounts

namespace Session

variable {s t : Session} {x : Happening}

/-- **The invariant of a session.** -/
structure IsOrderly (s : Session) : Prop where
  system : s.system.IsOrderly s.engine.config
  accounts : s.engine.Accounts s.calls

theorem IsOrderly.consistent (hs : s.IsOrderly) :
    s.engine.pipeline.driver.Consistent s.engine.config := hs.system.consistent

theorem IsOrderly.coherent (hs : s.IsOrderly) : s.engine.pipeline.Coherent := hs.system.coherent

theorem isOrderly_initial (config : Config) : (initial config).IsOrderly where
  system := Scan.System.isOrderly_initial (.new config.cache)
  accounts := ⟨List.nodup_nil, List.forall_mem_nil _, fun _ hticket => (by cases hticket),
    fun _ => ⟨rfl, rfl⟩⟩

/-- **The accounts of the calls stay right**, whatever happens. -/
theorem Moves.accounts (h : s.Moves x t) (hs : s.IsOrderly) : t.engine.Accounts t.calls := by
  have haccounts := hs.accounts
  have hmore : ∀ {left : List Errand}, (∀ errand ∈ s.calls, errand ∈ left) → ∀ ticket : Ticket,
      .command ticket ∈ s.calls ∨ .dropped (.command ticket) ∈ s.calls →
        .command ticket ∈ left ∨ .dropped (.command ticket) ∈ left :=
    fun hsub ticket => Or.imp (hsub _) (hsub _)
  have herase : ∀ {errand : Errand} (ticket : Ticket), errand ≠ .command ticket →
      errand ≠ .dropped (.command ticket) →
        .command ticket ∈ s.calls ∨ .dropped (.command ticket) ∈ s.calls →
          .command ticket ∈ s.calls.erase errand ∨
            .dropped (.command ticket) ∈ s.calls.erase errand :=
    fun ticket hne hdropped => Or.imp (List.mem_erase_of_ne hne.symm).mpr
      (List.mem_erase_of_ne hdropped.symm).mpr
  cases h with
  | rests => exact haccounts
  | renames disabled =>
    exact haccounts.of_same rfl rfl rfl (fun _ _ => id) fun henabled => by cases henabled
  | subscribes request subscriptions enabled =>
    exact haccounts.of_same rfl rfl rfl
      (fun ticket _ => hmore (fun _ => List.mem_append_left _) ticket) id
  | changes request edition quiet enabled =>
    exact haccounts.of_same rfl rfl rfl
      (fun ticket _ => hmore (fun _ => List.mem_append_left _) ticket) id
  | halts enabled free => exact haccounts.shutdown rfl
  | sends mem => exact haccounts.sync
  | returns errand mem isOver kind =>
    refine haccounts.of_same rfl rfl rfl (fun ticket howed => herase ticket ?_ ?_) id
    · -- a call returns after its ticket was acknowledged
      rintro rfl
      have hdone : (Halt.sync ticket).ticket ∈ s.engine.acknowledged := isOver
      exact haccounts.notMem_owed hdone howed
    · rintro rfl
      exact isOver
  | withdraws other mem done =>
    refine haccounts.of_same rfl rfl rfl (fun ticket _ hmem => ?_) id
    have hleft : .command ticket ∈ s.calls.erase (.haltOfScan other) ∨
        .dropped (.command ticket) ∈ s.calls.erase (.haltOfScan other) :=
      herase ticket nofun nofun hmem
    exact hleft.imp (List.mem_append_left _) (List.mem_append_left _)
  | concludes errand mem isOver kind =>
    refine haccounts.of_same rfl rfl rfl (fun ticket _ => herase ticket ?_ ?_) id
    · rintro rfl
      cases kind
    · rintro rfl
      cases kind
  | drops errand mem droppable =>
    refine haccounts.of_same rfl rfl rfl (fun ticket _ hmem => ?_) id
    -- the pipeline is told all the same, and the call it is for is known as dropped
    by_cases hsame : errand = .command ticket
    · subst hsame
      exact .inr (List.mem_append_right _ List.mem_cons_self)
    · have hdropped : errand ≠ .dropped (.command ticket) := by
        rintro rfl
        cases droppable
      exact (herase ticket hsame hdropped hmem).imp (List.mem_append_left _)
        (List.mem_append_left _)
  | scans now move genuine => exact haccounts.moveScan hs.consistent now genuine
  | publishes move publishing => exact haccounts.of_same rfl rfl rfl (fun _ _ => id) id
  | sweeps now sweeping => exact haccounts.of_same rfl rfl rfl (fun _ _ => id) id
  | turns link connected => exact haccounts
  | loses link => exact haccounts

/-- **Every happening keeps a session orderly**, however the radio answers. -/
theorem IsOrderly.after (hs : s.IsOrderly) (x : Happening) : (s.after x).IsOrderly := by
  have hmoves := s.moves x
  obtain ⟨happenings, hsystem, hfair⟩ := hmoves.system
  refine ⟨?_, hmoves.accounts hs⟩
  rw [hmoves.config, hsystem]
  exact hs.system.run fun y hy => (hfair y hy).1

/-- Whatever happens leaves a session orderly. -/
theorem IsOrderly.run (hs : s.IsOrderly) (happenings : List Happening) :
    (s.run happenings).IsOrderly := by
  induction happenings generalizing s with
  | nil => exact hs
  | cons x rest ih => exact ih (hs.after x)

end Session

end Nearby
