import Nearby.Bluetooth.Host

/-!
# A machine with Bluetooth

On a machine, radios may be opened by hand and by an engine, all of them on the same daemon. What
devices do is told to every radio that scans. After each step everything has happened that could.
-/

namespace Nearby.Bluetooth

/-- A machine. -/
structure Machine where
  daemon : Daemon
  /-- The radio that was opened by hand to scan and connect. -/
  central : Option Central
  /-- True if somebody takes what that radio sights. -/
  attended : Bool
  /-- The links that radio has opened, by a name of their own. -/
  links : Table String Link
  /-- The radio that was opened by hand to serve and broadcast. -/
  peripheral : Option Peripheral
  engine : Option (Schedule Host)
  /-- The sightings and warnings of the radios opened by hand. -/
  sightings : Array Sighting
  warnings : Array Warning

namespace Machine

/-- A machine on which nothing was opened. -/
def initial : Machine := ⟨.empty, none, false, ∅, none, none, #[], #[]⟩

/-- The error of using what was not opened. -/
def notOpen : RadioError := .unavailable "not open"

/-! ### The engine -/

/-- Has the engine do something, if there is one. An engine without a use for its radio gives it
back. -/
def engage {α : Type} (m : Machine) (act : Schedule Host → Schedule Host × α) :
    Machine × Option α :=
  match m.engine with
  | none => (m, none)
  | some s =>
    let (s, result) := act { s with world := { s.world with daemon := m.daemon } }
    let s := if s.engine.isEnabled then s else { s with world := s.world.release }
    ({ m with engine := some s, daemon := s.world.daemon }, some result)

/-- Takes the engine away, and what it has registered. -/
def dismissEngine (m : Machine) : Machine :=
  let (m, _) := m.engage fun s => ({ s with world := s.world.release }, ())
  { m with engine := none }

/-- Opens an engine, in the stead of the one before. If its radio cannot be opened, it is
disabled. -/
def openEngine (m : Machine) (config : Config) : Machine :=
  let m := m.dismissEngine
  let (opened, daemon) := Host.acquire.run m.daemon
  let schedule := match opened with
    | .ok (central, peripheral) =>
      Schedule.start Host.radio ⟨daemon, central, peripheral, ∅⟩ (.new config) .wall
    | .error e => Schedule.start Host.radio (.closed daemon) (.withoutRadio config e.message) .wall
  { m with daemon, engine := some schedule }

/-- Makes a request to the engine. -/
def request (m : Machine) (request : Engine.Request) :
    Machine × Option (Except Engine.Error Unit) :=
  let (m, result) := m.engage fun s => s.request request
  (m, result.join)

/-! ### Scanning by hand -/

/-- Hands on at most `fuel` sightings. If nobody takes the first one, the scan is over. -/
def deliver : (fuel : Nat) → Machine → Machine
  | 0, m => m
  | fuel + 1, m =>
    match m.central with
    | none => m
    | some c =>
      let (heard, c) := c.hear m.daemon
      match heard with
      | none => { m with central := some c }
      | some sighting =>
        if m.attended then
          deliver fuel { m with central := some c, sightings := m.sightings.push sighting }
        else { m with central := some { c with scanning := none } }

/-- Hands on all there is. Every signal makes at most one sighting. -/
def deliverAll (m : Machine) : Machine :=
  match m.central.bind Central.scanning with
  | none => m
  | some scanning => deliver (scanning.pending.length + 1) m

/-- Opens a radio to scan and connect, in the stead of the one before. -/
def openCentral (m : Machine) : Machine × Except RadioError Unit :=
  match Central.acquire.run m.daemon with
  | (.ok central, daemon) => ({ m with daemon, central := some central, attended := false }, .ok ())
  | (.error e, daemon) => ({ m with daemon }, .error e)

/-- Gives up the radio that scans and connects. Its links stay. -/
def closeCentral (m : Machine) : Machine := { m with central := none }

/-- Starts a scan whose sightings somebody takes. The devices that are known already are sighted in
the order of their names. -/
def startScan (m : Machine) (manufacturerId : UInt16) : Machine × Except RadioError Unit :=
  match m.central with
  | none => (m, .error notOpen)
  | some c =>
    let (result, c, daemon) := c.startScan manufacturerId m.daemon
    let before := m.sightings
    let m := { m with daemon, central := some c, attended := true, sightings := #[] }.deliverAll
    let sighted := m.sightings.toList.mergeSort fun a b => (compare a.peer b.peer).isLE
    ({ m with sightings := before ++ sighted.toArray }, result)

/-- Stops the scan. -/
def stopScan (m : Machine) : Machine × Except RadioError Unit :=
  match m.central with
  | none => (m, .error notOpen)
  | some c =>
    let (result, c, daemon) := c.stopScan m.daemon
    ({ m with daemon, central := some c }, result)

/-- Nobody takes sightings any more. -/
def desert (m : Machine) : Machine := { m with attended := false }

/-- Opens a link and keeps it under a name. -/
def connect (m : Machine) (peer : RadioId) (name : String) : Machine × Except RadioError Unit :=
  match m.central with
  | none => (m, .error notOpen)
  | some c =>
    let (result, warnings, daemon) := c.connect peer m.daemon
    let m := { m with daemon, warnings := m.warnings ++ warnings.toArray }
    match result with
    | .ok link => ({ m with links := m.links.insert name link }, .ok ())
    | .error e => (m, .error e)

/-- Takes back an attempt to open a link. -/
def cancelConnect (m : Machine) (peer : RadioId) : Machine × Except RadioError Unit :=
  match m.central with
  | none => (m, .error notOpen)
  | some c =>
    let (result, daemon) := c.cancelConnect peer m.daemon
    ({ m with daemon }, result)

/-- Finds the services at the other end of a link. -/
def discover (m : Machine) (name : String) :
    Machine × Except RadioError (List RemoteService) :=
  match m.links.get? name with
  | none => (m, .error notOpen)
  | some link =>
    let (result, link, daemon) := link.discover m.daemon
    ({ m with daemon, links := m.links.insert name link }, result)

/-- Reads a characteristic over a link. -/
def read (m : Machine) (name : String) (service characteristic : Uuid) :
    Machine × Except RadioError Bytes :=
  match m.links.get? name with
  | none => (m, .error notOpen)
  | some link =>
    let (result, daemon) := (link.read service characteristic).run m.daemon
    ({ m with daemon }, result)

/-- Closes a link. -/
def disconnect (m : Machine) (name : String) : Machine × Except RadioError Unit :=
  match m.links.get? name with
  | none => (m, .error notOpen)
  | some link =>
    let (result, daemon) := link.disconnect.run m.daemon
    ({ m with daemon }, result)

/-! ### Serving by hand -/

/-- Gives up the radio that serves and broadcasts, and what it has registered. -/
def closePeripheral (m : Machine) : Machine :=
  match m.peripheral with
  | none => m
  | some p => { m with peripheral := none, daemon := p.release m.daemon }

/-- Opens a radio to serve and broadcast, in the stead of the one before. -/
def openPeripheral (m : Machine) : Machine × Except RadioError Unit :=
  match Peripheral.acquire.run m.daemon with
  | (.ok peripheral, daemon) =>
    ({ ({ m with daemon } : Machine).closePeripheral with peripheral := some peripheral }, .ok ())
  | (.error e, daemon) => ({ m with daemon }, .error e)

/-- Has the radio change what it serves or broadcasts. -/
def serve (m : Machine)
    (act : Peripheral → Daemon → Except RadioError Unit × Peripheral × Daemon) :
    Machine × Except RadioError Unit :=
  match m.peripheral with
  | none => (m, .error notOpen)
  | some p =>
    let (result, p, daemon) := act p m.daemon
    ({ m with daemon, peripheral := some p }, result)

/-! ### What devices do -/

/-- Tells every radio of signals about the devices of an adapter. -/
def signal (m : Machine) (adapter : String) (signals : List Signal) : Machine :=
  let central := m.central.map fun c => c.take adapter signals
  let m := { m with central }.deliverAll
  let (m, _) := m.engage fun s =>
    let central := s.world.central.take adapter signals
    ({ s with world := { s.world with central } }.wakeAll.quiesce, ())
  m

/-- A device comes into reach. -/
def appear (m : Machine) (adapter address : String) : Machine :=
  m.signal adapter [.heard (.device adapter address)]

/-- A device is heard again, or broadcasts some data, or both. The daemon may store the data. -/
def change (m : Machine) (adapter address : String) (heard : Bool)
    (data : Option (Table UInt16 Bytes)) (stored : Bool) : Machine :=
  let path := ObjectPath.device adapter address
  let daemon := match data with
    | some data => if stored then m.daemon.storeData path data else m.daemon
    | none => m.daemon
  let signals := (if heard then [.heard path] else []) ++
    (data.map fun data => .announced path data).toList
  { m with daemon }.signal adapter signals

/-! ### Reports -/

/-- What happened on a machine. -/
structure Report where
  calls : List LogEntry
  sightings : List Sighting
  warnings : List Warning
  events : List Event

/-- Takes out what happened so far. -/
def drain (m : Machine) : Machine × Report :=
  let (daemon, calls) := m.daemon.drain
  let report : Report := ⟨calls, m.sightings.toList, m.warnings.toList, []⟩
  let m := { m with daemon, sightings := #[], warnings := #[] }
  match m.engine with
  | none => (m, report)
  | some s =>
    let (s, events, warnings) := s.drain
    ({ m with engine := some s },
      { report with events := events.map (·.2), warnings := report.warnings ++ warnings })

end Machine

end Nearby.Bluetooth
