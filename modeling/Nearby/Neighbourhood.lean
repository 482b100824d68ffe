import Nearby.Schedule
import Nearby.Scripted

/-!
# A simulated neighbourhood

A neighbourhood is a radio together with the devices in its reach, as data. Each device is scripted:
how long its answers take, and where it fails or falls silent. A device may also stand for the
radio's own side: it then serves and broadcasts what the radio was told to.

Everything the radio is asked to do is logged as soon as it is asked.
-/

namespace Nearby

namespace Neighbourhood

/-- How a device reacts to some attempt. -/
inductive Reaction
  | ok
  | refuse
  | fail
  /-- The link is lost. -/
  | drop
  /-- The device takes too long, and the radio says so. -/
  | timeout
  /-- The device never answers. -/
  | hang
  deriving DecidableEq, Repr, Inhabited

/-- The reaction with a name. -/
def Reaction.ofName? : String → Option Reaction
  | "ok" => some .ok
  | "refuse" => some .refuse
  | "fail" => some .fail
  | "drop" => some .drop
  | "timeout" => some .timeout
  | "hang" => some .hang
  | _ => none

/-- How a device handles a characteristic. -/
structure Manner where
  readable : Bool
  reaction : Reaction
  deriving DecidableEq

/-- What a device does with a characteristic unless it is told otherwise. -/
def Manner.plain : Manner := ⟨true, .ok⟩

/-- A device. Times are in milliseconds. -/
structure Device where
  peer : RadioId
  /-- What the device broadcasts, if it does. -/
  payload : Option Bytes
  /-- True for a device that serves and broadcasts what the radio itself does. -/
  own : Bool
  connect : Reaction
  connectTime : Nat
  cancel : Reaction
  discover : Reaction
  discoverTime : Nat
  readTime : Nat
  disconnect : Reaction
  disconnectTime : Nat
  services : List (Scripted.Service Manner)

/-- An attempt that the radio may be told to fail. -/
inductive Attempt
  | startScan
  | stopScan
  | register
  | unregister
  | startBroadcast
  | stopBroadcast
  deriving DecidableEq, Repr

/-- The attempt with a name. -/
def Attempt.ofName? : String → Option Attempt
  | "start_scan" => some .startScan
  | "stop_scan" => some .stopScan
  | "register" => some .register
  | "unregister" => some .unregister
  | "start_broadcast" => some .startBroadcast
  | "stop_broadcast" => some .stopBroadcast
  | _ => none

/-- What the radio was asked to do. -/
inductive LogEntry
  | startScan (manufacturerId : UInt16)
  | stopScan
  | connect (peer : RadioId)
  | cancelConnect (peer : RadioId)
  | discover (peer : RadioId)
  | read (peer : RadioId) (service characteristic : Uuid)
  | disconnect (peer : RadioId)
  | register (service : Uuid) (characteristics : Characteristics)
  | unregister (service : Uuid)
  | startBroadcast (manufacturerId : UInt16) (stamp : Stamp)
  | stopBroadcast
  deriving DecidableEq

end Neighbourhood

open Neighbourhood

/-- A radio and the devices in its reach. -/
structure Neighbourhood where
  /-- False if the radio cannot serve or broadcast. -/
  canServe : Bool
  devices : List Device
  failing : List Attempt
  /-- The time the radio takes to change what it serves or broadcasts. -/
  serveTime : Nat
  scanning : Bool
  served : Table Uuid Characteristics
  broadcast : Option Stamp
  /-- The device at the other end of each link, as it was when the link was asked for. -/
  links : Table FetchId Device
  log : Array LogEntry

namespace Neighbourhood

/-- A radio with nobody around. -/
def deserted (canServe : Bool) : Neighbourhood := ⟨canServe, [], [], 0, false, ∅, none, ∅, #[]⟩

/-- The device with a name. -/
def device? (n : Neighbourhood) (peer : RadioId) : Option Device :=
  n.devices.find? fun d => d.peer = peer

/-- Places a device, in the stead of one with the same name. -/
def place (n : Neighbourhood) (d : Device) : Neighbourhood :=
  { n with devices := n.devices.filter (fun other => other.peer ≠ d.peer) ++ [d] }

/-- Logs what the radio is asked to do. -/
def note (n : Neighbourhood) (entry : LogEntry) : Neighbourhood :=
  { n with log := n.log.push entry }

/-- What a device broadcasts. -/
def payloadOf (n : Neighbourhood) (d : Device) : Option Bytes :=
  if d.own then n.broadcast.map Stamp.payload else d.payload

/-- The services of the radio itself, as another device finds them. -/
def ownServices (n : Neighbourhood) : List (Scripted.Service Manner) :=
  n.served.entries.map fun (service, characteristics) =>
    ⟨service, characteristics.entries.map fun (uuid, value) => ⟨uuid, value, .plain⟩⟩

/-- The device at the other end of a link that is asked for now. -/
def endpoint (n : Neighbourhood) (d : Device) : Device :=
  if d.own then { d with services := n.ownServices } else d

/-- The time a device takes for an attempt; none if it hangs. -/
def timeFor (reaction : Reaction) (time : Nat) : Option Nat :=
  if reaction = .hang then none else some time

/-- The peer at the other end of a link. -/
def peerOf (n : Neighbourhood) (link : FetchId) : RadioId :=
  ((n.links.get? link).map Device.peer).getD ⟨""⟩

/-- The characteristic that answers a read. -/
def Device.characteristic? (d : Device) (service characteristic : Uuid) :
    Option (Scripted.Characteristic Manner) :=
  (d.services.filter fun s => s.uuid = service).flatMap (·.characteristics)
    |>.find? fun c => c.uuid = characteristic

/-- Takes a call. Only a radio that can serve takes its time to do so. -/
def accept (call : Call) (n : Neighbourhood) : Option Nat × Neighbourhood :=
  let serving (entry : LogEntry) : Option Nat × Neighbourhood :=
    if n.canServe then (some n.serveTime, n.note entry) else (some 0, n)
  match call with
  | .startScan manufacturerId => (some 0, n.note (.startScan manufacturerId))
  | .stopScan => (some 0, n.note .stopScan)
  | .connect link peer =>
    let n := n.note (.connect peer)
    match n.device? peer with
    | none => (some 0, n)
    | some d =>
      (timeFor d.connect d.connectTime, { n with links := n.links.insert link (n.endpoint d) })
  | .cancelConnect peer =>
    let reaction := ((n.device? peer).map Device.cancel).getD .ok
    (timeFor reaction 0, n.note (.cancelConnect peer))
  | .discover link =>
    let time := match n.links.get? link with
      | none => some 0
      | some d => timeFor d.discover d.discoverTime
    (time, n.note (.discover (n.peerOf link)))
  | .read link service characteristic =>
    let time := match n.links.get? link with
      | none => some 0
      | some d =>
        let reaction := ((d.characteristic? service characteristic).map (·.manner.reaction)).getD .ok
        timeFor reaction d.readTime
    (time, n.note (.read (n.peerOf link) service characteristic))
  | .disconnect link =>
    let time := match n.links.get? link with
      | none => some 0
      | some d => timeFor d.disconnect d.disconnectTime
    (time, n.note (.disconnect (n.peerOf link)))
  | .register service characteristics => serving (.register service characteristics)
  | .unregister service => serving (.unregister service)
  | .startBroadcast manufacturerId stamp => serving (.startBroadcast manufacturerId stamp)
  | .stopBroadcast => serving .stopBroadcast

/-- An answer that gives nothing back. -/
def plain (result : Except RadioError Unit) (n : Neighbourhood) :
    Answer × List Warning × Neighbourhood := (.done result, [], n)

/-- The error of a radio that cannot serve. -/
def unsupported : RadioError :=
  .unavailable "BLE peripheral mode is not supported on this platform"

/-- How a radio that cannot serve takes a call to do so. -/
def answerUnsupported : Call → Except RadioError Unit × List Warning
  | .register service _ => (.error unsupported, [.servingUnsupported service])
  | .startBroadcast _ _ => (.error unsupported, [])
  | _ => (.ok (), [])

/-- Answers a call about what the radio serves and broadcasts. -/
def answerServing (n : Neighbourhood) (attempt : Attempt) (error : RadioError)
    (done : Neighbourhood) (call : Call) : Answer × List Warning × Neighbourhood :=
  if !n.canServe then
    let (result, warnings) := answerUnsupported call
    (.done result, warnings, n)
  else if attempt ∈ n.failing then plain (.error error) n
  else plain (.ok ()) done

/-- Answers a call. -/
def answer (call : Call) (n : Neighbourhood) : Answer × List Warning × Neighbourhood :=
  match call with
  | .startScan _ =>
    if .startScan ∈ n.failing then plain (.error (.scan "mock start")) n
    else plain (.ok ()) { n with scanning := true }
  | .stopScan =>
    if .stopScan ∈ n.failing then plain (.error (.scan "mock stop")) n
    else plain (.ok ()) { n with scanning := false }
  | .connect link peer =>
    match n.links.get? link with
    | none => plain (.error (.peerNotFound peer.text)) n
    | some d =>
      if d.connect = .refuse then plain (.error (.connectFailed peer.text "refused")) n
      else plain (.ok ()) n
  | .cancelConnect peer =>
    if ((n.device? peer).map Device.cancel) = some .fail then
      plain (.error (.peerNotFound peer.text)) n
    else plain (.ok ()) n
  | .discover link =>
    let result : Except RadioError (List RemoteService) :=
      match n.links.get? link with
      | none => .error .disconnected
      | some d =>
        match d.discover with
        | .fail => .error (.serviceDiscoveryFailed "mock discover")
        | .drop => .error .disconnected
        | _ => .ok (d.services.map fun s =>
          ⟨s.uuid, s.characteristics.map fun c => ⟨c.uuid, c.manner.readable⟩⟩)
    (.services result, [], n)
  | .read link service characteristic =>
    let failed (reason : String) : Except RadioError Bytes :=
      .error (.readFailed characteristic reason)
    let result : Except RadioError Bytes :=
      match (n.links.get? link).bind fun d => d.characteristic? service characteristic with
      | none => failed "mock read"
      | some c =>
        match c.manner.reaction with
        | .fail => failed "mock read"
        | .drop => .error .disconnected
        | .timeout => .error (.timeout 77)
        | _ => .ok c.value
    (.value result, [], n)
  | .disconnect link =>
    if ((n.links.get? link).map Device.disconnect) = some .fail then
      plain (.error .disconnected) n
    else plain (.ok ()) n
  | .register service characteristics =>
    n.answerServing .register (.gattServer "mock register")
      { n with served := n.served.insert service characteristics } call
  | .unregister service =>
    n.answerServing .unregister (.gattServer "mock unregister")
      { n with served := n.served.erase service } call
  | .startBroadcast _ stamp =>
    n.answerServing .startBroadcast (.broadcast "mock start")
      { n with broadcast := some stamp } call
  | .stopBroadcast =>
    n.answerServing .stopBroadcast (.broadcast "mock stop") { n with broadcast := none } call

/-- The radio of a neighbourhood. It hears only what it is told to. -/
def radio : SimulatedRadio Neighbourhood := ⟨accept, answer, fun n => (none, n), fun _ => false⟩

/-- Takes out what was logged so far. -/
def drain (n : Neighbourhood) : Neighbourhood × List LogEntry := ({ n with log := #[] }, n.log.toList)

end Neighbourhood

namespace Schedule

/-- True if a broadcast that is heard now reaches the pipeline: the radio scans, and the pipeline
has not shut down. -/
def isReachable (s : Schedule Neighbourhood) : Bool :=
  let exited := match s.engine.pipeline.control with
    | .exited => true
    | _ => false
  s.world.scanning && !exited

/-- Has the radio hear devices one after the other, and tells of each whether its broadcast reached
the pipeline. A device is heard with the given payload, or else with what it broadcasts. -/
def sight (s : Schedule Neighbourhood) (peers : List RadioId) (payload : Option Bytes) :
    Schedule Neighbourhood × List Bool :=
  let (s, delivered) := peers.foldl (fun (s, delivered) peer =>
    let heard := payload.or ((s.world.device? peer).bind s.world.payloadOf)
    match heard with
    | some payload =>
      if s.isReachable then (s.scan (.hear ⟨peer, payload⟩), delivered ++ [true])
      else (s, delivered ++ [false])
    | none => (s, delivered ++ [false])) (s, [])
  (s.quiesce, delivered)

end Schedule

end Nearby
