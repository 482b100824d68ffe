import Nearby.Bluetooth.Daemon
import Nearby.Warning

/-!
# Scanning and connecting through the Bluetooth daemon

A `Central` scans with an adapter and opens links to the devices it has sighted. The daemon tells it
of devices by signals. A signal may carry the data of a broadcast, or only say that a device was
heard again; then the data is looked up. Either way the device has to be found, and to broadcast
under the manufacturer identifier that is scanned for; it is known from then on, and only devices
that are known can be connected to.

A `Link` finds services and reads them. The daemon numbers the characteristics of a device, so a
link keeps for each one it has found where it stands, and reads whatever stands there.
-/

namespace Nearby.Bluetooth

/-- What the daemon tells of a device while it scans. -/
inductive Signal
  /-- The device was heard; what it broadcasts is to be looked up. -/
  | heard (path : ObjectPath)
  /-- The device broadcasts some data. -/
  | announced (path : ObjectPath) (data : Table UInt16 Bytes)

/-- The device a signal tells of. -/
def Signal.path : Signal → ObjectPath
  | .heard path => path
  | .announced path _ => path

/-- What a signal tells a program that scans for a manufacturer identifier, if anything. -/
def Signal.payload? (b : Daemon) (manufacturerId : UInt16) (signal : Signal) : Option Bytes :=
  match b.find signal.path with
  | .error _ => none
  | .ok d =>
    match signal with
    | .heard _ => d.data.get? manufacturerId
    | .announced _ data => data.get? manufacturerId

/-- A scan, with the signals that were not looked at yet. -/
structure Scanning where
  manufacturerId : UInt16
  pending : List Signal

/-- A radio that scans and connects. -/
structure Central where
  adapter : String
  /-- The devices that were sighted. -/
  known : Table RadioId ObjectPath
  scanning : Option Scanning

namespace Central

open Dialogue

/-- Opens the first adapter that the daemon tells enough about. -/
def acquire : Exchange Central := do
  reporting (fun f => .unavailable s!"Failed to create BLE manager: {f.text}") (call .hello)
  reporting (fun f => .unavailable s!"Failed to get BLE adapters: {f.text}")
    (call .getManagedObjects)
  let adapters := (← get).adapters.filter fun _ adapter => adapter.complete
  match adapters.keys with
  | name :: _ => pure ⟨name, ∅, none⟩
  | [] => throw (.unavailable "No BLE adapters available")

/-! ### Scanning -/

/-- Asks to be told of devices. The daemon begins with those it knows already. -/
def observe (adapter : String) : Dialogue (List Signal) := do
  call .addMatch
  call .getManagedObjects
  pure (((← get).devicesOf adapter).map fun d => .heard d.path)

/-- Sets a scan going, on an adapter that is turned on for it. -/
def beginDiscovery (adapter : String) : Dialogue Unit := do
  powerOn adapter
  call .setDiscoveryFilter
  call .startDiscovery
  note (.startDiscovery adapter)

/-- Gets a scan with the given adapter going. -/
def scanWith (adapter : String) (manufacturerId : UInt16) : Exchange Scanning := do
  let signals ← reporting (fun f => .scan s!"Failed to get adapter events: {f.text}")
    (observe adapter)
  reporting (fun f => .scan s!"Failed to start BLE scan: {f.text}") (beginDiscovery adapter)
  pure ⟨manufacturerId, signals⟩

/-- Starts a scan. An earlier one is over, whether the new one starts or not. -/
def startScan (c : Central) (manufacturerId : UInt16) (b : Daemon) :
    Except RadioError Unit × Central × Daemon :=
  match (scanWith c.adapter manufacturerId).run b with
  | (.ok scanning, b) => (.ok (), { c with scanning := some scanning }, b)
  | (.error e, b) => (.error e, { c with scanning := none }, b)

/-- Ends a discovery. -/
def endDiscovery (adapter : String) : Exchange Unit :=
  reporting (fun f => .scan s!"Failed to stop BLE scan: {f.text}") do
    call .stopDiscovery
    note (.stopDiscovery adapter)

/-- Stops scanning, whether the daemon does or not. -/
def stopScan (c : Central) (b : Daemon) : Except RadioError Unit × Central × Daemon :=
  let (result, b) := (endDiscovery c.adapter).run b
  (result, { c with scanning := none }, b)

/-- Takes signals about the devices of an adapter. They are lost on a radio that does not scan, or
not with that adapter. -/
def take (c : Central) (adapter : String) (signals : List Signal) : Central :=
  match c.scanning with
  | none => c
  | some scanning =>
    if adapter = c.adapter then
      { c with scanning := some { scanning with pending := scanning.pending ++ signals } }
    else c

/-- The first signal that tells something, with what it tells and the signals behind it. -/
def firstTelling (b : Daemon) (manufacturerId : UInt16) :
    List Signal → Option (ObjectPath × Bytes × List Signal)
  | [] => none
  | signal :: rest =>
    match signal.payload? b manufacturerId with
    | some payload => some (signal.path, payload, rest)
    | none => firstTelling b manufacturerId rest

/-- The next sighting. The device is known from then on. -/
def hear (c : Central) (b : Daemon) : Option Sighting × Central :=
  match c.scanning with
  | none => (none, c)
  | some scanning =>
    match firstTelling b scanning.manufacturerId scanning.pending with
    | none => (none, { c with scanning := some { scanning with pending := [] } })
    | some (path, payload, rest) =>
      (some ⟨path.radioId, payload⟩,
        { c with
          known := c.known.insert path.radioId path
          scanning := some { scanning with pending := rest } })

/-- True if there are signals to look at. -/
def hasPending (c : Central) : Bool :=
  match c.scanning with
  | none => false
  | some scanning => !scanning.pending.isEmpty

end Central

/-! ### Links -/

/-- Where a link has found a characteristic. -/
structure Place where
  /-- The number of the service among those of the device. -/
  service : Nat
  /-- The number of the characteristic among those of the service. -/
  characteristic : Nat
  readable : Bool
  deriving DecidableEq, Repr

/-- What a link has found on a device. -/
abbrev Findings := Table Uuid (Table Uuid Place)

namespace Findings

/-- The flags a characteristic may have. -/
def knownFlags : List String :=
  ["broadcast", "read", "write-without-response", "write", "notify", "indicate",
    "authenticated-signed-writes", "extended-properties", "reliable-write",
    "writable-auxiliaries", "encrypt-read", "encrypt-write", "encrypt-authenticated-read",
    "encrypt-authenticated-write", "authorize"]

/-- A flag nobody knows, if a characteristic has one. -/
def unknownFlag? (services : List (Scripted.Service Manner)) : Option String :=
  let flags := services.flatMap fun s => s.characteristics.flatMap (·.manner.flags)
  flags.find? fun flag => !knownFlags.contains flag

/-- What there is to find in a service. Of characteristics with one identifier, it is the first. -/
def ofService (number : Nat) (s : Scripted.Service Manner) : Table Uuid Place :=
  let places := s.characteristics.zipIdx.map fun (c, i) =>
    (c.uuid, (⟨number, i, c.manner.flags.contains "read"⟩ : Place))
  Table.ofList places.reverse

/-- What there is to find on a device. Of services with one identifier, it is the last. -/
def ofServices (services : List (Scripted.Service Manner)) : Findings :=
  Table.ofList (services.zipIdx.map fun (s, number) => (s.uuid, ofService number s))

/-- Findings as the radio reports them. -/
def report (findings : Findings) : List RemoteService :=
  findings.entries.map fun (uuid, places) =>
    ⟨uuid, places.entries.map fun (uuid, place) => ⟨uuid, place.readable⟩⟩

/-- Where a characteristic was found. -/
def place? (findings : Findings) (service characteristic : Uuid) : Option Place :=
  (findings.get? service).bind fun places => places.get? characteristic

end Findings

/-- A link to a device. -/
structure Link where
  peer : RadioId
  path : ObjectPath
  findings : Findings

namespace Link

open Dialogue

/-- Opens a link to a device that was found. -/
def establish (path : ObjectPath) : Dialogue Unit := do
  call .connect
  let d ← device path
  note (.connect d.address)
  failing d.connectFailure
  call .addMatch
  call .get

/-- Looks through the services of a device. -/
def survey (path : ObjectPath) : Dialogue (List (Scripted.Service Manner)) := do
  call .introspect
  let d ← device path
  if !d.services.isEmpty then call .get
  if d.services.any fun s => !s.characteristics.isEmpty then call .getAll
  pure d.services

/-- What there is to find on a device. -/
def explore (path : ObjectPath) : Exchange Findings := do
  let services ← reporting (fun f => .serviceDiscoveryFailed f.text) (survey path)
  match Findings.unknownFlag? services with
  | some flag =>
    let shown := Text.quoted flag
    throw (.serviceDiscoveryFailed s!"Invalid characteristic flag {shown}")
  | none => pure (.ofServices services)

/-- Finds the services of the device. If that fails, earlier findings stay. -/
def discover (l : Link) (b : Daemon) : Except RadioError (List RemoteService) × Link × Daemon :=
  match (explore l.path).run b with
  | (.ok findings, b) => (.ok findings.report, { l with findings }, b)
  | (.error e, b) => (.error e, l, b)

/-- Reads what stands at a place. -/
def readAt (path : ObjectPath) (place : Place) : Dialogue Bytes := do
  call .readValue
  let d ← device path
  match (d.services[place.service]?).bind fun s => s.characteristics[place.characteristic]? with
  | none => throw .missing
  | some c =>
    note (.readValue c.uuid)
    failing c.manner.failure
    pure c.value

/-- Reads a characteristic that was found. -/
def read (l : Link) (service characteristic : Uuid) : Exchange Bytes :=
  match l.findings.place? service characteristic with
  | none => throw (.readFailed characteristic s!"not found in service {service.text}")
  | some place => reporting (fun f => .readFailed characteristic f.text) (readAt l.path place)

/-- Closes the link. -/
def disconnect (l : Link) : Exchange Unit :=
  reporting (fun f => .connectFailed l.peer.text s!"disconnect: {f.text}")
    (Dialogue.disconnect l.path)

end Link

namespace Central

open Dialogue

/-- Opens a link to a device that was sighted. -/
def connect (c : Central) (peer : RadioId) (b : Daemon) :
    Except RadioError Link × List Warning × Daemon :=
  match c.known.get? peer with
  | none => (.error (.peerNotFound peer.text), [], b)
  | some path =>
    match b.find path with
    | .error absence =>
      (.error (.peerNotFound peer.text), [.peerVanished peer absence.text], b)
    | .ok _ =>
      let dialogue : Exchange Link := do
        reporting (fun f => .connectFailed peer.text f.text) (Link.establish path)
        pure ⟨peer, path, ∅⟩
      let (result, b) := dialogue.run b
      (result, [], b)

/-- Takes back an attempt to open a link. There is nothing to take back from a device that is not
found. -/
def cancelConnect (c : Central) (peer : RadioId) (b : Daemon) : Except RadioError Unit × Daemon :=
  match c.known.get? peer with
  | none => (.ok (), b)
  | some path =>
    match b.find path with
    | .error _ => (.ok (), b)
    | .ok _ =>
      (reporting (fun f => .connectFailed peer.text s!"cancel failed: {f.text}")
        (Dialogue.disconnect path)).run b

end Central

end Nearby.Bluetooth
