import Nearby.Radio
import Nearby.Scripted
import Nearby.Text.Quoted

/-!
# The Bluetooth daemon, as data

The Bluetooth adapters of a machine belong to a daemon. A program talks to it over a message bus, by
calling methods of its objects: of an adapter, of a device the adapter has heard, of the services of
the device. This module holds such a daemon as a data structure, the `Daemon`, together with the
methods that a radio calls.

A method may be told to fail, and then it does so before anything else. What was done before a
failure stays done, so a `Dialogue` with the daemon keeps its state when it fails.
-/

namespace Nearby.Bluetooth

/-- A method of the daemon or of the bus that may be told to fail. -/
inductive Method
  | hello
  | addMatch
  | getManagedObjects
  | introspect
  | get
  | getAll
  | set
  | setDiscoveryFilter
  | startDiscovery
  | stopDiscovery
  | connect
  | disconnect
  | readValue
  | registerApplication
  | unregisterApplication
  | registerAdvertisement
  | unregisterAdvertisement
  deriving DecidableEq, Repr

/-- The name of a method on the bus. -/
def Method.name : Method → String
  | .hello => "Hello"
  | .addMatch => "AddMatch"
  | .getManagedObjects => "GetManagedObjects"
  | .introspect => "Introspect"
  | .get => "Get"
  | .getAll => "GetAll"
  | .set => "Set"
  | .setDiscoveryFilter => "SetDiscoveryFilter"
  | .startDiscovery => "StartDiscovery"
  | .stopDiscovery => "StopDiscovery"
  | .connect => "Connect"
  | .disconnect => "Disconnect"
  | .readValue => "ReadValue"
  | .registerApplication => "RegisterApplication"
  | .unregisterApplication => "UnregisterApplication"
  | .registerAdvertisement => "RegisterAdvertisement"
  | .unregisterAdvertisement => "UnregisterAdvertisement"

/-- The methods that may be told to fail. -/
def Method.all : List Method :=
  [.hello, .addMatch, .getManagedObjects, .introspect, .get, .getAll, .set, .setDiscoveryFilter,
    .startDiscovery, .stopDiscovery, .connect, .disconnect, .readValue, .registerApplication,
    .unregisterApplication, .registerAdvertisement, .unregisterAdvertisement]

/-- The method with a name. -/
def Method.ofName? (name : String) : Option Method := Method.all.find? fun m => m.name = name

/-- How a method fails: a name for programs and a text for people. -/
structure Failure where
  name : String
  text : String
  deriving DecidableEq, Repr

namespace Failure

/-- The name of the failure of a call to an object that is not there. -/
def unknownObject : String := "org.freedesktop.DBus.Error.UnknownObject"

/-- The failure of a call to an object that is not there. -/
def missing : Failure := ⟨unknownObject, "no such object"⟩

end Failure

/-! ### Objects -/

/-- The name of an object. -/
structure ObjectPath where
  text : String
  deriving DecidableEq, Repr

namespace ObjectPath

instance : Ord ObjectPath := ⟨fun a b => compare a.text b.text⟩

instance : Std.TransOrd ObjectPath := transOrd_of_key ObjectPath.text fun _ _ => rfl

instance : Std.LawfulEqOrd ObjectPath :=
  lawfulEqOrd_of_key ObjectPath.text (fun _ _ => rfl) fun a b h => by
    cases a; cases b; cases h; rfl

/-- The object of a device that an adapter knows. -/
def device (adapter address : String) : ObjectPath := ⟨s!"/org/bluez/{adapter}/dev_{address}"⟩

/-- The name under which the radio reports a device. It shows the path with its closing zero. -/
def radioId (path : ObjectPath) : RadioId :=
  let shown := Text.quoted (path.text.push '\x00')
  ⟨s!"PeripheralId(DeviceId \x7b object_path: Path({shown}) \x7d)"⟩

end ObjectPath

/-- An adapter. -/
structure Adapter where
  powered : Bool
  /-- False if the daemon tells too little about the adapter to scan with it. -/
  complete : Bool
  deriving DecidableEq, Repr

/-- How the daemon handles a characteristic of a device. -/
structure Manner where
  flags : List String
  /-- How a read fails, if it does. -/
  failure : Option Failure
  deriving DecidableEq

/-- A characteristic that can be read, and is. -/
def Manner.plain : Manner := ⟨["read"], none⟩

/-- A device an adapter has heard. -/
structure Device where
  adapter : String
  address : String
  /-- What the device broadcasts, by manufacturer identifier. -/
  data : Table UInt16 Bytes
  services : List (Scripted.Service Manner)
  /-- False if the daemon tells too little about the device to connect to it. -/
  complete : Bool
  connectFailure : Option Failure
  disconnectFailure : Option Failure

/-- The object of a device. -/
def Device.path (d : Device) : ObjectPath := .device d.adapter d.address

/-- What a device advertises by order of a program. -/
structure Broadcast where
  manufacturerId : UInt16
  payload : Bytes
  deriving DecidableEq, Repr

/-- The services a program offers, with the characteristics of each. -/
abbrev Application := Table Uuid Characteristics

/-- Numbers what is registered with the daemon. -/
abbrev Registration := Nat

/-! ### The daemon -/

/-- What the daemon was asked to do. -/
inductive LogEntry
  | setPowered (adapter : String) (on : Bool)
  | startDiscovery (adapter : String)
  | stopDiscovery (adapter : String)
  | connect (address : String)
  | disconnect (address : String)
  | readValue (characteristic : Uuid)
  | registerApplication (adapter : String)
  | registerAdvertisement (adapter : String)
  deriving DecidableEq

/-- The daemon. -/
structure Daemon where
  adapters : Table String Adapter
  devices : Table ObjectPath Device
  /-- The methods that fail, and how. -/
  faults : List (Method × Failure)
  applications : Table Registration Application
  broadcasts : Table Registration Broadcast
  nextRegistration : Registration
  log : Array LogEntry

/-- Why a device is not found. -/
inductive Absence
  | unknown
  | incomplete
  deriving DecidableEq, Repr

/-- The reason in words. -/
def Absence.text : Absence → String
  | .unknown => "Device not found"
  | .incomplete => "Required property Address missing."

namespace Daemon

/-- A daemon without adapters. -/
def empty : Daemon := ⟨∅, ∅, [], ∅, ∅, 0, #[]⟩

/-- How a method fails, if it is told to. -/
def fault? (b : Daemon) (m : Method) : Option Failure := b.faults.lookup m

/-- Places an adapter, in the stead of one with the same name. -/
def placeAdapter (b : Daemon) (name : String) (adapter : Adapter) : Daemon :=
  { b with adapters := b.adapters.insert name adapter }

/-- Places a device, in the stead of one with the same path. -/
def placeDevice (b : Daemon) (d : Device) : Daemon :=
  { b with devices := b.devices.insert d.path d }

/-- Takes a device away. -/
def removeDevice (b : Daemon) (path : ObjectPath) : Daemon :=
  { b with devices := b.devices.erase path }

/-- Stores what a device broadcasts now, if there is such a device. -/
def storeData (b : Daemon) (path : ObjectPath) (data : Table UInt16 Bytes) : Daemon :=
  match b.devices.get? path with
  | none => b
  | some d => { b with devices := b.devices.insert path { d with data } }

/-- A device as far as a program can tell. -/
def find (b : Daemon) (path : ObjectPath) : Except Absence Device :=
  match b.fault? .getAll, b.devices.get? path with
  | none, some d => if d.complete then .ok d else .error .incomplete
  | _, _ => .error .unknown

/-- The devices of an adapter that a program can tell. -/
def devicesOf (b : Daemon) (adapter : String) : List Device :=
  b.devices.values.filter fun d => d.adapter = adapter && d.complete

/-- Takes out what was logged so far. -/
def drain (b : Daemon) : Daemon × List LogEntry := ({ b with log := #[] }, b.log.toList)

end Daemon

/-! ### Dialogues -/

/-- A dialogue with the daemon. What was done before a failure stays done. -/
abbrev Dialogue (α : Type) := ExceptT Failure (StateM Daemon) α

/-- A dialogue whose failure is an error of the radio. -/
abbrev Exchange (α : Type) := ExceptT RadioError (StateM Daemon) α

namespace Dialogue

/-- Tells the failure of a dialogue as an error of the radio. -/
def reporting {α : Type} (error : Failure → RadioError) (d : Dialogue α) : Exchange α :=
  ExceptT.adapt error d

/-- Calls a method, which fails if it is told to. -/
def call (m : Method) : Dialogue Unit := do
  match (← get).fault? m with
  | some failure => throw failure
  | none => pure ()

/-- Logs what the daemon was asked to do. -/
def note (entry : LogEntry) : Dialogue Unit :=
  modify fun b => { b with log := b.log.push entry }

/-- Fails if there is a failure. -/
def failing : Option Failure → Dialogue Unit
  | some failure => throw failure
  | none => pure ()

/-- The device with a path. -/
def device (path : ObjectPath) : Dialogue Device := do
  match (← get).devices.get? path with
  | some d => pure d
  | none => throw .missing

/-- Turns an adapter on. -/
def powerOn (name : String) : Dialogue Unit := do
  call .set
  note (.setPowered name true)
  modify fun b => match b.adapters.get? name with
    | none => b
    | some adapter => b.placeAdapter name { adapter with powered := true }

/-- Closes the link to a device. -/
def disconnect (path : ObjectPath) : Dialogue Unit := do
  call .disconnect
  let d ← device path
  note (.disconnect d.address)
  failing d.disconnectFailure

end Dialogue

end Nearby.Bluetooth
