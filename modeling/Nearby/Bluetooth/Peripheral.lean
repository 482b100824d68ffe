import Nearby.Bluetooth.Daemon

/-!
# Serving and broadcasting through the Bluetooth daemon

A `Peripheral` offers its services as one application, so every change takes the application back
and registers another one. The services it is to offer and the application that is registered are
therefore kept apart: a registration may fail, and then nothing is offered until the next change.
-/

namespace Nearby.Bluetooth

/-- The failure in words, as the serving side tells it. -/
def Failure.explanation (f : Failure) : String :=
  if f.name = unknownObject then "the target object was either not present or removed"
  else
    let kind :=
      if f.name = "org.bluez.Error.Failed" then "Bluetooth operation failed"
      else if f.name = "org.bluez.Error.NotReady" then "Bluetooth device not ready"
      else if f.name = "org.bluez.Error.NotPermitted" then "Bluetooth operation not permitted"
      else s!"internal error: D-Bus error {f.name}"
    if f.text.isEmpty then kind else s!"{kind}: {f.text}"

/-- A radio that serves and broadcasts. -/
structure Peripheral where
  adapter : String
  /-- The services to offer. -/
  services : Application
  application : Option Registration
  broadcast : Option Registration

namespace Peripheral

open Dialogue

/-- The adapter to use when none is asked for: `hci0` if there is one, else the first. -/
def defaultAdapter : Dialogue String := do
  call .getManagedObjects
  let names := (← get).adapters.keys
  match if names.contains "hci0" then some "hci0" else names.head? with
  | some name => pure name
  | none => throw .missing

/-- True if an adapter is known to be on. -/
def isPowered (b : Daemon) (name : String) : Bool :=
  (b.fault? .get).isNone && (b.adapters.get? name).any (·.powered)

/-- Opens the default adapter and turns it on, if it is not. -/
def acquire : Exchange Peripheral := do
  reporting (fun f => .unavailable s!"BlueZ session: {f.explanation}") do
    call .hello
    call .addMatch
  let name ← reporting (fun f => .unavailable s!"BLE adapter: {f.explanation}") defaultAdapter
  if !isPowered (← get) name then
    reporting (fun f => .unavailable s!"Failed to power on adapter: {f.explanation}")
      (powerOn name)
  pure ⟨name, ∅, none, none⟩

/-! ### Registrations -/

/-- Takes back an application. If the daemon refuses, the application stays, and nobody holds it. -/
def withdrawApplication (registration : Option Registration) (b : Daemon) : Daemon :=
  match registration, b.fault? .unregisterApplication with
  | some r, none => { b with applications := b.applications.erase r }
  | _, _ => b

/-- Takes back a broadcast. If the daemon refuses, the broadcast stays, and nobody holds it. -/
def withdrawBroadcast (registration : Option Registration) (b : Daemon) : Daemon :=
  match registration, b.fault? .unregisterAdvertisement with
  | some r, none => { b with broadcasts := b.broadcasts.erase r }
  | _, _ => b

/-- Registers an application. -/
def submitApplication (adapter : String) (application : Application) : Dialogue Registration := do
  call .registerApplication
  note (.registerApplication adapter)
  let b ← get
  let r := b.nextRegistration
  set { b with applications := b.applications.insert r application, nextRegistration := r + 1 }
  pure r

/-- Registers a broadcast. -/
def submitBroadcast (adapter : String) (broadcast : Broadcast) : Dialogue Registration := do
  call .registerAdvertisement
  note (.registerAdvertisement adapter)
  let b ← get
  let r := b.nextRegistration
  set { b with broadcasts := b.broadcasts.insert r broadcast, nextRegistration := r + 1 }
  pure r

/-- Offers the services, in the stead of the application registered before. -/
def serve (p : Peripheral) (b : Daemon) : Except RadioError Unit × Peripheral × Daemon :=
  let b := withdrawApplication p.application b
  if p.services.isEmpty then (.ok (), { p with application := none }, b)
  else
    let exchange := reporting
      (fun f => .gattServer s!"Failed to register GATT services: {f.explanation}")
      (submitApplication p.adapter p.services)
    match exchange.run b with
    | (.ok r, b) => (.ok (), { p with application := some r }, b)
    | (.error e, b) => (.error e, { p with application := none }, b)

/-- Offers a service, in the stead of one with the same identifier. -/
def register (p : Peripheral) (service : Uuid) (characteristics : Characteristics) (b : Daemon) :
    Except RadioError Unit × Peripheral × Daemon :=
  { p with services := p.services.insert service characteristics }.serve b

/-- Offers a service no longer. -/
def unregister (p : Peripheral) (service : Uuid) (b : Daemon) :
    Except RadioError Unit × Peripheral × Daemon :=
  if p.services.contains service then
    { p with services := p.services.erase service }.serve b
  else (.ok (), p, b)

/-- Starts a broadcast, in the stead of the one before. -/
def startBroadcast (p : Peripheral) (broadcast : Broadcast) (b : Daemon) :
    Except RadioError Unit × Peripheral × Daemon :=
  let b := withdrawBroadcast p.broadcast b
  let exchange := reporting
    (fun f => .broadcast s!"Failed to start advertising: {f.explanation}")
    (submitBroadcast p.adapter broadcast)
  match exchange.run b with
  | (.ok r, b) => (.ok (), { p with broadcast := some r }, b)
  | (.error e, b) => (.error e, { p with broadcast := none }, b)

/-- Stops the broadcast. -/
def stopBroadcast (p : Peripheral) (b : Daemon) : Peripheral × Daemon :=
  ({ p with broadcast := none }, withdrawBroadcast p.broadcast b)

/-- Takes back all that is registered. -/
def release (p : Peripheral) (b : Daemon) : Daemon :=
  withdrawBroadcast p.broadcast (withdrawApplication p.application b)

end Peripheral

/-- The value of a characteristic that is offered. -/
def Daemon.servedValue? (b : Daemon) (service characteristic : Uuid) : Option Bytes :=
  b.applications.values.findSome? fun application =>
    (application.get? service).bind fun characteristics => characteristics.get? characteristic

end Nearby.Bluetooth
