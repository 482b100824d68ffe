import Nearby.Bluetooth.Central
import Nearby.Bluetooth.Peripheral
import Nearby.Schedule

/-!
# An engine on the Bluetooth daemon

The radio of an engine has two roles, and both talk to the same daemon. The daemon answers at once,
so no call takes time; only sightings are waited for.
-/

namespace Nearby.Bluetooth

/-- A radio with both roles, and the daemon it talks to. -/
structure Host where
  daemon : Daemon
  central : Central
  peripheral : Peripheral
  links : Table FetchId Link

namespace Host

/-- Opens a radio, the scanning role first. -/
def acquire : Exchange (Central × Peripheral) := do
  let central ← Central.acquire
  let peripheral ← Peripheral.acquire
  pure (central, peripheral)

/-- A radio that could not be opened. Nobody calls it. -/
def closed (w : Daemon) : Host := ⟨w, ⟨"", ∅, none⟩, ⟨"", ∅, none, none⟩, ∅⟩

/-- An answer that gives nothing back. -/
def plain (result : Except RadioError Unit) (h : Host) : Answer × List Warning × Host :=
  (.done result, [], h)

/-- Answers for the role that scans. -/
def answerCentral (h : Host) (answered : Except RadioError Unit × Central × Daemon) :
    Answer × List Warning × Host :=
  let (result, central, daemon) := answered
  plain result { h with central, daemon }

/-- Answers for the role that serves. -/
def answerPeripheral (h : Host) (answered : Except RadioError Unit × Peripheral × Daemon) :
    Answer × List Warning × Host :=
  let (result, peripheral, daemon) := answered
  plain result { h with peripheral, daemon }

/-- Answers a call. -/
def answer (call : Call) (h : Host) : Answer × List Warning × Host :=
  match call with
  | .startScan manufacturerId => h.answerCentral (h.central.startScan manufacturerId h.daemon)
  | .stopScan => h.answerCentral (h.central.stopScan h.daemon)
  | .connect link peer =>
    match h.central.connect peer h.daemon with
    | (.ok l, warnings, daemon) =>
      (.done (.ok ()), warnings, { h with daemon, links := h.links.insert link l })
    | (.error e, warnings, daemon) => (.done (.error e), warnings, { h with daemon })
  | .cancelConnect peer =>
    let (result, daemon) := h.central.cancelConnect peer h.daemon
    plain result { h with daemon }
  | .discover link =>
    match h.links.get? link with
    | none => (.services (.error .disconnected), [], h)
    | some l =>
      let (result, l, daemon) := l.discover h.daemon
      (.services result, [], { h with daemon, links := h.links.insert link l })
  | .read link service characteristic =>
    match h.links.get? link with
    | none => (.value (.error .disconnected), [], h)
    | some l =>
      let (result, daemon) := (l.read service characteristic).run h.daemon
      (.value result, [], { h with daemon })
  | .disconnect link =>
    match h.links.get? link with
    | none => plain (.error .disconnected) h
    | some l =>
      let (result, daemon) := l.disconnect.run h.daemon
      plain result { h with daemon }
  | .register service characteristics =>
    h.answerPeripheral (h.peripheral.register service characteristics h.daemon)
  | .unregister service => h.answerPeripheral (h.peripheral.unregister service h.daemon)
  | .startBroadcast manufacturerId stamp =>
    h.answerPeripheral (h.peripheral.startBroadcast ⟨manufacturerId, stamp.payload⟩ h.daemon)
  | .stopBroadcast => h.answerPeripheral (.ok (), h.peripheral.stopBroadcast h.daemon)

/-- The next sighting. -/
def hear (h : Host) : Option Sighting × Host :=
  let (sighting, central) := h.central.hear h.daemon
  (sighting, { h with central })

/-- The radio of an engine. -/
def radio : SimulatedRadio Host :=
  ⟨fun _ h => (some 0, h), answer, hear, fun h => h.central.hasPending⟩

/-- Gives the radio back: it scans no longer, and nothing stays registered. -/
def release (h : Host) : Host :=
  { h with
    daemon := h.peripheral.release h.daemon
    central := { h.central with scanning := none }
    peripheral := { h.peripheral with application := none, broadcast := none } }

end Host

end Nearby.Bluetooth
