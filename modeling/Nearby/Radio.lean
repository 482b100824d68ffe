import Nearby.RadioId
import Nearby.Stamp
import Nearby.Uuid

/-!
# What the radio tells

A radio scans for broadcasts, reads the services of other devices and serves its own. This module
holds what it reports: sightings, the services found on a peer, and errors.
-/

namespace Nearby

/-- A broadcast heard under the wanted manufacturer identifier. -/
structure Sighting where
  peer : RadioId
  payload : Bytes
  deriving DecidableEq, Repr

/-- The stamp a sighting announces, if its payload is well-formed. -/
def Sighting.stamp? (s : Sighting) : Option Stamp := Stamp.ofPayload? s.payload

/-- A characteristic found on a peer. -/
structure RemoteCharacteristic where
  uuid : Uuid
  readable : Bool
  deriving DecidableEq

/-- A service found on a peer. -/
structure RemoteService where
  uuid : Uuid
  characteristics : List RemoteCharacteristic
  deriving DecidableEq

/-- The manufacturer identifier under which stamps are broadcast, unless another one is chosen. -/
def defaultManufacturerId : UInt16 := 0x03E9

/-! ### Services that every device has -/

/-- The service with the name and looks of a device. -/
def genericAccessUuid : Uuid := .ofNat 0x00001800_0000_1000_8000_00805F9B34FB

/-- The service that tells of changes to the services. -/
def genericAttributeUuid : Uuid := .ofNat 0x00001801_0000_1000_8000_00805F9B34FB

/-- True for the services that never carry an advertisement. -/
def Uuid.isReserved (u : Uuid) : Bool := u = genericAccessUuid || u = genericAttributeUuid

/-! ### Errors -/

/-- An error of the radio. -/
inductive RadioError
  /-- The radio cannot be opened. -/
  | unavailable (reason : String)
  | connectFailed (peer reason : String)
  | peerNotFound (peer : String)
  | serviceDiscoveryFailed (reason : String)
  | readFailed (characteristic : Uuid) (reason : String)
  | disconnected
  | timeout (millis : UInt64)
  | scan (reason : String)
  | broadcast (reason : String)
  | gattServer (reason : String)
  deriving DecidableEq

namespace RadioError

/-- The error in words. -/
def message : RadioError → String
  | .unavailable reason => s!"BLE adapter not available: {reason}"
  | .connectFailed peer reason => s!"Failed to connect to peer {peer}: {reason}"
  | .peerNotFound peer => s!"Peer not found: {peer}"
  | .serviceDiscoveryFailed reason => s!"Failed to discover services: {reason}"
  | .readFailed characteristic reason =>
    s!"Failed to read characteristic {characteristic.text}: {reason}"
  | .disconnected => "Link to peer dropped"
  | .timeout millis => s!"Fetch timed out after {millis}ms"
  | .scan reason => s!"Failed to control BLE scan: {reason}"
  | .broadcast reason => s!"Failed to control BLE broadcast: {reason}"
  | .gattServer reason => s!"GATT server error: {reason}"

/-- True for an error that ends a fetch; after any other read error the fetch goes on. -/
def isLinkLoss : RadioError → Bool
  | .disconnected => true
  | .timeout _ => true
  | _ => false

end RadioError

end Nearby
