import Nearby.Characteristics
import Nearby.Radio

/-!
# Calls to the radio

The parts of the library never touch a radio. They say which call they want to make, and go on when
they are handed its answer; between the two, anything else may happen.
-/

namespace Nearby

/-- Numbers the fetches of a device. A fetch has at most one link, so links go by the same number. -/
abbrev FetchId := Nat

/-- A call to the radio. -/
inductive Call
  | startScan (manufacturerId : UInt16)
  | stopScan
  /-- Opens a link to a peer. -/
  | connect (link : FetchId) (peer : RadioId)
  /-- Takes back an attempt to open a link whose answer nobody waits for any more. -/
  | cancelConnect (peer : RadioId)
  | discover (link : FetchId)
  | read (link : FetchId) (service characteristic : Uuid)
  | disconnect (link : FetchId)
  /-- Serves a service, in the stead of one with the same identifier. -/
  | register (service : Uuid) (characteristics : Characteristics)
  | unregister (service : Uuid)
  | startBroadcast (manufacturerId : UInt16) (stamp : Stamp)
  | stopBroadcast
  deriving DecidableEq

/-- The answer to a call. -/
inductive Answer
  /-- The answer to a call that gives nothing back. -/
  | done (result : Except RadioError Unit)
  /-- The answer to `Call.discover`. -/
  | services (result : Except RadioError (List RemoteService))
  /-- The answer to `Call.read`. -/
  | value (result : Except RadioError Bytes)

end Nearby
