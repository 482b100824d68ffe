import Nearby.Characteristics.Decode
import Nearby.Radio

/-!
# Warnings

What goes wrong without being anyone's fault is not reported to the caller but noted as a warning.
-/

namespace Nearby

/-- What the publisher was doing when the radio failed it. -/
inductive PublishAction
  | stopBroadcast
  | unregisterService
  | registerService
  | startBroadcast
  deriving DecidableEq, Repr

/-- The action in words. -/
def PublishAction.text : PublishAction → String
  | .stopBroadcast => "stop broadcast"
  | .unregisterService => "unregister service"
  | .registerService => "register service"
  | .startBroadcast => "start broadcast"

/-- A note on something that went wrong. -/
inductive Warning
  | scanNotStarted (error : RadioError)
  | scanNotStopped (error : RadioError)
  | fetchFailed (peer : RadioId) (error : RadioError)
  | readSkipped (characteristic : Uuid) (peer : RadioId) (error : RadioError)
  | characteristicSkipped (skipped : Characteristics.Skipped)
  | serviceWithoutId (service : Uuid) (peer : RadioId)
  | disconnectTimedOut (peer : RadioId)
  | publishing (action : PublishAction) (error : RadioError)
  | servingUnsupported (service : Uuid)
  | peerVanished (peer : RadioId) (reason : String)
  deriving DecidableEq

/-- The warning in words. -/
def Warning.message : Warning → String
  | .scanNotStarted e => s!"Failed to start scan: {e.message}"
  | .scanNotStopped e => s!"Failed to stop scan: {e.message}"
  | .fetchFailed peer e => s!"Fetch from {peer.text} failed: {e.message}"
  | .readSkipped characteristic peer e =>
    s!"Skipping {characteristic.text} on {peer.text}: {e.message}"
  | .characteristicSkipped skipped => skipped.message
  | .serviceWithoutId service peer =>
    s!"Service {service.text} on {peer.text} has no advertisement id"
  | .disconnectTimedOut peer => s!"Disconnect from {peer.text} timed out"
  | .publishing action e => s!"Advertiser failed to {action.text}: {e.message}"
  | .servingUnsupported service => s!"Cannot serve {service.text}: peripheral mode unsupported"
  | .peerVanished peer reason => s!"Peripheral {peer.text} vanished: {reason}"

end Nearby
