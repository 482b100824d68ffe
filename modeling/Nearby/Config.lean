import Nearby.Cache
import Nearby.Radio

/-!
# Configuration
-/

namespace Nearby

/-- What an application may choose about discovery. -/
structure Config where
  /-- The manufacturer identifier of the broadcasts; devices only find each other under the same. -/
  manufacturerId : UInt16
  /-- The time a fetch may take, from the first attempt to connect to the last read. -/
  fetchTimeout : Duration
  /-- Whether scanning stops while a fetch is under way. -/
  pauseScanDuringFetch : Bool
  cache : Cache.Config
  deriving DecidableEq, Repr, Inhabited

/-- Fetches may take ten seconds, and scanning stops meanwhile. -/
def Config.default : Config := ⟨defaultManufacturerId, .ofSeconds 10, true, Cache.Config.default⟩

end Nearby
