import Nearby.Document
import Nearby.Engine

/-!
# The types of this library as documents

Each type has a reader and a writer here. A fixed-length byte string is the list of its bytes, a
number keeps the width of its type, and a duration may have more nanoseconds than make a second, but
no foreign fields.
-/

namespace Nearby.Document

/-! ### Numbers and byte strings -/

/-- Reads a 64-bit number. -/
def readUInt64 (d : Document) : Option UInt64 := (readNat UInt64.size d).map UInt64.ofNat

/-- Reads a count of things. -/
def readCount (d : Document) : Option Nat := readNat UInt64.size d

/-- Reads a 32-bit number. -/
def readUInt32 (d : Document) : Option UInt32 := (readNat UInt32.size d).map UInt32.ofNat

/-- Reads a 16-bit number. -/
def readUInt16 (d : Document) : Option UInt16 := (readNat UInt16.size d).map UInt16.ofNat

/-- Reads a byte string. -/
def readBytes : Document → Option Bytes :=
  readList fun d => (readNat 256 d).map UInt8.ofNat

/-- Writes a byte string. -/
def ofBytes (bytes : Bytes) : Document := .list (bytes.map fun byte => nat byte.toNat)

/-! ### Identifiers -/

def readAdId (d : Document) : Option AdId := (readBytes d).bind AdId.ofBytes?

def ofAdId (id : AdId) : Document := ofBytes id.bytes

def readAdHash (d : Document) : Option AdHash := (readBytes d).bind AdHash.ofBytes?

def ofAdHash (hash : AdHash) : Document := ofBytes hash.bytes

def readStamp (d : Document) : Option Stamp := (readUInt64 d).map Stamp.mk

def ofStamp (stamp : Stamp) : Document := nat stamp.value.toNat

def readRadioId (d : Document) : Option RadioId := (readText d).map RadioId.mk

def ofRadioId (id : RadioId) : Document := .text id.text

def readTimestamp (d : Document) : Option Timestamp := (readUInt64 d).map Timestamp.mk

def ofTimestamp (t : Timestamp) : Document := nat t.millis.toNat

/-! ### Durations -/

/-- True for a record with no other fields than those named. -/
def hasOnly (names : List String) : Document → Bool
  | .record fields => fields.all fun field => names.contains field.1
  | _ => true

def readDuration (d : Document) : Option Duration := do
  let names := ["secs", "nanos"]
  guard (hasOnly names d)
  match ← fields? names d with
  | [secs, nanos] =>
    Duration.ofParts? (← required readUInt64 secs) (← required readUInt32 nanos).toNat
  | _ => none

def ofDuration (d : Duration) : Document :=
  .record [("secs", nat d.seconds.toNat), ("nanos", nat d.nanos.val)]

/-! ### Advertisements -/

def readAlgorithm : Document → Option Algorithm :=
  readCase
    (fun name => match name with
      | "Test" => some .test
      | "Ibe" => some .ibe
      | _ => none)
    (fun name data => if name = "Other" then (readUInt32 data).map .other else none)

def ofAlgorithm : Algorithm → Document
  | .test => .text "Test"
  | .ibe => .text "Ibe"
  | .other code => .record [("Other", nat code.toNat)]

def readEncryption (d : Document) : Option Encryption := do
  match ← fields? ["algorithm", "keys"] d with
  | [algorithm, keys] =>
    pure ⟨← required readAlgorithm algorithm, ← required (readList readBytes) keys⟩
  | _ => none

def ofEncryption (e : Encryption) : Document :=
  .record [("algorithm", ofAlgorithm e.algorithm), ("keys", .list (e.keys.map ofBytes))]

def readAdvertisement (d : Document) : Option Advertisement := do
  match ← fields? ["id", "interface_name", "addresses", "attributes", "attachments", "encryption",
      "dir_addrs", "hash", "lost"] d with
  | [id, interfaceName, addresses, attributes, attachments, encryption, directories, hash, lost] =>
    pure {
      id := ← required readAdId id
      interfaceName := ← required readText interfaceName
      addresses := ← required (readList readText) addresses
      attributes := .ofList (← required (readTextTable readText) attributes)
      attachments := .ofList (← required (readTextTable readBytes) attachments)
      encryption := ← optional readEncryption encryption
      directories := ← required (readList readText) directories
      hash := ← required readAdHash hash
      lost := ← required readBool lost }
  | _ => none

def ofAdvertisement (ad : Advertisement) : Document :=
  .record [
    ("id", ofAdId ad.id),
    ("interface_name", .text ad.interfaceName),
    ("addresses", .list (ad.addresses.map .text)),
    ("attributes", .record (ad.attributes.entries.map fun e => (e.1, .text e.2))),
    ("attachments", .record (ad.attachments.entries.map fun e => (e.1, ofBytes e.2))),
    ("encryption", ofOption ofEncryption ad.encryption),
    ("dir_addrs", .list (ad.directories.map .text)),
    ("hash", ofAdHash ad.hash),
    ("lost", .bool ad.lost)]

/-! ### Configuration -/

def readCacheConfig (d : Document) : Option Cache.Config := do
  match ← fields? ["freshness_window"] d with
  | [window] => pure ⟨← required readDuration window⟩
  | _ => none

def ofCacheConfig (c : Cache.Config) : Document :=
  .record [("freshness_window", ofDuration c.freshnessWindow)]

def readConfig (d : Document) : Option Config := do
  match ← fields? ["manufacturer_id", "fetch_timeout", "pause_scan_during_fetch", "cache"] d with
  | [manufacturerId, fetchTimeout, pause, cache] =>
    pure ⟨← required readUInt16 manufacturerId, ← required readDuration fetchTimeout,
      ← required readBool pause, ← required readCacheConfig cache⟩
  | _ => none

def ofConfig (c : Config) : Document :=
  .record [
    ("manufacturer_id", nat c.manufacturerId.toNat),
    ("fetch_timeout", ofDuration c.fetchTimeout),
    ("pause_scan_during_fetch", .bool c.pauseScanDuringFetch),
    ("cache", ofCacheConfig c.cache)]

/-! ### Status -/

def readCacheStats (d : Document) : Option Cache.Stats := do
  match ← fields? ["peers", "advertisements", "subscriptions"] d with
  | [peers, advertisements, subscriptions] =>
    pure ⟨← required readCount peers, ← required readCount advertisements,
      ← required readCount subscriptions⟩
  | _ => none

def ofCacheStats (s : Cache.Stats) : Document :=
  .record [("peers", nat s.peers), ("advertisements", nat s.advertisements),
    ("subscriptions", nat s.subscriptions)]

/-- The names of the phases. -/
def phaseNames : List (String × Scan.Phase) :=
  [("Idle", .idle), ("Scanning", .scanning), ("Connecting", .connecting),
    ("Discovering", .discovering), ("Reading", .reading)]

/-- The name of a phase. -/
def phaseName : Scan.Phase → String
  | .idle => "Idle"
  | .scanning => "Scanning"
  | .connecting => "Connecting"
  | .discovering => "Discovering"
  | .reading => "Reading"

def readPhase : Document → Option Scan.Phase :=
  readCase (fun name => phaseNames.lookup name) fun _ _ => none

def ofPhase (phase : Scan.Phase) : Document := .text (phaseName phase)

def readCounters (d : Document) : Option Scan.Counters := do
  match ← fields? ["sightings", "sightings_known", "sightings_deduped", "fetches_started",
      "fetches_succeeded", "fetches_failed", "fetches_timed_out", "fetches_cancelled"] d with
  | [sightings, known, deduped, started, succeeded, failed, timedOut, cancelled] =>
    pure ⟨← required readCount sightings, ← required readCount known,
      ← required readCount deduped, ← required readCount started,
      ← required readCount succeeded, ← required readCount failed,
      ← required readCount timedOut, ← required readCount cancelled⟩
  | _ => none

def ofCounters (c : Scan.Counters) : Document :=
  .record [
    ("sightings", nat c.sightings),
    ("sightings_known", nat c.sightingsKnown),
    ("sightings_deduped", nat c.sightingsDeduped),
    ("fetches_started", nat c.fetchesStarted),
    ("fetches_succeeded", nat c.fetchesSucceeded),
    ("fetches_failed", nat c.fetchesFailed),
    ("fetches_timed_out", nat c.fetchesTimedOut),
    ("fetches_cancelled", nat c.fetchesCancelled)]

def readScanStatus (d : Document) : Option Scan.Status := do
  match ← fields? ["active", "scanning", "phase", "in_flight", "queued", "counters"] d with
  | [active, scanning, phase, inFlight, queued, counters] =>
    pure ⟨← required readBool active, ← required readBool scanning, ← required readPhase phase,
      ← optional readRadioId inFlight, ← required readCount queued,
      ← required readCounters counters⟩
  | _ => none

def ofScanStatus (s : Scan.Status) : Document :=
  .record [
    ("active", .bool s.active),
    ("scanning", .bool s.scanning),
    ("phase", ofPhase s.phase),
    ("in_flight", ofOption ofRadioId s.inFlight),
    ("queued", nat s.queued),
    ("counters", ofCounters s.counters)]

def readPublisherStatus (d : Document) : Option Publisher.Status := do
  match ← fields? ["published", "stamp", "broadcasting", "broadcast_failures"] d with
  | [published, stamp, broadcasting, failures] =>
    pure ⟨← required readCount published, ← optional readStamp stamp,
      ← required readBool broadcasting, ← required readCount failures⟩
  | _ => none

def ofPublisherStatus (s : Publisher.Status) : Document :=
  .record [
    ("published", nat s.published),
    ("stamp", ofOption ofStamp s.stamp),
    ("broadcasting", .bool s.broadcasting),
    ("broadcast_failures", nat s.failures)]

def readStatus (d : Document) : Option Engine.Status := do
  match ← fields? ["enabled", "disabled_reason", "advertiser", "scanner", "cache"] d with
  | [enabled, reason, publisher, scanner, cache] =>
    pure ⟨← required readBool enabled, ← optional readText reason,
      ← required readPublisherStatus publisher, ← required readScanStatus scanner,
      ← required readCacheStats cache⟩
  | _ => none

def ofStatus (s : Engine.Status) : Document :=
  .record [
    ("enabled", .bool s.enabled),
    ("disabled_reason", ofOption .text s.disabledReason),
    ("advertiser", ofPublisherStatus s.publisher),
    ("scanner", ofScanStatus s.scanner),
    ("cache", ofCacheStats s.cache)]

/-! ### By name -/

/-- Reads a document as a value of some type and writes that value again; there is no result if the
document is no value of the type. -/
def normalizeAs {α : Type} (read : Document → Option α) (write : α → Document) (d : Document) :
    Option Document :=
  (read d).map write

/-- The types with a form, by name. -/
def forms : List (String × (Document → Option Document)) := [
  ("AdId", normalizeAs readAdId ofAdId),
  ("AdHash", normalizeAs readAdHash ofAdHash),
  ("Stamp", normalizeAs readStamp ofStamp),
  ("RadioId", normalizeAs readRadioId ofRadioId),
  ("Timestamp", normalizeAs readTimestamp ofTimestamp),
  ("EncryptionAlgorithm", normalizeAs readAlgorithm ofAlgorithm),
  ("Encryption", normalizeAs readEncryption ofEncryption),
  ("Advertisement", normalizeAs readAdvertisement ofAdvertisement),
  ("CacheConfig", normalizeAs readCacheConfig ofCacheConfig),
  ("DiscoveryConfig", normalizeAs readConfig ofConfig),
  ("CacheStats", normalizeAs readCacheStats ofCacheStats),
  ("ScanPhase", normalizeAs readPhase ofPhase),
  ("ScanCounters", normalizeAs readCounters ofCounters),
  ("ScannerStatus", normalizeAs readScanStatus ofScanStatus),
  ("AdvertiserStatus", normalizeAs readPublisherStatus ofPublisherStatus),
  ("DiscoveryStatus", normalizeAs readStatus ofStatus)]

end Nearby.Document
