import Nearby.Radio.Call
import Nearby.Warning

/-!
# Fetching from a peer

A fetch opens a link to a peer, asks for its services, and reads their characteristics one at a
time. A characteristic that cannot be read is left out, but a lost link ends the fetch with an
error, and nothing of it counts.

A fetch runs beside everything else. `Fetch.begin` and `Fetch.resume` take it from one call to the
next; what it has to say meanwhile, it says in messages that carry the number of the fetch and the
epoch it belongs to.
-/

namespace Nearby.Scan

/-- Where the scan pipeline is. -/
inductive Phase
  /-- Nobody is subscribed, and the radio does not scan. -/
  | idle
  /-- Waiting for sightings. -/
  | scanning
  /-- Opening a link to a peer. -/
  | connecting
  /-- Asking the peer for its services. -/
  | discovering
  /-- Reading characteristics. -/
  | reading
  deriving DecidableEq, Repr, Inhabited

/-- A characteristic to read. -/
structure Target where
  service : Uuid
  characteristic : Uuid
  deriving DecidableEq

/-- What was read from a peer: the characteristics of each service. A service of which nothing could
be read is not among them. -/
abbrev Readings := Table Uuid Characteristics

/-- Adds the value of a characteristic, in the stead of an earlier one. -/
def Readings.record (readings : Readings) (target : Target) (value : Bytes) : Readings :=
  readings.insert target.service
    (((readings.get? target.service).getD ∅).insert target.characteristic value)

/-- The characteristics worth reading: those that can be read, of the services that are not
reserved, in the order in which the peer lists them. -/
def targets (services : List RemoteService) : List Target :=
  (services.filter fun s => !s.uuid.isReserved).flatMap fun s =>
    (s.characteristics.filter fun c => c.readable).map fun c => ⟨s.uuid, c.uuid⟩

/-- What a fetch comes to. -/
abbrev Outcome := Except RadioError Readings

/-- What a fetch reports. -/
inductive Report
  /-- The fetch entered a new phase. -/
  | phase (phase : Phase)
  /-- The fetch is over. -/
  | finished (outcome : Outcome)

/-- The call a fetch waits for. -/
inductive Fetch.Stage
  /-- The fetch has not made a call yet. -/
  | ready
  | connecting
  | discovering
  | reading (target : Target) (rest : List Target)
  deriving DecidableEq

/-- A fetch under way. -/
structure Fetch where
  peer : RadioId
  epoch : Nat
  stage : Fetch.Stage
  readings : Readings
  deriving DecidableEq

namespace Fetch

/-- A fetch that is about to begin. -/
def new (peer : RadioId) (epoch : Nat) : Fetch := ⟨peer, epoch, .ready, ∅⟩

/-- What a fetch does in one go. -/
structure Turn where
  /-- The fetch with the call it now waits for; none if it is over. -/
  next : Option (Fetch × Call)
  reports : List Report
  warnings : List Warning
  /-- True if the fetch holds a link since this turn. -/
  linked : Bool

/-- A fetch that is over. -/
def finished (outcome : Outcome) (warnings : List Warning) : Turn :=
  ⟨none, [.finished outcome], warnings, false⟩

/-- Goes on to the next characteristic, or ends with what was read. -/
def proceed (f : Fetch) (id : FetchId) (warnings : List Warning) : List Target → Turn
  | [] => finished (.ok f.readings) warnings
  | target :: rest =>
    ⟨some ({ f with stage := .reading target rest }, .read id target.service target.characteristic),
      [], warnings, false⟩

/-- Makes the first call of a fetch. -/
def begin (f : Fetch) (id : FetchId) : Turn :=
  ⟨some ({ f with stage := .connecting }, .connect id f.peer), [], [], false⟩

/-- Goes on with the answer to the call a fetch waits for; there is no turn if the answer belongs to
another kind of call. -/
def resume (f : Fetch) (id : FetchId) (answer : Answer) : Option Turn :=
  match f.stage, answer with
  | .connecting, .done (.error e) => some (finished (.error e) [])
  | .connecting, .done (.ok ()) =>
    some ⟨some ({ f with stage := .discovering }, .discover id), [.phase .discovering], [], true⟩
  | .discovering, .services (.error e) => some (finished (.error e) [])
  | .discovering, .services (.ok services) =>
    let turn := proceed f id [] (targets services)
    some { turn with reports := .phase .reading :: turn.reports }
  | .reading target rest, .value (.ok value) =>
    some (proceed { f with readings := f.readings.record target value } id [] rest)
  | .reading target rest, .value (.error e) =>
    if e.isLinkLoss then some (finished (.error e) [])
    else some (proceed f id [.readSkipped target.characteristic f.peer e] rest)
  | _, _ => none

end Fetch

/-! ### From readings to advertisements -/

/-- The advertisement a service carries, with the warnings on it; a service without identifier
carries none. -/
def decodeService (peer : RadioId) (service : Uuid) (characteristics : Characteristics) :
    Option Advertisement × List Warning :=
  let decoded := Characteristics.decode characteristics
  let skipped := decoded.skipped.map Warning.characteristicSkipped
  if decoded.ad.id.isZero then (none, skipped ++ [.serviceWithoutId service peer])
  else (some decoded.ad, skipped)

/-- The advertisements of a peer by ascending service, with the warnings on them. -/
def decodeReadings (peer : RadioId) (readings : Readings) : List Advertisement × List Warning :=
  let decoded := readings.entries.map fun e => decodeService peer e.1 e.2
  (decoded.filterMap (·.1), decoded.flatMap (·.2))

end Nearby.Scan
