import Nearby.Radio.Call
import Nearby.Warning

/-!
# Bringing the radio in line with what is published

The radio is to serve certain services and to broadcast a certain stamp. What it does already is
known from the calls made before, as a `Belief`. The way from there to the `Desired` state is a
list of tasks, fixed at the outset by `plan`: the broadcast stops first and starts last, so that no
stamp is announced while services change; services that are to go or to change go before others
come; a service that stays as it is, is left alone.

A task that fails is counted and left at that. The next plan tries again what is still missing.
-/

namespace Nearby

/-- What the radio should do. -/
structure Desired where
  /-- Counts the changes to what is published. -/
  generation : Nat
  /-- The stamp to broadcast; none if nothing is published. -/
  stamp : Option Stamp
  services : Table Uuid Characteristics
  deriving DecidableEq

/-- Nothing is published. -/
def Desired.initial : Desired := ⟨0, none, ∅⟩

/-- What the radio is believed to do. -/
structure Belief where
  installed : Table Uuid Characteristics
  broadcasting : Bool
  /-- The number of tasks that failed. -/
  failures : Nat
  deriving DecidableEq

/-- The radio is idle. -/
def Belief.initial : Belief := ⟨∅, false, 0⟩

/-- A step on the way to a desired state. -/
inductive Task
  | stopBroadcast
  | unregister (service : Uuid)
  | register (service : Uuid) (characteristics : Characteristics)
  | startBroadcast (stamp : Stamp)
  deriving DecidableEq

namespace Task

/-- The call that carries out a task. -/
def call (manufacturerId : UInt16) : Task → Call
  | .stopBroadcast => .stopBroadcast
  | .unregister service => .unregister service
  | .register service characteristics => .register service characteristics
  | .startBroadcast stamp => .startBroadcast manufacturerId stamp

/-- How warnings name a task. -/
def action : Task → PublishAction
  | .stopBroadcast => .stopBroadcast
  | .unregister _ => .unregisterService
  | .register _ _ => .registerService
  | .startBroadcast _ => .startBroadcast

end Task

namespace Belief

/-- The installed services that are desired just as they are. -/
def kept (b : Belief) (d : Desired) : Table Uuid Characteristics :=
  b.installed.filter fun service characteristics => d.services.get? service = some characteristics

/-- The installed services that are to go, or to change. -/
def stale (b : Belief) (d : Desired) : List Uuid :=
  (b.installed.filter fun service characteristics =>
    d.services.get? service ≠ some characteristics).keys

/-- The desired services that are not kept. -/
def missing (b : Belief) (d : Desired) : Table Uuid Characteristics :=
  d.services.filter fun service _ => !(b.kept d).contains service

/-- The way to a desired state. -/
def plan (b : Belief) (d : Desired) : List Task :=
  (if b.broadcasting then [.stopBroadcast] else [])
    ++ (b.stale d).map .unregister
    ++ (b.missing d).entries.map (fun e => .register e.1 e.2)
    ++ d.stamp.toList.map .startBroadcast

/-- What is believed while a plan is carried out: whatever is to go counts as gone, even if its task
should fail. -/
def depart (b : Belief) (d : Desired) : Belief :=
  { b with installed := b.kept d, broadcasting := false }

/-- What is believed once a task has ended. -/
def settle (b : Belief) (task : Task) (result : Except RadioError Unit) : Belief :=
  match result with
  | .error _ => { b with failures := b.failures + 1 }
  | .ok () =>
    match task with
    | .register service characteristics =>
      { b with installed := b.installed.insert service characteristics }
    | .startBroadcast _ => { b with broadcasting := true }
    | .stopBroadcast => b
    | .unregister _ => b

end Belief

end Nearby
