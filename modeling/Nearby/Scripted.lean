import Nearby.Characteristics.Encode

/-!
# Scripted services

In a simulation, what a device serves is written down beforehand. A script begins with the
characteristics of an advertisement and then edits some of them, so that a device can serve what no
publisher would: a value that is too short, a characteristic twice, one that cannot be read.

Simulations differ in how a device may handle a characteristic, so that is a parameter `μ`.
-/

namespace Nearby.Scripted

/-- A characteristic, with the manner in which the device handles it. -/
structure Characteristic (μ : Type) where
  uuid : Uuid
  value : Bytes
  manner : μ
  deriving DecidableEq

/-- A service. Its characteristics are in no particular order, and may share an identifier. -/
structure Service (μ : Type) where
  uuid : Uuid
  characteristics : List (Characteristic μ)
  deriving DecidableEq

/-- A change to the characteristics of a service. -/
structure Edit (μ : Type) where
  uuid : Uuid
  /-- The value; the one of the characteristic that is replaced, if there is none. -/
  value : Option Bytes
  manner : μ
  /-- True if nothing is to be replaced. -/
  append : Bool

variable {μ : Type}

/-- The characteristics with one replaced: the first with the identifier, if there is one. -/
def replaceFirst (edit : Edit μ) : List (Characteristic μ) → Option (List (Characteristic μ))
  | [] => none
  | c :: rest =>
    if c.uuid = edit.uuid then
      some (⟨edit.uuid, edit.value.getD c.value, edit.manner⟩ :: rest)
    else (replaceFirst edit rest).map (c :: ·)

/-- Applies an edit: in place, or at the end. -/
def applyEdit (characteristics : List (Characteristic μ)) (edit : Edit μ) :
    List (Characteristic μ) :=
  let added := characteristics ++ [⟨edit.uuid, edit.value.getD [], edit.manner⟩]
  if edit.append then added else (replaceFirst edit characteristics).getD added

/-- A service that carries an advertisement, if any, in the given manner, with some characteristics
edited. An advertisement that cannot be encoded gives no characteristics. -/
def service (manner : μ) (uuid : Uuid) (ad : Option Advertisement) (edits : List (Edit μ)) :
    Service μ :=
  let encoded : List (Characteristic μ) :=
    match ad.map Characteristics.encode with
    | some (.ok characteristics) =>
      characteristics.entries.map fun (uuid, value) => ⟨uuid, value, manner⟩
    | _ => []
  ⟨uuid, edits.foldl applyEdit encoded⟩

end Nearby.Scripted
