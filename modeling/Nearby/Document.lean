/-!
# Documents

A document is plain data without a type: numbers, texts, lists and records. Values are stored and
exchanged as documents, and reading one back checks everything: a number out of range, a missing
field or a foreign kind of data has no reading.

A structure is a record. It may also be written as the list of its fields in their order; then none
may be left out. Fields that a record has on top of those wanted are ignored.
-/

namespace Nearby

/-- Plain data. -/
inductive Document
  | null
  | bool (value : Bool)
  | integer (value : Int)
  /-- A number that is not written as an integer. No type of this library has such values. -/
  | fraction
  | text (value : String)
  | list (items : List Document)
  | record (fields : List (String × Document))
  deriving Inhabited

namespace Document

/-- A number. -/
def nat (value : Nat) : Document := .integer value

/-- Reads a number below a bound. -/
def readNat (bound : Nat) : Document → Option Nat
  | .integer value => if 0 ≤ value ∧ value < bound then some value.toNat else none
  | _ => none

/-- Reads a truth value. -/
def readBool : Document → Option Bool
  | .bool value => some value
  | _ => none

/-- Reads a text. -/
def readText : Document → Option String
  | .text value => some value
  | _ => none

/-- Reads a list. -/
def readList {α : Type} (item : Document → Option α) : Document → Option (List α)
  | .list items => items.mapM item
  | _ => none

/-- Reads a value that may be absent. -/
def readOption {α : Type} (value : Document → Option α) : Document → Option (Option α)
  | .null => some none
  | document => (value document).map some

/-- Writes a value that may be absent. -/
def ofOption {α : Type} (value : α → Document) : Option α → Document
  | none => .null
  | some a => value a

/-- The wanted fields of a structure, of which some may be missing. -/
def fields? (names : List String) : Document → Option (List (Option Document))
  | .record fields => some (names.map fun name => fields.lookup name)
  | .list items => if items.length = names.length then some (items.map some) else none
  | _ => none

/-- Reads a field that must be there. -/
def required {α : Type} (value : Document → Option α) (field : Option Document) : Option α :=
  field.bind value

/-- Reads a field that may be missing, which means that its value is absent. -/
def optional {α : Type} (value : Document → Option α) (field : Option Document) :
    Option (Option α) :=
  match field with
  | none => some none
  | some document => readOption value document

/-- Reads one of several cases: a case without data is a text, or a record of its name and nothing;
a case with data is a record of its name and the data. -/
def readCase {α : Type} (plain : String → Option α) (withData : String → Document → Option α) :
    Document → Option α
  | .text name => plain name
  | .record [(name, .null)] => (plain name).or (withData name .null)
  | .record [(name, data)] => withData name data
  | _ => none

/-- A table with texts as keys, as a record. -/
def readTextTable {α : Type} (value : Document → Option α) :
    Document → Option (List (String × α))
  | .record fields => fields.mapM fun (name, document) => (value document).map (name, ·)
  | _ => none

end Document

end Nearby
