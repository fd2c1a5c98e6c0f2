import DeviceUniqueness.Outbox.Schema

/-! JSON values, and how a derived deserializer reads a record out of one.

    An object is read by key: its entries are decoded in the order they come, keys the record does
    not have are passed over, and what is then still missing is reported in the order the record
    declares it. An array is read by position. The first error ends the reading; it carries the path
    it arose at. How an error is worded is the library's and not part of the model. -/

namespace DeviceUniqueness

/-- A number is an integer of 64 bits, signed or not, or a float, of which nothing is read but the
    text. -/
inductive JsonNumber where
  | int (n : Int) (inRange : -2 ^ 63 ≤ n ∧ n < 2 ^ 64)
  | float (text : String)
  deriving DecidableEq

inductive Json where
  | null
  | bool (b : Bool)
  | num (n : JsonNumber)
  | str (s : String)
  | arr (items : List Json)
  | obj (entries : List (String × Json))

/-- `Value::get` by key. -/
def Json.get (key : String) : Json → Option Json
  | .obj entries => entries.lookup key
  | _ => none

inductive SerdeError where
  | missingField (name : String)
  | duplicateField (name : String)
  | invalidType (got : Json) (expected : String)
  | invalidValue (got : Int) (expected : String)
  | invalidLength (length : Nat) (expected : String)

inductive Segment where
  | key (name : String)
  | index (i : Nat)
  deriving DecidableEq

/-- An error and where it arose, outermost segment first. -/
structure PathError where
  path : List Segment
  error : SerdeError

def Segment.text : Segment → String
  | .key name => name
  | .index i => "[" ++ toString i ++ "]"

/-- The dotted path; `.` when there is none. -/
def pathText : List Segment → String
  | [] => "."
  | s :: rest => rest.foldl (fun text s => text ++ separator s ++ s.text) s.text
where
  separator : Segment → String
    | .key _ => "."
    | .index _ => ""

abbrev Decoded (α : Type) := Except PathError α

def SerdeError.here {α : Type} (e : SerdeError) : Decoded α := .error ⟨[], e⟩

/-- What was decoded one segment further in. -/
def within {α : Type} (s : Segment) : Decoded α → Decoded α
  | .ok x => .ok x
  | .error e => .error ⟨s :: e.path, e.error⟩

/-! ### Values -/

def Json.asString : Json → Decoded String
  | .str s => .ok s
  | v => (SerdeError.invalidType v "a string").here

/-- An integer type that holds `lo` up to but not including `hi`. -/
def Json.asInt (name : String) (lo hi : Int) : Json → Decoded Int
  | .num (.int n _) =>
      if lo ≤ n ∧ n < hi then .ok n else (SerdeError.invalidValue n name).here
  | v => (SerdeError.invalidType v name).here

def Json.asU16 (v : Json) : Decoded Nat := (v.asInt "u16" 0 (2 ^ 16)).map Int.toNat

def Json.asI64 (v : Json) : Decoded Int := v.asInt "i64" (-2 ^ 63) (2 ^ 63)

def Json.asVec {α : Type} (item : Json → Decoded α) : Json → Decoded (List α)
  | .arr items => go 0 items
  | v => (SerdeError.invalidType v "a sequence").here
where
  go (i : Nat) : List Json → Decoded (List α)
    | [] => .ok []
    | v :: vs => do
        let x ← within (.index i) (item v)
        let xs ← go (i + 1) vs
        return x :: xs

def Json.asOption {α : Type} (some' : Json → Decoded α) : Json → Decoded (Option α)
  | .null => .ok none
  | v => (some' v).map some

/-- The entries of a map from strings to values of any shape. A key that comes again counts once. -/
def Json.asMap : Json → Decoded (List (String × Json))
  | .obj entries => .ok entries
  | v => (SerdeError.invalidType v "a map").here

/-! ### Records -/

/-- Where a record's fields are looked up: by key, or by position with the text a missing one is
    reported with. -/
inductive Fields where
  | keyed (entries : List (String × Json))
  | placed (items : List Json) (expected : String)

namespace Fields

def find? (fields : Fields) (name : String) (i : Nat) : Option Json :=
  match fields with
  | keyed entries => entries.lookup name
  | placed items _ => items[i]?

def segment (fields : Fields) (name : String) (i : Nat) : Segment :=
  match fields with
  | keyed _ => .key name
  | placed .. => .index i

def missing (fields : Fields) (name : String) (i : Nat) : SerdeError :=
  match fields with
  | keyed _ => .missingField name
  | placed _ expected => .invalidLength i expected

def required {α : Type} (fields : Fields) (name : String) (i : Nat) (read : Json → Decoded α) :
    Decoded α :=
  match fields.find? name i with
  | some v => within (fields.segment name i) (read v)
  | none => (fields.missing name i).here

/-- A field with `#[serde(default)]`. -/
def defaulted {α : Type} (fields : Fields) (name : String) (i : Nat) (default : α)
    (read : Json → Decoded α) : Decoded α :=
  match fields.find? name i with
  | some v => within (fields.segment name i) (read v)
  | none => .ok default

end Fields

/-- Whether a value has the shape a field wants. -/
abbrev Shape := Json → Decoded Unit

def shape {α : Type} (read : Json → Decoded α) : Shape := fun v => (read v).map fun _ => ()

/-- The entries of an object, decoded in their order against the fields the record has. -/
def scan (known : List (String × Shape)) : List String → List (String × Json) → Decoded Unit
  | _, [] => .ok ()
  | seen, (key, v) :: entries =>
      match known.lookup key with
      | none => scan known seen entries
      | some ok =>
          if key ∈ seen then (SerdeError.duplicateField key).here
          else do
            within (.key key) (ok v)
            scan known (key :: seen) entries

/-- A derived `Deserialize`: `known` are the fields of the record `name` in declared order. -/
def Json.asStruct {α : Type} (name : String) (known : List (String × Shape))
    (read : Fields → Decoded α) : Json → Decoded α
  | .obj entries => do
      scan known [] entries
      read (.keyed entries)
  | .arr items => do
      let x ← read (.placed items
        ("struct " ++ name ++ " with " ++ toString known.length ++ " elements"))
      if known.length < items.length then
        (SerdeError.invalidLength items.length "fewer elements in array").here
      else return x
  | v => (SerdeError.invalidType v ("struct " ++ name)).here

end DeviceUniqueness
