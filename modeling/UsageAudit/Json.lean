/-!
# JSON values

JSON values with whole numbers kept apart from other numbers, and the readers from which decoders of
records are put together. A record may be given as an object, whose unknown members do not matter,
or as the array of its fields; a field that is missing counts as null.

What the numbers are that are not whole is left open: doubles in text, and in the details of a
verdict whatever confidences are computed in.
-/

namespace UsageAudit

/-- A JSON value over a type of numbers. -/
inductive Datum (α : Type) where
  | null
  | bool (value : Bool)
  | int (value : Int)
  | real (value : α)
  | str (value : String)
  | arr (items : List (Datum α))
  | obj (members : List (String × Datum α))

/-- A count as a value. -/
def Datum.count {α : Type} (n : Nat) : Datum α := .int n

/-- Texts as an array. -/
def Datum.texts {α : Type} (texts : List String) : Datum α := .arr (texts.map .str)

/-- A JSON value over doubles. -/
abbrev Json := Datum Float

namespace Datum

/-- The first member of the given name. -/
def member? (members : List (String × Json)) (name : String) : Option Json :=
  (members.find? fun member => member.1 == name).map Prod.snd

/-- The member of the given name, null if there is none. -/
def memberOrNull (members : List (String × Json)) (name : String) : Json :=
  (member? members name).getD .null

/-- The member of the given name of an object, null in any other case. -/
def field (value : Json) (name : String) : Json :=
  match value with
  | .obj members => memberOrNull members name
  | _ => .null

/-- The values of the named fields of a record. -/
def fields? (names : List String) : Json → Option (List Json)
  | .obj members => some (names.map (memberOrNull members))
  | .arr items => if items.length = names.length then some items else none
  | _ => none

/-- A truth value. -/
def bool? : Json → Option Bool
  | .bool value => some value
  | _ => none

/-- A text. -/
def str? : Json → Option String
  | .str value => some value
  | _ => none

/-- The number of machine words of 64 bits. -/
def natBound : Nat := Nat.pow 2 64

/-- A count that fits into a machine word. -/
def nat? : Json → Option Nat
  | .int (.ofNat n) => if n < natBound then some n else none
  | _ => none

/-- A number. -/
def float? : Json → Option Float
  | .int n => some (Float.ofInt n)
  | .real x => some x
  | _ => none

/-- An array of values of one type. -/
def list? {α : Type} (item : Json → Option α) : Json → Option (List α)
  | .arr items => items.mapM item
  | _ => none

/-- A value that may be null. -/
def option? {α : Type} (item : Json → Option α) : Json → Option (Option α)
  | .null => some none
  | value => (item value).map some

/-- A name out of a fixed choice: a text, or an object with the name as its only member. -/
def choice? {α : Type} (ofName : String → Option α) : Json → Option α
  | .str name => ofName name
  | .obj [(name, .null)] => ofName name
  | _ => none

/-- A value that may be missing, as null if it is. -/
def ofOption {α : Type} (encode : α → Json) : Option α → Json
  | some value => encode value
  | none => .null

/-- A list as an array. -/
def ofList {α : Type} (encode : α → Json) (items : List α) : Json := .arr (items.map encode)

/-- A member that is left out if its value is missing. -/
def optionalMember {α : Type} (name : String) (encode : α → Json) :
    Option α → List (String × Json)
  | some value => [(name, encode value)]
  | none => []

end Datum

end UsageAudit
