import Countersign.Json.Number

/-!
# JSON values

A `Json` value keeps what a reader may ask for: the members of an object in the order in which they
stand, also repeated ones; whole numbers as numbers; and of a text only that it is none when it names
half of a surrogate pair.
-/

namespace Countersign

/-- A text, or none if an escape names half of a surrogate pair. -/
abbrev JsonText := Option String

inductive Json where
  | null
  | bool (b : Bool)
  | number (n : JsonNumber)
  | string (s : JsonText)
  | array (elements : List Json)
  | object (members : List (JsonText × Json))
  deriving Repr

namespace Json

def nat (n : Nat) : Json := .number (.natural n)

def text (s : String) : Json := .string (some s)

def fields (members : List (String × Json)) : Json :=
  .object (members.map fun m => (some m.1, m.2))

/-- The value of the last member with a name. -/
def member? (j : Json) (name : String) : Option Json :=
  match j with
  | object members => (members.reverse.find? fun m => m.1 == some name).map Prod.snd
  | _ => none

end Json

end Countersign
