import Countersign.Data.SortedSet
import Countersign.Json.Reader
import Countersign.Json.Writer
import Countersign.Transaction

/-!
# Wire forms

`Wire α` gives the values of a type their JSON form and reads it back. A structure is written as an
object with its fields in order; it is read from an object, where fields that nobody asks for are
skipped, or from an array of its fields (`slots?`). A tagged union is an object with its tag as a
member, or an array that begins with it (`tagged?`).
-/

namespace Countersign

/-- Where a value stands: how many more levels it may nest, and whether it is part of a union. -/
structure WireContext where
  room : Nat
  inUnion : Bool
  deriving DecidableEq, Repr

namespace WireContext

def outermost : WireContext := ⟨127, false⟩

def enter? (c : WireContext) : Option WireContext :=
  match c.room with
  | 0 => none
  | room + 1 => some { c with room }

end WireContext

class Wire (α : Type) where
  encode : α → Json
  decode : WireContext → Json → Option α

namespace Wire

def render {α : Type} [Wire α] (a : α) : String := (encode a).render

def parse? (α : Type) [Wire α] (s : String) : Option α := do
  let j ← Json.parse? s
  decode .outermost j

/-! ## Numbers, texts and lists -/

/-- A number of which a type holds all. -/
def wholeNumber? {α : Type} (ofNat : Nat → α) (toNat : α → Nat) : Json → Option α
  | .number (.natural n) => if toNat (ofNat n) = n then some (ofNat n) else none
  | _ => none

instance : Wire UInt8 where
  encode b := .nat b.toNat
  decode _ := wholeNumber? UInt8.ofNat UInt8.toNat

instance : Wire UInt64 where
  encode w := .nat w.toNat
  decode _ := wholeNumber? UInt64.ofNat UInt64.toNat

instance : Wire Amount where
  encode a := .nat a.toNat
  decode _ := wholeNumber? (BitVec.ofNat 128) BitVec.toNat

instance : Wire Bool where
  encode := .bool
  decode
    | _, .bool b => some b
    | _, _ => none

instance : Wire String where
  encode := .text
  decode
    | _, .string s => s
    | _, _ => none

instance {α : Type} [Wire α] : Wire (List α) where
  encode as := .array (as.map encode)
  decode
    | c, .array xs => c.enter?.bind fun c => xs.mapM (decode c)
    | _, _ => none

instance {α : Type} [Key α] [Wire α] : Wire (SortedSet α) where
  encode s := encode s.toList
  decode c j := (decode c j).map SortedSet.ofList

instance (n : Nat) : Wire (FixedBytes n) where
  encode b := encode b.toList
  decode c j := (decode c j).bind (FixedBytes.ofList? n)

instance {α : Type} [Wire α] : Wire (SortedMap String α) where
  encode m := .fields (m.entries.map fun e => (e.1, encode e.2))
  decode
    | c, .object ms => do
      let c ← c.enter?
      let entries ← ms.mapM fun m => do return (← m.1, ← decode c m.2)
      return .ofList entries
    | _, _ => none

/-! ## Names -/

/-- The value with a name. In a union the name may also be the key of an empty object. -/
def ofName? {α : Type} (all : List α) (name : α → String) (c : WireContext) : Json → Option α
  | .string (some s) => all.find? fun a => name a == s
  | .object [(some s, .null)] => if c.room = 0 then none else all.find? fun a => name a == s
  | .object [(some s, .object [])] =>
    if c.inUnion then all.find? fun a => name a == s else none
  | _ => none

/-! ## Structures -/

/-- The place of a field: a value, or nothing. -/
inductive Slot where
  | filled (j : Json)
  /-- The object has no such member. -/
  | noMember
  /-- The array is too short. -/
  | noElement
  deriving Repr

def membersNamed (name : String) (ms : List (JsonText × Json)) : List Json :=
  (ms.filter fun m => m.1 == some name).map Prod.snd

/-- The place of a field in an object, which may name it once. -/
def memberSlot? (ms : List (JsonText × Json)) (name : String) : Option Slot :=
  match membersNamed name ms with
  | [] => some .noMember
  | [j] => some (.filled j)
  | _ => none

def slots? (names : List String) : Json → Option (List Slot)
  | .object ms => if ms.all fun m => m.1.isSome then names.mapM (memberSlot? ms) else none
  | .array xs =>
    if xs.length ≤ names.length then
      some (xs.map .filled ++ List.replicate (names.length - xs.length) .noElement)
    else none
  | _ => none

def required {α : Type} [Wire α] (c : WireContext) : Slot → Option α
  | .filled j => decode c j
  | _ => none

def nullable? {α : Type} [Wire α] (c : WireContext) : Json → Option (Option α)
  | .null => some none
  | j => (decode c j).map some

/-- A field that may be null or missing from an object. -/
def optional {α : Type} [Wire α] (c : WireContext) : Slot → Option (Option α)
  | .filled j => nullable? c j
  | .noMember => some none
  | .noElement => none

/-- A field that may be null or missing. -/
def optionalAnywhere {α : Type} [Wire α] (c : WireContext) : Slot → Option (Option α)
  | .filled j => nullable? c j
  | _ => some none

/-- A field with a value of its own when it is missing. -/
def withDefault {α : Type} [Wire α] (c : WireContext) (missing : α) : Slot → Option α
  | .filled j => decode c j
  | _ => some missing

def encodeOption {α : Type} [Wire α] : Option α → Json
  | none => .null
  | some a => encode a

/-! ## Unions -/

mutual

/-- Whether a value can be kept until the tag of its union is known: every text is one, every number
is finite, and it does not nest too deep. -/
def isKept (room : Nat) : Json → Bool
  | .number n => n.isFinite
  | .string s => s.isSome
  | .array xs => decide (0 < room) && allKept (room - 1) xs
  | .object ms => decide (0 < room) && membersKept (room - 1) ms
  | _ => true

def allKept (room : Nat) : List Json → Bool
  | [] => true
  | x :: xs => isKept room x && allKept room xs

def membersKept (room : Nat) : List (JsonText × Json) → Bool
  | [] => true
  | (k, v) :: ms => k.isSome && isKept room v && membersKept room ms

end

/-- The tag of a union and the rest of its members or elements. -/
def tagged? (tag : String) (c : WireContext) : Json → Option (String × Json)
  | .object ms =>
    match membersNamed tag ms with
    | [.string (some name)] =>
      let rest := ms.filter fun m => m.1 != some tag
      if membersKept c.room rest then some (name, .object rest) else none
    | _ => none
  | .array (.string (some name) :: rest) =>
    if allKept c.room rest then some (name, .array rest) else none
  | _ => none

/-- Whether the rest of a union belongs to a variant without fields. -/
def isBare : Json → Bool
  | .object _ => true
  | .array xs => xs.isEmpty
  | _ => false

end Wire

end Countersign
