import Countersign.Data.Hex
import Countersign.Action
import Countersign.Hash.Blake3

/-!
# Identifiers

An `Identity` is an actor's 32-byte public key. Operation types, roles and selectors are hashes of
names, each kind under a tag of its own, so one name gives different identifiers in different kinds.
Every identifier has a `label`, its text in messages, and a diagnostic text `inspect`; both show
eight bytes at most.
-/

namespace Countersign

/-! ## Reading -/

inductive ReadError where
  | hex (reason : Hex.Error)
  | length (expected got : Nat)
  | unknownAction (name : String)
  deriving DecidableEq, Repr

def ReadError.message : ReadError → String
  | .hex reason => "invalid hex: " ++ reason.message
  | .length expected got =>
    "invalid length: expected " ++ toString expected ++ " bytes, got " ++ toString got
  | .unknownAction name => "unknown action: " ++ name

/-- A text without one leading `0x`. -/
def dropHexTag (s : String) : String :=
  match s.toList with
  | '0' :: 'x' :: rest => String.ofList rest
  | _ => s

namespace FixedBytes

def ofHex (n : Nat) (s : String) : Except ReadError (FixedBytes n) :=
  match Hex.decode (utf8 (dropHexTag s)) with
  | .error e => .error (.hex e)
  | .ok bs => if h : bs.length = n then .ok ⟨bs, h⟩ else .error (.length n bs.length)

def hex {n : Nat} (a : FixedBytes n) : String := Hex.encode a.toList

def shortHex {n : Nat} (a : FixedBytes n) : String := Hex.encode (a.toList.take 8)

end FixedBytes

def nameHash (tag name : String) : FixedBytes 32 := Blake3.hash (utf8 tag ++ utf8 name)

/-! ## Actors -/

/-- An actor, or the engine itself: the bytes of an Ed25519 public key. -/
structure Identity where
  bytes : FixedBytes 32
  deriving DecidableEq, Repr

namespace Identity

theorem bytes_injective {a b : Identity} (h : a.bytes = b.bytes) : a = b := by
  cases a; cases b; simp_all

instance : Key Identity := .lift bytes fun _ _ => bytes_injective

def zero : Identity := ⟨.zero 32⟩

def isZero (i : Identity) : Bool := i == zero

theorem isZero_iff {i : Identity} : i.isZero = true ↔ i = zero := by simp [isZero]

def ofHex (s : String) : Except ReadError Identity := (FixedBytes.ofHex 32 s).map Identity.mk

def hex (i : Identity) : String := i.bytes.hex

def label (i : Identity) : String := "id:" ++ i.bytes.shortHex

def inspect (i : Identity) : String := "Identity(" ++ i.bytes.shortHex ++ ")"

end Identity

/-! ## Names -/

/-- A class of sensitive changes. -/
structure OperationType where
  bytes : FixedBytes 32
  deriving DecidableEq, Repr

namespace OperationType

theorem bytes_injective {a b : OperationType} (h : a.bytes = b.bytes) : a = b := by
  cases a; cases b; simp_all

instance : Key OperationType := .lift bytes fun _ _ => bytes_injective

def ofName (name : String) : OperationType := ⟨nameHash "bastion-operation-type-v1:" name⟩

def label (o : OperationType) : String := "op:" ++ o.bytes.shortHex

def inspect (o : OperationType) : String := "OperationTypeId(" ++ o.bytes.shortHex ++ ")"

end OperationType

structure RoleId where
  bytes : FixedBytes 32
  deriving DecidableEq, Repr

namespace RoleId

theorem bytes_injective {a b : RoleId} (h : a.bytes = b.bytes) : a = b := by
  cases a; cases b; simp_all

instance : Key RoleId := .lift bytes fun _ _ => bytes_injective

def ofName (name : String) : RoleId := ⟨nameHash "bastion-role-v1:" name⟩

def ownerName : String := "OWNER_ROLE"

/-- The protected role with the owner as its only member. -/
def owner : RoleId := ofName ownerName

def label (r : RoleId) : String := "role:" ++ r.bytes.shortHex

def inspect (r : RoleId) : String := "RoleHash(" ++ r.bytes.shortHex ++ ")"

end RoleId

/-- A function of a target, four bytes. -/
structure Selector where
  bytes : FixedBytes 4
  deriving DecidableEq, Repr

namespace Selector

theorem bytes_injective {a b : Selector} (h : a.bytes = b.bytes) : a = b := by
  cases a; cases b; simp_all

instance : Key Selector := .lift bytes fun _ _ => bytes_injective

def zero : Selector := ⟨.zero 4⟩

def isZero (s : Selector) : Bool := s == zero

theorem isZero_iff {s : Selector} : s.isZero = true ↔ s = zero := by simp [isZero]

/-- The selector of a signature such as `updateAddress(address)`: the first bytes of its hash. -/
def ofSignature (signature : String) : Selector :=
  ⟨(nameHash "bastion-selector-v1:" signature).truncate 4 (by decide)⟩

def ofHex (s : String) : Except ReadError Selector := (FixedBytes.ofHex 4 s).map Selector.mk

def label (s : Selector) : String := "0x" ++ s.bytes.hex

def inspect (s : Selector) : String := "Selector(0x" ++ s.bytes.hex ++ ")"

end Selector

/-! ## Records and digests -/

/-- The number of a record. Records are numbered from 1; 0 stands for a record yet to come. -/
structure TxId where
  number : UInt64
  deriving DecidableEq, Repr

namespace TxId

theorem number_injective {a b : TxId} (h : a.number = b.number) : a = b := by
  cases a; cases b; simp_all

instance : Key TxId := .lift number fun _ _ => number_injective

def unallocated : TxId := ⟨0⟩

def isAllocated (t : TxId) : Bool := t.number != 0

def label (t : TxId) : String := "tx:" ++ toString t.number

def inspect (t : TxId) : String := "TxId(" ++ toString t.number ++ ")"

end TxId

structure Digest where
  bytes : FixedBytes 32
  deriving DecidableEq, Repr

namespace Digest

def hex (g : Digest) : String := g.bytes.hex

def label (g : Digest) : String := g.bytes.shortHex

def inspect (g : Digest) : String := "Digest(" ++ g.bytes.shortHex ++ ")"

end Digest

def Action.ofName (s : String) : Except ReadError Action :=
  match Action.ofName? s with
  | some a => .ok a
  | none => .error (.unknownAction s)

end Countersign
