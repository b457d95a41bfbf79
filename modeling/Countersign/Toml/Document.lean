import Countersign.Toml.Value

/-!
# TOML documents

A document is a sequence of statements: headers that open a table, and entries for the table that is
open. Every table is defined at one place: a header may open only a table that is new or has been
implied, and a dotted key may go on only in tables that dotted keys have made.
-/

namespace Countersign.Toml

/-- A line of a document. -/
inductive Statement where
  /-- Opens a table. -/
  | header (path : List String)
  /-- Opens one more table of a list of tables. -/
  | element (path : List String)
  /-- An entry of the open table. -/
  | entry (key : List String) (value : Toml)
  deriving Repr

namespace Entries

/-- Changes the last of a list of tables. -/
def changeLast (f : Entries → Option Entries) : List Entries → Option (List Entries)
  | [] => none
  | [es] => (f es).map fun es => [es]
  | es :: rest => (changeLast f rest).map (es :: ·)

/-! ## Entries -/

/-- Whether a dotted key may lead into a table; at its end only into one that dotted keys have made. -/
def admitsDotted (atEnd : Bool) : TableOrigin → Bool
  | .dotted => true
  | .implied => !atEnd
  | _ => false

/-- The entries with a value under a dotted key. -/
def addDotted (value : Toml) : List String → Entries → Option Entries
  | [], _ => none
  | [k], es => if (es.find? k).isSome then none else some (es.add k value)
  | k :: ks, es =>
    match es.find? k with
    | none => (addDotted value ks []).map fun sub => es.add k (.table .dotted sub)
    | some (.table origin sub) =>
      if admitsDotted (ks.length == 1) origin then
        (addDotted value ks sub).map fun sub => es.set k (.table origin sub)
      else none
    | some (.tables elements) =>
      if ks.length == 1 then none
      else (changeLast (addDotted value ks) elements).map fun elements => es.set k (.tables elements)
    | some _ => none

/-- The table in braces of some entries. -/
def ofPairs? (pairs : List (List String × Toml)) : Option Entries :=
  pairs.foldlM (fun es p => addDotted p.2 p.1 es) []

/-! ## Headers -/

/-- Changes the table at a path; what is not there is implied, and of a list of tables the last one is
meant. -/
def changeAt (f : Entries → Option Entries) : List String → Entries → Option Entries
  | [], es => f es
  | k :: ks, es =>
    match es.find? k with
    | none => (changeAt f ks []).map fun sub => es.add k (.table .implied sub)
    | some (.table origin sub) =>
      if origin = .braces then none
      else (changeAt f ks sub).map fun sub => es.set k (.table origin sub)
    | some (.tables elements) =>
      (changeLast (changeAt f ks) elements).map fun elements => es.set k (.tables elements)
    | some _ => none

def openTable (k : String) (es : Entries) : Option Entries :=
  match es.find? k with
  | none => some (es.add k (.table .header []))
  | some (.table .implied sub) => some (es.set k (.table .header sub))
  | some _ => none

def openElement (k : String) (es : Entries) : Option Entries :=
  match es.find? k with
  | none => some (es.add k (.tables [[]]))
  | some (.tables elements) => some (es.set k (.tables (elements ++ [[]])))
  | some _ => none

end Entries

/-! ## Documents -/

/-- A document so far: its table, and the path of the table that is open. -/
structure Document where
  root : Entries
  opened : List String

namespace Document

def empty : Document := ⟨[], []⟩

def extend (d : Document) : Statement → Option Document
  | .header path => do
    let k ← path.getLast?
    let root ← Entries.changeAt (Entries.openTable k) path.dropLast d.root
    return ⟨root, path⟩
  | .element path => do
    let k ← path.getLast?
    let root ← Entries.changeAt (Entries.openElement k) path.dropLast d.root
    return ⟨root, path⟩
  | .entry key value => do
    let root ← Entries.changeAt (Entries.addDotted value key) d.opened d.root
    return { d with root }

def ofStatements? (statements : List Statement) : Option Entries :=
  (statements.foldlM extend empty).map Document.root

end Document

end Countersign.Toml
