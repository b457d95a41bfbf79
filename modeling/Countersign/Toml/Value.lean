/-!
# TOML values

A TOML text holds a table. A table remembers how it came about, because that decides what may still be
added to it. Of floats and date-times only the kind is kept: no configuration has a place for them.
-/

namespace Countersign

/-- How a table came about. -/
inductive TableOrigin where
  /-- A header names it. -/
  | header
  /-- A header names a table inside it. -/
  | implied
  /-- A dotted key leads through it. -/
  | dotted
  /-- It stands in braces. -/
  | braces
  deriving DecidableEq, Repr

inductive Toml where
  | text (s : String)
  | integer (n : Int)
  | float
  | boolean (b : Bool)
  | dateTime
  | array (elements : List Toml)
  | table (origin : TableOrigin) (entries : List (String × Toml))
  /-- Tables that headers in double brackets name. -/
  | tables (elements : List (List (String × Toml)))
  deriving Repr

namespace Toml

/-- The entries of a table, in no order that matters. -/
abbrev Entries := List (String × Toml)

namespace Entries

def find? (es : Entries) (k : String) : Option Toml :=
  (List.find? (fun e => e.1 == k) es).map Prod.snd

/-- The entries with another value under a key that is there. -/
def set (es : Entries) (k : String) (v : Toml) : Entries :=
  es.map fun e => if e.1 == k then (k, v) else e

def add (es : Entries) (k : String) (v : Toml) : Entries := es ++ [(k, v)]

end Entries

end Toml

end Countersign
