import Countersign.Toml.Document
import Countersign.Toml.Scalar

/-!
# Reading TOML

`Toml.parse?` reads a text into the entries of its table. Values and statements are read by functions
that take a list of characters and give what they have read and the rest.
-/

namespace Countersign.Toml

/-! ## Lines and comments -/

/-- The rest after blanks, line ends and comments; a comment ends with its line. -/
def skipLines (inComment : Bool) : List Char → Option (List Char)
  | [] => if inComment then none else some []
  | '\r' :: '\n' :: cs => skipLines false cs
  | c :: cs =>
    if c = '\n' then skipLines false cs
    else if inComment then if isPrintable c then skipLines true cs else none
    else if c = '#' then skipLines true cs
    else if isBlank c then skipLines false cs
    else some (c :: cs)

/-- The rest after the line, of which only blanks and a comment may be left. -/
def endLine (inComment : Bool) : List Char → Option (List Char)
  | [] => some []
  | '\r' :: '\n' :: cs => some cs
  | c :: cs =>
    if c = '\n' then some cs
    else if inComment then if isPrintable c then endLine true cs else none
    else if c = '#' then endLine true cs
    else if isBlank c then endLine false cs
    else none

/-! ## Values -/

def maxNesting : Nat := 79

def readAssignment (cs : List Char) : Option (List String × List Char) := do
  let (key, cs) ← readKey maxKeyParts cs
  let cs ← readWord ['='] cs
  return (key, skipBlanks cs)

mutual

/-- A value that nests at most `room` levels; `fuel` bounds the number of elements on the way. -/
def readValue (fuel room : Nat) (cs : List Char) : Option (Toml × List Char) :=
  match fuel with
  | 0 => none
  | fuel + 1 =>
    match cs with
    | '"' :: _ => (readText cs).map fun (s, rest) => (text (String.ofList s), rest)
    | '\'' :: _ => (readText cs).map fun (s, rest) => (text (String.ofList s), rest)
    | '[' :: cs =>
      match room with
      | 0 => none
      | room + 1 => (readElements fuel room cs).map fun (xs, rest) => (array xs, rest)
    | '\x7b' :: cs =>
      match room with
      | 0 => none
      | room + 1 =>
        match skipBlanks cs with
        | '\x7d' :: cs => some (table .braces [], cs)
        | cs => do
          let (pairs, cs) ← readPairs fuel room cs
          return (table .braces (← Entries.ofPairs? pairs), cs)
    | cs => readScalar cs

/-- The elements of an array from here on, and the bracket; a comma may stand before it. -/
def readElements (fuel room : Nat) (cs : List Char) : Option (List Toml × List Char) :=
  match fuel with
  | 0 => none
  | fuel + 1 => do
    match ← skipLines false cs with
    | ']' :: cs => return ([], cs)
    | cs =>
      let (x, cs) ← readValue fuel room cs
      match ← skipLines false cs with
      | ',' :: cs =>
        let (xs, cs) ← readElements fuel room cs
        return (x :: xs, cs)
      | ']' :: cs => return ([x], cs)
      | _ => none

/-- The entries of a table in braces from here on, and the brace. -/
def readPairs (fuel room : Nat) (cs : List Char) :
    Option (List (List String × Toml) × List Char) :=
  match fuel with
  | 0 => none
  | fuel + 1 => do
    let (key, cs) ← readAssignment cs
    let (value, cs) ← readValue fuel room cs
    match skipBlanks cs with
    | ',' :: cs =>
      let (pairs, cs) ← readPairs fuel room cs
      return ((key, value) :: pairs, cs)
    | '\x7d' :: cs => return ([(key, value)], cs)
    | _ => none

end

/-! ## Statements -/

def readStatement (cs : List Char) : Option (Option Statement × List Char) :=
  match skipBlanks cs with
  | [] => some (none, [])
  | '#' :: cs => (endLine true cs).map fun rest => (none, rest)
  | '\n' :: cs => some (none, cs)
  | '\r' :: cs => (readWord ['\n'] cs).map fun rest => (none, rest)
  | '[' :: '[' :: cs => do
    let (path, cs) ← readKey maxKeyParts cs
    let rest ← endLine false (← readWord [']', ']'] cs)
    return (some (.element path), rest)
  | '[' :: cs => do
    let (path, cs) ← readKey maxKeyParts cs
    let rest ← endLine false (← readWord [']'] cs)
    return (some (.header path), rest)
  | cs => do
    let (key, cs) ← readAssignment cs
    let (value, cs) ← readValue (cs.length + 1) maxNesting cs
    return (some (.entry key value), ← endLine false cs)

/-- The statements of a document; `fuel` bounds the number of lines. -/
def readStatements (fuel : Nat) (cs : List Char) : Option (List Statement) :=
  match fuel, cs with
  | _, [] => some []
  | 0, _ => none
  | fuel + 1, cs => do
    let (statement, rest) ← readStatement cs
    let statements ← readStatements fuel rest
    return statement.toList ++ statements

/-- The characters of a text without the byte order mark in front. -/
def dropMark : List Char → List Char
  | '\uFEFF' :: cs => cs
  | cs => cs

def parse? (s : String) : Option Entries := do
  let cs := dropMark s.toList
  let statements ← readStatements (cs.length + 1) cs
  Document.ofStatements? statements

end Countersign.Toml
