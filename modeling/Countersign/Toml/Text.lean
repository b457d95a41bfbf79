import Countersign.Data.Digits

/-!
# TOML texts and keys

Texts stand in double quotes, with escapes, or in single quotes, without; three quotes open a text of
several lines. A key is a bare word or a text of one line, and a dotted key is a sequence of them. The
readers take the characters after the opening quote, and give what they have read and the rest.
-/

namespace Countersign.Toml

/-! ## Characters -/

def isBlank (c : Char) : Bool := c == ' ' || c == '\t'

def skipBlanks (cs : List Char) : List Char := cs.dropWhile isBlank

/-- A tab, or any character that is not a control character. -/
def isPrintable (c : Char) : Bool := c == '\t' || (decide (32 ≤ c.toNat) && c.toNat != 127)

/-- Whether only blanks stand before the end of the line. -/
def endsLine (cs : List Char) : Bool :=
  match skipBlanks cs with
  | '\n' :: _ => true
  | '\r' :: '\n' :: _ => true
  | _ => false

/-- The rest after one line end, if it begins with one. -/
def dropLineEnd : List Char → List Char
  | '\n' :: cs => cs
  | '\r' :: '\n' :: cs => cs
  | cs => cs

/-! ## Escapes -/

def escaped? (c : Char) : Option Char :=
  match c with
  | '"' => some '"'
  | '\\' => some '\\'
  | 'b' => some '\x08'
  | 'f' => some '\x0c'
  | 'n' => some '\n'
  | 'r' => some '\r'
  | 't' => some '\t'
  | _ => none

def numbered? (digits : List Char) : Option Char :=
  match hexNumber? digits with
  | some n => if n.isValidChar then some (Char.ofNat n) else none
  | none => none

/-- What has been read with one more character in front. -/
def withFirst (c : Option Char) (r : Option (List Char × List Char)) :
    Option (List Char × List Char) :=
  match c, r with
  | some c, some (text, rest) => some (c :: text, rest)
  | _, _ => none

/-! ## Texts of one line -/

def readQuoted : List Char → Option (List Char × List Char)
  | [] => none
  | '"' :: rest => some ([], rest)
  | '\\' :: 'u' :: a :: b :: c :: d :: rest =>
    withFirst (numbered? [a, b, c, d]) (readQuoted rest)
  | '\\' :: 'U' :: a :: b :: c :: d :: e :: f :: g :: h :: rest =>
    withFirst (numbered? [a, b, c, d, e, f, g, h]) (readQuoted rest)
  | '\\' :: c :: rest => withFirst (escaped? c) (readQuoted rest)
  | c :: rest => if isPrintable c ∧ c ≠ '\\' then withFirst (some c) (readQuoted rest) else none

def readLiteral : List Char → Option (List Char × List Char)
  | [] => none
  | '\'' :: rest => some ([], rest)
  | c :: rest => if isPrintable c then withFirst (some c) (readLiteral rest) else none

/-! ## Texts of several lines -/

/-- A text in three double quotes; one or two more may stand before them. A backslash at the end of a
line drops all blanks and line ends after it, which is when `trim` holds. -/
def readQuotedLines (trim : Bool) : List Char → Option (List Char × List Char)
  | [] => none
  | '"' :: '"' :: '"' :: '"' :: '"' :: rest => some (['"', '"'], rest)
  | '"' :: '"' :: '"' :: '"' :: rest => some (['"'], rest)
  | '"' :: '"' :: '"' :: rest => some ([], rest)
  | '"' :: rest => withFirst (some '"') (readQuotedLines false rest)
  | '\\' :: 'u' :: a :: b :: c :: d :: rest =>
    withFirst (numbered? [a, b, c, d]) (readQuotedLines false rest)
  | '\\' :: 'U' :: a :: b :: c :: d :: e :: f :: g :: h :: rest =>
    withFirst (numbered? [a, b, c, d, e, f, g, h]) (readQuotedLines false rest)
  | '\\' :: c :: rest =>
    if endsLine (c :: rest) then readQuotedLines true rest
    else withFirst (escaped? c) (readQuotedLines false rest)
  | '\r' :: '\n' :: rest =>
    if trim then readQuotedLines true rest
    else withFirst (some '\n') (readQuotedLines false rest)
  | c :: rest =>
    if trim && (isBlank c || c == '\n') then readQuotedLines true rest
    else if (isPrintable c || c == '\n') && c != '\\' then
      withFirst (some c) (readQuotedLines false rest)
    else none

/-- A text in three single quotes; one or two more may stand before them. -/
def readLiteralLines : List Char → Option (List Char × List Char)
  | [] => none
  | '\'' :: '\'' :: '\'' :: '\'' :: '\'' :: rest => some (['\'', '\''], rest)
  | '\'' :: '\'' :: '\'' :: '\'' :: rest => some (['\''], rest)
  | '\'' :: '\'' :: '\'' :: rest => some ([], rest)
  | '\r' :: '\n' :: rest => withFirst (some '\n') (readLiteralLines rest)
  | c :: rest =>
    if isPrintable c || c == '\n' then withFirst (some c) (readLiteralLines rest) else none

def readText : List Char → Option (List Char × List Char)
  | '"' :: '"' :: '"' :: cs => readQuotedLines false (dropLineEnd cs)
  | '\'' :: '\'' :: '\'' :: cs => readLiteralLines (dropLineEnd cs)
  | '"' :: cs => readQuoted cs
  | '\'' :: cs => readLiteral cs
  | _ => none

/-! ## Keys -/

def isBare (c : Char) : Bool := c.isAlphanum || c == '-' || c == '_'

def readSimpleKey : List Char → Option (List Char × List Char)
  | '"' :: cs => readQuoted cs
  | '\'' :: cs => readLiteral cs
  | cs =>
    match cs.takeWhile isBare with
    | [] => none
    | word => some (word, cs.dropWhile isBare)

/-- A key of a bounded number of parts, with blanks around each. -/
def readKey (bound : Nat) (cs : List Char) : Option (List String × List Char) :=
  match bound with
  | 0 => none
  | bound + 1 => do
    let (part, cs) ← readSimpleKey (skipBlanks cs)
    match skipBlanks cs with
    | '.' :: cs =>
      let (parts, cs) ← readKey bound cs
      return (String.ofList part :: parts, cs)
    | cs => return ([String.ofList part], cs)

def maxKeyParts : Nat := 79

end Countersign.Toml
