import GameLobby.Json.Value

/-!
# Reading JSON

The reader takes exactly the documents that the JSON grammar derives: blanks are space, tab, line
feed and carriage return; numerals have no leading zeros; a string holds no control characters, and
a `\u` escape for one half of a surrogate pair is followed by one for the other half. Nothing but
blanks follows the document.

Each function reads something off the front of the input and gives the rest. Values nest, and each
level takes a character at least, so the length of the input bounds the depth.
-/

namespace GameLobby.Json

/-- Whether a character separates tokens. -/
def isBlank (c : Char) : Bool :=
  c = ' ' || c = '\t' || c = '\n' || c = '\r'

/-- The input without the blanks in front. -/
def skipBlanks (cs : List Char) : List Char :=
  cs.dropWhile isBlank

/-- The rest after a word. -/
def skipWord : List Char → List Char → Option (List Char)
  | [], cs => some cs
  | w :: word, c :: cs => if w = c then skipWord word cs else none
  | _ :: _, [] => none

/-! ## Strings -/

/-- The value of a digit in base sixteen. -/
def hexValue? (c : Char) : Option Nat :=
  if '0' ≤ c ∧ c ≤ '9' then some (c.toNat - '0'.toNat)
  else if 'a' ≤ c ∧ c ≤ 'f' then some (c.toNat - 'a'.toNat + 10)
  else if 'A' ≤ c ∧ c ≤ 'F' then some (c.toNat - 'A'.toNat + 10)
  else none

/-- The number that four digits in front are. -/
def readUnit : List Char → Option (Nat × List Char)
  | a :: b :: c :: d :: rest => do
    return ((← hexValue? a) * 4096 + (← hexValue? b) * 256 + (← hexValue? c) * 16 + (← hexValue? d),
      rest)
  | _ => none

/-- The character that the rest of a `\u` escape stands for. -/
def readUnicode (cs : List Char) : Option (Char × List Char) := do
  let (unit, rest) ← readUnit cs
  if 0xD800 ≤ unit ∧ unit < 0xDC00 then
    let (low, rest) ← readUnit (← skipWord ['\\', 'u'] rest)
    if 0xDC00 ≤ low ∧ low < 0xE000 then
      return (Char.ofNat (0x10000 + (unit - 0xD800) * 0x400 + (low - 0xDC00)), rest)
    else none
  else if 0xDC00 ≤ unit ∧ unit < 0xE000 then none
  else return (Char.ofNat unit, rest)

/-- The character that an escape stands for, given what follows the backslash. -/
def readEscape : List Char → Option (Char × List Char)
  | '"' :: rest => some ('"', rest)
  | '\\' :: rest => some ('\\', rest)
  | '/' :: rest => some ('/', rest)
  | 'b' :: rest => some ('\x08', rest)
  | 'f' :: rest => some ('\x0c', rest)
  | 'n' :: rest => some ('\n', rest)
  | 'r' :: rest => some ('\r', rest)
  | 't' :: rest => some ('\t', rest)
  | 'u' :: rest => readUnicode rest
  | _ => none

/-- The characters of a string up to the quote that ends it. -/
def readString : (fuel : Nat) → List Char → Option (List Char × List Char)
  | 0, _ => none
  | _, [] => none
  | _ + 1, '"' :: rest => some ([], rest)
  | fuel + 1, '\\' :: rest => do
    let (c, rest) ← readEscape rest
    let (s, rest) ← readString fuel rest
    return (c :: s, rest)
  | fuel + 1, c :: rest =>
    if c.toNat < 0x20 then none
    else do
      let (s, rest) ← readString fuel rest
      return (c :: s, rest)

/-! ## Numerals -/

/-- One digit or more, and the rest. -/
def readDigits (cs : List Char) : Option (List Char × List Char) :=
  let digits := cs.takeWhile Char.isDigit
  if digits = [] then none else some (digits, cs.dropWhile Char.isDigit)

/-- The digits in front of a point, and the rest: zero alone, or no zero in front. -/
def readWhole : List Char → Option (List Char × List Char)
  | '0' :: rest => if (rest.takeWhile Char.isDigit) = [] then some (['0'], rest) else none
  | cs => readDigits cs

/-- The fraction in front, if there is one: a point and digits. -/
def readFraction : List Char → Option (List Char × List Char)
  | '.' :: rest => do
    let (digits, rest) ← readDigits rest
    return ('.' :: digits, rest)
  | cs => some ([], cs)

/-- The sign in front, if there is one. -/
def readSign : List Char → List Char × List Char
  | '+' :: rest => (['+'], rest)
  | '-' :: rest => (['-'], rest)
  | cs => ([], cs)

/-- The exponent in front, if there is one: the letter, a sign perhaps, and digits. -/
def readExponent : List Char → Option (List Char × List Char)
  | c :: rest =>
    if c = 'e' ∨ c = 'E' then do
      let (sign, rest) := readSign rest
      let (digits, rest) ← readDigits rest
      return (c :: sign ++ digits, rest)
    else some ([], c :: rest)
  | [] => some ([], [])

/-- The natural number that digits are. -/
def naturalOf (digits : List Char) : Nat :=
  digits.foldl (fun n c => n * 10 + (c.toNat - '0'.toNat)) 0

/-- The numeral in front. -/
def readNumeral (cs : List Char) : Option (Json × List Char) := do
  let (sign, rest) :=
    match cs with
    | '-' :: rest => (['-'], rest)
    | cs => ([], cs)
  let (whole, rest) ← readWhole rest
  let (fraction, rest) ← readFraction rest
  let (exponent, rest) ← readExponent rest
  if sign = [] ∧ fraction = [] ∧ exponent = [] then return (.natural (naturalOf whole), rest)
  else return (.numeral (String.ofList (sign ++ whole ++ fraction ++ exponent)), rest)

/-! ## Values -/

mutual

/-- The value in front. -/
def readValue : (fuel : Nat) → List Char → Option (Json × List Char)
  | 0, _ => none
  | fuel + 1, cs =>
    match skipBlanks cs with
    | '"' :: rest => do
      let (s, rest) ← readString (rest.length + 1) rest
      return (.string (String.ofList s), rest)
    | '[' :: rest =>
      match skipBlanks rest with
      | ']' :: rest => some (.array [], rest)
      | rest => do
        let (items, rest) ← readItems fuel rest
        return (.array items, rest)
    | '{' :: rest =>
      match skipBlanks rest with
      | '}' :: rest => some (.object [], rest)
      | rest => do
        let (members, rest) ← readMembers fuel rest
        return (.object members, rest)
    | 'n' :: rest => (skipWord ['u', 'l', 'l'] rest).map (Json.null, ·)
    | 't' :: rest => (skipWord ['r', 'u', 'e'] rest).map (Json.bool true, ·)
    | 'f' :: rest => (skipWord ['a', 'l', 's', 'e'] rest).map (Json.bool false, ·)
    | rest => readNumeral rest

/-- The items of an array up to the bracket that ends it; there is one at least. -/
def readItems : (fuel : Nat) → List Char → Option (List Json × List Char)
  | 0, _ => none
  | fuel + 1, cs => do
    let (item, rest) ← readValue fuel cs
    match skipBlanks rest with
    | ']' :: rest => some ([item], rest)
    | ',' :: rest => do
      let (items, rest) ← readItems fuel rest
      return (item :: items, rest)
    | _ => none

/-- The members of an object up to the brace that ends it; there is one at least. -/
def readMembers : (fuel : Nat) → List Char → Option (List (String × Json) × List Char)
  | 0, _ => none
  | fuel + 1, cs => do
    let rest ← skipWord ['"'] (skipBlanks cs)
    let (name, rest) ← readString (rest.length + 1) rest
    let rest ← skipWord [':'] (skipBlanks rest)
    let (value, rest) ← readValue fuel rest
    match skipBlanks rest with
    | '}' :: rest => some ([(String.ofList name, value)], rest)
    | ',' :: rest => do
      let (members, rest) ← readMembers fuel rest
      return ((String.ofList name, value) :: members, rest)
    | _ => none

end

/-- The value that a document is. -/
def ofString? (text : String) : Option Json :=
  let cs := text.toList
  match readValue (2 * cs.length + 1) cs with
  | some (value, rest) => if skipBlanks rest = [] then some value else none
  | none => none

end GameLobby.Json
