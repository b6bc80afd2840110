/-!
# Network addresses

IP addresses, how they are written, and how socket addresses (an IP address and a port) are read.

An IPv6 address is written in eight groups of up to four lower-case digits; the first of the longest
runs of two or more zero groups is written `::`, and an IPv4 address inside an IPv6 one after
`::ffff:`. What is read is `a.b.c.d:port` or `[groups]:port`, the latter perhaps with a scope number
after `%`; a part of an IPv4 address has no leading zeros and the last two groups can be written as
an IPv4 address.
-/

namespace GameLobby

/-- The address of a machine. -/
inductive IpAddress where
  | v4 (a b c d : UInt8)
  | v6 (groups : List UInt16) (length_eq : groups.length = 8)
  deriving DecidableEq, Repr

/-- The address of one end of a connection. -/
structure SocketAddress where
  ip : IpAddress
  port : UInt16
  deriving DecidableEq, Repr

namespace IpAddress

/-! ## Writing -/

/-- An IPv4 address as text. -/
def dotted (a b c d : UInt8) : String :=
  toString a ++ "." ++ toString b ++ "." ++ toString c ++ "." ++ toString d

/-- A run of zero groups: where it starts and how long it is. -/
structure ZeroRun where
  start : Nat
  length : Nat
  deriving DecidableEq, Repr

/-- The first of the longest runs of zero groups. `position` is the number of the group in front,
`run` the run that it may continue and `best` the best one so far. -/
def longestZeros (position : Nat) (run best : ZeroRun) : List UInt16 → ZeroRun
  | [] => best
  | g :: groups =>
    if g = 0 then
      let run := if run.length = 0 then ⟨position, 1⟩ else ⟨run.start, run.length + 1⟩
      longestZeros (position + 1) run (if best.length < run.length then run else best) groups
    else longestZeros (position + 1) ⟨0, 0⟩ best groups

/-- Groups in base sixteen, with colons between them. -/
def colons (groups : List UInt16) : String :=
  ":".intercalate (groups.map fun g => String.ofList (Nat.toDigits 16 g.toNat))

/-- Eight groups as text. -/
def grouped (groups : List UInt16) : String :=
  match groups with
  | [0, 0, 0, 0, 0, 0xFFFF, x, y] =>
    "::ffff:" ++
      dotted (UInt8.ofNat (x.toNat / 256)) (UInt8.ofNat x.toNat) (UInt8.ofNat (y.toNat / 256))
        (UInt8.ofNat y.toNat)
  | _ =>
    let zeros := longestZeros 0 ⟨0, 0⟩ ⟨0, 0⟩ groups
    if 1 < zeros.length then
      colons (groups.take zeros.start) ++ "::" ++ colons (groups.drop (zeros.start + zeros.length))
    else colons groups

/-- An address as text. -/
def text : IpAddress → String
  | .v4 a b c d => dotted a b c d
  | .v6 groups _ => grouped groups

instance : ToString IpAddress := ⟨text⟩

end IpAddress

/-! ## Reading -/

namespace Net

/-- The value of a digit in base ten or sixteen. -/
def digit? (radix : Nat) (c : Char) : Option Nat :=
  let value :=
    if '0' ≤ c ∧ c ≤ '9' then some (c.toNat - '0'.toNat)
    else if 'a' ≤ c ∧ c ≤ 'f' then some (c.toNat - 'a'.toNat + 10)
    else if 'A' ≤ c ∧ c ≤ 'F' then some (c.toNat - 'A'.toNat + 10)
    else none
  value.filter (· < radix)

/-- What a numeral has to be like. -/
structure NumeralForm where
  radix : Nat
  /-- The most digits there can be. -/
  maxDigits : Option Nat
  /-- Whether it can have leading zeros. -/
  leadingZeros : Bool
  /-- Its value is less than this. -/
  bound : Nat

/-- A part of an IPv4 address. -/
def octet : NumeralForm := ⟨10, some 3, false, 256⟩

/-- A group of an IPv6 address. -/
def group : NumeralForm := ⟨16, some 4, true, 65536⟩

/-- A port. -/
def portNumber : NumeralForm := ⟨10, none, true, 65536⟩

/-- A scope number. -/
def scopeNumber : NumeralForm := ⟨10, none, true, 4294967296⟩

/-- All the digits in front as one numeral, and the rest. -/
def readNumeral (form : NumeralForm) (cs : List Char) : Option (Nat × List Char) :=
  let isDigit := fun c => (digit? form.radix c).isSome
  let digits := cs.takeWhile isDigit
  let value := digits.foldl (fun n c => n * form.radix + (digit? form.radix c).getD 0) 0
  if digits = [] then none
  else if form.maxDigits.any (· < digits.length) then none
  else if !form.leadingZeros && digits.head? == some '0' && 1 < digits.length then none
  else if value < form.bound then some (value, cs.dropWhile isDigit)
  else none

/-- The rest after a given character. -/
def skip (c : Char) : List Char → Option (List Char)
  | d :: rest => if d = c then some rest else none
  | [] => none

/-- An IPv4 address in front, and the rest. -/
def readV4 (cs : List Char) : Option ((UInt8 × UInt8 × UInt8 × UInt8) × List Char) := do
  let (a, cs) ← readNumeral octet cs
  let (b, cs) ← readNumeral octet (← skip '.' cs)
  let (c, cs) ← readNumeral octet (← skip '.' cs)
  let (d, cs) ← readNumeral octet (← skip '.' cs)
  return ((UInt8.ofNat a, UInt8.ofNat b, UInt8.ofNat c, UInt8.ofNat d), cs)

/-- At most `limit` groups in front with colons between them, whether the last two of them were
written as an IPv4 address, and the rest. `first` says that no colon comes before the next group. -/
def readGroups : (limit : Nat) → (first : Bool) → List Char → List UInt16 × Bool × List Char
  | 0, _, cs => ([], false, cs)
  | limit + 1, first, cs =>
    let start := if first then some cs else skip ':' cs
    match if 1 ≤ limit then start.bind readV4 else none with
    | some ((a, b, c, d), rest) =>
      ([UInt16.ofNat (a.toNat * 256 + b.toNat), UInt16.ofNat (c.toNat * 256 + d.toNat)], true, rest)
    | none =>
      match start.bind (readNumeral group) with
      | none => ([], false, cs)
      | some (g, rest) =>
        let (groups, embedded, rest) := readGroups limit false rest
        (UInt16.ofNat g :: groups, embedded, rest)

/-- The address made of groups, if there are eight. -/
def ofGroups? (groups : List UInt16) : Option IpAddress :=
  if h : groups.length = 8 then some (.v6 groups h) else none

/-- An IPv6 address in front, and the rest. `::` stands for one zero group or more. -/
def readV6 (cs : List Char) : Option (IpAddress × List Char) :=
  let (front, embedded, rest) := readGroups 8 true cs
  if front.length = 8 then (ofGroups? front).map (·, rest)
  else if embedded then none
  else do
    let rest ← skip ':' (← skip ':' rest)
    let (back, _, rest) := readGroups (7 - front.length) true rest
    let zeros := List.replicate (8 - front.length - back.length) 0
    return (← ofGroups? (front ++ zeros ++ back), rest)

/-- A colon and a port in front, and the rest. -/
def readPort (cs : List Char) : Option (UInt16 × List Char) := do
  let (port, rest) ← readNumeral portNumber (← skip ':' cs)
  return (UInt16.ofNat port, rest)

/-- A socket address with an IPv4 address, and the rest. -/
def readSocketV4 (cs : List Char) : Option (SocketAddress × List Char) := do
  let ((a, b, c, d), cs) ← readV4 cs
  let (port, cs) ← readPort cs
  return (⟨.v4 a b c d, port⟩, cs)

/-- The rest after a scope number, if there is one in front. -/
def skipScope (cs : List Char) : List Char :=
  match (skip '%' cs).bind (readNumeral scopeNumber) with
  | some (_, rest) => rest
  | none => cs

/-- A socket address with an IPv6 address, and the rest. -/
def readSocketV6 (cs : List Char) : Option (SocketAddress × List Char) := do
  let (ip, cs) ← readV6 (← skip '[' cs)
  let (port, cs) ← readPort (← skip ']' (skipScope cs))
  return (⟨ip, port⟩, cs)

end Net

/-- The socket address that a text is, if it is one from end to end. -/
def SocketAddress.ofString? (s : String) : Option SocketAddress :=
  match (Net.readSocketV4 s.toList <|> Net.readSocketV6 s.toList) with
  | some (address, []) => some address
  | _ => none

end GameLobby
