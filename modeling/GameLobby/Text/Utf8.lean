import GameLobby.Bytes

/-!
# UTF-8

Writing text as UTF-8 and reading it back, strictly or lossily. The reader is a machine that takes
one byte at a time: between characters, or inside one with some continuation bytes still owed.
Each character gives one item; so does each maximal part of the input that starts a character and
cannot be continued, and each byte that can start none. The lossy reading shows such an item as
U+FFFD, the strict reading refuses the text.
-/

namespace GameLobby.Text

/-- The UTF-8 bytes of a text. -/
def utf8 (s : String) : Bytes :=
  s.toList.flatMap String.utf8EncodeChar

/-- U+FFFD, which stands for what could not be read. -/
def replacement : Char := '\ufffd'

namespace Utf8

/-- Where the machine stands between two bytes. -/
inductive State where
  /-- Between characters. -/
  | start
  /-- Inside a character whose bits so far are `bits`: the next byte lies between `low` and `high`,
  and `more` continuation bytes follow it. -/
  | inside (bits : Nat) (low high : Nat) (more : Nat)
  deriving DecidableEq, Repr

/-- One item of the input: a character, or a part that is none. -/
abbrev Item := Option Char

/-- The first byte of a character. Bytes C0, C1 and F5 to FF start none; E0, ED, F0 and F4 narrow
the byte that follows, which rules out overlong forms, surrogates and what lies above U+10FFFF. -/
def first (b : Nat) : List Item × State :=
  if b < 0x80 then ([some (Char.ofNat b)], .start)
  else if b < 0xC2 then ([none], .start)
  else if b < 0xE0 then ([], .inside (b % 0x20) 0x80 0xBF 0)
  else if b = 0xE0 then ([], .inside 0 0xA0 0xBF 1)
  else if b = 0xED then ([], .inside 0xD 0x80 0x9F 1)
  else if b < 0xF0 then ([], .inside (b % 0x10) 0x80 0xBF 1)
  else if b = 0xF0 then ([], .inside 0 0x90 0xBF 2)
  else if b < 0xF4 then ([], .inside (b % 8) 0x80 0xBF 2)
  else if b = 0xF4 then ([], .inside 4 0x80 0x8F 2)
  else ([none], .start)

/-- One byte: the items it completes, and the state after it. A byte that cannot continue the
character closes it as unreadable and is then read as a first byte. -/
def step (b : Nat) : State → List Item × State
  | .start => first b
  | .inside bits low high more =>
    if low ≤ b ∧ b ≤ high then
      let bits := bits * 64 + b % 64
      match more with
      | 0 => ([some (Char.ofNat bits)], .start)
      | more + 1 => ([], .inside bits 0x80 0xBF more)
    else
      (none :: (first b).1, (first b).2)

/-- The items of a byte string, read from a state. A character that the end cuts off is one
unreadable item. -/
def items : State → Bytes → List Item
  | .start, [] => []
  | .inside .., [] => [none]
  | q, b :: rest => (step b.toNat q).1 ++ items (step b.toNat q).2 rest

end Utf8

/-- The text of a byte string, with U+FFFD for each part that is not UTF-8. -/
def lossy (b : Bytes) : String :=
  String.ofList ((Utf8.items .start b).map (·.getD replacement))

/-- The text of a byte string, if all of it is UTF-8. -/
def ofUtf8? (b : Bytes) : Option String :=
  ((Utf8.items .start b).mapM id).map String.ofList

end GameLobby.Text
