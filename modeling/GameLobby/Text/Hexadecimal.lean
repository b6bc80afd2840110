/-!
# Hexadecimal numerals

Numbers as messages show them: `0x`, then lower-case digits, filled up with zeros to a fixed width.
-/

namespace GameLobby.Text

/-- The digits of a number in base sixteen, lower case, without leading zeros. -/
def hexDigits (n : Nat) : List Char :=
  Nat.toDigits 16 n

/-- `0x` and at least `width` digits. -/
def hex (width n : Nat) : String :=
  let digits := hexDigits n
  String.ofList ('0' :: 'x' :: (List.replicate (width - digits.length) '0' ++ digits))

end GameLobby.Text
