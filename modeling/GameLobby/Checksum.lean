import GameLobby.Bytes

/-!
# Checksums

Every frame header carries a checksum of the payload. Which one is the deployment's choice; both
ends have to agree. `Checksum.wordSum` is the sum of the payload's words.
-/

namespace GameLobby

/-- A checksum of payloads. -/
abbrev Checksum := Bytes → UInt32

/-- The sum, modulo 2^32, of the payload read as little-endian words of four bytes. A short last
word is filled up with zeros. -/
def Checksum.wordSum : Checksum
  | [] => 0
  | [a] => Bytes.word32 a 0 0 0
  | [a, b] => Bytes.word32 a b 0 0
  | [a, b, c] => Bytes.word32 a b c 0
  | a :: b :: c :: d :: rest => Bytes.word32 a b c d + Checksum.wordSum rest

end GameLobby
