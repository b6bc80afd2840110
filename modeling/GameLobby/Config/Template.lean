import GameLobby.Bytes

/-!
# Templates

A template is text with placeholders. Filling it in puts the same bytes in the place of each one.
The placeholders are found from left to right without overlap, and what is filled in is not looked
at again.
-/

namespace GameLobby.Template

/-- The bytes `{name}`. -/
def placeholder : Bytes := [0x7B, 0x6E, 0x61, 0x6D, 0x65, 0x7D]

/-- A byte put in front of the first part. -/
def extend (b : UInt8) : List Bytes → List Bytes
  | [] => [[b]]
  | part :: parts => (b :: part) :: parts

/-- The parts of a template between placeholders, after `skip` more bytes of the one found last. -/
def partsFrom : (skip : Nat) → Bytes → List Bytes
  | _, [] => [[]]
  | skip + 1, _ :: rest => partsFrom skip rest
  | 0, b :: rest =>
    if placeholder.isPrefixOf (b :: rest) then [] :: partsFrom (placeholder.length - 1) rest
    else extend b (partsFrom 0 rest)

/-- The parts of a template between placeholders, one more than there are placeholders. -/
def parts (template : Bytes) : List Bytes :=
  partsFrom 0 template

/-- A template with `name` in the place of each placeholder. -/
def fill (template name : Bytes) : Bytes :=
  name.intercalate (parts template)

end GameLobby.Template
