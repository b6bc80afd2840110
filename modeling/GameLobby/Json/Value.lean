/-!
# JSON values

A JSON document as data. Members of an object stay in the order in which they are written, also
when a name comes twice. A numeral that is a plain natural number is one; any other numeral is kept
as it is written.
-/

namespace GameLobby

/-- A JSON value. -/
inductive Json where
  | null
  | bool (b : Bool)
  | natural (n : Nat)
  /-- A numeral with a sign, a fraction or an exponent. -/
  | numeral (text : String)
  | string (s : String)
  | array (items : List Json)
  | object (members : List (String × Json))
  deriving Inhabited

namespace Json

/-- The truth value that a value is. -/
def bool? : Json → Option Bool
  | .bool b => some b
  | _ => none

/-- The natural number that a value is. -/
def natural? : Json → Option Nat
  | .natural n => some n
  | _ => none

/-- The text that a value is. -/
def string? : Json → Option String
  | .string s => some s
  | _ => none

end Json

end GameLobby
