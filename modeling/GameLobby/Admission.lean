import GameLobby.Wire.Field

/-!
# Admission

The lobby keeps no list of users. Whoever runs it supplies a gatekeeper, which decides about the
credentials of a login or a new account; `Gatekeeper.admitAll` lets everybody in. A decision is made
in the turn that asks for it: while it is awaited nothing has been done or said for the one who
asks, and the turn counts as taken when it comes.
-/

namespace GameLobby

/-- The way in for which credentials are shown. -/
inductive Entry where
  | login
  | newAccount
  deriving DecidableEq, Repr

/-- What a client shows to get in. -/
structure Credentials where
  nickname : RawText
  password : RawText
  cdkey : Bytes
  keypool : UInt16
  deriving DecidableEq, Repr

/-- Why credentials are refused. -/
inductive Refusal where
  | invalidCdKey
  | badCredentials
  | nameTaken
  deriving DecidableEq, Repr

/-- What is decided about credentials at the moment: the reason for a refusal, or none. A gatekeeper
that goes by what it has seen before is another one in another turn. -/
abbrev Gatekeeper := Entry → Credentials → Option Refusal

/-- Everybody is let in. -/
def Gatekeeper.admitAll : Gatekeeper := fun _ _ => none

end GameLobby
