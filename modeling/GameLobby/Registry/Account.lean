import GameLobby.Wire.Field
import GameLobby.Ids

/-!
# Accounts

A user who is logged in on a connection, with the classes of news the user has subscribed to.
-/

namespace GameLobby

/-- A class of news. -/
inductive Topic where
  /-- Chat lines. -/
  | chat
  /-- Logins and logouts. -/
  | logins
  /-- Rooms offered, changed and removed. -/
  | rooms
  deriving DecidableEq, Repr

/-- The topics an account has subscribed to. -/
structure Subscriptions where
  chat : Bool
  logins : Bool
  rooms : Bool
  deriving DecidableEq, Repr

namespace Subscriptions

/-- No topic, as after a login. -/
def none : Subscriptions := ⟨false, false, false⟩

/-- Whether a topic is subscribed to. -/
def get (s : Subscriptions) : Topic → Bool
  | .chat => s.chat
  | .logins => s.logins
  | .rooms => s.rooms

/-- A topic subscribed to or given up. -/
def set (s : Subscriptions) (t : Topic) (on : Bool) : Subscriptions :=
  match t with
  | .chat => { s with chat := on }
  | .logins => { s with logins := on }
  | .rooms => { s with rooms := on }

@[simp] theorem get_set_self (s : Subscriptions) (t : Topic) (on : Bool) :
    (s.set t on).get t = on := by
  cases t <;> rfl

theorem get_set_of_ne (s : Subscriptions) {t u : Topic} (on : Bool) (h : u ≠ t) :
    (s.set t on).get u = s.get u := by
  cases t <;> cases u <;> first | rfl | exact absurd rfl h

end Subscriptions

/-- A user who is logged in. -/
structure Account where
  conn : ConnectionId
  uid : UserId
  name : RawText
  subscriptions : Subscriptions
  /-- The room of somebody else in which the user has a seat. -/
  joinedRoom : Option RoomId
  /-- The connection whose outbox gets the user's news. -/
  outbox : ConnectionId
  deriving DecidableEq, Repr

end GameLobby
