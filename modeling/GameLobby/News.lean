import GameLobby.Message.Payload
import GameLobby.Outbox.Queue
import GameLobby.Registry.Basic
import GameLobby.Registry.Snapshot

/-!
# News

Something happens, and the users who subscribed to its topic are told. `News.offers` lists who is
offered which message; a message too large for a frame is offered to nobody. `Outboxes.publish`
pushes the messages to outboxes. No push waits and none depends on another recipient's outbox.
-/

namespace GameLobby

/-- Something that subscribers are told. -/
inductive News where
  | loggedIn (uid : UserId) (name : RawText)
  | loggedOut (uid : UserId) (name : RawText)
  | chatPosted (sender : UserId) (text : RawText)
  | roomUpdated (snapshot : GameServerData)
  | roomRemoved (notice : RemoveServer)
  deriving DecidableEq, Repr

/-- A message for the outbox of a connection. -/
structure Offer where
  recipient : ConnectionId
  message : Message
  deriving DecidableEq, Repr

/-- The frame that carries a message. -/
def Message.frame (m : Message) : OutboundFrame :=
  ⟨.applicationMessage, m.payload⟩

/-- Whether a message fits one frame. -/
def Message.fits (m : Message) : Bool :=
  decide (m.payload.length ≤ FrameHeader.maxPayload)

namespace News

/-- The topic of some news. -/
def topic : News → Topic
  | .loggedIn .. | .loggedOut .. => .logins
  | .chatPosted .. => .chat
  | .roomUpdated _ | .roomRemoved _ => .rooms

/-- A chat line of the lobby about a user, whose name is passed on byte for byte. -/
def announcement (name : RawText) (what : String) : Chat :=
  ⟨Text.utf8 "<< " ++ name ++ Text.utf8 " " ++ Text.utf8 what, 0⟩

/-- The message that says what happened. -/
def message : News → Message
  | .loggedIn uid name => .userLoggedIn ⟨uid.number, name⟩
  | .loggedOut uid _ => .userLoggedOut ⟨uid.number⟩
  | .chatPosted sender text => .chat ⟨text, sender.number⟩
  | .roomUpdated snapshot => .gameServerData snapshot
  | .roomRemoved notice => .removeServer notice

/-- The chat line that goes with a login or a logout, if those are announced. -/
def chatLine (announce : Bool) : News → List Message
  | .loggedIn _ name => if announce then [.chat (announcement name "has logged in! >>")] else []
  | .loggedOut _ name => if announce then [.chat (announcement name "has logged out >>")] else []
  | _ => []

/-- Who is told: the connections whose outboxes get the news, by user number. -/
def recipients (reg : Registry) (news : News) : List ConnectionId :=
  (reg.subscribers news.topic).map (·.outbox)

end News

/-- A message offered to each recipient, if it fits a frame. -/
def Message.offers (m : Message) (recipients : List ConnectionId) : List Offer :=
  if m.fits then recipients.map (⟨·, m⟩) else []

/-- What is offered to whom when there is news, in order. -/
def News.offers (announce : Bool) (reg : Registry) (news : News) : List Offer :=
  (news.message :: news.chatLine announce).flatMap (·.offers (news.recipients reg))

/-- The outboxes of connections. -/
abbrev Outboxes := Table ConnectionId Outbox

namespace Outboxes

/-- An offer pushed to its outbox, and whether it was taken in. -/
def offer (boxes : Outboxes) (o : Offer) : Bool × Outboxes :=
  match boxes.get? o.recipient with
  | none => (false, boxes)
  | some box =>
    match box.push o.message.frame with
    | (.ok (), box) => (true, boxes.insert o.recipient box)
    | (.error _, box) => (false, boxes.insert o.recipient box)

/-- Offers pushed in order, and how many were taken in. -/
def offerAll (boxes : Outboxes) : List Offer → Nat × Outboxes
  | [] => (0, boxes)
  | o :: offers =>
    let (taken, boxes) := boxes.offer o
    let (count, boxes) := offerAll boxes offers
    (count + taken.toNat, boxes)

/-- A message pushed to recipients, whatever they subscribed to, and how many took it in. -/
def send (boxes : Outboxes) (recipients : List ConnectionId) (m : Message) : Nat × Outboxes :=
  boxes.offerAll (m.offers recipients)

/-- News pushed to the subscribers of its topic, and how many took in what happened. Whether they
take in the chat line does not count. -/
def publish (boxes : Outboxes) (announce : Bool) (reg : Registry) (news : News) : Nat × Outboxes :=
  let recipients := news.recipients reg
  let (count, boxes) := boxes.send recipients news.message
  (count, (news.chatLine announce).foldl (fun boxes m => (boxes.send recipients m).2) boxes)

end Outboxes

end GameLobby
