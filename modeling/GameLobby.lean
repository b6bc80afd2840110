import GameLobby.Main
import GameLobby.Outbox.Mailbox
import GameLobby.Table.Lemmas
import GameLobby.Proofs.Registry.Effects
import GameLobby.Proofs.Registry.Preservation
import GameLobby.Proofs.Registry.Answers
import GameLobby.Proofs.Registry.Strays
import GameLobby.Proofs.Registry.Seats
import GameLobby.Proofs.Registry.Ownership
import GameLobby.Proofs.Registry.Footprint
import GameLobby.Proofs.Registry.Departure
import GameLobby.Proofs.Registry.Hosting
import GameLobby.Proofs.Registry.Headcount
import GameLobby.Proofs.Registry.Users
import GameLobby.Proofs.Registry.Capacity
import GameLobby.Proofs.Registry.SeatMoves
import GameLobby.Proofs.Registry.Replies
import GameLobby.Proofs.Registry.Numbering
import GameLobby.Proofs.Text.Utf8
import GameLobby.Proofs.Handshake
import GameLobby.Proofs.Config.Template
import GameLobby.Proofs.Session.Plan
import GameLobby.Proofs.Session.Outcome
import GameLobby.Proofs.Session.Conduct
import GameLobby.Proofs.Session.Greeting
import GameLobby.Proofs.Message.Size
import GameLobby.Proofs.Message.Reading
import GameLobby.Proofs.Message.RoundTrip
import GameLobby.Proofs.Message.Totality
import GameLobby.Proofs.Wire.RoundTrip
import GameLobby.Proofs.Wire.Items
import GameLobby.Proofs.Wire.Cursor
import GameLobby.Proofs.Wire.LeastPrefix
import GameLobby.Proofs.Wire.Canonical
import GameLobby.Proofs.Frame.Stream
import GameLobby.Proofs.Frame.Grammar
import GameLobby.Proofs.Frame.Checksum
import GameLobby.Proofs.Outbox.Steps
import GameLobby.Proofs.Outbox.Conservation
import GameLobby.Proofs.Outbox.QueueLaw
import GameLobby.Proofs.Lobby.History
import GameLobby.Proofs.Lobby.Moves
import GameLobby.Proofs.Lobby.Deliveries
import GameLobby.Proofs.Lobby.FanOut
import GameLobby.Proofs.Lobby.Recipients
import GameLobby.Proofs.Lobby.Reach
import GameLobby.Proofs.Lobby.Workload
import GameLobby.Proofs.Lobby.Runs
import GameLobby.Proofs.Lobby.Acts
import GameLobby.Proofs.Lobby.Strangers
import GameLobby.Proofs.Lobby.Opening
import GameLobby.Proofs.Lobby.Ownership
import GameLobby.Proofs.Lobby.Rejections
import GameLobby.Proofs.Lobby.Answers
import GameLobby.Proofs.Lobby.Advertising
import GameLobby.Proofs.Lobby.RoomNews
import GameLobby.Proofs.Lobby.Departures
import GameLobby.Proofs.Lobby.Board
import GameLobby.Proofs.Lobby.Notices
import GameLobby.Proofs.Lobby.Watching
import GameLobby.Proofs.Lobby.Roster
import GameLobby.Proofs.Lobby.Discretion
import GameLobby.Proofs.Lobby.Users
import GameLobby.Proofs.Lobby.LoginWatching
import GameLobby.Proofs.Lobby.Hosting
import GameLobby.Proofs.Lobby.GameStart
import GameLobby.Proofs.Lobby.Seating
import GameLobby.Proofs.Lobby.Registration
import GameLobby.Proofs.Lobby.Chat
import GameLobby.Proofs.Lobby.Names
import GameLobby.Proofs.Lobby.Bursts
