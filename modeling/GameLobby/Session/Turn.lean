import GameLobby.News
import GameLobby.Config.Basic
import GameLobby.Rejection

/-!
# Turns

While a session carries out one request it has the registry to itself. A `Turn` is the registry
together with all that was offered to outboxes so far, in order; what the outboxes then do with it
is another matter. `Handler` is the type of steps in a turn. A step that rejects the request keeps
what it did before, so that a rejected request has no effect is a fact about the requests and not
about the type.
-/

namespace GameLobby

/-- What is fixed before a lobby opens, and who decides at its gate. -/
structure Rules where
  config : Config
  gatekeeper : Gatekeeper
  checksum : Checksum

/-- The same with another gatekeeper, as there may be one in another turn. -/
def Rules.under (rules : Rules) (gatekeeper : Gatekeeper) : Rules :=
  { rules with gatekeeper := gatekeeper }

/-- A connection as its session knows it. -/
structure Visitor where
  conn : ConnectionId
  /-- The address of the client. -/
  peer : IpAddress
  /-- The address that the client connected to. -/
  host : IpAddress
  deriving DecidableEq, Repr

/-- The registry and what was offered to outboxes. -/
structure Turn where
  registry : Registry
  offers : List Offer
  deriving DecidableEq

/-- A step of a session's turn, which may reject the request. -/
abbrev Handler (α : Type) := ExceptT Rejection (StateM Turn) α

namespace Handler

/-- What a step comes to in a turn: its result or the rejection, and the turn after it. -/
def run {α : Type} (h : Handler α) (t : Turn) : Except Rejection α × Turn :=
  ExceptT.run h t

/-- The registry as it is now. -/
def registry : Handler Registry := do
  return (← get).registry

/-- An operation on the registry. -/
def apply {α : Type} (operation : Registry → α × Registry) : Handler α :=
  modifyGet fun t => ((operation t.registry).1, { t with registry := (operation t.registry).2 })

/-- An operation on the registry whose error rejects the request. -/
def demand {α : Type} (operation : Registry → Except RegistryError α × Registry) :
    Handler α := do
  match ← apply operation with
  | .ok a => return a
  | .error e => throw (.ofRegistry e)

/-- More offers. -/
def offer (offers : List Offer) : Handler Unit :=
  modify fun t => { t with offers := t.offers ++ offers }

/-- A message for the session's own client. -/
def send (v : Visitor) (m : Message) : Handler Unit :=
  offer [⟨v.conn, m⟩]

/-- The answer that a request was carried out. -/
def sendOk (v : Visitor) (ticketId : UInt32) : Handler Unit :=
  send v (.resultMessage (.ok ticketId))

/-- News for the subscribers of its topic. -/
def tell (rules : Rules) (news : News) : Handler Unit := do
  offer (news.offers rules.config.announceLogins (← registry))

/-- What is there, or a rejection. -/
def orReject {α : Type} (r : Rejection) : Option α → Handler α
  | some a => return a
  | none => throw r

/-! ## What steps come to -/

variable {α β : Type} (t : Turn)

@[simp] theorem run_pure (a : α) : run (pure a) t = (.ok a, t) := rfl

@[simp] theorem run_throw (r : Rejection) : run (throw r : Handler α) t = (.error r, t) := rfl

@[simp] theorem run_bind (h : Handler α) (f : α → Handler β) :
    run (h >>= f) t =
      match run h t with
      | (.ok a, t) => run (f a) t
      | (.error r, t) => (.error r, t) := by
  show ExceptT.bind h f t = match (h t : Except Rejection α × Turn) with
    | (.ok a, t) => run (f a) t
    | (.error r, t) => (.error r, t)
  simp only [ExceptT.bind, ExceptT.mk, ExceptT.bindCont, bind, StateT.bind]
  rcases h t with ⟨_ | _, _⟩ <;> rfl

@[simp] theorem run_registry : run registry t = (.ok t.registry, t) := rfl

@[simp] theorem run_apply (operation : Registry → α × Registry) :
    run (apply operation) t =
      (.ok (operation t.registry).1, { t with registry := (operation t.registry).2 }) := rfl

@[simp] theorem run_demand (operation : Registry → Except RegistryError α × Registry) :
    run (demand operation) t =
      ((operation t.registry).1.mapError .ofRegistry,
        { t with registry := (operation t.registry).2 }) := by
  rw [demand, run_bind, run_apply]
  cases (operation t.registry).1 <;> rfl

@[simp] theorem run_offer (offers : List Offer) :
    run (offer offers) t = (.ok (), { t with offers := t.offers ++ offers }) := rfl

@[simp] theorem run_send (v : Visitor) (m : Message) :
    run (send v m) t = (.ok (), { t with offers := t.offers ++ [⟨v.conn, m⟩] }) := rfl

@[simp] theorem run_tell (rules : Rules) (news : News) :
    run (tell rules news) t =
      (.ok (),
        { t with
          offers := t.offers ++ news.offers rules.config.announceLogins t.registry }) := rfl

@[simp] theorem run_orReject_some (r : Rejection) (a : α) :
    run (orReject r (some a)) t = (.ok a, t) := rfl

@[simp] theorem run_orReject_none (r : Rejection) :
    run (orReject r (none : Option α)) t = (.error r, t) := rfl

end Handler

end GameLobby
