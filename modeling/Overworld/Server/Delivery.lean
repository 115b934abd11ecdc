import Overworld.Server.Router
import Overworld.Server.Session.Tick

set_option autoImplicit false

/-!
Delivery of what a session queued. A client whose line overflows is given up, which queues more for
others; that is delivered too, until nothing is queued.
-/

namespace Overworld

namespace Session

/-- Gives up the clients whose lines overflowed. -/
def giveUpAll (visiting : Visiting) (session : Session) (clients : List ClientId) (capacity : Nat) :
    Session :=
  clients.foldl (fun session client => giveUp visiting session client (.backlog capacity)) session

/-- One round: routes what is queued and gives up those who fell behind. -/
def deliverRound (visiting : Visiting) (session : Session) (router : Router) : Session × Router :=
  let (batch, session) := session.drainOutbound
  let (overflowed, router) := router.route batch
  (giveUpAll visiting session overflowed router.capacity.count, router)

/-- Rounds until nothing is queued, at most so many. -/
def deliverRounds (visiting : Visiting) : Nat → Session → Router → Session × Router
  | 0, session, router => (session, router)
  | rounds + 1, session, router =>
    if session.outbound.isEmpty then (session, router)
    else
      let (session, router) := deliverRound visiting session router
      deliverRounds visiting rounds session router

/-- Delivers everything that is queued. Each round but the last takes a connection away, so there
are at most as many rounds as connections, and one more. -/
def deliver (visiting : Visiting) (session : Session) (router : Router) : Session × Router :=
  deliverRounds visiting (session.connections.size + 1) session router

end Session

end Overworld
