import Overworld.Server.Delivery

set_option autoImplicit false

/-!
A session that runs tick after tick and delivers after each, and listeners that read their lines
between ticks until they have seen what they wait for.
-/

namespace Overworld

/-- The writer of a connection: it reads until its client's own entity is shown at a tick not before
`last`, or until its line is over. -/
structure Listener where
  client : ClientId
  last : Tick
  /-- The client's entity, once it is known. -/
  entity : Option EntityId
  heard : Array Dispatch
  isSatisfied : Bool
  isOver : Bool

namespace Listener

def waiting (client : ClientId) (last : Tick) : Listener := ⟨client, last, none, #[], false, false⟩

def isReading (listener : Listener) : Bool := !listener.isSatisfied && !listener.isOver

/-- Whether a dispatch is what the listener waits for. -/
def awaits (listener : Listener) : Dispatch → Bool
  | .message (.entityUpdate snapshot) =>
    listener.entity == some snapshot.entity && listener.last ≤ snapshot.tick
  | _ => false

def hear (listener : Listener) (dispatch : Dispatch) : Listener :=
  if listener.isReading then
    let entity := match dispatch with
      | .message (.connectionResponse _ entity _) => some entity
      | _ => listener.entity
    { listener with
      entity
      heard := listener.heard.push dispatch
      isSatisfied := listener.awaits dispatch }
  else listener

/-- Takes what is in the line, unless it is done. -/
def drain (listener : Listener) (router : Router) : Listener × Router :=
  if listener.isReading then
    match router.receive listener.client none with
    | (none, router) => (listener, router)
    | (some reception, router) =>
      let listener := reception.taken.foldl hear listener
      ({ listener with isOver := listener.isReading && reception.isOver }, router)
  else (listener, router)

/-- Has every listener take what is in its line. -/
def drainAll : List Listener → Router → List Listener × Router
  | [], router => ([], router)
  | listener :: rest, router =>
    let (listener, router) := listener.drain router
    let (rest, router) := drainAll rest router
    (listener :: rest, router)

/-- A listener for each of the clients. The line of a client that comes again later in the list is
replaced before anything is put in, so its listener finds the end at once. -/
def forEach (last : Tick) : List ClientId → List Listener
  | [] => []
  | client :: rest =>
    { waiting client last with isOver := rest.contains client } :: forEach last rest

end Listener

namespace Session

/-- Runs so many ticks with a standing clock; the listeners read after each. -/
def runLoop (visiting : Visiting) : Nat → Session → Router → List Listener → List Listener
  | 0, _, _, listeners => listeners
  | ticks + 1, session, router, listeners =>
    let (session, router) := deliver visiting (runTick visiting 0 session) router
    let (listeners, router) := Listener.drainAll listeners router
    runLoop visiting ticks session router listeners

/-- The clients that events connect, ascending, each as often as it is connected. -/
def connecting (events : List InboundEvent) : List ClientId :=
  ClientId.sort (events.filterMap fun event =>
    match event.kind with
    | .connected _ => some event.client
    | _ => none)

/-- Opens a line for each connection that the events make, queues the events and runs the session
until the listeners of all these lines are done. A connected client is shown its own entity in every
tick, so `last` ticks are enough, and one where that is zero. -/
def listenUntil (visiting : Visiting) (session : Session) (router : Router)
    (events : List InboundEvent) (last : Tick) : List Listener :=
  let clients := connecting events
  runLoop visiting (max last.toNat 1) (session.submitAll events) (clients.foldl Router.register router)
    (Listener.forEach last clients)

end Session

end Overworld
