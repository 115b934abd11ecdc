import Overworld.Server.Inbox

set_option autoImplicit false

/-!
What the server has for its clients: messages, and the end of a connection behind them.
-/

namespace Overworld

inductive Dispatch
  | message (content : ServerMessage)
  /-- Close the connection once everything before is written. -/
  | close
deriving DecidableEq

/-- A dispatch and the client it is for. -/
structure Outbound where
  client : ClientId
  dispatch : Dispatch
deriving DecidableEq

/-- What a batch holds for one client, in order. -/
def dispatchesTo (client : ClientId) (batch : List Outbound) : List Dispatch :=
  (batch.filter (·.client = client)).map (·.dispatch)

/-- What a batch holds for each client, clients ascending. -/
def byClient (batch : List Outbound) : List (ClientId × List Dispatch) :=
  (ClientId.sort (batch.map (·.client)).eraseDups).map fun client =>
    (client, dispatchesTo client batch)

@[simp] theorem dispatchesTo_nil (client : ClientId) : dispatchesTo client [] = [] := rfl

theorem dispatchesTo_cons (client : ClientId) (item : Outbound) (batch : List Outbound) :
    dispatchesTo client (item :: batch) =
      if item.client = client then item.dispatch :: dispatchesTo client batch
      else dispatchesTo client batch := by
  by_cases addressed : item.client = client <;> simp [dispatchesTo, addressed]

@[simp] theorem dispatchesTo_append (client : ClientId) (before after : List Outbound) :
    dispatchesTo client (before ++ after) =
      dispatchesTo client before ++ dispatchesTo client after := by
  simp [dispatchesTo]

end Overworld
