import MarketFeed.Connection.Basic

/-!
Calls that have to wait: for the socket to open, for their turn to log in, and for the answer to the
login. Between these points a call runs without interruption; `advance` takes it as far as it can
go.

Only one call logs in at a time. When a login fails its call fails with it, and the next call in the
queue tries again; once a login has succeeded all calls go on.
-/

namespace MarketFeed

/-- What a call is for. -/
inductive Purpose where
  | subscribe (request : Request)
  | authenticate
  /-- To send private records of an earlier connection again. -/
  | restore (records : List SubscriptionRecord)

/-- Whether the connection has to be authenticated before. -/
def Purpose.needsLogin : Purpose → Bool
  | subscribe request => request.isPrivate
  | authenticate | restore _ => true

inductive Stage where
  | awaitingOpen
  | awaitingTurn
  /-- It is this call that logs in, as soon as the socket is open. -/
  | holdingTurn
  | loggingIn (waiter : Waiter)

/-- A call; its number tells it from the others of its connection. -/
structure Call where
  number : Nat
  purpose : Purpose
  stage : Stage

/-- How far a call has come. -/
inductive Progress where
  | blocked (call : Call)
  | done (result : Except Fault (Option Waiter))

namespace Call

def begin (number : Nat) (purpose : Purpose) : Call :=
  match purpose with
  | .subscribe _ => ⟨number, purpose, .awaitingOpen⟩
  | _ => ⟨number, purpose, .awaitingTurn⟩

/-- Does what the call is for. -/
def complete (call : Call) (connection : Connection) : Progress × Connection :=
  match call.purpose with
  | .subscribe request =>
    let (result, connection) := connection.takeRequest request
    (.done (result.map some), connection)
  | .authenticate => (.done (.ok none), connection)
  | .restore records => (.done (.ok none), connection.resend records)

def joinQueue (call : Call) (connection : Connection) : Connection :=
  if connection.loginQueue.contains call.number then connection
  else { connection with loginQueue := connection.loginQueue ++ [call.number] }

def leaveQueue (call : Call) (connection : Connection) : Connection :=
  { connection with loginQueue := connection.loginQueue.filter (· ≠ call.number) }

/-- Ends the turn of the call with the outcome of its login. -/
def endTurn (call : Call) (connection : Connection) (result : Except Fault Unit) :
    Progress × Connection :=
  let connection := call.leaveQueue connection
  match result with
  | .ok () => call.complete { connection with authenticated := true }
  | .error fault => (.done (.error fault), connection)

/-- Looks for the answer to the login. -/
def judge (login : Login) (call : Call) (waiter : Waiter) (connection : Connection) :
    Progress × Connection :=
  match connection.registry.take waiter with
  | (.nothingYet, waiter) => (.blocked { call with stage := .loggingIn waiter }, connection)
  | (.over, waiter) => call.endTurn connection (.error (Registry.noLongerRegistered waiter))
  | (.delivery delivery, waiter) =>
    call.endTurn { connection with registry := connection.registry.discard waiter }
      (delivery.bind login.accept)

/-- Logs in, if the socket is open. -/
def logIn (adapter : Adapter) (call : Call) (connection : Connection) : Progress × Connection :=
  match connection.ready? with
  | none => (.blocked { call with stage := .holdingTurn }, connection)
  | some (.error fault) => call.endTurn connection (.error fault)
  | some (.ok ()) =>
    match adapter.login with
    | none => call.endTurn connection (.ok ())
    | some login =>
      match connection.takeRequest login.request with
      | (.error fault, connection) => call.endTurn connection (.error fault)
      | (.ok waiter, connection) => call.judge login waiter connection

/-- Goes on if the connection is authenticated, and logs in if it is this call's turn. -/
def takeTurn (adapter : Adapter) (call : Call) (connection : Connection) : Progress × Connection :=
  if connection.authenticated then call.complete (call.leaveQueue connection)
  else
    let connection := call.joinQueue connection
    if connection.loginQueue.head? = some call.number then call.logIn adapter connection
    else (.blocked { call with stage := .awaitingTurn }, connection)

/-- Takes the call as far as it can go. -/
def advance (adapter : Adapter) (call : Call) (connection : Connection) : Progress × Connection :=
  match call.stage with
  | .awaitingOpen =>
    match connection.ready? with
    | none => (.blocked call, connection)
    | some (.error fault) => (.done (.error fault), connection)
    | some (.ok ()) =>
      if call.purpose.needsLogin then call.takeTurn adapter connection else call.complete connection
  | .awaitingTurn => call.takeTurn adapter connection
  | .holdingTurn => call.logIn adapter connection
  | .loggingIn waiter =>
    match adapter.login with
    | some login => call.judge login waiter connection
    | none => call.endTurn connection (.ok ())

end Call

end MarketFeed
