import MarketFeed.Decimal.Text
import MarketFeed.Json.Basic
import MarketFeed.Json.Reader

/-!
What can go wrong in a feed. One fault may reach any number of waiters, and every layer it passes
may add a context; what a fault means for its connection depends on its root alone.
-/

namespace MarketFeed

/-- Faults of the socket. -/
inductive TransportFault where
  | invalidUrl (text : String)
  | connectFailed (text : String)
  | connectTimeout
  | notConnected
  | sendFailed (text : String)
  | closedByPeer (code : Option Nat) (reason : String)
  /-- Any other fault that the socket reports. -/
  | socket (text : String)
deriving DecidableEq, Repr

namespace TransportFault

def codeText : Option Nat → String
  | none => "None"
  | some code => "Some(" ++ toString code ++ ")"

def message : TransportFault → String
  | invalidUrl text => "Invalid URL: " ++ text
  | connectFailed text => "Connection failed: " ++ text
  | connectTimeout => "Connect timeout"
  | notConnected => "Socket is not open"
  | sendFailed text => "Send failed: " ++ text
  | closedByPeer code reason => "Closed by peer (code: " ++ codeText code ++ "): " ++ reason
  | socket text => "Transport error: " ++ text

/-- Whether trying again may help. -/
def isTransient : TransportFault → Bool
  | invalidUrl _ | socket _ => false
  | _ => true

end TransportFault

/-- Why a book lost the connection to its feed. -/
inductive SyncFault where
  | gap (expected received : Nat)
  | checksum (expected computed : Int)
  | awaitingSnapshot
  | unnumbered
deriving DecidableEq, Repr

def SyncFault.message : SyncFault → String
  | gap expected received =>
    "sequence gap (expected " ++ toString expected ++ ", received " ++ toString received ++ ")"
  | checksum expected computed =>
    "checksum mismatch (expected " ++ toString expected ++ ", computed " ++ toString computed ++ ")"
  | awaitingSnapshot => "book awaiting snapshot"
  | unnumbered => "delta carries no sequence"

/-- Why a message cannot be read. -/
inductive MessageFault where
  | decimal (fault : Decimal.ReadFault)
  | document (fault : Json.Fault)
  | notUtf8
  | missingField (field : String)
  | invalidValue (field text : String)
deriving DecidableEq, Repr

def documentFaultText : Json.Fault → String
  | .malformed => "malformed document"
  | .mistyped => "unexpected type or value"
  | .truncated => "unexpected end of text"

def MessageFault.message : MessageFault → String
  | decimal fault => "Failed to parse decimal: " ++ fault.message
  | document fault => "Failed to deserialize JSON: " ++ documentFaultText fault
  | notUtf8 => "Frame is not valid UTF-8"
  | missingField field => "Missing required field: " ++ field
  | invalidValue field text => "Invalid value for '" ++ field ++ "': " ++ text

/-- An error that an exchange reports, with its own code and whatever it adds. -/
structure ExchangeReport where
  code : String
  text : String
  data : Option Json

def ExchangeReport.message (report : ExchangeReport) : String :=
  report.text ++ " (code: " ++ report.code ++ ")"

/-- A book that is out of sync, and why. -/
structure SyncReport where
  symbol : String
  reason : SyncFault
deriving DecidableEq, Repr

def SyncReport.message (report : SyncReport) : String :=
  report.symbol ++ ": " ++ report.reason.message

inductive Fault where
  | transport (fault : TransportFault)
  | timeout (text : String)
  | connectionClosed (text : String)
  | authentication (text : String)
  | exchange (report : ExchangeReport)
  | outOfSync (report : SyncReport)
  | unreadable (fault : MessageFault)
  | invalidRequest (text : String)
  | exhausted (text : String)
  | cancelled (text : String)
  | context (text : String) (source : Fault)

namespace Fault

instance : Inhabited Fault := ⟨cancelled ""⟩

/-- A failed attempt to connect. -/
def connectFailed (text : String) : Fault := transport (.connectFailed text)

def message : Fault → String
  | transport fault => "Transport error: " ++ fault.message
  | timeout text => "Timeout: " ++ text
  | connectionClosed text => "Connection closed: " ++ text
  | authentication text => "Authentication error: " ++ text
  | exchange report => "Exchange error: " ++ report.message
  | outOfSync report => "Order book out of sync: " ++ report.message
  | unreadable fault => "Parse error: " ++ fault.message
  | invalidRequest text => "Invalid request: " ++ text
  | exhausted text => "Resource exhausted: " ++ text
  | cancelled text => "Cancelled: " ++ text
  | context text _ => text

/-- The fault and, from the outside in, the faults that its contexts were added to. -/
def chain : Fault → List Fault
  | context text source => context text source :: chain source
  | fault => [fault]

/-- The fault that the contexts were added to. -/
def root : Fault → Fault
  | context _ source => root source
  | fault => fault

/-- Adds contexts one by one, the first of the list innermost. -/
def withContexts (fault : Fault) (texts : List String) : Fault :=
  texts.foldl (fun fault text => context text fault) fault

theorem root_withContexts (fault : Fault) (texts : List String) :
    (fault.withContexts texts).root = fault.root := by
  induction texts generalizing fault with
  | nil => rfl
  | cons text rest ih => exact ih (context text fault)

/-- The messages of the chain, each on lines of its own. -/
def report (fault : Fault) : String :=
  "\nCaused by: ".intercalate (fault.chain.map message)

/-- Whether the fault ends the connection it arises on. -/
def isConnectionFatal (fault : Fault) : Bool :=
  match fault.root with
  | transport _ | timeout _ | connectionClosed _ => true
  | _ => false

theorem isConnectionFatal_withContexts (fault : Fault) (texts : List String) :
    (fault.withContexts texts).isConnectionFatal = fault.isConnectionFatal := by
  rw [isConnectionFatal, root_withContexts, isConnectionFatal]

/-- Whether the operation may be tried again. -/
def isRetryable (fault : Fault) : Bool :=
  match fault.root with
  | transport fault => fault.isTransient
  | timeout _ | connectionClosed _ | outOfSync _ => true
  | _ => false

def timeout? (fault : Fault) : Option String :=
  match fault.root with
  | timeout text => some text
  | _ => none

def transport? (fault : Fault) : Option TransportFault :=
  match fault.root with
  | transport fault => some fault
  | _ => none

def connectionClosed? (fault : Fault) : Option String :=
  match fault.root with
  | connectionClosed text => some text
  | _ => none

def authentication? (fault : Fault) : Option String :=
  match fault.root with
  | authentication text => some text
  | _ => none

def exchange? (fault : Fault) : Option ExchangeReport :=
  match fault.root with
  | exchange report => some report
  | _ => none

def outOfSync? (fault : Fault) : Option SyncReport :=
  match fault.root with
  | outOfSync report => some report
  | _ => none

def cancelled? (fault : Fault) : Option String :=
  match fault.root with
  | cancelled text => some text
  | _ => none

def exhausted? (fault : Fault) : Option String :=
  match fault.root with
  | exhausted text => some text
  | _ => none

/-- Adds a context to a failure. -/
def explain {α : Type} (text : String) (result : Except Fault α) : Except Fault α :=
  result.mapError (context text)

/-- A missing value is an invalid request, which the context describes. -/
def demand {α : Type} (text : String) (value : Option α) : Except Fault α :=
  value.elim (.error (invalidRequest text)) .ok

end Fault

end MarketFeed
