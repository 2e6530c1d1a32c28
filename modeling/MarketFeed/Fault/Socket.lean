import MarketFeed.Fault.Basic
import MarketFeed.Fault.Excerpt

/-!
The faults that a web socket reports, and which transport fault each of them is. A refused upgrade
is permanent when the answer blames the request, and may be tried again otherwise.
-/

namespace MarketFeed

inductive UrlFault where
  | noHost
  | scheme
  | emptyHost
  | unableToConnect (address : String)
deriving DecidableEq, Repr

def UrlFault.message : UrlFault → String
  | noHost => "No host name in the URL"
  | scheme => "URL scheme not supported"
  | emptyHost => "URL contains empty host name"
  | unableToConnect address => "Unable to connect to " ++ address

inductive SocketFault where
  | closedNormally
  | alreadyClosed
  | io (text : String)
  | notUtf8
  | attack
  | writeBufferFull
  | tooManyHeaders
  | messageTooLong (size max : Nat)
  | reset
  | sendAfterClosing
  | keyMismatch
  | url (fault : UrlFault)
  | http (status : Nat)
deriving DecidableEq, Repr

/-- The phrases that stand behind status codes in answers to a request. -/
def statusPhrases : List (Nat × String) :=
  [(100, "Continue"), (101, "Switching Protocols"), (102, "Processing"), (103, "Early Hints"),
    (200, "OK"), (201, "Created"), (202, "Accepted"), (203, "Non Authoritative Information"),
    (204, "No Content"), (205, "Reset Content"), (206, "Partial Content"), (207, "Multi-Status"),
    (208, "Already Reported"), (226, "IM Used"), (300, "Multiple Choices"),
    (301, "Moved Permanently"), (302, "Found"), (303, "See Other"), (304, "Not Modified"),
    (305, "Use Proxy"), (307, "Temporary Redirect"), (308, "Permanent Redirect"),
    (400, "Bad Request"), (401, "Unauthorized"), (402, "Payment Required"), (403, "Forbidden"),
    (404, "Not Found"), (405, "Method Not Allowed"), (406, "Not Acceptable"),
    (407, "Proxy Authentication Required"), (408, "Request Timeout"), (409, "Conflict"),
    (410, "Gone"), (411, "Length Required"), (412, "Precondition Failed"),
    (413, "Payload Too Large"), (414, "URI Too Long"), (415, "Unsupported Media Type"),
    (416, "Range Not Satisfiable"), (417, "Expectation Failed"), (418, "I'm a teapot"),
    (421, "Misdirected Request"), (422, "Unprocessable Entity"), (423, "Locked"),
    (424, "Failed Dependency"), (425, "Too Early"), (426, "Upgrade Required"),
    (428, "Precondition Required"), (429, "Too Many Requests"),
    (431, "Request Header Fields Too Large"), (451, "Unavailable For Legal Reasons"),
    (500, "Internal Server Error"), (501, "Not Implemented"), (502, "Bad Gateway"),
    (503, "Service Unavailable"), (504, "Gateway Timeout"), (505, "HTTP Version Not Supported"),
    (506, "Variant Also Negotiates"), (507, "Insufficient Storage"), (508, "Loop Detected"),
    (510, "Not Extended"), (511, "Network Authentication Required")]

def statusText (status : Nat) : String :=
  toString status ++ " " ++ (statusPhrases.lookup status).getD "<unknown status code>"

namespace SocketFault

def message : SocketFault → String
  | closedNormally => "Connection closed normally"
  | alreadyClosed => "Trying to work with closed connection"
  | io text => "IO error: " ++ text
  | notUtf8 => "UTF-8 encoding error"
  | attack => "Attack attempt detected"
  | writeBufferFull => "Write buffer is full"
  | tooManyHeaders => "Space limit exceeded: Too many headers"
  | messageTooLong size max =>
    "Space limit exceeded: Message too long: " ++ toString size ++ " > " ++ toString max
  | reset => "WebSocket protocol error: Connection reset without closing handshake"
  | sendAfterClosing => "WebSocket protocol error: Sending after closing is not allowed"
  | keyMismatch =>
    "WebSocket protocol error: Key mismatch in \"Sec-WebSocket-Accept\" header"
  | url fault => "URL error: " ++ fault.message
  | http status => "HTTP error: " ++ statusText status

/-- Whether the status blames the request. -/
def isClientError (status : Nat) : Bool := 400 ≤ status && status < 500

def toTransport (fault : SocketFault) : TransportFault :=
  match fault with
  | closedNormally | alreadyClosed => .closedByPeer none (Excerpt.truncate fault.message)
  | url _ => .invalidUrl (Excerpt.truncate fault.message)
  | io _ => .connectFailed (Excerpt.truncate fault.message)
  | http status =>
    if isClientError status then .socket fault.message
    else .connectFailed (Excerpt.truncate fault.message)
  | writeBufferFull => .sendFailed (Excerpt.truncate fault.message)
  | _ => .socket fault.message

def toFault (fault : SocketFault) : Fault := .transport fault.toTransport

end SocketFault

end MarketFeed
