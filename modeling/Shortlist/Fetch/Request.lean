import Shortlist.Duration
import Shortlist.Keyed
import Shortlist.Proxy.Pool

/-!
# Requests and answers

What goes out to a site and what comes back: a response, or an error of the engine that sends
requests.
-/

namespace Shortlist.Fetch

/-- A request for a page. -/
structure Request where
  url : String
  headers : Keyed String := []
  timeout : Duration := Duration.ofSeconds 30
  /-- The proxy that the request goes through. -/
  proxy : Option Proxy.Lease := none
  /-- The country that the proxy should be in. -/
  country : Option String := none
  /-- How long to wait before the request is sent. -/
  delay : Option Duration := none
  /-- How often the request was tried again. -/
  retryCount : Nat := 0
  /-- Whether the request may repeat an earlier one. -/
  dontFilter : Bool := false
  /-- Whether the request must not go through a proxy. -/
  dontProxy : Bool := false
  /-- Whether the request is sent without waiting. -/
  dontDelay : Bool := false
deriving Repr, DecidableEq

namespace Request

/-- The user agent that is set. -/
def userAgent (r : Request) : Option String := Keyed.find? "User-Agent" r.headers

/-- The URL of the proxy. -/
def proxyUrl (r : Request) : Option String := r.proxy.map Proxy.Lease.url

end Request

/-- A page that came back. -/
structure Response where
  status : Nat
  body : String
deriving Repr, DecidableEq

/-- Why no page came back. -/
inductive EngineError where
  | timeout
  | connection (message : String)
  | invalidProxy (message : String)
  /-- The request could not even be built. -/
  | malformed (message : String)
  /-- The client gave up: it ran out of time, got no connection, or could not send the request. -/
  | transport (message : String)
  | other (message : String)
deriving Repr, DecidableEq

namespace EngineError

/-- The wording of an error. -/
def message : EngineError → String
  | .timeout => "Timeout"
  | .connection m => "Connection failed: " ++ m
  | .invalidProxy m => "Invalid proxy: " ++ m
  | .malformed m => "Request failed: " ++ m
  | .transport m => "Request failed: " ++ m
  | .other m => "Other error: " ++ m

/-- Whether the network was at fault, so that another attempt may help. -/
def isNetwork : EngineError → Bool
  | .timeout => true
  | .connection _ => true
  | .invalidProxy _ => false
  | .malformed _ => false
  | .transport _ => true
  | .other _ => false

end EngineError

/-- What an engine answers to a request. -/
abbrev Answer := Except EngineError Response

end Shortlist.Fetch
