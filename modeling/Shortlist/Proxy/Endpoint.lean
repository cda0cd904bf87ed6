import Shortlist.Number.Written
import Shortlist.Text.Blank
import Shortlist.Text.Search

/-!
# Proxy endpoints

An endpoint is a host with a port, and possibly with credentials and a country.  Endpoints are
listed one a line, as `host:port` or `host:port:user:password`.
-/

namespace Shortlist.Proxy

/-! ## 1. The type -/

/-- The protocols of proxies. -/
inductive Protocol where
  | http
  | https
  | socks4
  | socks5
deriving Repr, DecidableEq

namespace Protocol

/-- All protocols. -/
def all : List Protocol := [.http, .https, .socks4, .socks5]

/-- The scheme of a protocol in a URL. -/
def scheme : Protocol → String
  | .http => "http"
  | .https => "https"
  | .socks4 => "socks4"
  | .socks5 => "socks5"

/-- The protocol with a name. -/
def ofName? (s : String) : Option Protocol := all.find? (·.scheme == s)

end Protocol

/-- A proxy, with the number of failures reported since it last worked. -/
structure Endpoint where
  host : String
  port : UInt16
  protocol : Protocol := .http
  username : Option String := none
  password : Option String := none
  country : Option String := none
  failures : Nat := 0
deriving Repr, DecidableEq

namespace Endpoint

/-- Host and port, which name an endpoint in messages. -/
def label (e : Endpoint) : String := e.host ++ ":" ++ toString e.port.toNat

/-- The URL of an endpoint; credentials are written only when both are there. -/
def url (e : Endpoint) : String :=
  let credentials := match e.username, e.password with
    | some user, some password => user ++ ":" ++ password ++ "@"
    | _, _ => ""
  e.protocol.scheme ++ "://" ++ credentials ++ e.label

/-! ## 2. Lines -/

/-- The port that digits stand for, with a plus sign in front or not.  There is no port 0. -/
def port? (cs : List Char) : Option UInt16 :=
  (Number.natural? 65535 cs).bind fun n => if n = 0 then none else some (UInt16.ofNat n)

/-- The endpoint that a line describes.  Blanks around its parts do not count; a line with another
number of parts, an empty part or a bad port describes none. -/
def ofLine? (line : List Char) : Option Endpoint :=
  match (Text.splitAt ':' line).map Text.trimChars with
  | [host, port] =>
    if host.isEmpty then none
    else (port? port).map fun port => { host := String.ofList host, port }
  | [host, port, user, password] =>
    if host.isEmpty || user.isEmpty || password.isEmpty then none
    else (port? port).map fun port =>
      { host := String.ofList host, port
        username := some (String.ofList user)
        password := some (String.ofList password) }
  | _ => none

/-- The endpoints that a list describes, in order.  Lines that are blank, begin with `#` or describe
none are passed over. -/
def ofList (text : List Char) : List Endpoint :=
  (Text.lines text).filterMap fun line =>
    let line := Text.trimChars line
    if line.head? == some '#' then none else ofLine? line

end Endpoint

end Shortlist.Proxy
