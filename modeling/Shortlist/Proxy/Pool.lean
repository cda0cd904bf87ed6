import Shortlist.Proxy.Endpoint
import Shortlist.Text.Ascii

/-!
# Proxy pools

A pool hands out leases on its endpoints and takes reports on them.  An endpoint that has failed as
often as the threshold allows, without a success in between, leaves the pool.  Leases carry the
identity of their endpoint, so a report never touches another endpoint, even one with the same host
and port, and a report on an endpoint that has left does nothing.
-/

namespace Shortlist.Proxy

/-! ## 1. The type -/

/-- How a pool chooses among its endpoints. -/
inductive Strategy where
  | random
  | roundRobin
deriving Repr, DecidableEq

namespace Strategy

/-- The strategy with a name. -/
def ofName? (s : String) : Option Strategy :=
  match s with
  | "random" => some .random
  | "round_robin" => some .roundRobin
  | _ => none

end Strategy

/-- An endpoint in a pool with its identity. -/
structure Entry where
  id : Nat
  endpoint : Endpoint
deriving Repr, DecidableEq

/-- The right to use an endpoint for a request. -/
structure Lease where
  id : Nat
  url : String
  label : String
deriving Repr, DecidableEq

/-- A pool of endpoints, in the order in which they were added. -/
structure Pool where
  /-- After so many failures in a row an endpoint leaves. -/
  threshold : Nat
  strategy : Strategy
  entries : List Entry := []
  /-- The identity of the next endpoint. -/
  nextId : Nat := 0
  /-- Whether an endpoint was ever added. -/
  enabled : Bool := false
  /-- How many leases were handed out; it wraps around. -/
  cursor : UInt64 := 0
deriving Repr, DecidableEq

namespace Pool

/-- A pool without endpoints.  The threshold is at least 1. -/
def new (threshold : Nat) (strategy : Strategy) : Pool :=
  { threshold := max threshold 1, strategy }

/-- The pool that is used when nothing is configured. -/
def standard : Pool := new 3 .random

/-- How many endpoints are in the pool. -/
def size (p : Pool) : Nat := p.entries.length

/-- The endpoints in the pool. -/
def endpoints (p : Pool) : List Endpoint := p.entries.map Entry.endpoint

/-! ## 2. Adding -/

/-- Adds an endpoint last and enables the pool. -/
def add (p : Pool) (e : Endpoint) : Pool :=
  { p with entries := p.entries ++ [⟨p.nextId, e⟩], nextId := p.nextId + 1, enabled := true }

/-- Adds the endpoints of a list, and tells how many they are. -/
def load (p : Pool) (text : String) : Pool × Nat :=
  let es := Endpoint.ofList text.toList
  (es.foldl add p, es.length)

/-- Adds the endpoints of a file, given its content; none if there is no such file or it is not
text. -/
def loadFile? (p : Pool) (content : Option ByteArray) : Option (Pool × Nat) :=
  (content.bind String.fromUTF8?).map p.load

/-! ## 3. Selecting -/

/-- Whether an endpoint may be used for a request from a country; any may if none is asked for. -/
def matchesCountry (wanted : Option String) (e : Endpoint) : Bool :=
  match wanted with
  | none => true
  | some w => e.country.any (Text.sameIgnoringCase · w)

/-- The endpoints among which a selection chooses. -/
def candidates (p : Pool) (country : Option String) : List Entry :=
  p.entries.filter fun entry => matchesCountry country entry.endpoint

/-- The lease on an endpoint. -/
def leaseOn (entry : Entry) : Lease := ⟨entry.id, entry.endpoint.url, entry.endpoint.label⟩

/-- Chooses an endpoint for a request, if there is one.  Taking turns follows the number of leases
handed out so far; otherwise `draw` is the random number that decides. -/
def select (p : Pool) (country : Option String) (draw : Nat) : Option Lease × Pool :=
  let among := p.candidates country
  let turn := match p.strategy with
    | .random => draw
    | .roundRobin => p.cursor.toNat
  match among[turn % among.length]? with
  | none => (none, p)
  | some entry => (some (leaseOn entry), { p with cursor := p.cursor + 1 })

/-! ## 4. Reports -/

/-- What happened to a request that used a lease. -/
inductive Report where
  | success (lease : Lease)
  | failure (lease : Lease)
deriving Repr, DecidableEq

/-- Changes the endpoint of a lease, if it is still there. -/
def change (p : Pool) (lease : Lease) (f : Endpoint → Endpoint) : Pool :=
  { p with entries := p.entries.map fun entry =>
      if entry.id == lease.id then { entry with endpoint := f entry.endpoint } else entry }

/-- A success makes an endpoint's failures forgotten. -/
def reportSuccess (p : Pool) (lease : Lease) : Pool :=
  p.change lease fun e => { e with failures := 0 }

/-- The endpoint of a lease, if it is still there. -/
def entry? (p : Pool) (lease : Lease) : Option Entry := p.entries.find? (·.id == lease.id)

/-- A failure counts, and the one that reaches the threshold removes the endpoint; the answer tells
whether it was removed. -/
def reportFailure (p : Pool) (lease : Lease) : Bool × Pool :=
  match p.entry? lease with
  | none => (false, p)
  | some entry =>
    if entry.endpoint.failures + 1 < p.threshold then
      (false, p.change lease fun e => { e with failures := e.failures + 1 })
    else (true, { p with entries := p.entries.filter (·.id != lease.id) })

/-- Takes a report. -/
def take (p : Pool) : Report → Pool
  | .success lease => p.reportSuccess lease
  | .failure lease => (p.reportFailure lease).2

end Pool

end Shortlist.Proxy
