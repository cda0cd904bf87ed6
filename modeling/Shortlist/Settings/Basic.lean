import Shortlist.Captcha
import Shortlist.Proxy.Pool
import Shortlist.Retry
import Shortlist.Settings.Layers
import Shortlist.SocketAddress

/-!
# Settings

The settings of a run, section by section, and what the parts of the program are built from: a
retry policy, a proxy pool, a captcha solver, the delays between requests.  Sections that nothing
depends on may be left out.
-/

namespace Shortlist

open Json (Value)
open Number (Binary64)

/-! ## 1. Sections -/

/-- How log messages are laid out. -/
inductive LogFormat where
  | pretty
  | json
deriving Repr, DecidableEq

/-- The layout with a name. -/
def LogFormat.ofName? (s : String) : Option LogFormat :=
  match s with
  | "pretty" => some .pretty
  | "json" => some .json
  | _ => none

/-- How requests are sent.  Times are in seconds. -/
structure FetchSection where
  delayMin : Binary64
  delayMax : Binary64
  timeout : Binary64
  concurrency : Nat
deriving Repr, DecidableEq

/-- How requests are tried again.  Times are in seconds. -/
structure RetrySection where
  maxAttempts : Nat
  baseDelay : Binary64
  maxDelay : Binary64
  jitter : Binary64
  statusCodes : List Nat
deriving Repr, DecidableEq

/-- Where proxies come from and how they are used. -/
structure ProxySection where
  /-- The file that lists them; without it requests go out directly. -/
  listSource : Option String
  failureThreshold : Nat
  strategy : Proxy.Strategy
deriving Repr, DecidableEq

/-- The service that solves captchas. -/
structure CaptchaSection where
  service : Option String := none
  key : Option String := none
deriving Repr, DecidableEq

/-- Where metrics are served. -/
structure MetricsSection where
  listenAddress : Option String := none
deriving Repr, DecidableEq

/-- How messages are logged. -/
structure LogSection where
  format : LogFormat := .pretty
deriving Repr, DecidableEq

/-- What a run works on. -/
structure RunSection where
  /-- The addresses to fetch. -/
  seeds : List String := []
  /-- The file of records to sift. -/
  input : Option String := none
deriving Repr, DecidableEq

/-- The settings of a run. -/
structure Settings where
  fetch : FetchSection
  retry : RetrySection
  proxy : ProxySection
  captcha : CaptchaSection := {}
  metrics : MetricsSection := {}
  log : LogSection := {}
  run : RunSection := {}
deriving Repr, DecidableEq

namespace Settings

/-! ## 2. Reading a section -/

/-- Why there are no settings. -/
inductive Fault where
  /-- A file is not in its format. -/
  | unreadable (file : String)
  /-- A section is neither a table nor a list. -/
  | notASection (name : String)
  /-- An entry is missing or of the wrong kind. -/
  | unfit (key : String)
deriving Repr, DecidableEq

/-- The wording of a fault. -/
def Fault.message : Fault → String
  | .unreadable file => "settings file cannot be read: " ++ file
  | .notASection name => "settings section is no table: " ++ name
  | .unfit key => "setting is missing or has a value that does not fit: " ++ key

/-- The entries of a section: by their names, or in the order in which the section lists its
keys. -/
inductive Entries where
  | named (members : Keyed Value)
  | listed (values : List Value)

/-- The entries of a value. -/
def Entries.of? : Value → Option Entries
  | .object members => some (.named members)
  | .array values => some (.listed values)
  | _ => none

/-- An entry by its place and its key. -/
def Entries.get? (place : Nat) (key : String) : Entries → Option Value
  | .named members => Keyed.find? key members
  | .listed values => values[place]?

/-- The meaning of an entry that has to be there. -/
def Entries.required {α : Type} (es : Entries) (place : Nat) (key : String)
    (meaning : Value → Option α) : Except Fault α :=
  match (es.get? place key).bind meaning with
  | some a => .ok a
  | none => .error (.unfit key)

/-- The text of an entry that may be left out where entries have names. -/
def Entries.optionalText (es : Entries) (place : Nat) (key : String) :
    Except Fault (Option String) :=
  match es, es.get? place key with
  | .named _, none => .ok none
  | _, _ => es.required place key optionalTextOf?

/-- Reads the settings for requests. -/
def readFetch (es : Entries) : Except Fault FetchSection := do
  return {
    delayMin := ← es.required 0 "random_delay_min" realOf?
    delayMax := ← es.required 1 "random_delay_max" realOf?
    timeout := ← es.required 2 "timeout" realOf?
    concurrency := ← es.required 3 "concurrency" naturalOf? }

/-- Reads the settings for trying again. -/
def readRetry (es : Entries) : Except Fault RetrySection := do
  return {
    maxAttempts := ← es.required 0 "max_attempts" (boundedNatural? (Number.twoTo 32 - 1))
    baseDelay := ← es.required 1 "base_delay" realOf?
    maxDelay := ← es.required 2 "max_delay" realOf?
    jitter := ← es.required 3 "jitter_fraction" realOf?
    statusCodes := ←
      es.required 4 "retryable_status_codes" (listOf? (boundedNatural? (Number.twoTo 16 - 1))) }

/-- Reads the settings for proxies. -/
def readProxy (es : Entries) : Except Fault ProxySection := do
  return {
    listSource := ← es.optionalText 0 "list_source"
    failureThreshold := ← es.required 1 "failure_threshold" (boundedNatural? (Number.twoTo 32 - 1))
    strategy := ← es.required 2 "strategy" (choiceOf? Proxy.Strategy.ofName?) }

/-- Reads the settings for captchas. -/
def readCaptcha (es : Entries) : Except Fault CaptchaSection := do
  return {
    service := ← es.optionalText 0 "service_name"
    key := ← es.optionalText 1 "api_key" }

/-- Reads the settings for metrics. -/
def readMetrics (es : Entries) : Except Fault MetricsSection := do
  return { listenAddress := ← es.optionalText 0 "listen_addr" }

/-- Reads the settings for logging. -/
def readLog (es : Entries) : Except Fault LogSection := do
  return { format := ← es.required 0 "format" (choiceOf? LogFormat.ofName?) }

/-- Reads what to work on. -/
def readRun (es : Entries) : Except Fault RunSection := do
  return {
    seeds := ← match es.get? 0 "seed_urls" with
      | none => .ok []
      | some _ => es.required 0 "seed_urls" (listOf? textOf?)
    input := ← es.optionalText 1 "input_path" }

/-! ## 3. Reading all settings -/

/-- Reads a section that has to be there. -/
def required {α : Type} (name : String) (read : Entries → Except Fault α) (tree : Value) :
    Except Fault α :=
  match (tree.member? name).bind Entries.of? with
  | some es => read es
  | none => .error (.notASection name)

/-- Reads a section that may be left out. -/
def optional {α : Type} (name : String) (read : Entries → Except Fault α) (absent : α)
    (tree : Value) : Except Fault α :=
  match tree.member? name with
  | none => .ok absent
  | some _ => required name read tree

/-- The settings that a tree holds. -/
def ofTree (tree : Value) : Except Fault Settings := do
  return {
    fetch := ← required "fetch" readFetch tree
    retry := ← required "retry" readRetry tree
    proxy := ← required "proxy" readProxy tree
    captcha := ← optional "captcha" readCaptcha {} tree
    metrics := ← optional "metrics" readMetrics {} tree
    log := ← optional "log" readLog {} tree
    run := ← optional "run" readRun {} tree }

/-- The settings that files and variables make. -/
def load (files : Files) (vars : Variables) : Except Fault Settings :=
  match treeOf files vars with
  | .error file => .error (.unreadable file)
  | .ok tree => ofTree tree

end Settings

/-! ## 4. What the settings are for -/

namespace FetchSection

/-- The shortest delay before a request. -/
def shortestPause (s : FetchSection) : Duration := Duration.saturating s.delayMin

/-- The longest delay before a request, which is not below the shortest one. -/
def longestPause (s : FetchSection) : Duration :=
  (Duration.saturating s.delayMax).max s.shortestPause

/-- How long a request may take. -/
def requestTimeout (s : FetchSection) : Duration := Duration.saturating s.timeout

end FetchSection

/-- The policy for trying again: delays are never negative, the jitter is a fraction, and the status
codes are a set. -/
def RetrySection.policy (s : RetrySection) : RetryPolicy where
  maxAttempts := s.maxAttempts
  baseDelay := Duration.saturating s.baseDelay
  maxDelay := Duration.saturating s.maxDelay
  jitter := s.jitter.clamp Binary64.zero (Binary64.ofNat 1)
  statusCodes := sortedSet s.statusCodes

/-- The pool for proxies, without any yet. -/
def ProxySection.pool (s : ProxySection) : Proxy.Pool :=
  Proxy.Pool.new s.failureThreshold s.strategy

/-- The solver for captchas. -/
def CaptchaSection.solver (s : CaptchaSection) : Captcha.Solver :=
  { service := s.service, key := s.key }

/-- The address where metrics are served, if they are; or the text that is none. -/
def MetricsSection.address (s : MetricsSection) : Except String (Option SocketAddress) :=
  match s.listenAddress with
  | none => .ok none
  | some text =>
    match SocketAddress.ofText? text with
    | some a => .ok (some a)
    | none => .error text

end Shortlist
