import Shortlist.Proofs.Fetch.Attempts
import Shortlist.Proofs.Proxy.Law

/-!
# Fetches side by side

A `Crew` is any number of fetches that share a layer and its pool.  Only single actions of a fetch
exclude each other: beginning an attempt, sending a request whose wait is over, going on after a
back-off, getting an answer from the engine, and taking it.  A run is any list of such actions, each
of some fetch, so every interleaving is one; an action for which a fetch is not ready does nothing.

`Member.act` is what a fetch does by itself, by the phases of the program; `Turn.Legal` lists what can
come out of it, and `after_cases` puts the one fetch back among the others.  Nothing behind that
lemma looks into an action again.
-/

namespace Shortlist.Fetch

open Proxy (Pool Lease)

/-! ## 1. The fetches -/

/-- A call of the engine that is over. -/
structure Exchange where
  request : Request
  answer : Answer
deriving Repr, DecidableEq

/-- What is put on record about a run, in the order in which it happens. -/
inductive Happening where
  /-- A request was made ready for being sent; `draw` is the random number for its proxy. -/
  | prepared (request : Request) (draw : Nat)
  /-- The engine was called. -/
  | called (request : Request)
  /-- A fetch took the answer to its call. -/
  | completed (exchange : Exchange)
deriving Repr, DecidableEq

/-- A fetch among others: where it stands, and the answer to its call once the engine gave one. -/
structure Member where
  phase : Phase
  answer : Option Answer := none
deriving Repr, DecidableEq

/-- What a fetch does that nothing else can come in between. -/
inductive Action where
  /-- Begins an attempt, or goes on because a wait is over. -/
  | proceed (c : Chance)
  /-- Gets an answer from the engine. -/
  | answer (a : Answer)
  /-- Takes the answer that it got. -/
  | take (c : Chance)
deriving Repr, DecidableEq

/-- What an action leaves behind. -/
structure Turn where
  member : Member
  pool : Pool
  happened : List Happening

/-- The request that was prepared on entering a phase. -/
def Phase.prepared : Phase → List Request
  | .delayed request _ => [request]
  | .calling request => [request]
  | _ => []

/-- An action of a fetch; none if the fetch is not where it could do that. -/
def Member.act (l : Layer) (pool : Pool) (m : Member) : Action → Option Turn
  | .proceed c =>
    let next := m.phase.proceed l c false pool
    let called := next.1.calls.map .called
    match m.phase with
    | .ready _ => some ⟨⟨next.1, none⟩, next.2, next.1.prepared.map (.prepared · c.proxy) ++ called⟩
    | .delayed _ _ => some ⟨⟨next.1, none⟩, next.2, called⟩
    | .backingOff _ _ => some ⟨⟨next.1, none⟩, next.2, called⟩
    | _ => none
  | .answer a =>
    match m with
    | ⟨.calling request, none⟩ => some ⟨⟨.calling request, some a⟩, pool, []⟩
    | _ => none
  | .take c =>
    match m with
    | ⟨.calling request, some a⟩ =>
      let next := (Phase.calling request).receive l c false pool a
      some ⟨⟨next.1, none⟩, next.2, [.completed ⟨request, a⟩]⟩
    | _ => none

/-- Fetches that share a layer and its pool. -/
structure Crew where
  members : List Member
  pool : Pool
  log : List Happening := []
deriving Repr, DecidableEq

namespace Crew

/-- One fetch for each request; none of them has begun. -/
def start (pool : Pool) (requests : List Request) : Crew :=
  { members := requests.map fun request => { phase := .ready request }, pool }

/-- The crew after an action of the fetch with a number. -/
def after (l : Layer) (crew : Crew) (event : Nat × Action) : Crew :=
  match crew.members[event.1]? with
  | none => crew
  | some m =>
    match m.act l crew.pool event.2 with
    | none => crew
    | some turn =>
      { members := crew.members.set event.1 turn.member
        pool := turn.pool
        log := crew.log ++ turn.happened }

/-- The crew after several actions. -/
def afterAll (l : Layer) (crew : Crew) (events : List (Nat × Action)) : Crew :=
  events.foldl (after l) crew

end Crew

/-! ## 2. What is on record -/

/-- The requests that the engine was called with, in order. -/
def callsIn (log : List Happening) : List Request :=
  log.filterMap fun
    | .called request => some request
    | _ => none

/-- The calls that are over, in the order in which they were completed. -/
def completedIn (log : List Happening) : List Exchange :=
  log.filterMap fun
    | .completed exchange => some exchange
    | _ => none

/-- The leases that were attached to requests, in order. -/
def leasesIn (log : List Happening) : List Lease :=
  log.filterMap fun
    | .prepared request _ => request.proxy
    | _ => none

namespace Exchange

/-- What the pool is owed for a call that carried a lease: a success for any response and a failure
for any error. -/
def report (x : Exchange) : Option Pool.Report :=
  x.request.proxy.map fun lease =>
    match x.answer with
    | .ok _ => .success lease
    | .error _ => .failure lease

/-- Whether the engine answered with an error. -/
def failed (x : Exchange) : Bool :=
  match x.answer with
  | .ok _ => false
  | .error _ => true

/-- Whether a call went through the endpoint with an identity. -/
def isThrough (id : Nat) (x : Exchange) : Bool := x.request.proxy.any (·.id == id)

end Exchange

/-- The use that is made of the pool: one selection for every prepared request that may go through a
proxy, one report for every completed call that carried a lease, and nothing else. -/
def usesIn (log : List Happening) : List Proxy.Step :=
  log.filterMap fun
    | .prepared request draw =>
      if request.dontProxy then none else some (.select request.country draw)
    | .called _ => none
    | .completed exchange => exchange.report.map .report

section Records

variable (log more : List Happening) (r : Request) (draw : Nat) (x : Exchange)

@[simp] theorem callsIn_append : callsIn (log ++ more) = callsIn log ++ callsIn more :=
  List.filterMap_append

@[simp] theorem callsIn_nil : callsIn [] = [] := rfl

@[simp] theorem callsIn_prepared : callsIn (.prepared r draw :: log) = callsIn log := rfl

@[simp] theorem callsIn_called : callsIn (.called r :: log) = r :: callsIn log := rfl

@[simp] theorem callsIn_completed : callsIn (.completed x :: log) = callsIn log := rfl

@[simp] theorem completedIn_append :
    completedIn (log ++ more) = completedIn log ++ completedIn more :=
  List.filterMap_append

@[simp] theorem completedIn_nil : completedIn [] = [] := rfl

@[simp] theorem completedIn_prepared : completedIn (.prepared r draw :: log) = completedIn log := rfl

@[simp] theorem completedIn_called : completedIn (.called r :: log) = completedIn log := rfl

@[simp] theorem completedIn_completed : completedIn (.completed x :: log) = x :: completedIn log :=
  rfl

@[simp] theorem leasesIn_append : leasesIn (log ++ more) = leasesIn log ++ leasesIn more :=
  List.filterMap_append

@[simp] theorem leasesIn_nil : leasesIn [] = [] := rfl

@[simp] theorem leasesIn_prepared :
    leasesIn (.prepared r draw :: log) = r.proxy.toList ++ leasesIn log := by
  cases hproxy : r.proxy <;> simp [leasesIn, hproxy]

@[simp] theorem leasesIn_called : leasesIn (.called r :: log) = leasesIn log := rfl

@[simp] theorem leasesIn_completed : leasesIn (.completed x :: log) = leasesIn log := rfl

@[simp] theorem usesIn_append : usesIn (log ++ more) = usesIn log ++ usesIn more :=
  List.filterMap_append

@[simp] theorem usesIn_nil : usesIn [] = [] := rfl

@[simp] theorem usesIn_prepared :
    usesIn (.prepared r draw :: log) =
      (if r.dontProxy then [] else [.select r.country draw]) ++ usesIn log := by
  by_cases hproxy : r.dontProxy = true <;> simp [usesIn, hproxy]

@[simp] theorem usesIn_called : usesIn (.called r :: log) = usesIn log := rfl

@[simp] theorem usesIn_completed :
    usesIn (.completed x :: log) = (x.report.map .report).toList ++ usesIn log := by
  cases hreport : x.report <;> simp [usesIn, hreport]

end Records

/-! ## 3. What an action can do -/

section Prepare

variable (l : Layer) (c : Chance) (pool : Pool) (r : Request)

/-- The pool behind a prepared request: one selection, or none at all. -/
theorem Layer.pool_prepare :
    (l.prepare c pool r).2 =
      if r.dontProxy then pool else pool.after (.select r.country c.proxy) := by
  rw [prepare_eq]
  rfl

/-- The lease of a prepared request: that of the selection, or the one it came with. -/
theorem Layer.proxy_prepare :
    (l.prepare c pool r).1.proxy =
      if r.dontProxy then r.proxy else pool.leased (.select r.country c.proxy) := by
  rw [prepare_eq]
  rfl

/-- Preparing a request leaves alone where it goes and how it may get there. -/
theorem Layer.destination_prepare :
    (l.prepare c pool r).1.url = r.url ∧ (l.prepare c pool r).1.country = r.country ∧
      (l.prepare c pool r).1.dontProxy = r.dontProxy := by
  rw [prepare_eq]
  exact ⟨rfl, rfl, rfl⟩

end Prepare

section Act

variable {l : Layer} {pool : Pool} {c : Chance} {r sent : Request} {d : Duration}
  {old : Option Answer}

/-- An attempt whose request waits. -/
theorem Member.act_ready_of_delay (h : (l.prepare c pool r).1.delay = some d) :
    (⟨.ready r, old⟩ : Member).act l pool (.proceed c) =
      some ⟨⟨.delayed (l.prepare c pool r).1 d, none⟩, (l.prepare c pool r).2,
        [.prepared (l.prepare c pool r).1 c.proxy]⟩ := by
  simp [act, Phase.proceed, h, Phase.prepared, Phase.calls]

/-- An attempt whose request is sent without waiting. -/
theorem Member.act_ready_of_no_delay (h : (l.prepare c pool r).1.delay = none) :
    (⟨.ready r, old⟩ : Member).act l pool (.proceed c) =
      some ⟨⟨.calling (l.prepare c pool r).1, none⟩, (l.prepare c pool r).2,
        [.prepared (l.prepare c pool r).1 c.proxy, .called (l.prepare c pool r).1]⟩ := by
  simp [act, Phase.proceed, h, Phase.prepared, Phase.calls]

/-- The end of a wait before a request. -/
theorem Member.act_delayed :
    (⟨.delayed sent d, old⟩ : Member).act l pool (.proceed c) =
      some ⟨⟨.calling sent, none⟩, pool, [.called sent]⟩ := rfl

/-- Nothing goes on while the engine is called. -/
theorem Member.act_calling : (⟨.calling sent, old⟩ : Member).act l pool (.proceed c) = none := rfl

end Act

/-- What can come out of an action of a fetch: all transitions of the loop, with what each does to the
pool and what is put on record about it. -/
inductive Turn.Legal (l : Layer) (pool : Pool) : Member → Turn → Prop where
  /-- An attempt begins, and its request waits. -/
  | waits {r old c d} : Legal l pool ⟨.ready r, old⟩
      ⟨⟨.delayed (l.prepare c pool r).1 d, none⟩, (l.prepare c pool r).2,
        [.prepared (l.prepare c pool r).1 c.proxy]⟩
  /-- An attempt begins, and its request is sent. -/
  | hurries {r old c} : Legal l pool ⟨.ready r, old⟩
      ⟨⟨.calling (l.prepare c pool r).1, none⟩, (l.prepare c pool r).2,
        [.prepared (l.prepare c pool r).1 c.proxy, .called (l.prepare c pool r).1]⟩
  /-- The wait is over, and the request is sent. -/
  | sends {sent d old} : Legal l pool ⟨.delayed sent d, old⟩
      ⟨⟨.calling sent, none⟩, pool, [.called sent]⟩
  /-- The back-off is over. -/
  | resumes {r d old} : Legal l pool ⟨.backingOff r d, old⟩ ⟨⟨.ready r, none⟩, pool, []⟩
  /-- The engine answers. -/
  | answers {sent a} : Legal l pool ⟨.calling sent, none⟩ ⟨⟨.calling sent, some a⟩, pool, []⟩
  /-- The answer ends the fetch. -/
  | ends {sent a outcome} : Legal l pool ⟨.calling sent, some a⟩
      ⟨⟨.finished outcome, none⟩, Layer.informed pool sent a, [.completed ⟨sent, a⟩]⟩
  /-- The answer leads to another attempt, which carries no lease yet. -/
  | retries {sent a next d} (hproxy : next.proxy = none) : Legal l pool ⟨.calling sent, some a⟩
      ⟨⟨.backingOff next d, none⟩, Layer.informed pool sent a, [.completed ⟨sent, a⟩]⟩

/-- **An action does nothing else.** -/
theorem Member.legal_of_act {l : Layer} {pool : Pool} {m : Member} {action : Action} {turn : Turn}
    (h : m.act l pool action = some turn) : turn.Legal l pool m := by
  obtain ⟨phase, old⟩ := m
  cases action with
  | proceed c =>
    cases phase with
    | ready r =>
      cases hdelay : (l.prepare c pool r).1.delay with
      | none =>
        cases (act_ready_of_no_delay hdelay).symm.trans h
        exact .hurries
      | some d =>
        cases (act_ready_of_delay hdelay).symm.trans h
        exact .waits
    | delayed sent d =>
      cases act_delayed.symm.trans h
      exact .sends
    | backingOff r d =>
      cases h
      exact .resumes
    | calling sent => cases h
    | finished outcome => cases h
  | answer a =>
    cases phase <;> cases old <;> cases h
    exact .answers
  | take c =>
    cases phase <;> cases old <;> cases h
    rename_i sent a
    by_cases hsettles : l.Settles sent.retryCount a
    · rw [Phase.receive_settles hsettles, Phase.pool_receive]
      exact .ends
    · rw [Phase.receive_retries hsettles, Phase.pool_receive]
      exact .retries rfl

/-- **The step of a crew.**  One fetch does something by itself, or nothing happens at all. -/
theorem Crew.after_cases (l : Layer) (crew : Crew) (event : Nat × Action) :
    crew.after l event = crew ∨
      ∃ before m behind, ∃ turn : Turn, crew.members = before ++ m :: behind ∧
        turn.Legal l crew.pool m ∧ crew.after l event =
          ⟨before ++ turn.member :: behind, turn.pool, crew.log ++ turn.happened⟩ := by
  unfold after
  split
  · exact Or.inl rfl
  · rename_i m hm
    split
    · exact Or.inl rfl
    · rename_i turn hturn
      obtain ⟨hlt, hget⟩ := List.getElem?_eq_some_iff.mp hm
      refine Or.inr ⟨crew.members.take event.1, m, crew.members.drop (event.1 + 1), turn, ?_,
        m.legal_of_act hturn, ?_⟩
      · rw [← hget, List.getElem_cons_drop, List.take_append_drop]
      · rw [List.set_eq_take_append_cons_drop, if_pos hlt]

/-- The actions of one fetch leave the others where they are. -/
theorem Crew.getElem?_after (l : Layer) (crew : Crew) {event : Nat × Action} {i : Nat}
    (h : event.1 ≠ i) : (crew.after l event).members[i]? = crew.members[i]? := by
  unfold after
  split
  · rfl
  · split
    · rfl
    · exact List.getElem?_set_ne h

namespace Crew

variable {l : Layer} {crew : Crew} {i : Nat} {m : Member} {action : Action} {turn : Turn}

/-- An action that a fetch can do is done by it. -/
theorem after_of_act (hm : crew.members[i]? = some m) (hact : m.act l crew.pool action = some turn) :
    crew.after l (i, action) =
      ⟨crew.members.set i turn.member, turn.pool, crew.log ++ turn.happened⟩ := by
  simp only [after, hm, hact]

/-- Nothing happens if a fetch cannot act. -/
theorem after_of_act_eq_none (hm : crew.members[i]? = some m)
    (hact : m.act l crew.pool action = none) : crew.after l (i, action) = crew := by
  simp only [after, hm, hact]

/-- Whatever the others do leaves a fetch where it is. -/
theorem getElem?_afterAll {events : List (Nat × Action)} (h : ∀ event ∈ events, event.1 ≠ i) :
    (crew.afterAll l events).members[i]? = crew.members[i]? := by
  induction events generalizing crew with
  | nil => rfl
  | cons event events ih =>
    obtain ⟨hevent, hevents⟩ := List.forall_mem_cons.mp h
    exact (ih hevents).trans (getElem?_after l crew hevent)

end Crew

end Shortlist.Fetch
