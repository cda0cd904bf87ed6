import Mathlib.Algebra.GroupWithZero.Nat
import Mathlib.Algebra.Order.BigOperators.Group.List
import Mathlib.Algebra.Order.Group.Nat
import Shortlist.Fetch.Schedule
import Shortlist.Proofs.Fetch.Crew
import Shortlist.Proofs.Fetch.Shutdown

/-!
# Fetches on a clock are a crew

The clock decides which fetch moves on, and nothing else.  What a fetch does then is decided by its
phases, so it takes the step of a fetch by itself (`advance_eq`), and the signal of a shutdown ends the
waits that it ends for a fetch by itself (`standings_interrupt`).

`Next` lists what can happen in a run, and nothing behind `next_of_step?` looks into the scheduler again.
Two things come from it.  Whatever happens brings the run closer to its end (`Next.stepsLeft_lt`), so
`finish` ends with every fetch finished.  And whatever happens is something that a crew can do
(`Next.mirrors`), so a run is one of the interleavings of its crew, with the same calls and the same pool.
A crew knows no shutdown; a fetch that is abandoned stays in the crew where it was, between two calls, and
does nothing more.
-/

namespace Shortlist.Fetch

open Proxy (Pool)

/-! ## 1. Where the fetches stand -/

/-- A flight is on its way, and there is an answer for it exactly if the engine was called. -/
def Flight.Sound (f : Flight) : Prop :=
  match f.phase with
  | .calling _ => f.answer.isSome = true
  | .finished _ => False
  | _ => f.answer = none

/-- A flight is not finished. -/
theorem Flight.Sound.phase_ne_finished {f : Flight} (h : f.Sound) (outcome : Outcome) :
    f.phase ≠ .finished outcome := by
  intro hphase
  rw [Flight.Sound, hphase] at h
  exact h

namespace Run

/-- The fetches of a run by their places, and where each of them stands. -/
def standings (w : Run) : List (Nat × Phase) :=
  w.waiting.map (fun x => (x.1, .ready x.2)) ++ (w.flights.map (fun f => (f.place, f.phase)) ++
    w.outcomes.map fun x => (x.1, .finished x.2))

/-- The requests that the engine was called with, in order. -/
def called (w : Run) : List Request := (w.calls.map Call.request).reverse

section Settle

variable (w : Run) (place : Nat) (phase : Phase)

@[simp] theorem layer_settle : (w.settle place phase).layer = w.layer := by cases phase <;> rfl

@[simp] theorem pool_settle : (w.settle place phase).pool = w.pool := by cases phase <;> rfl

@[simp] theorem stopped_settle : (w.settle place phase).stopped = w.stopped := by cases phase <;> rfl

@[simp] theorem shutdown_settle : (w.settle place phase).shutdown = w.shutdown := by
  cases phase <;> rfl

@[simp] theorem waiting_settle : (w.settle place phase).waiting = w.waiting := by cases phase <;> rfl

@[simp] theorem width_settle : (w.settle place phase).width = w.width := by cases phase <;> rfl

@[simp] theorem now_settle : (w.settle place phase).now = w.now := by cases phase <;> rfl

/-- The engine is called on entering a phase in which an answer is waited for. -/
@[simp] theorem called_settle : (w.settle place phase).called = w.called ++ phase.calls := by
  cases phase <;> simp [settle, called, Phase.calls]

/-- A fetch that is settled stands where it was put, and the others stand where they stood. -/
theorem standings_settle :
    (w.settle place phase).standings.Perm ((place, phase) :: w.standings) := by
  cases phase with
  | finished outcome =>
    simp only [settle, standings, List.map_append, List.map_cons, List.map_nil, ← List.append_assoc]
    exact List.perm_append_singleton _ _
  | _ =>
    simp only [settle, standings, List.map_append, List.map_cons, List.map_nil, List.append_assoc,
      List.singleton_append]
    rw [← List.append_assoc, ← List.append_assoc (List.map _ w.waiting)]
    exact List.perm_middle

/-- A fetch that is settled is filed, or in flight, where it does not wake in the past. -/
theorem mem_flights_settle {f : Flight} (hf : f ∈ (w.settle place phase).flights) :
    f ∈ w.flights ∨ f.Sound ∧ w.now ≤ f.wake := by
  cases phase with
  | finished outcome => exact Or.inl hf
  | _ =>
    rcases List.mem_append.mp hf with hf | hf
    · exact Or.inl hf
    · obtain rfl := List.mem_singleton.mp hf
      exact Or.inr ⟨rfl, by simp⟩

/-- At most one more fetch is in flight. -/
theorem length_flights_settle_le :
    (w.settle place phase).flights.length ≤ w.flights.length + 1 := by
  cases phase <;> simp [settle]

end Settle

/-! ## 2. A flight and a fetch by itself -/

/-- The flight by itself, with the pool that it shares. -/
def solo (w : Run) (f : Flight) : Solo := { phase := f.phase, pool := w.pool, stopped := w.stopped }

/-- What a flight meets: the answer that there is for it, and the same chances at any time. -/
def worldOf (f : Flight) : World where
  answer _ := f.answer.getD Entry.beyond.answer
  outgoing _ := {}
  incoming _ := {}

/-- The flight by itself when it has moved on. -/
def moved (w : Run) (f : Flight) : Solo := Solo.step w.layer (worldOf f) (w.solo f)

/-- The run when a flight wakes: the flight is taken out, to be settled with a pool. -/
def woken (w : Run) (f : Flight) (pool : Pool) : Run :=
  { w with now := f.wake, flights := w.flights.filter (·.place != f.place), pool }

/-- **A flight moves on as a fetch by itself does**, with the pool that it shares. -/
theorem advance_eq (w : Run) {f : Flight} (hf : f.Sound) :
    w.advance f = (w.woken f (w.moved f).pool).settle f.place (w.moved f).phase := by
  obtain ⟨place, phase, wake, answer⟩ := f
  cases phase with
  | calling request =>
    obtain ⟨a, rfl⟩ := Option.isSome_iff_exists.mp hf
    rfl
  | finished outcome => exact absurd hf id
  | _ =>
    obtain rfl : answer = none := hf
    rfl

/-- What a signal does to the flights: those that wait are filed, and the others stay. -/
theorem map_filter_ended?_perm (fs : List Flight) :
    ((fs.filter (·.ended?.isNone)).map (fun f => (f.place, f.phase)) ++
      (fs.filterMap Flight.ended?).map fun x => (x.1, Phase.finished x.2)).Perm
      (fs.map fun f => (f.place, f.phase.interrupt)) := by
  induction fs with
  | nil => exact List.Perm.refl _
  | cons f fs ih =>
    have hended : ∀ outcome, f.phase.interrupt = .finished outcome →
        f.ended? = some (f.place, outcome) := fun outcome h => by rw [Flight.ended?, h]
    have hstays : (∀ outcome, f.phase.interrupt ≠ .finished outcome) →
        f.ended? = none ∧ f.phase.interrupt = f.phase := fun h => by
      unfold Flight.ended?
      cases hphase : f.phase <;> simp_all [Phase.interrupt]
    by_cases h : ∃ outcome, f.phase.interrupt = .finished outcome
    · obtain ⟨outcome, h⟩ := h
      rw [List.filter_cons_of_neg (by simp [hended outcome h]),
        List.filterMap_cons_some (hended outcome h), List.map_cons, List.map_cons, h]
      exact List.perm_middle.trans (ih.cons _)
    · obtain ⟨hnone, hsame⟩ := hstays fun outcome ho => h ⟨outcome, ho⟩
      rw [List.filter_cons_of_pos (by simp [hnone]), List.filterMap_cons_none hnone, List.map_cons,
        List.map_cons, hsame]
      exact ih.cons _

/-- **The signal of a shutdown** does to every fetch what it does to a fetch by itself. -/
theorem standings_interrupt (w : Run) (time : Nat) :
    (w.interrupt time).standings.Perm (w.standings.map fun x => (x.1, x.2.interrupt)) := by
  have hflights := map_filter_ended?_perm w.flights
  have hwaiting : (w.waiting.map fun x => (x.1, Phase.ready x.2)).map
      (fun x => (x.1, x.2.interrupt)) = w.waiting.map fun x => (x.1, Phase.ready x.2) := by
    rw [List.map_map]
    rfl
  have houtcomes : (w.outcomes.map fun x => (x.1, Phase.finished x.2)).map
      (fun x => (x.1, x.2.interrupt)) = w.outcomes.map fun x => (x.1, Phase.finished x.2) := by
    rw [List.map_map]
    rfl
  rw [standings, standings, List.map_append, List.map_append, hwaiting, houtcomes, List.map_map]
  refine List.Perm.append_left _ ?_
  simp only [interrupt, List.map_append]
  refine ((List.perm_append_comm).append_left _).trans ?_
  rw [← List.append_assoc]
  exact hflights.append_right _

/-! ## 3. What can happen -/

/-- Of two fetches, neither moves on before the sooner one. -/
theorem wake_sooner (f g : Flight) :
    (sooner f g = f ∨ sooner f g = g) ∧ (sooner f g).wake ≤ f.wake ∧ (sooner f g).wake ≤ g.wake := by
  unfold sooner
  split
  · exact ⟨Or.inr rfl, by omega, Nat.le_refl _⟩
  · exact ⟨Or.inl rfl, Nat.le_refl _, by omega⟩

/-- The soonest of some fetches is one of them, and none of them moves on before it. -/
theorem foldl_sooner_spec (fs : List Flight) (f : Flight) :
    fs.foldl sooner f ∈ f :: fs ∧ ∀ g ∈ f :: fs, (fs.foldl sooner f).wake ≤ g.wake := by
  induction fs generalizing f with
  | nil => simp
  | cons g fs ih =>
    obtain ⟨hone, hf, hg⟩ := wake_sooner f g
    obtain ⟨hmem, hle⟩ := ih (sooner f g)
    obtain ⟨hfirst, hrest⟩ := List.forall_mem_cons.mp hle
    rw [List.foldl_cons]
    refine ⟨?_, List.forall_mem_cons.mpr ⟨hfirst.trans hf,
      List.forall_mem_cons.mpr ⟨hfirst.trans hg, hrest⟩⟩⟩
    rcases List.mem_cons.mp hmem with heq | hmem
    · rw [heq]
      rcases hone with h | h <;> simp [h]
    · simp [hmem]

/-- **The fetch that moves on next** is one of those in flight, and none of them moves on before it. -/
theorem next?_spec {w : Run} {f : Flight} (h : w.next? = some f) :
    f ∈ w.flights ∧ ∀ g ∈ w.flights, f.wake ≤ g.wake := by
  unfold next? at h
  cases hflights : w.flights with
  | nil =>
    rw [hflights] at h
    cases h
  | cons g rest =>
    rw [hflights] at h
    cases h
    exact foldl_sooner_spec rest g

/-- What can happen in a run. -/
inductive Next (w : Run) : Run → Prop where
  /-- A fetch starts. -/
  | starts {place : Nat} {request : Request} {rest : List (Nat × Request)}
    (hwaiting : w.waiting = (place, request) :: rest) (hroom : w.flights.length < max w.width 1) :
    Next w (({ w with waiting := rest } : Run).settle place (.ready request))
  /-- The shutdown is signalled, before anything else happens at its time. -/
  | signals {time : Nat} (hshutdown : w.shutdown = some time) (hearly : ∀ f ∈ w.flights, time ≤ f.wake) :
    Next w (w.interrupt time)
  /-- The first fetch to wake moves on. -/
  | moves {f : Flight} (hf : f ∈ w.flights) (hfirst : ∀ g ∈ w.flights, f.wake ≤ g.wake)
    (hlater : ∀ time ∈ w.shutdown, f.wake < time) : Next w (w.advance f)

/-- The first fetch that waits starts, if there is room for it. -/
theorem next_of_launch? {w w' : Run} (h : w.launch? = some w') : w.Next w' := by
  unfold launch? at h
  split at h
  · cases h
  · obtain ⟨hroom, heq⟩ := Option.ite_none_right_eq_some.mp h
    cases heq
    exact .starts ‹_› hroom

/-- **A step does nothing else.** -/
theorem next_of_step? {w w' : Run} (h : w.step? = some w') : w.Next w' := by
  unfold step? at h
  cases hlaunch : w.launch? with
  | some started =>
    rw [hlaunch] at h
    cases h
    exact next_of_launch? hlaunch
  | none =>
    cases hnext : w.next? with
    | none =>
      rw [hlaunch, hnext] at h
      cases h
    | some f =>
      obtain ⟨hf, hfirst⟩ := next?_spec hnext
      rw [hlaunch, hnext] at h
      cases hearly : w.shutdown.filter (· ≤ f.wake) with
      | some time =>
        simp only [hearly, Option.some.injEq] at h
        subst h
        obtain ⟨hshutdown, hle⟩ := Option.filter_eq_some_iff.mp hearly
        exact .signals hshutdown fun g hg => (of_decide_eq_true hle).trans (hfirst g hg)
      | none =>
        simp only [hearly, Option.some.injEq] at h
        subst h
        refine .moves hf hfirst fun time hshutdown => ?_
        have hlate := Option.filter_eq_none_iff.mp hearly time hshutdown
        simpa using hlate

/-- **A run that cannot go on** has no fetch that waits or is in flight. -/
theorem done_of_step? {w : Run} (h : w.step? = none) : w.waiting = [] ∧ w.flights = [] := by
  unfold step? at h
  cases hlaunch : w.launch? with
  | some started =>
    rw [hlaunch] at h
    cases h
  | none =>
    cases hflights : w.flights with
    | nil =>
      refine ⟨?_, rfl⟩
      unfold launch? at hlaunch
      split at hlaunch
      · assumption
      · rw [hflights, if_pos (by simp)] at hlaunch
        cases hlaunch
    | cons f rest =>
      -- some fetch in flight is the next one to move on
      rw [hlaunch, next?, hflights] at h
      simp only at h
      split at h <;> cases h

/-- What holds at first and is kept by whatever happens holds behind any number of steps. -/
theorem runFor_induct {P : Run → Prop} (hnext : ∀ w w', P w → w.Next w' → P w') :
    ∀ (steps : Nat) {w : Run}, P w → P (runFor steps w)
  | 0, _, h => h
  | steps + 1, w, h => by
    rw [runFor]
    split
    · exact runFor_induct hnext steps (hnext _ _ h (next_of_step? ‹_›))
    · exact h

/-! ## 4. What is kept -/

/-- A run of so many requests is in order. -/
structure Sound (n : Nat) (w : Run) : Prop where
  /-- Every request has its place. -/
  places : (w.standings.map Prod.fst).Perm (List.range n)
  flights : ∀ f ∈ w.flights, f.Sound
  /-- Nothing is going to happen in the past. -/
  late : ∀ f ∈ w.flights, w.now ≤ f.wake
  ahead : ∀ time ∈ w.shutdown, w.now ≤ time
  /-- No more fetches are in flight than may be. -/
  narrow : w.flights.length ≤ max w.width 1

/-- Only one flight has the place of a flight. -/
theorem Sound.flights_eq {n : Nat} {w : Run} (h : w.Sound n) {f : Flight} (hf : f ∈ w.flights) :
    ∃ before behind, w.flights = before ++ f :: behind ∧
      w.flights.filter (·.place != f.place) = before ++ behind := by
  have hplaces : (w.flights.map Flight.place).Nodup := by
    have hall : (w.standings.map Prod.fst).Nodup := h.places.nodup_iff.mpr List.nodup_range
    simp only [standings, List.map_append, List.map_map] at hall
    exact hall.of_append_right.of_append_left
  obtain ⟨before, behind, heq⟩ := List.append_of_mem hf
  refine ⟨before, behind, heq, ?_⟩
  rw [heq, List.map_append, List.map_cons] at hplaces
  have hothers := List.nodup_middle.mp hplaces
  obtain ⟨hnew, -⟩ := List.nodup_cons.mp hothers
  have hkept : ∀ g ∈ before ++ behind, (g.place != f.place) = true := fun g hg => by
    have hne : g.place ≠ f.place := fun h => hnew (by
      rw [← List.map_append, ← h]
      exact List.mem_map_of_mem hg)
    simpa using hne
  rw [heq, List.filter_append, List.filter_cons_of_neg (by simp), ← List.filter_append,
    List.filter_eq_self.mpr hkept]

/-- When a flight wakes, the others stand where they stood. -/
theorem Sound.standings_woken {n : Nat} {w : Run} (h : w.Sound n) {f : Flight} (hf : f ∈ w.flights)
    (pool : Pool) : w.standings.Perm ((f.place, f.phase) :: (w.woken f pool).standings) := by
  obtain ⟨before, behind, heq, hothers⟩ := h.flights_eq hf
  rw [standings, standings, woken, hothers, heq]
  simp only [List.map_append, List.map_cons, List.append_assoc, List.cons_append]
  rw [← List.append_assoc, ← List.append_assoc (List.map _ w.waiting)]
  exact List.perm_middle

/-- Where the fetches stand when one has moved on. -/
theorem Sound.standings_advance {n : Nat} {w : Run} (h : w.Sound n) {f : Flight}
    (hf : f ∈ w.flights) :
    ∃ others, w.standings.Perm ((f.place, f.phase) :: others) ∧
      (w.advance f).standings.Perm ((f.place, (w.moved f).phase) :: others) := by
  rw [advance_eq w (h.flights f hf)]
  exact ⟨_, h.standings_woken hf _, standings_settle _ _ _⟩

/-- Where the fetches stand when one has started. -/
theorem standings_starts {w : Run} {place : Nat} {request : Request} {rest : List (Nat × Request)}
    (hwaiting : w.waiting = (place, request) :: rest) :
    ((({ w with waiting := rest } : Run).settle place (.ready request)).standings).Perm
      w.standings := by
  refine (standings_settle _ _ _).trans ?_
  rw [standings, standings, hwaiting]
  exact List.Perm.refl _

/-- A run stays in order when a fetch starts. -/
theorem Sound.starts {n : Nat} {w : Run} (hw : w.Sound n) {place : Nat} {request : Request}
    {rest : List (Nat × Request)} (hwaiting : w.waiting = (place, request) :: rest)
    (hroom : w.flights.length < max w.width 1) :
    (({ w with waiting := rest } : Run).settle place (.ready request)).Sound n := by
  have hnew := fun f => @mem_flights_settle ({ w with waiting := rest } : Run) place
    (.ready request) f
  have hlength := length_flights_settle_le ({ w with waiting := rest } : Run) place
    (.ready request)
  refine ⟨((standings_starts hwaiting).map _).trans hw.places, fun f hf => ?_, fun f hf => ?_,
    by simpa using hw.ahead, ?_⟩
  · exact (hnew f hf).elim (hw.flights f) And.left
  · rw [now_settle]
    exact (hnew f hf).elim (hw.late f) And.right
  · rw [width_settle]
    exact hlength.trans hroom

/-- A run stays in order when the shutdown is signalled, no later than a fetch moves on. -/
theorem Sound.interrupt {n : Nat} {w : Run} (hw : w.Sound n) {time : Nat}
    (hearly : ∀ f ∈ w.flights, time ≤ f.wake) : (w.interrupt time).Sound n := by
  have hplaces := (standings_interrupt w time).map Prod.fst
  rw [List.map_map] at hplaces
  exact ⟨hplaces.trans hw.places, fun f hf => hw.flights f (List.mem_of_mem_filter hf),
    fun f hf => hearly f (List.mem_of_mem_filter hf), by simp [Run.interrupt],
    (List.length_filter_le _ _).trans hw.narrow⟩

/-- A run stays in order when the first fetch to wake moves on, before a shutdown is signalled. -/
theorem Sound.advance {n : Nat} {w : Run} (hw : w.Sound n) {f : Flight} (hf : f ∈ w.flights)
    (hfirst : ∀ g ∈ w.flights, f.wake ≤ g.wake) (hlater : ∀ time ∈ w.shutdown, f.wake < time) :
    (w.advance f).Sound n := by
  obtain ⟨others, hbefore, hbehind⟩ := hw.standings_advance hf
  have hplaces : ((w.advance f).standings.map Prod.fst).Perm (List.range n) :=
    (hbehind.map _).trans ((hbefore.map Prod.fst).symm.trans hw.places)
  obtain ⟨front, back, heq, hothers⟩ := hw.flights_eq hf
  have hlength : (front ++ back).length + 1 ≤ max w.width 1 := by
    have := hw.narrow
    rw [heq] at this
    simp only [List.length_append, List.length_cons] at this ⊢
    omega
  rw [advance_eq w (hw.flights f hf)] at hplaces ⊢
  have hnew := fun g =>
    @mem_flights_settle (w.woken f (w.moved f).pool) f.place (w.moved f).phase g
  have hold : ∀ g ∈ (w.woken f (w.moved f).pool).flights, g ∈ w.flights :=
    fun g hg => List.mem_of_mem_filter hg
  refine ⟨hplaces, fun g hg => ?_, fun g hg => ?_, fun time htime => ?_, ?_⟩
  · exact (hnew g hg).elim (fun hg => hw.flights g (hold g hg)) And.left
  · rw [now_settle]
    exact (hnew g hg).elim (fun hg => hfirst g (hold g hg)) And.right
  · rw [shutdown_settle] at htime
    rw [now_settle]
    exact (hlater time htime).le
  · rw [width_settle]
    refine (length_flights_settle_le _ _ _).trans ?_
    rw [woken, hothers]
    exact hlength

/-- **A run stays in order**, whatever happens. -/
theorem Next.sound {n : Nat} {w w' : Run} (hw : w.Sound n) (h : w.Next w') : w'.Sound n := by
  cases h with
  | starts hwaiting hroom => exact hw.starts hwaiting hroom
  | signals hshutdown hearly => exact hw.interrupt hearly
  | moves hf hfirst hlater => exact hw.advance hf hfirst hlater

/-- **The clock never goes back.** -/
theorem Next.now_le {n : Nat} {w w' : Run} (hw : w.Sound n) (h : w.Next w') : w.now ≤ w'.now := by
  cases h with
  | starts => rw [now_settle]
  | signals hshutdown => exact hw.ahead _ hshutdown
  | moves hf =>
    rw [advance_eq w (hw.flights _ hf), now_settle]
    exact hw.late _ hf

/-- A run works with one layer. -/
theorem Next.layer_eq {n : Nat} {w w' : Run} (hw : w.Sound n) (h : w.Next w') :
    w'.layer = w.layer := by
  cases h with
  | starts => rw [layer_settle]
  | signals => rfl
  | moves hf =>
    rw [advance_eq w (hw.flights _ hf), layer_settle]
    rfl

/-- A shutdown that is going to be signalled is signalled at some time, and no other one is. -/
theorem Next.expects_eq {n : Nat} {w w' : Run} (hw : w.Sound n) (h : w.Next w') :
    (w'.shutdown.isSome || w'.stopped) = (w.shutdown.isSome || w.stopped) := by
  cases h with
  | starts => rw [shutdown_settle, stopped_settle]
  | signals hshutdown => simp [interrupt, hshutdown]
  | moves hf =>
    rw [advance_eq w (hw.flights _ hf), shutdown_settle, stopped_settle]
    rfl

/-! ## 5. Behind a shutdown -/

/-- A shutdown is signalled, and no fetch waits any more. -/
structure Quiet (w : Run) : Prop where
  stopped : w.stopped = true
  awake : ∀ x ∈ w.standings, x.2.interrupt = x.2

/-- **A signal ends all waits.** -/
theorem quiet_interrupt (w : Run) (time : Nat) : (w.interrupt time).Quiet where
  stopped := rfl
  awake x hx := by
    obtain ⟨y, -, rfl⟩ := List.mem_map.mp ((standings_interrupt w time).mem_iff.mp hx)
    cases y.2 <;> rfl

/-- **Behind a signal** the engine is not called again and no wait begins, as it is for a fetch by
itself. -/
theorem Next.quiet {n : Nat} {w w' : Run} (hw : w.Sound n) (hquiet : w.Quiet) (h : w.Next w') :
    w'.Quiet ∧ w'.called = w.called := by
  cases h with
  | starts hwaiting hroom =>
    refine ⟨⟨by rw [stopped_settle]; exact hquiet.stopped, fun x hx => ?_⟩, ?_⟩
    · exact hquiet.awake x ((standings_starts hwaiting).mem_iff.mp hx)
    · rw [called_settle]
      exact List.append_nil _
  | signals hshutdown hearly => exact ⟨quiet_interrupt w _, rfl⟩
  | @moves f hf hfirst hlater =>
    obtain ⟨others, hbefore, hbehind⟩ := hw.standings_advance hf
    have hawake : f.phase.interrupt = f.phase :=
      hquiet.awake _ (hbefore.mem_iff.mpr List.mem_cons_self)
    have hsignal : (w.solo f).signal = w.solo f := by
      rw [Solo.signal, solo, hawake, hquiet.stopped]
    obtain ⟨⟨outcome, hended⟩, -, -⟩ := Solo.step_signal w.layer (worldOf f) (w.solo f)
    rw [hsignal, ← moved] at hended
    refine ⟨⟨?_, fun x hx => ?_⟩, ?_⟩
    · rw [advance_eq w (hw.flights f hf), stopped_settle]
      exact hquiet.stopped
    · rcases List.mem_cons.mp (hbehind.mem_iff.mp hx) with rfl | hx
      · rw [hended]
        rfl
      · exact hquiet.awake x (hbefore.mem_iff.mpr (List.mem_cons_of_mem _ hx))
    · rw [advance_eq w (hw.flights f hf), called_settle, hended]
      exact List.append_nil _

/-- **A run calls the engine no more** behind the signal of a shutdown. -/
theorem Quiet.called_runFor {n : Nat} {w : Run} (hw : w.Sound n) (hquiet : w.Quiet) (steps : Nat) :
    (runFor steps w).called = w.called := by
  have hkept : ∀ w₁ w₂ : Run, w₁.Sound n ∧ w₁.Quiet ∧ w₁.called = w.called → w₁.Next w₂ →
      w₂.Sound n ∧ w₂.Quiet ∧ w₂.called = w.called := by
    rintro w₁ w₂ ⟨hsound, hquiet, hcalled⟩ hnext
    obtain ⟨hquiet', hsame⟩ := hnext.quiet hsound hquiet
    exact ⟨hnext.sound hsound, hquiet', hsame.trans hcalled⟩
  exact (runFor_induct hkept steps ⟨hw, hquiet, rfl⟩).2.2

/-! ## 6. The end of a run -/

end Run

/-- How many more steps there are at most for a fetch. -/
def Phase.stepsLeft (l : Layer) : Phase → Nat
  | .backingOff r _ => 4 * (l.policy.maxAttempts - r.retryCount) + 4
  | .ready r => 4 * (l.policy.maxAttempts - r.retryCount) + 3
  | .delayed r _ => 4 * (l.policy.maxAttempts - r.retryCount) + 2
  | .calling r => 4 * (l.policy.maxAttempts - r.retryCount) + 1
  | .finished _ => 0

/-- **Every step of a fetch** leaves fewer steps to do. -/
theorem Solo.stepsLeft_step_lt {l : Layer} {world : World} {s : Solo}
    (hopen : ∀ outcome, s.phase ≠ .finished outcome) :
    (step l world s).phase.stepsLeft l < s.phase.stepsLeft l := by
  cases hphase : s.phase with
  | ready r =>
    rw [step_ready hphase, phase_enter, Phase.proceed]
    split
    · simp [Phase.stepsLeft]
    · simp only
      split <;> simp [Phase.stepsLeft]
  | delayed r d =>
    rw [step_delayed hphase, phase_enter]
    simp [Phase.stepsLeft]
  | calling r =>
    rw [step_calling hphase, phase_enter]
    by_cases h : l.Settles r.retryCount (world.answer s.answered)
    · rw [Phase.receive_settles h]
      simp [Phase.stepsLeft]
    · rw [Phase.receive_retries h]
      have hleft : r.retryCount < l.policy.maxAttempts := by
        by_contra hnot
        exact h (Or.inl (by omega))
      cases s.stopped with
      | true => simp [Phase.unlessStopped, Phase.stepsLeft]
      | false =>
        simp only [Phase.unlessStopped, Phase.stepsLeft, Layer.again, Layer.dress]
        simp
        omega
  | backingOff r d =>
    rw [step_backingOff hphase, phase_enter]
    simp [Phase.stepsLeft]
  | finished outcome => exact absurd hphase (hopen outcome)

/-- A signal leaves no more to do. -/
theorem Phase.stepsLeft_interrupt_le (l : Layer) (phase : Phase) :
    phase.interrupt.stepsLeft l ≤ phase.stepsLeft l := by
  cases phase <;> simp [interrupt, stepsLeft]

namespace Run

/-- How many more steps there are at most in a run: those of its fetches, one for every fetch that has
not started, and one for the signal. -/
def stepsLeft (w : Run) : Nat :=
  (w.standings.map fun x => x.2.stepsLeft w.layer).sum + w.waiting.length + w.shutdown.toList.length

/-- **Whatever happens leaves fewer steps to do.** -/
theorem Next.stepsLeft_lt {n : Nat} {w w' : Run} (hw : w.Sound n) (h : w.Next w') :
    w'.stepsLeft < w.stepsLeft := by
  have hlayer := h.layer_eq hw
  rw [stepsLeft, stepsLeft, hlayer]
  cases h with
  | starts hwaiting hroom =>
    have hsum := ((standings_starts hwaiting).map fun x => x.2.stepsLeft w.layer).sum_nat
    rw [hsum, waiting_settle, shutdown_settle, hwaiting, List.length_cons]
    simp only
    omega
  | @signals time hshutdown hearly =>
    have hsum := ((standings_interrupt w time).map fun x => x.2.stepsLeft w.layer).sum_nat
    have hle : (w.standings.map fun x => x.2.interrupt.stepsLeft w.layer).sum ≤
        (w.standings.map fun x => x.2.stepsLeft w.layer).sum :=
      List.sum_le_sum fun x _ => Phase.stepsLeft_interrupt_le w.layer x.2
    rw [List.map_map] at hsum
    rw [hsum, hshutdown]
    simp only [interrupt, Option.toList_none, List.length_nil, Option.toList_some,
      List.length_singleton]
    exact Nat.add_lt_add_of_le_of_lt (Nat.add_le_add_right hle _) Nat.zero_lt_one
  | @moves f hf hfirst hlater =>
    obtain ⟨others, hbefore, hbehind⟩ := hw.standings_advance hf
    have hfewer := @Solo.stepsLeft_step_lt w.layer (worldOf f) (w.solo f)
      (hw.flights f hf).phase_ne_finished
    have hbefore := (hbefore.map fun x => x.2.stepsLeft w.layer).sum_nat
    have hbehind := (hbehind.map fun x => x.2.stepsLeft w.layer).sum_nat
    rw [List.map_cons, List.sum_cons] at hbefore hbehind
    rw [hbefore, hbehind, advance_eq w (hw.flights f hf), waiting_settle, shutdown_settle]
    exact Nat.add_lt_add_right (Nat.add_lt_add_right (Nat.add_lt_add_right hfewer _) _) _

/-- **A run ends** when it is given all the steps that are left. -/
theorem done_runFor {n : Nat} : ∀ {steps : Nat} {w : Run}, w.Sound n → w.stepsLeft ≤ steps →
    (runFor steps w).waiting = [] ∧ (runFor steps w).flights = []
  | 0, w, hw, hle => by
    cases hstep : w.step? with
    | none => exact done_of_step? hstep
    | some w' =>
      have := (next_of_step? hstep).stepsLeft_lt hw
      omega
  | steps + 1, w, hw, hle => by
    rw [runFor]
    cases hstep : w.step? with
    | none => exact done_of_step? hstep
    | some w' =>
      have hnext := next_of_step? hstep
      have := hnext.stepsLeft_lt hw
      exact done_runFor (hnext.sound hw) (by omega)

/-! ## 7. The crew of a run -/

end Run

/-- Where a fetch stands in a run, and where it stands in the crew: at the same place, unless the run
abandoned it at a shutdown while it was between two calls. -/
inductive Phase.Follows (stopped : Bool) : Phase → Phase → Prop where
  | same {phase : Phase} : Follows stopped phase phase
  | abandoned {phase : Phase} (hstopped : stopped = true) (hidle : ∀ sent, phase ≠ .calling sent)
    (hopen : ∀ outcome, phase ≠ .finished outcome) : Follows stopped (.finished .stopped) phase

/-- A fetch that is not finished was not abandoned. -/
theorem Phase.Follows.eq_of_open {stopped : Bool} {phase phase' : Phase}
    (h : Follows stopped phase phase') (hopen : ∀ outcome, phase ≠ .finished outcome) :
    phase = phase' := by
  cases h with
  | same => rfl
  | abandoned => exact absurd rfl (hopen .stopped)

/-- A signal abandons a fetch that waits, which is between two calls. -/
theorem Phase.Follows.interrupt {stopped : Bool} {phase phase' : Phase}
    (h : Follows stopped phase phase') : Follows true phase.interrupt phase' := by
  cases h with
  | same =>
    cases phase with
    | delayed r d => exact .abandoned rfl (by simp) (by simp)
    | backingOff r d => exact .abandoned rfl (by simp) (by simp)
    | _ => exact .same
  | abandoned hstopped hidle hopen => exact .abandoned rfl hidle hopen

/-- An answer leads to the same place in a crew, or to another attempt that the run abandons. -/
theorem Phase.follows_receive {l : Layer} {c : Chance} {stopped : Bool} {pool : Pool} {r : Request}
    {answer : Answer} :
    Follows stopped ((Phase.calling r).receive l c stopped pool answer).1
      ((Phase.calling r).receive l c false pool answer).1 := by
  by_cases h : l.Settles r.retryCount answer
  · rw [receive_settles h, receive_settles h]
    exact .same
  · rw [receive_retries h, receive_retries h]
    cases stopped with
    | false => exact .same
    | true => exact .abandoned rfl (by simp [unlessStopped]) (by simp [unlessStopped])

/-- No answer makes a fetch call the engine at once. -/
theorem Phase.calls_receive {l : Layer} {c : Chance} {stopped : Bool} {pool : Pool} {r : Request}
    {answer : Answer} : ((Phase.calling r).receive l c stopped pool answer).1.calls = [] := by
  by_cases h : l.Settles r.retryCount answer
  · rw [receive_settles h]
    rfl
  · rw [receive_retries h]
    cases stopped <;> rfl

theorem callsIn_map_prepared (rs : List Request) (draw : Nat) :
    callsIn (rs.map (.prepared · draw)) = [] := by
  induction rs with
  | nil => rfl
  | cons r rs ih => exact ih

theorem callsIn_map_called (rs : List Request) : callsIn (rs.map .called) = rs := by
  induction rs with
  | nil => rfl
  | cons r rs ih => exact congrArg (r :: ·) ih

namespace Run

/-- The crew did with the fetch at a place what a flight does when it moves on: it made the same use of
the pool and the same calls of the engine, and the fetch stands where the flight does, unless the flight
was abandoned. -/
structure Matches (w : Run) (f : Flight) (crew crew' : Crew) : Prop where
  pool : crew'.pool = (w.moved f).pool
  called : callsIn crew'.log = callsIn crew.log ++ (w.moved f).phase.calls
  member : ∃ phase, crew'.members[f.place]? = some ⟨phase, none⟩ ∧
    Phase.Follows w.stopped (w.moved f).phase phase

section Matches

variable {w : Run} {f : Flight} {crew : Crew} {r : Request}

/-- One action that comes to the same as the move of the flight. -/
theorem matches_of_act {action : Action} {happened : List Happening}
    (hm : crew.members[f.place]? = some ⟨f.phase, none⟩)
    (hact : (⟨f.phase, none⟩ : Member).act w.layer crew.pool action =
      some ⟨⟨(w.moved f).phase, none⟩, (w.moved f).pool, happened⟩)
    (hcalls : callsIn happened = (w.moved f).phase.calls) :
    w.Matches f crew (crew.after w.layer (f.place, action)) := by
  obtain ⟨hlt, -⟩ := List.getElem?_eq_some_iff.mp hm
  rw [Crew.after_of_act hm hact]
  exact ⟨rfl, by rw [callsIn_append, hcalls], _, List.getElem?_set_self hlt, .same⟩

/-- An attempt that a shutdown keeps from beginning is none in the crew. -/
theorem matches_ready_of_stopped (hphase : f.phase = .ready r) (hstopped : w.stopped = true)
    (hpool : w.pool = crew.pool) (hm : crew.members[f.place]? = some ⟨f.phase, none⟩) :
    w.Matches f crew crew := by
  have hmoved : w.moved f = (w.solo f).enter (.finished .stopped, w.pool) := by
    rw [moved, Solo.step_ready hphase]
    simp [solo, Phase.proceed, hstopped]
  rw [hphase] at hm
  refine ⟨by rw [hmoved]; exact hpool.symm, by rw [hmoved]; simp [Phase.calls], _, hm, ?_⟩
  rw [hmoved]
  exact .abandoned hstopped (by simp) (by simp)

/-- An attempt that begins. -/
theorem matches_ready (hphase : f.phase = .ready r) (hgo : w.stopped = false)
    (hpool : w.pool = crew.pool) (hm : crew.members[f.place]? = some ⟨f.phase, none⟩) :
    w.Matches f crew (crew.after w.layer (f.place, .proceed {})) := by
  have hmoved : w.moved f =
      (w.solo f).enter ((Phase.ready r).proceed w.layer {} false crew.pool) := by
    rw [moved, Solo.step_ready hphase, ← hpool]
    simp [solo, worldOf, hgo]
  have hact : (⟨f.phase, none⟩ : Member).act w.layer crew.pool (.proceed {}) =
      some ⟨⟨(w.moved f).phase, none⟩, (w.moved f).pool,
        (w.moved f).phase.prepared.map (.prepared · 0) ++ (w.moved f).phase.calls.map .called⟩ := by
    rw [hmoved, hphase]
    rfl
  refine matches_of_act hm hact ?_
  rw [callsIn_append, callsIn_map_prepared, callsIn_map_called, List.nil_append]

/-- A call whose answer is taken. -/
theorem matches_calling {a : Answer} (hphase : f.phase = .calling r) (hanswer : f.answer = some a)
    (hpool : w.pool = crew.pool) (hm : crew.members[f.place]? = some ⟨f.phase, none⟩) :
    w.Matches f crew
      ((crew.after w.layer (f.place, .answer a)).after w.layer (f.place, .take {})) := by
  obtain ⟨hlt, -⟩ := List.getElem?_eq_some_iff.mp hm
  rw [hphase] at hm
  have hmoved : w.moved f = ({ w.solo f with answered := 1 } : Solo).enter
      ((Phase.calling r).receive w.layer {} w.stopped crew.pool a) := by
    rw [moved, Solo.step_calling hphase, ← hpool]
    simp [solo, worldOf, hanswer]
  have hasked : crew.after w.layer (f.place, .answer a) =
      ⟨crew.members.set f.place ⟨.calling r, some a⟩, crew.pool, crew.log⟩ :=
    (Crew.after_of_act hm rfl).trans (by rw [List.append_nil])
  have hact : (⟨.calling r, some a⟩ : Member).act w.layer crew.pool (.take {}) =
      some ⟨⟨((Phase.calling r).receive w.layer {} false crew.pool a).1, none⟩,
        ((Phase.calling r).receive w.layer {} false crew.pool a).2, [.completed ⟨r, a⟩]⟩ := rfl
  have htaken := @Crew.after_of_act w.layer
    ⟨crew.members.set f.place ⟨.calling r, some a⟩, crew.pool, crew.log⟩ f.place _ _ _
    (List.getElem?_set_self hlt) hact
  rw [hasked, htaken, List.set_set]
  refine ⟨?_, ?_, _, List.getElem?_set_self hlt, ?_⟩
  · rw [hmoved, Solo.pool_enter, Phase.pool_receive, Phase.pool_receive]
  · rw [hmoved, Solo.phase_enter, Phase.calls_receive]
    simp
  · rw [hmoved]
    exact Phase.follows_receive

/-- **A flight moves on by actions of its fetch in the crew.** -/
theorem exists_matches (hf : f.Sound) (hpool : w.pool = crew.pool)
    (hm : crew.members[f.place]? = some ⟨f.phase, none⟩) :
    ∃ actions : List Action, w.Matches f crew (crew.afterAll w.layer (actions.map (f.place, ·))) := by
  cases hphase : f.phase with
  | ready r =>
    cases hstopped : w.stopped with
    | true => exact ⟨[], matches_ready_of_stopped hphase hstopped hpool hm⟩
    | false => exact ⟨[.proceed {}], matches_ready hphase hstopped hpool hm⟩
  | delayed r d =>
    have hmoved : w.moved f = (w.solo f).enter (.calling r, crew.pool) := by
      rw [moved, Solo.step_delayed hphase, ← hpool]
      rfl
    exact ⟨[.proceed {}], matches_of_act hm (by rw [hmoved, hphase]; rfl) (by rw [hmoved]; rfl)⟩
  | backingOff r d =>
    have hmoved : w.moved f = (w.solo f).enter (.ready r, crew.pool) := by
      rw [moved, Solo.step_backingOff hphase, ← hpool]
      rfl
    exact ⟨[.proceed {}], matches_of_act hm (by rw [hmoved, hphase]; rfl) (by rw [hmoved]; rfl)⟩
  | calling r =>
    rw [Flight.Sound, hphase] at hf
    obtain ⟨a, hanswer⟩ := Option.isSome_iff_exists.mp hf
    exact ⟨[.answer a, .take {}], matches_calling hphase hanswer hpool hm⟩
  | finished outcome => exact absurd hphase (hf.phase_ne_finished outcome)

end Matches

/-- A run and its crew: the pool is the same, the engine was called with the same requests, and each
fetch stands in the crew where it stands in the run, unless it was abandoned. -/
structure Mirrors (w : Run) (crew : Crew) : Prop where
  pool : w.pool = crew.pool
  called : w.called = callsIn crew.log
  each : ∀ x ∈ w.standings, ∃ phase, crew.members[x.1]? = some ⟨phase, none⟩ ∧
    Phase.Follows w.stopped x.2 phase

/-- The crew keeps up with a fetch that moves on. -/
theorem Mirrors.advance {n : Nat} {w : Run} {crew : Crew} (hcrew : w.Mirrors crew) (hw : w.Sound n)
    {f : Flight} (hf : f ∈ w.flights) :
    ∃ events, (w.advance f).Mirrors (crew.afterAll w.layer events) := by
  obtain ⟨others, hbefore, hbehind⟩ := hw.standings_advance hf
  have hmem : ∀ x, x ∈ (f.place, f.phase) :: others → x ∈ w.standings :=
    fun x hx => hbefore.mem_iff.mpr hx
  have hplaces : ∀ x ∈ others, f.place ≠ x.1 := by
    have hnodup := ((hbefore.map Prod.fst).symm.trans hw.places).nodup_iff.mpr List.nodup_range
    obtain ⟨hnew, -⟩ := List.nodup_cons.mp hnodup
    exact fun x hx heq => hnew (List.mem_map.mpr ⟨x, hx, heq.symm⟩)
  obtain ⟨phase, hm, hfollows⟩ := hcrew.each _ (hmem _ List.mem_cons_self)
  have hsound := hw.flights f hf
  obtain rfl : f.phase = phase := hfollows.eq_of_open hsound.phase_ne_finished
  obtain ⟨actions, hmatches⟩ := exists_matches hsound hcrew.pool hm
  refine ⟨actions.map (f.place, ·), ?_, ?_, fun x hx => ?_⟩
  · rw [advance_eq w hsound, pool_settle]
    exact hmatches.pool.symm
  · rw [advance_eq w hsound, called_settle, hmatches.called, ← hcrew.called]
    rfl
  · have hstopped : (w.advance f).stopped = w.stopped := by
      rw [advance_eq w hsound, stopped_settle]
      rfl
    rw [hstopped]
    rcases List.mem_cons.mp (hbehind.mem_iff.mp hx) with rfl | hx
    · exact hmatches.member
    · obtain ⟨phase, hm, hfollows⟩ := hcrew.each x (hmem x (List.mem_cons_of_mem _ hx))
      refine ⟨phase, ?_, hfollows⟩
      rw [Crew.getElem?_afterAll, hm]
      intro event hevent
      obtain ⟨action, -, rfl⟩ := List.mem_map.mp hevent
      exact hplaces x hx

/-- **Whatever happens in a run is something that its crew can do.** -/
theorem Next.mirrors {n : Nat} {w w' : Run} {crew : Crew} (hw : w.Sound n) (hcrew : w.Mirrors crew)
    (h : w.Next w') : ∃ events, w'.Mirrors (crew.afterAll w.layer events) := by
  cases h with
  | starts hwaiting hroom =>
    refine ⟨[], ?_, ?_, fun x hx => ?_⟩
    · rw [pool_settle]
      exact hcrew.pool
    · rw [called_settle]
      exact (List.append_nil _).trans hcrew.called
    · rw [stopped_settle]
      exact hcrew.each x ((standings_starts hwaiting).mem_iff.mp hx)
  | signals hshutdown hearly =>
    refine ⟨[], hcrew.pool, hcrew.called, fun x hx => ?_⟩
    obtain ⟨y, hy, rfl⟩ := List.mem_map.mp ((standings_interrupt _ _).mem_iff.mp hx)
    obtain ⟨phase, hm, hfollows⟩ := hcrew.each y hy
    exact ⟨phase, hm, hfollows.interrupt⟩
  | moves hf hfirst hlater => exact hcrew.advance hw hf

/-! ## 8. Whole runs -/

/-- **All outcomes are there** when nothing waits and nothing is in flight. -/
theorem Sound.exists_result {n : Nat} {w : Run} (hw : w.Sound n) (hwaiting : w.waiting = [])
    (hflights : w.flights = []) :
    w.results.length = n ∧ ∀ i < n, ∃ outcome, w.results[i]? = some (some outcome) ∧
      (i, Phase.finished outcome) ∈ w.standings := by
  have hstandings : w.standings = w.outcomes.map fun x => (x.1, .finished x.2) := by
    rw [standings, hwaiting, hflights]
    rfl
  have hplaces : (w.outcomes.map Prod.fst).Perm (List.range n) := by
    have := hw.places
    rwa [hstandings, List.map_map] at this
  have hlength : w.outcomes.length = n := by
    have := hplaces.length_eq
    rwa [List.length_map, List.length_range] at this
  refine ⟨by rw [results, List.length_map, List.length_range, hlength], fun i hi => ?_⟩
  obtain ⟨x, hx, rfl⟩ := List.mem_map.mp (hplaces.mem_iff.mpr (List.mem_range.mpr hi))
  have hfound : (w.outcomes.find? (·.1 == x.1)).isSome = true :=
    List.find?_isSome.mpr ⟨x, hx, beq_self_eq_true x.1⟩
  obtain ⟨y, hy⟩ := Option.isSome_iff_exists.mp hfound
  have hbeq := List.find?_some hy
  have hsame : y.1 = x.1 := beq_iff_eq.mp hbeq
  refine ⟨y.2, ?_, ?_⟩
  · rw [results, List.getElem?_map, List.getElem?_range (hlength ▸ hi), Option.map_some, hy,
      Option.map_some]
  · rw [hstandings, ← hsame]
    exact List.mem_map_of_mem (List.mem_of_find?_eq_some hy)

section Start

variable (l : Layer) (pool : Pool) (script : Script) (shutdown : Option Nat) (width : Nat)
  (requests : List Request)

/-- Where the fetches stand before any of them has started. -/
theorem standings_start : (start l pool script shutdown width requests).standings =
    ((List.range requests.length).zip requests).map fun x => (x.1, .ready x.2) := by
  simp [start, standings]

/-- A run is in order when it starts. -/
theorem sound_start : (start l pool script shutdown width requests).Sound requests.length where
  places := by
    have hplaces : ((List.range requests.length).zip requests).map Prod.fst =
        List.range requests.length := List.map_fst_zip (by simp)
    rw [standings_start, List.map_map]
    exact List.Perm.of_eq hplaces
  flights _ hf := absurd hf List.not_mem_nil
  late _ hf := absurd hf List.not_mem_nil
  ahead _ _ := Nat.zero_le _
  narrow := Nat.zero_le _

/-- A run starts as its crew does. -/
theorem mirrors_start :
    (start l pool script shutdown width requests).Mirrors (Crew.start pool requests) where
  pool := rfl
  called := rfl
  each x hx := by
    rw [standings_start] at hx
    obtain ⟨⟨i, r⟩, hmem, rfl⟩ := List.mem_map.mp hx
    obtain ⟨j, hj⟩ := List.mem_iff_getElem?.mp hmem
    obtain ⟨hi, hr⟩ := List.getElem?_zip_eq_some.mp hj
    obtain ⟨hlt, hplace⟩ := List.getElem?_eq_some_iff.mp hi
    obtain rfl : j = i := (List.getElem_range hlt).symm.trans hplace
    refine ⟨.ready r, ?_, .same⟩
    rw [Crew.start, List.getElem?_map, hr]
    rfl

/-- The steps that a run is given are enough. -/
theorem stepsLeft_start_le : (start l pool script shutdown width requests).stepsLeft ≤
    (start l pool script shutdown width requests).enoughSteps := by
  have hwaiting : (start l pool script shutdown width requests).waiting.length = requests.length := by
    simp [start]
  have hshutdown : shutdown.toList.length ≤ 1 := by cases shutdown <;> simp
  have hsum : (((List.range requests.length).zip requests).map fun x =>
      (Phase.ready x.2).stepsLeft l).sum ≤ requests.length * (4 * l.policy.maxAttempts + 3) := by
    have hle := List.sum_le_card_nsmul (((List.range requests.length).zip requests).map fun x =>
      (Phase.ready x.2).stepsLeft l) (4 * l.policy.maxAttempts + 3)
    simp only [List.forall_mem_map, List.length_map, List.length_zip, List.length_range, min_self,
      Nat.nsmul_eq_mul, Phase.stepsLeft] at hle
    exact hle fun _ _ => by omega
  rw [stepsLeft, standings_start, List.map_map, hwaiting, enoughSteps, hwaiting]
  calc _ ≤ requests.length * (4 * l.policy.maxAttempts + 3) + requests.length + 1 :=
        Nat.add_le_add (Nat.add_le_add_right hsum _) hshutdown
    _ = requests.length * (4 * l.policy.maxAttempts + 3 + 1) + 1 := by
        rw [Nat.mul_succ _ (4 * l.policy.maxAttempts + 3)]
    _ ≤ requests.length * (4 * (l.policy.maxAttempts + 1) + 2) + 1 :=
        Nat.add_le_add_right (Nat.mul_le_mul_left _ (by omega)) 1

/-- **A run on a clock is one of the interleavings of its crew.**  Every run ends with an outcome for each
request.  It has made the same calls in the same order as its crew in some interleaving, and the pool is
the same.  Each fetch has the outcome that it has in the crew; only if a shutdown was signalled there may
be fetches that are between two calls in the crew, and these were abandoned. -/
theorem finish_of_crew :
    let w := (start l pool script shutdown width requests).finish
    (w.stopped = true → shutdown.isSome = true) ∧ w.results.length = requests.length ∧
    ∃ events, let crew := (Crew.start pool requests).afterAll l events
      w.pool = crew.pool ∧ w.called = callsIn crew.log ∧
      ∀ i < requests.length, ∃ outcome phase, w.results[i]? = some (some outcome) ∧
        crew.members[i]? = some ⟨phase, none⟩ ∧
        Phase.Follows w.stopped (.finished outcome) phase := by
  have hkept : ∀ w w' : Run,
      w.layer = l ∧ w.Sound requests.length ∧
        (w.shutdown.isSome || w.stopped) = shutdown.isSome ∧
        (∃ events, w.Mirrors ((Crew.start pool requests).afterAll l events)) →
      w.Next w' →
      w'.layer = l ∧ w'.Sound requests.length ∧
        (w'.shutdown.isSome || w'.stopped) = shutdown.isSome ∧
        ∃ events, w'.Mirrors ((Crew.start pool requests).afterAll l events) := by
    rintro w w' ⟨rfl, hw, hexpects, events, hcrew⟩ hnext
    obtain ⟨more, hmore⟩ := hnext.mirrors hw hcrew
    refine ⟨hnext.layer_eq hw, hnext.sound hw, (hnext.expects_eq hw).trans hexpects,
      events ++ more, ?_⟩
    rw [Crew.afterAll, List.foldl_append]
    exact hmore
  intro w
  have hstart := sound_start l pool script shutdown width requests
  obtain ⟨-, hw, hexpects, events, hcrew⟩ := runFor_induct hkept
    (start l pool script shutdown width requests).enoughSteps
    (w := start l pool script shutdown width requests)
    ⟨rfl, hstart, by simp [start], [], mirrors_start l pool script shutdown width requests⟩
  obtain ⟨hwaiting, hflights⟩ := done_runFor hstart
    (stepsLeft_start_le l pool script shutdown width requests)
  obtain ⟨hlength, hresults⟩ := hw.exists_result hwaiting hflights
  refine ⟨fun hstopped => ?_, hlength, events, hcrew.pool, hcrew.called, fun i hi => ?_⟩
  · rw [← hexpects]
    exact Bool.or_eq_true_iff.mpr (Or.inr hstopped)
  · obtain ⟨outcome, hresult, hmem⟩ := hresults i hi
    obtain ⟨phase, hm, hfollows⟩ := hcrew.each _ hmem
    exact ⟨outcome, phase, hresult, hm, hfollows⟩

end Start

end Run

end Shortlist.Fetch
