import Mathlib.Data.Finset.Card
import Mathlib.Data.List.Perm.Basic
import Shortlist.Proofs.Pipeline.Links

/-!
# Several clients of one dedup stage

A dedup stage that is shared answers its callers one at a time: looking a link up and taking it down
is a single step, and so is forgetting all links.  A schedule is any list of such steps, each a call of
some client or a reset, so every interleaving is one; a call of a client that has nothing left does
nothing.

What a schedule cannot change is read off `Faithful`, which ties the stage to the log of what arrived:
the links that the stage holds are the nonempty ones on the log, each once, and the links that passed
are these and the empty ones.  Both are determined by the log as a multiset.  Only the choice among
records with the same link is left to the schedule, and it falls on the first of them.
-/

namespace Shortlist

/-! ## 1. One record -/

namespace SeenLinks

variable (seen : SeenLinks) (r : Record)

/-- **What an offer can do.** -/
theorem offer_cases :
    (r.link = "" ∧ seen.offer r = (true, seen)) ∨
    (r.link ≠ "" ∧ r.link ∈ seen.links ∧ seen.offer r = (false, seen)) ∨
    (r.link ≠ "" ∧ r.link ∉ seen.links ∧ seen.offer r = (true, ⟨r.link :: seen.links⟩)) := by
  unfold offer
  by_cases hempty : r.link = ""
  · simp [hempty]
  · by_cases hseen : r.link ∈ seen.links <;> simp [hempty, hseen]

/-- No link is taken down twice. -/
theorem nodup_offer (h : seen.links.Nodup) : (seen.offer r).2.links.Nodup := by
  rcases seen.offer_cases r with ⟨-, heq⟩ | ⟨-, -, heq⟩ | ⟨-, hnew, heq⟩
  · rwa [heq]
  · rwa [heq]
  · rw [heq]
    exact List.nodup_cons.mpr ⟨hnew, h⟩

end SeenLinks

/-! ## 2. Calls and resets -/

/-- A stage that several clients share. -/
structure SharedStage where
  stage : Stage
  /-- What each of the clients still has to offer. -/
  waiting : List (List Record)
  /-- The records that arrived since the stage began or was last reset, in their order, each with what
  became of it. -/
  arrived : List (Record × Outcome)
deriving Repr, DecidableEq

namespace SharedStage

/-- A step of a schedule. -/
inductive Event where
  /-- A client offers the next of its records. -/
  | call (client : Nat)
  /-- The stage forgets what it remembers. -/
  | reset
deriving Repr, DecidableEq

/-- A dedup stage that begins, and its clients. -/
def start (clients : List (List Record)) : SharedStage := ⟨.dedup SeenLinks.empty, clients, []⟩

/-- A record arrives; `waiting` is what the clients have left. -/
def arrive (s : SharedStage) (r : Record) (waiting : List (List Record)) : SharedStage :=
  let (outcome, stage) := s.stage.process r
  ⟨stage, waiting, s.arrived ++ [(r, outcome)]⟩

/-- One step. -/
def step (s : SharedStage) : Event → SharedStage
  | .call client =>
    match s.waiting[client]? with
    | some (r :: rest) => s.arrive r (s.waiting.set client rest)
    | _ => s
  | .reset => ⟨s.stage.fresh, s.waiting, []⟩

/-- A schedule. -/
def run (s : SharedStage) (events : List Event) : SharedStage := events.foldl step s

/-- The records that arrived. -/
def offered (s : SharedStage) : List Record := s.arrived.map Prod.fst

/-- The records that passed. -/
def kept (s : SharedStage) : List Record := s.arrived.flatMap fun a => a.2.kept

/-- How many links the stage holds. -/
def seenCount (s : SharedStage) : Nat :=
  match s.stage with
  | .dedup seen => seen.count
  | _ => 0

/-- What becomes of a record with these in front of it. -/
def Verdict (earlier : List (Record × Outcome)) (r : Record) (outcome : Outcome) : Prop :=
  outcome = if r.link = "" ∨ ∀ a ∈ earlier, a.1.link ≠ r.link then .keep r else .drop .duplicate

/-- Two stages came to the same, whichever of the records that share a link passed. -/
structure Agree (s t : SharedStage) : Prop where
  length_kept : s.kept.length = t.kept.length
  links_kept : (s.kept.map Record.link).Perm (t.kept.map Record.link)
  seenCount : s.seenCount = t.seenCount

variable {s t : SharedStage} {seen : SeenLinks} {r : Record}

/-- **What a step can do.** -/
theorem step_cases (s : SharedStage) (e : Event) :
    s.step e = s ∨
    (∃ client r rest, s.waiting[client]? = some (r :: rest) ∧ e = .call client ∧
      s.step e = s.arrive r (s.waiting.set client rest)) ∨
    (e = .reset ∧ s.step e = ⟨s.stage.fresh, s.waiting, []⟩) := by
  cases e with
  | reset => exact Or.inr (Or.inr ⟨rfl, rfl⟩)
  | call client =>
    rw [step]
    split
    · rename_i r rest hnext
      exact Or.inr (Or.inl ⟨client, r, rest, hnext, rfl, rfl⟩)
    · exact Or.inl rfl

/-! ## 3. The stage and the log -/

/-- **The stage is faithful to the log**: it holds the nonempty links that arrived, each once, the first
record with a link passed and no other with it, and what passed has the links that are held and the
empty ones. -/
structure Faithful (s : SharedStage) (seen : SeenLinks) : Prop where
  stage : s.stage = .dedup seen
  nodup : seen.links.Nodup
  mem : ∀ link, link ∈ seen.links ↔ link ∈ linksOf s.offered
  verdict : ∀ front r outcome behind,
    s.arrived = front ++ (r, outcome) :: behind → Verdict front r outcome
  kept : (s.kept.map Record.link).Perm
    (seen.links ++ (s.offered.map Record.link).filter (· = ""))


theorem faithful_start (clients : List (List Record)) : Faithful (start clients) SeenLinks.empty where
  stage := rfl
  nodup := List.nodup_nil
  mem := fun _ => Iff.rfl
  verdict := fun front _ _ _ h => absurd h (by simp [start])
  kept := List.Perm.refl _

theorem offered_arrive (waiting : List (List Record)) :
    (s.arrive r waiting).offered = s.offered ++ [r] := by
  simp [offered, arrive]

/-- What a dedup stage answers, and what it holds afterwards. -/
theorem arrive_eq (h : s.stage = .dedup seen) (waiting : List (List Record)) :
    s.arrive r waiting = ⟨.dedup (seen.offer r).2, waiting,
      s.arrived ++ [(r, if (seen.offer r).1 then .keep r else .drop .duplicate)]⟩ := by
  simp only [arrive, h, Stage.process]

theorem kept_arrive (h : s.stage = .dedup seen) (waiting : List (List Record)) :
    (s.arrive r waiting).kept =
      s.kept ++ (if (seen.offer r).1 then Outcome.keep r else .drop .duplicate).kept := by
  simp [kept, arrive_eq h]

/-- A nonempty link was offered exactly if some record on the log has it. -/
theorem mem_linksOf_offered {link : String} (hne : link ≠ "") :
    link ∈ linksOf s.offered ↔ ∃ a ∈ s.arrived, a.1.link = link := by
  simp [linksOf, offered, hne]

/-- A faithful stage lets a record pass if its link is empty or nothing on the log has it. -/
theorem Faithful.passes_iff (h : s.Faithful seen) (r : Record) :
    (seen.offer r).1 = true ↔ r.link = "" ∨ ∀ a ∈ s.arrived, a.1.link ≠ r.link := by
  rw [seen.offer_fst_eq_true_iff, h.mem]
  refine or_congr_right' fun hne => ?_
  rw [mem_linksOf_offered hne]
  simp

/-- **A record arrives**, and the stage stays faithful. -/
theorem Faithful.arrive (h : s.Faithful seen) (r : Record) (waiting : List (List Record)) :
    (s.arrive r waiting).Faithful (seen.offer r).2 where
  stage := by rw [arrive_eq h.stage]
  nodup := seen.nodup_offer r h.nodup
  mem := fun link => by
    rw [offered_arrive, linksOf_append, List.mem_append, seen.mem_links_offer, h.mem]
    simp [linksOf]
  verdict := fun front r' outcome behind harrived => by
    rw [arrive_eq h.stage] at harrived
    rcases List.eq_nil_or_concat behind with rfl | ⟨behind, last, rfl⟩
    · -- the record that has just arrived
      obtain ⟨rfl, hlast⟩ := List.append_inj' harrived rfl
      obtain ⟨rfl, rfl⟩ := Prod.mk.inj (List.cons.inj hlast).1
      rw [Verdict]
      simp only [h.passes_iff]
    · -- one that was there before
      rw [List.concat_eq_append, ← List.cons_append, ← List.append_assoc] at harrived
      exact h.verdict front r' outcome behind (List.append_inj' harrived rfl).1
  kept := by
    rw [offered_arrive, kept_arrive h.stage, List.map_append, List.map_append, List.filter_append]
    have hkept := h.kept
    rcases seen.offer_cases r with ⟨hempty, heq⟩ | ⟨hne, -, heq⟩ | ⟨hne, -, heq⟩
    · rw [heq, ← List.append_assoc]
      simpa [Outcome.kept, hempty] using hkept.append_right [""]
    · rw [heq]
      simpa [Outcome.kept, hne] using hkept
    · rw [heq]
      have hbehind := (hkept.append_right [r.link]).trans (List.perm_append_singleton _ _)
      simpa [Outcome.kept, hne] using hbehind

/-- **A step** keeps the stage faithful; a reset begins a new log. -/
theorem Faithful.step (h : s.Faithful seen) (e : Event) :
    ∃ seen', (s.step e).Faithful seen' := by
  rcases step_cases s e with heq | ⟨_, r, rest, -, -, heq⟩ | ⟨-, heq⟩
  · exact ⟨seen, by rwa [heq]⟩
  · rw [heq]
    exact ⟨_, h.arrive r _⟩
  · refine ⟨SeenLinks.empty, ?_⟩
    rw [heq, h.stage]
    exact faithful_start s.waiting

/-- **Every schedule** keeps the stage faithful. -/
theorem Faithful.run (h : s.Faithful seen) (events : List Event) :
    ∃ seen', (s.run events).Faithful seen' := by
  induction events generalizing s seen with
  | nil => exact ⟨seen, h⟩
  | cons e events ih =>
    obtain ⟨_, hstep⟩ := h.step e
    exact ih hstep

/-- How many links a faithful stage holds. -/
theorem Faithful.count (h : s.Faithful seen) : seen.count = (linksOf s.offered).toFinset.card := by
  rw [SeenLinks.count, ← List.toFinset_card_of_nodup h.nodup]
  congr 1
  ext link
  rw [List.mem_toFinset, List.mem_toFinset, h.mem]

/-- **The order of arrival makes no difference** to how many records pass, which links they have, and
how many links are held. -/
theorem Faithful.agree {seen' : SeenLinks} (hs : s.Faithful seen) (ht : t.Faithful seen')
    (hperm : s.offered.Perm t.offered) : s.Agree t := by
  have hlinks : (linksOf s.offered).Perm (linksOf t.offered) := (hperm.map _).filter _
  have hheld : seen.links.Perm seen'.links := by
    rw [List.perm_ext_iff_of_nodup hs.nodup ht.nodup]
    intro link
    rw [hs.mem, ht.mem, hlinks.mem_iff]
  have hkept : (s.kept.map Record.link).Perm (t.kept.map Record.link) :=
    hs.kept.trans ((hheld.append ((hperm.map _).filter _)).trans ht.kept.symm)
  have hlength := hkept.length_eq
  rw [List.length_map, List.length_map] at hlength
  refine ⟨hlength, hkept, ?_⟩
  simp only [seenCount, hs.stage, ht.stage]
  exact hheld.length_eq

/-! ## 4. Schedules -/

/-- A record that a client offers is no longer waiting. -/
theorem perm_flatten_set {waiting : List (List Record)} {client : Nat} {rest : List Record}
    (h : waiting[client]? = some (r :: rest)) :
    (r :: (waiting.set client rest).flatten).Perm waiting.flatten := by
  induction waiting generalizing client with
  | nil => cases h
  | cons own others ih =>
    cases client with
    | zero =>
      cases h
      exact List.Perm.refl _
    | succ client =>
      rw [List.set_cons_succ, List.flatten_cons, List.flatten_cons]
      exact List.perm_middle.symm.trans ((ih h).append_left own)

/-- Without a reset, every record of the clients has arrived or is still waiting. -/
theorem offered_append_waiting (s : SharedStage) {events : List Event}
    (h : .reset ∉ events) :
    ((s.run events).offered ++ (s.run events).waiting.flatten).Perm
      (s.offered ++ s.waiting.flatten) := by
  induction events generalizing s with
  | nil => exact List.Perm.refl _
  | cons e events ih =>
    have hne : .reset ≠ e := fun heq => h (List.mem_cons.mpr (Or.inl heq))
    have hrest : .reset ∉ events := fun hmem => h (List.mem_cons_of_mem e hmem)
    refine (ih (s.step e) hrest).trans ?_
    rcases step_cases s e with heq | ⟨client, r, rest, hnext, -, heq⟩ | ⟨hreset, -⟩
    · rw [heq]
    · rw [heq, offered_arrive, List.append_assoc]
      exact (perm_flatten_set hnext).append_left s.offered
    · exact absurd hreset.symm hne

/-- **Clients that are served to the end.**  However the same records are distributed among clients, and
whichever schedule serves all of them, the stage comes to the same. -/
theorem agree_of_served {clients clients' : List (List Record)} {events events' : List Event}
    (hclients : clients.flatten.Perm clients'.flatten)
    (hevents : .reset ∉ events) (hevents' : .reset ∉ events')
    (hserved : ((start clients).run events).waiting.flatten = [])
    (hserved' : ((start clients').run events').waiting.flatten = []) :
    ((start clients).run events).Agree ((start clients').run events') := by
  obtain ⟨_, hfaithful⟩ := (faithful_start clients).run events
  obtain ⟨_, hfaithful'⟩ := (faithful_start clients').run events'
  refine hfaithful.agree hfaithful' ?_
  have hall := offered_append_waiting (start clients) hevents
  have hall' := offered_append_waiting (start clients') hevents'
  rw [hserved, List.append_nil] at hall
  rw [hserved', List.append_nil] at hall'
  exact hall.trans (hclients.trans hall'.symm)

/-- **The schedule of a dedup stage does not matter.**  Whatever clients there are and in whatever order
their calls and resets come: of the records that arrived since the last reset, those with an empty link
passed, of those with the same nonempty link the first passed, unchanged, and no other; the stage holds
as many links as there are different nonempty ones among them; any other run in which the same records
arrived, in whatever order and from whichever clients, came to the same; and a reset of a stage that
remembers anything at all is a new beginning. -/
theorem dedup_of_any_schedule (clients : List (List Record)) (events : List Event) :
    (∀ front r outcome behind,
      ((start clients).run events).arrived = front ++ (r, outcome) :: behind →
        Verdict front r outcome) ∧
    (∃ seen, ((start clients).run events).stage = .dedup seen ∧
      seen.count = (linksOf ((start clients).run events).offered).toFinset.card) ∧
    (∀ clients' events',
      ((start clients).run events).offered.Perm ((start clients').run events').offered →
        ((start clients).run events).Agree ((start clients').run events')) ∧
    ∀ seen log, run ⟨.dedup seen, clients, log⟩ (.reset :: events) = (start clients).run events := by
  obtain ⟨seen, hfaithful⟩ := (faithful_start clients).run events
  refine ⟨hfaithful.verdict, ⟨seen, hfaithful.stage, hfaithful.count⟩, ?_, fun _ _ => rfl⟩
  intro clients' events' hperm
  obtain ⟨_, hfaithful'⟩ := (faithful_start clients').run events'
  exact hfaithful.agree hfaithful' hperm

/-- Two records with the link `"a"`, one without a link and one with the link `"b"`, from two clients
that are served in one order, and from three in another, behind an earlier run: another record passes
for `"a"`, and the numbers are the same. -/
theorem dedup_of_two_schedules :
    let s := (start [[{ title := "Artist", link := "a" }, { title := "Post" }],
      [{ title := "Painter", link := "a" }, { title := "Cook", link := "b" }]]).run
        [.call 1, .call 0, .call 0, .call 0, .call 1]
    let t := (start [[{ title := "Guide", link := "b" }, { title := "Cook", link := "b" }],
      [{ title := "Post" }],
      [{ title := "Artist", link := "a" }, { title := "Painter", link := "a" }]]).run
        [.call 0, .reset, .call 2, .call 1, .call 2, .call 0]
    s.arrived = s.arrived.take 1 ++
        ({ title := "Artist", link := "a" }, .drop .duplicate) :: s.arrived.drop 2 ∧
      Verdict (s.arrived.take 1) { title := "Artist", link := "a" } (.drop .duplicate) ∧
      s.offered.Perm t.offered ∧ s.Agree t ∧
      s.kept.map Record.title = ["Painter", "Post", "Cook"] ∧
      t.kept.map Record.title = ["Artist", "Post", "Cook"] ∧
      ∃ seen, s.stage = .dedup seen ∧ seen.count = 2 := by
  intro s t
  have hsplit : s.arrived = s.arrived.take 1 ++
      ({ title := "Artist", link := "a" }, .drop .duplicate) :: s.arrived.drop 2 := by decide +kernel
  have hperm : s.offered.Perm t.offered := by decide +kernel
  obtain ⟨hverdict, -, hagree, -⟩ := dedup_of_any_schedule _ _
  exact ⟨hsplit, hverdict _ _ _ _ hsplit, hperm, hagree _ _ hperm, by decide +kernel, by decide +kernel, ⟨["b", "a"]⟩,
    by decide +kernel, rfl⟩

end SharedStage

end Shortlist
