import Mathlib.Data.List.Nodup
import Mathlib.Data.List.Perm.Subperm
import Mathlib.Data.List.Range
import Mathlib.Data.Nat.ModEq
import Shortlist.Proofs.Proxy.Reports

/-!
# Taking turns

A pool that takes turns has one counter for all countries, which goes up with every lease it hands out
and stays where it is when no endpoint matches.  A selection looks at the counter modulo the number of endpoints that match its country, so what it gets
depends on all selections before it, also on those for other countries.

So it is not true that the endpoints of a country come up one after another: with two countries in turn
the same endpoint can be chosen every time.  What is true is that `k` selections for a country of `k`
endpoints choose each of them once exactly when the counter was at `k` different places modulo `k`; and
that is so when no other selection comes in between.
-/

namespace Shortlist.Proxy.Pool

/-! ## 1. One selection -/

variable {p : Pool} {country : Option String}

/-- A selection changes the counter and nothing else. -/
theorem select_snd (p : Pool) (country : Option String) (draw : Nat) :
    (p.select country draw).2 = { p with cursor := (p.select country draw).2.cursor } := by
  unfold select
  simp only
  split <;> rfl

@[simp] theorem strategy_select (wanted : Option String) (draw : Nat) :
    (p.select wanted draw).2.strategy = p.strategy := by
  rw [select_snd]

@[simp] theorem candidates_select (wanted : Option String) (draw : Nat) :
    (p.select wanted draw).2.candidates country = p.candidates country := by
  rw [select_snd, candidates, candidates]

/-- The endpoint whose turn it is when the counter is at a number. -/
def onTurn (p : Pool) (country : Option String) (turn : Nat) : Option Lease :=
  (p.candidates country)[turn % (p.candidates country).length]?.map leaseOn

/-- **Whose turn it is** is decided by the counter. -/
theorem select_fst (hturns : p.strategy = .roundRobin) (draw : Nat) :
    (p.select country draw).1 = p.onTurn country p.cursor.toNat := by
  unfold select onTurn
  simp only [hturns]
  split
  · rename_i hnone
    rw [hnone]
    rfl
  · rename_i entry hentry
    rw [hentry]
    rfl

/-- A selection that finds an endpoint moves the counter on. -/
theorem cursor_select (hturns : p.strategy = .roundRobin) (hsome : p.candidates country ≠ [])
    (draw : Nat) : (p.select country draw).2.cursor = p.cursor + 1 := by
  have hlt := Nat.mod_lt p.cursor.toNat (List.length_pos_iff.mpr hsome)
  unfold select
  simp only [hturns, List.getElem?_eq_getElem hlt]

/-- A selection that finds no endpoint leaves the counter where it is. -/
theorem cursor_select_of_none (hnone : p.candidates country = []) (draw : Nat) :
    (p.select country draw).2.cursor = p.cursor := by
  unfold select
  simp only [hnone, List.getElem?_nil]

/-! ## 2. Several selections -/

/-- The pool behind some selections. -/
def afterSelections (p : Pool) (calls : List (Option String × Nat)) : Pool :=
  calls.foldl (fun p call => (p.select call.1 call.2).2) p

@[simp] theorem strategy_afterSelections (p : Pool) (calls : List (Option String × Nat)) :
    (p.afterSelections calls).strategy = p.strategy := by
  induction calls generalizing p with
  | nil => rfl
  | cons call calls ih => exact (ih _).trans (strategy_select call.1 call.2)

@[simp] theorem candidates_afterSelections (p : Pool) (calls : List (Option String × Nat)) :
    (p.afterSelections calls).candidates country = p.candidates country := by
  induction calls generalizing p with
  | nil => rfl
  | cons call calls ih => exact (ih _).trans (candidates_select call.1 call.2)

/-- How many of some selections find an endpoint, whatever country each of them is for. -/
def served (p : Pool) (calls : List (Option String × Nat)) : Nat :=
  calls.countP fun call => !(p.candidates call.1).isEmpty

/-- What a selection leaves as it is decides how many others find an endpoint. -/
@[simp] theorem served_select (p : Pool) (wanted : Option String) (draw : Nat)
    (calls : List (Option String × Nat)) : (p.select wanted draw).2.served calls = p.served calls := by
  simp only [served, candidates_select]

/-- **What the counter counts**: the selections that found an endpoint, for whatever country. -/
theorem cursor_afterSelections {calls : List (Option String × Nat)} {p : Pool}
    (hturns : p.strategy = .roundRobin) :
    (p.afterSelections calls).cursor.toNat = (p.cursor.toNat + p.served calls) % 2 ^ 64 := by
  induction calls generalizing p with
  | nil => exact (Nat.mod_eq_of_lt p.cursor.toNat_lt).symm
  | cons call calls ih =>
    have hrest := ih ((strategy_select call.1 call.2).trans hturns)
    rw [served_select] at hrest
    rw [afterSelections, List.foldl_cons, ← afterSelections, hrest, served, served, List.countP_cons]
    by_cases hnone : p.candidates call.1 = []
    · rw [cursor_select_of_none hnone, hnone]
      rfl
    · rw [cursor_select hturns hnone, UInt64.toNat_add, Nat.mod_add_mod]
      simp only [List.isEmpty_eq_false_iff.mpr hnone, Bool.not_false, if_true]
      congr 1
      have hone : (1 : UInt64).toNat = 1 := rfl
      omega

/-- The selections for one country among several ones for any countries: where the counter was, and the
answer. -/
def selectionsFor (p : Pool) (country : Option String) :
    List (Option String × Nat) → List (Nat × Option Lease)
  | [] => []
  | (wanted, draw) :: calls =>
    let behind := selectionsFor (p.select wanted draw).2 country calls
    if wanted = country then (p.cursor.toNat, (p.select wanted draw).1) :: behind else behind

/-- Each endpoint that matches the country is chosen once in these selections. -/
def ServedOnce (p : Pool) (country : Option String) (window : List (Nat × Option Lease)) : Prop :=
  (window.map Prod.snd).Perm ((p.candidates country).map fun entry => some (leaseOn entry))

instance (p : Pool) (country : Option String) (window : List (Nat × Option Lease)) :
    Decidable (p.ServedOnce country window) :=
  inferInstanceAs (Decidable (List.Perm _ _))

/-- Each answer is the endpoint whose turn it was. -/
theorem answer_of_mem_selectionsFor :
    ∀ {calls : List (Option String × Nat)} {p : Pool}, p.strategy = .roundRobin →
      ∀ x ∈ p.selectionsFor country calls, x.2 = p.onTurn country x.1
  | [], _, _, _, hx => absurd hx List.not_mem_nil
  | (wanted, draw) :: calls, p, hturns, x, hx => by
    have hbehind : x ∈ (p.select wanted draw).2.selectionsFor country calls →
        x.2 = p.onTurn country x.1 := fun hx => by
      have h := answer_of_mem_selectionsFor ((strategy_select wanted draw).trans hturns) x hx
      rwa [onTurn, candidates_select, ← onTurn] at h
    rw [selectionsFor] at hx
    split at hx
    · rename_i heq
      subst heq
      rcases List.mem_cons.mp hx with rfl | hx
      · exact select_fst hturns draw
      · exact hbehind hx
    · exact hbehind hx

/-- The selections for a country in front of some calls, and those behind them. -/
theorem selectionsFor_append (p : Pool) (country : Option String)
    (front behind : List (Option String × Nat)) :
    p.selectionsFor country (front ++ behind) =
      p.selectionsFor country front ++ (p.afterSelections front).selectionsFor country behind := by
  induction front generalizing p with
  | nil => rfl
  | cons call front ih =>
    simp only [List.cons_append, selectionsFor, ih, afterSelections, List.foldl_cons]
    split <;> rfl

/-- **A selection for a country behind some calls**: the counter is where these left it, and the answer is
the endpoint whose turn it is then. -/
theorem selectionsFor_at (hturns : p.strategy = .roundRobin) (front behind : List (Option String × Nat))
    (draw : Nat) :
    p.selectionsFor country (front ++ (country, draw) :: behind) =
      p.selectionsFor country front ++
        ((p.cursor.toNat + p.served front) % 2 ^ 64,
          p.onTurn country ((p.cursor.toNat + p.served front) % 2 ^ 64)) ::
        ((p.afterSelections front).select country draw).2.selectionsFor country behind := by
  have hturns' : (p.afterSelections front).strategy = .roundRobin :=
    (strategy_afterSelections p front).trans hturns
  rw [selectionsFor_append, selectionsFor, if_pos rfl, select_fst hturns', onTurn,
    candidates_afterSelections, ← onTurn, cursor_afterSelections hturns]

/-- Numbers below `k`, `k` of them and no two the same, are all numbers below `k`. -/
theorem perm_range_of_nodup {ns : List Nat} (hnodup : ns.Nodup) (hlt : ∀ n ∈ ns, n < ns.length) :
    ns.Perm (List.range ns.length) := by
  have hsub : ns.Subperm (List.range ns.length) :=
    List.subperm_of_subset hnodup fun n hn => List.mem_range.mpr (hlt n hn)
  exact hsub.perm_of_length_le (by rw [List.length_range])

/-- The endpoints of a country come up one after another when the counter goes through all places. -/
theorem map_onTurn_range (p : Pool) (country : Option String) :
    ((List.range (p.candidates country).length).map fun turn =>
        (p.candidates country)[turn]?.map leaseOn) =
      (p.candidates country).map fun entry => some (leaseOn entry) := by
  refine List.ext_getElem (by simp) fun i _ hi => ?_
  rw [List.length_map] at hi
  simp [hi]

/-- **Each endpoint is chosen once** in as many selections as there are endpoints, exactly when the
counter never was at the same place modulo their number. -/
theorem servedOnce_iff {window : List (Nat × Option Lease)} (hdistinct : p.Distinct)
    (hanswers : ∀ x ∈ window, x.2 = p.onTurn country x.1)
    (hlength : window.length = (p.candidates country).length) (hsome : p.candidates country ≠ []) :
    p.ServedOnce country window ↔
      (window.map fun x => x.1 % (p.candidates country).length).Nodup := by
  have hpos : 0 < (p.candidates country).length := List.length_pos_iff.mpr hsome
  have hchosen : window.map Prod.snd =
      (window.map fun x => x.1 % (p.candidates country).length).map fun turn =>
        (p.candidates country)[turn]?.map leaseOn := by
    rw [List.map_map]
    exact List.map_congr_left hanswers
  rw [ServedOnce, hchosen]
  constructor
  · intro hperm
    -- no two endpoints have the same lease, so no two places are the same
    have hnodup : ((p.candidates country).map fun entry => some (leaseOn entry)).Nodup := by
      have hids : ((p.candidates country).map Entry.id).Nodup :=
        hdistinct.sublist (List.filter_sublist.map _)
      refine List.Nodup.of_map (fun lease => lease.map Lease.id) ?_
      have hsame : ((p.candidates country).map fun entry => some (leaseOn entry)).map
          (fun lease => lease.map Lease.id) = ((p.candidates country).map Entry.id).map some := by
        rw [List.map_map, List.map_map]
        rfl
      rw [hsame]
      exact hids.map (Option.some_injective _)
    exact List.Nodup.of_map _ (hperm.nodup_iff.mpr hnodup)
  · intro hnodup
    have hlt : ∀ n ∈ window.map (fun x => x.1 % (p.candidates country).length),
        n < (window.map fun x => x.1 % (p.candidates country).length).length := by
      intro n hn
      obtain ⟨x, -, rfl⟩ := List.mem_map.mp hn
      rw [List.length_map, hlength]
      exact Nat.mod_lt _ hpos
    have hperm := perm_range_of_nodup hnodup hlt
    rw [List.length_map, hlength] at hperm
    rw [← map_onTurn_range]
    exact hperm.map _

/-! ## 3. Selections without interruption -/

/-- Where the counter is in selections for one country only, as long as it does not wrap around. -/
theorem map_fst_selectionsFor :
    ∀ {calls : List (Option String × Nat)} {p : Pool}, p.strategy = .roundRobin →
      p.candidates country ≠ [] → (∀ call ∈ calls, call.1 = country) →
      p.cursor.toNat + calls.length ≤ 2 ^ 64 →
      (p.selectionsFor country calls).map Prod.fst = List.range' p.cursor.toNat calls.length
  | [], _, _, _, _, _ => rfl
  | (wanted, draw) :: calls, p, hturns, hsome, hcalls, hwrap => by
    obtain ⟨hwanted, hbehind⟩ := List.forall_mem_cons.mp hcalls
    obtain rfl : country = wanted := hwanted.symm
    rw [List.length_cons] at hwrap
    have hplaces : ((p.select country draw).2.selectionsFor country calls).map Prod.fst =
        List.range' (p.cursor.toNat + 1) calls.length := by
      cases calls with
      | nil => rfl
      | cons call calls =>
        have hcursor : (p.select country draw).2.cursor.toNat = p.cursor.toNat + 1 := by
          rw [cursor_select hturns hsome, UInt64.toNat_add]
          exact Nat.mod_eq_of_lt (by rw [List.length_cons] at hwrap; simp; omega)
        have h := @map_fst_selectionsFor (call :: calls) _
          ((strategy_select country draw).trans hturns) (by rwa [candidates_select]) hbehind
          (by rw [hcursor]; omega)
        rwa [hcursor] at h
    rw [selectionsFor, if_pos rfl, List.map_cons, hplaces, List.length_cons, List.range'_succ]

/-- Consecutive numbers, as many as `k`, are different modulo `k`. -/
theorem nodup_map_mod_range' (start k : Nat) : ((List.range' start k).map (· % k)).Nodup := by
  refine List.Nodup.map_on (fun m hm n hn heq => ?_) List.nodup_range'
  rw [List.mem_range'_1] at hm hn
  have hsame : ∀ a b, start ≤ a → a ≤ b → b < start + k → a % k = b % k → a = b := by
    intro a b ha hab hb hmod
    have hdvd : k ∣ b - a := (Nat.modEq_iff_dvd' hab).mp hmod
    have hzero : b - a = 0 := Nat.eq_zero_of_dvd_of_lt hdvd (by omega)
    omega
  rcases Nat.le_total m n with hle | hle
  · exact hsame m n hm.1 hle hn.2 heq
  · exact (hsame n m hn.1 hle hm.2 heq.symm).symm

/-! ## 4. Whose turn it is -/

/-- The endpoints of a country take turns: any as many selections for it as there are endpoints, one
after another but for those for other countries, choose each of them once. -/
def TakesTurns (p : Pool) (country : Option String) (calls : List (Option String × Nat)) : Prop :=
  ∀ window, window <:+: p.selectionsFor country calls →
    window.length = (p.candidates country).length → p.ServedOnce country window

/-- **Each endpoint is chosen once exactly when the counter was at different places.**  The counter goes
up by one with each selection that finds an endpoint, for whatever country, and with no other one.  Any
selection gets the endpoint whose turn it is by the counter; so as many selections for a country as it has
endpoints choose each of them once if and only if the counter was at different places modulo their
number.  That is so if no selection for another country comes in between and the counter does not wrap
around. -/
theorem served_once_iff_turns_differ {p : Pool} {country : Option String}
    (hturns : p.strategy = .roundRobin) (hdistinct : p.Distinct)
    (hsome : p.candidates country ≠ []) (calls : List (Option String × Nat)) :
    (p.afterSelections calls).cursor.toNat = (p.cursor.toNat + p.served calls) % 2 ^ 64 ∧
      (∀ front draw behind, calls = front ++ (country, draw) :: behind →
        let turn := (p.cursor.toNat + p.served front) % 2 ^ 64
        ∃ later, p.selectionsFor country calls =
          p.selectionsFor country front ++ (turn, p.onTurn country turn) :: later) ∧
      (∀ x ∈ p.selectionsFor country calls, x.2 = p.onTurn country x.1) ∧
      (∀ window, window <:+: p.selectionsFor country calls →
        window.length = (p.candidates country).length →
          (p.ServedOnce country window ↔
            (window.map fun x => x.1 % (p.candidates country).length).Nodup)) ∧
      ((∀ call ∈ calls, call.1 = country) → p.cursor.toNat + calls.length ≤ 2 ^ 64 →
        p.TakesTurns country calls) := by
  have hanswers := @answer_of_mem_selectionsFor country calls p hturns
  have hwindow : ∀ window, window <:+: p.selectionsFor country calls →
      window.length = (p.candidates country).length →
        (p.ServedOnce country window ↔
          (window.map fun x => x.1 % (p.candidates country).length).Nodup) :=
    fun window hpart hlength =>
      servedOnce_iff hdistinct (fun x hx => hanswers x (hpart.subset hx)) hlength hsome
  refine ⟨cursor_afterSelections hturns, fun front draw behind hsplit => ?_, hanswers, hwindow,
    fun hcalls hwrap window hpart hlength => ?_⟩
  · exact ⟨_, by rw [hsplit, selectionsFor_at hturns]⟩
  -- the counter goes up by one from each selection to the next
  have hplaces : ∃ start, window.map Prod.fst = List.range' start window.length := by
    obtain ⟨before, behind, hsplit⟩ := hpart
    have hall := map_fst_selectionsFor hturns hsome hcalls hwrap
    rw [← hsplit, List.map_append] at hall
    obtain ⟨m, -, hfront, -⟩ := List.range'_eq_append_iff.mp hall.symm
    rw [List.map_append] at hfront
    obtain ⟨n, hn, -, hwindow⟩ := List.range'_eq_append_iff.mp hfront.symm
    have hsame := congrArg List.length hwindow
    rw [List.length_map, List.length_range'] at hsame
    exact ⟨_, by rw [hwindow, hsame]⟩
  obtain ⟨start, hplaces⟩ := hplaces
  have hmod : window.map (fun x => x.1 % (p.candidates country).length) =
      (window.map Prod.fst).map (· % (p.candidates country).length) := by
    rw [List.map_map]
    rfl
  rw [hwindow window hpart hlength, hmod, hplaces, hlength]
  exact nodup_map_mod_range' start _

/-- A pool that takes turns, with an endpoint in Egypt and one in Germany. -/
def egyptAndGermany : Pool :=
  ((new 3 .roundRobin).add { host := "a", port := 1, country := some "EG" }).add
    { host := "b", port := 1, country := some "DE" }

/-- Two leases for Egypt in between, and the requests for any country get both endpoints; a request for
France, which has none, does not count. -/
theorem served_once_iff_turns_differ_egypt :
    let calls := [(none, 0), (some "eg", 0), (some "fr", 0), (some "eg", 0), (none, 0)]
    egyptAndGermany.served calls = 4 ∧
      (egyptAndGermany.afterSelections calls).cursor.toNat = 4 ∧
      egyptAndGermany.ServedOnce none (egyptAndGermany.selectionsFor none calls) := by
  intro calls
  have hdistinct : (egyptAndGermany.entries.map Entry.id).Nodup := by decide
  have hserved : egyptAndGermany.served calls = 4 := by decide +kernel
  obtain ⟨hcounter, -, -, hnumbers, -⟩ :=
    @served_once_iff_turns_differ egyptAndGermany none rfl hdistinct (by decide) calls
  rw [hserved] at hcounter
  exact ⟨hserved, hcounter, (hnumbers _ List.infix_rfl (by decide +kernel)).mpr (by decide +kernel)⟩

/-- One lease for Egypt in between, and both requests for any country get the same endpoint. -/
theorem passed_over_with_two_countries :
    ¬ egyptAndGermany.TakesTurns none [(none, 0), (some "eg", 0), (none, 0)] := by
  intro h
  exact absurd (h _ List.infix_rfl (by decide +kernel)) (by decide +kernel)

end Shortlist.Proxy.Pool
