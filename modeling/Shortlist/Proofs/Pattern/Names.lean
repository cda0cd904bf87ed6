import Mathlib.Data.List.Nodup
import Shortlist.Pattern.Parser

/-!
# Names of groups

Names make one difference to the parser: it stops at the second group with the same one.  So what is
proved about a run of the parser is proved in two parts.  A run that comes to its end has read no name
twice (`Reader.fresh_of_run`), and where no name stands twice, names may be left out: a part of the
parser's state that a step treats alike under every new name is treated so by a whole run
(`Reader.run_map`).
-/

namespace Shortlist.Pattern

/-! ## 1. Names -/

/-- The name of the group that a token opens, if it has one. -/
def Token.name? : Token → Option String
  | .opening (.named name) => some name
  | _ => none

/-- The names of all groups that tokens open. -/
def namesOf (ts : List Token) : List String := ts.filterMap Token.name?

theorem namesOf_cons (t : Token) (ts : List Token) :
    namesOf (t :: ts) = t.name?.toList ++ namesOf ts := by
  unfold namesOf
  cases h : t.name? with
  | none => exact List.filterMap_cons_none h
  | some name => exact List.filterMap_cons_some h

theorem namesOf_append (ts us : List Token) : namesOf (ts ++ us) = namesOf ts ++ namesOf us :=
  List.filterMap_append

/-- The names of joined tokens are those of each of them. -/
theorem namesOf_joined : ∀ tss : List (List Token),
    namesOf ([Token.bar].intercalate tss) = tss.flatMap namesOf
  | [] => rfl
  | [ts] => by simp
  | ts :: us :: tss => by
    rw [List.intercalate_cons_cons, namesOf_append, namesOf_append, namesOf_joined (us :: tss),
      List.flatMap_cons]
    exact congrArg (· ++ _) (List.append_nil _)

/-- The names of all groups in a text that can be cut into tokens. -/
def namesIn [CharacterData] (cs : List Char) : List String := (tokens cs).elim [] namesOf

/-- The names of all groups of a pattern. -/
def groupNames [CharacterData] (pattern : String) : List String := namesIn pattern.toList

theorem namesIn_eq [CharacterData] {cs : List Char} {ts : List Token} (h : tokens cs = some ts) :
    namesIn cs = namesOf ts := by
  rw [namesIn, h, Option.elim_some]

/-- No name of a group is among those in use, and none stands there twice. -/
def Fresh (used : List String) (ts : List Token) : Prop :=
  (namesOf ts).Nodup ∧ ∀ name ∈ namesOf ts, name ∉ used

theorem fresh_nil_iff {ts : List Token} : Fresh [] ts ↔ (namesOf ts).Nodup :=
  and_iff_left fun _ _ => List.not_mem_nil

/-- Names are fresh if the first one is, and the others are with the first one in use. -/
theorem fresh_cons {used : List String} {t : Token} {ts : List Token} :
    Fresh used (t :: ts) ↔ (∀ name ∈ t.name?, name ∉ used) ∧ Fresh (t.name?.toList ++ used) ts := by
  unfold Fresh
  rw [namesOf_cons]
  cases t.name? with
  | none => simp
  | some name =>
    simp only [Option.toList_some, List.singleton_append, List.nodup_cons, List.mem_cons,
      forall_eq_or_imp, Option.mem_some_iff, forall_eq', not_or]
    constructor
    · rintro ⟨⟨hname, hnodup⟩, hused, hrest⟩
      exact ⟨hused, hnodup, fun other h => ⟨fun heq => hname (heq ▸ h), hrest other h⟩⟩
    · rintro ⟨hused, hnodup, hrest⟩
      exact ⟨⟨fun h => (hrest name h).1 rfl, hnodup⟩, hused, fun other h => (hrest other h).2⟩

/-! ## 2. The parser -/

namespace Reader

variable {r r' : Reader} {t : Token} {ts : List Token}

/-- **A step of the parser** reads a new name, if it reads one, and adds it to those in use. -/
theorem names_of_step? (h : r.step? t = some r') :
    (∀ name ∈ t.name?, name ∉ r.names) ∧ r'.names = t.name?.toList ++ r.names := by
  cases t with
  | opening group =>
    cases group with
    | plain =>
      cases h
      exact ⟨by simp [Token.name?], rfl⟩
    | numbered =>
      cases h
      exact ⟨by simp [Token.name?], rfl⟩
    | named name =>
      obtain ⟨hnew, heq⟩ := Option.ite_none_left_eq_some.mp h
      cases heq
      exact ⟨by simpa [Token.name?] using hnew, rfl⟩
  | closing =>
    obtain ⟨group, around, numbered, names⟩ := r
    cases around with
    | nil => cases h
    | cons outer around =>
      cases h
      exact ⟨by simp [Token.name?], rfl⟩
  | repetition least most greedy =>
    obtain ⟨⟨number, alternatives, pieces⟩, around, numbered, names⟩ := r
    cases pieces with
    | nil => cases h
    | cons last pieces =>
      cases h
      exact ⟨by simp [Token.name?], rfl⟩
  | _ =>
    cases h
    exact ⟨by simp [Token.name?], rfl⟩

/-- **A run of the parser** that comes to its end reads no name twice. -/
theorem fresh_of_run (h : ts.foldlM step? r = some r') : Fresh r.names ts := by
  induction ts generalizing r with
  | nil => exact ⟨List.nodup_nil, by simp [namesOf]⟩
  | cons t ts ih =>
    obtain ⟨r₁, hstep, hrest⟩ := Option.bind_eq_some_iff.mp h
    obtain ⟨hnew, hnames⟩ := names_of_step? hstep
    exact fresh_cons.mpr ⟨hnew, hnames ▸ ih hrest⟩

/-- **Where no name stands twice, a run goes as its steps do under new names.** -/
theorem run_map {σ : Type} {view : Reader → σ} {step : σ → Token → Option σ}
    (hstep : ∀ t ∈ ts, ∀ r : Reader, (∀ name ∈ t.name?, name ∉ r.names) →
      (r.step? t).map view = step (view r) t)
    (hfresh : Fresh r.names ts) : (ts.foldlM step? r).map view = ts.foldlM step (view r) := by
  induction ts generalizing r with
  | nil => rfl
  | cons t ts ih =>
    obtain ⟨ht, hts⟩ := List.forall_mem_cons.mp hstep
    obtain ⟨hnew, hrest⟩ := fresh_cons.mp hfresh
    rw [List.foldlM_cons, List.foldlM_cons, ← ht r hnew]
    cases hr : r.step? t with
    | none => rfl
    | some r₁ =>
      obtain ⟨-, hnames⟩ := names_of_step? hr
      exact ih hts (hnames ▸ hrest)

end Reader

end Shortlist.Pattern
