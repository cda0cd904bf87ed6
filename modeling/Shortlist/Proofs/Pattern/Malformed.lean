import Mathlib.Algebra.GroupWithZero.Nat
import Shortlist.Proofs.Pattern.Joined
import Shortlist.Proofs.Pattern.Names
import Shortlist.Proofs.Pattern.Room

/-!
# Tables with malformed patterns

The patterns of a table are joined before they are parsed, so it is the joined text that is valid or
not.  A pattern that leaves a bracket, a group or an escape open is not valid by itself, but what stands
behind it can close what it left open: `(a` and `b)` are a table of one group.  Such a table is not
rejected.

This file says which tables are.  Valid patterns in front of a malformed one make no difference
(`reads_joined_iff`), so it comes down to the patterns from the first malformed one on: the table can be
read exactly when these are `Mended`, that is when they are one valid pattern together.  Mending takes
two things.  The first malformed pattern must not be `BeyondRepair`, as one with a token that cannot be
read is; and one of them must reach out of itself, by closing a group that it did not open or by leaving
a token unfinished.  Patterns that do neither are `Contained`, and they do not mend each other.

Whether tokens can be read depends on little: on how many groups are open, and on whether there is
something to repeat.  This is their `Standing`, and everything here is proved on standings in place of
expressions.  Names come on top of that: no two groups of a text may have the same one.

Flags are not read here, so a text with flags counts as malformed.  Where the joined text is `Flagless`,
its first malformed pattern is, too (`Flagless.first_malformed`), and is malformed without regard to
flags.
-/

namespace Shortlist.Pattern

/-! ## 1. Standings -/

/-- What reading on depends on: how many groups are open around the innermost one, and whether there is
a piece in that one which could be repeated. -/
structure Standing where
  depth : Nat
  repeatable : Bool
deriving DecidableEq

namespace Standing

/-- Nothing was read. -/
def start : Standing := ⟨0, false⟩

/-- The same with so many more groups around. -/
def deeper (more : Nat) (s : Standing) : Standing := { s with depth := s.depth + more }

/-- Reads one token. -/
def step? : Standing → Token → Option Standing
  | s, .opening _ => some ⟨s.depth + 1, false⟩
  | ⟨depth + 1, _⟩, .closing => some ⟨depth, true⟩
  | s, .bar => some { s with repeatable := false }
  | s, .atom _ => some { s with repeatable := true }
  | ⟨depth, true⟩, .repetition _ _ _ => some ⟨depth, true⟩
  | _, _ => none

/-- Reads tokens from left to right. -/
def run (s : Standing) (ts : List Token) : Option Standing := ts.foldlM step? s

theorem run_cons (s : Standing) (t : Token) (ts : List Token) :
    run s (t :: ts) = (s.step? t).bind (run · ts) := rfl

theorem run_append (s : Standing) (ts us : List Token) :
    run s (ts ++ us) = (run s ts).bind (run · us) := by
  rw [run, List.foldlM_append]
  rfl

end Standing

/-- Where the parser stands. -/
def Reader.standing (r : Reader) : Standing := ⟨r.around.length, !r.group.pieces.isEmpty⟩

/-- **A step of the parser is a step on standings**, unless it reads a name that is in use. -/
theorem Reader.standing_step? {r : Reader} {t : Token} (hnew : ∀ name ∈ t.name?, name ∉ r.names) :
    (r.step? t).map standing = r.standing.step? t := by
  obtain ⟨⟨number, alternatives, pieces⟩, around, numbered, names⟩ := r
  cases t with
  | opening group =>
    cases group with
    | plain => rfl
    | numbered => rfl
    | named name =>
      rw [step?, if_neg (hnew name rfl)]
      rfl
  | closing => cases around <;> rfl
  | bar => rfl
  | atom a => rfl
  | repetition least most greedy => cases pieces <;> rfl

/-- **A run of the parser is a run on standings**, if no name stands twice. -/
theorem Reader.standing_run {r : Reader} {ts : List Token} (hfresh : Fresh r.names ts) :
    (ts.foldlM Reader.step? r).map standing = Standing.run r.standing ts :=
  run_map (fun _ _ _ => standing_step?) hfresh

/-- Tokens are read as an expression exactly when no name stands twice and all groups are closed at their
end. -/
theorem Re.isSome_ofTokens?_iff {ts : List Token} :
    (Re.ofTokens? ts).isSome = true ↔
      (namesOf ts).Nodup ∧ ∃ b, Standing.run .start ts = some ⟨0, b⟩ := by
  have hread : ∀ r, ts.foldlM Reader.step? Reader.start = some r → (namesOf ts).Nodup :=
    fun r hr => fresh_nil_iff.mp (Reader.fresh_of_run hr)
  have hstanding : (namesOf ts).Nodup →
      (ts.foldlM Reader.step? Reader.start).map Reader.standing = Standing.run .start ts :=
    fun h => Reader.standing_run (fresh_nil_iff.mpr h)
  rw [Re.ofTokens?]
  cases hrun : ts.foldlM Reader.step? Reader.start with
  | none =>
    refine iff_of_false (by simp) ?_
    rintro ⟨hnodup, b, hb⟩
    rw [← hstanding hnodup, hrun] at hb
    cases hb
  | some r =>
    have hnodup := hread r hrun
    rw [← hstanding hnodup, hrun]
    simpa [Reader.finish?, Reader.standing, hnodup] using fun _ => em _

/-! ## 2. Groups -/

/-- How many groups are open behind a token; none if it closes a group that is not open. -/
def Token.depth? : Nat → Token → Option Nat
  | depth, .opening _ => some (depth + 1)
  | 0, .closing => none
  | depth + 1, .closing => some depth
  | depth, _ => some depth

/-- How many groups are open behind some tokens. -/
def depth? (depth : Nat) (ts : List Token) : Option Nat := ts.foldlM Token.depth? depth

theorem depth?_cons (depth : Nat) (t : Token) (ts : List Token) :
    depth? depth (t :: ts) = (t.depth? depth).bind (depth? · ts) := rfl

theorem depth?_append (depth : Nat) (ts us : List Token) :
    depth? depth (ts ++ us) = (depth? depth ts).bind (depth? · us) := by
  rw [depth?, List.foldlM_append]
  rfl

/-- More groups around stay open. -/
theorem Token.depth?_add {t : Token} {start depth : Nat} (h : t.depth? start = some depth)
    (more : Nat) : t.depth? (more + start) = some (more + depth) := by
  cases t with
  | closing =>
    cases start with
    | zero => cases h
    | succ start =>
      cases h
      rfl
  | _ =>
    cases h
    rfl

/-- More groups around stay open behind tokens that close none of them. -/
theorem depth?_add {ts : List Token} {start depth : Nat} (h : depth? start ts = some depth)
    (more : Nat) : depth? (more + start) ts = some (more + depth) := by
  induction ts generalizing start with
  | nil =>
    cases h
    rfl
  | cons t ts ih =>
    rw [depth?_cons] at h ⊢
    obtain ⟨next, hnext, hrest⟩ := Option.bind_eq_some_iff.mp h
    rw [Token.depth?_add hnext, Option.bind_some, ih hrest]

/-- **Joined tokens leave as many groups open** as they do one by one. -/
theorem depth?_joined {tss : List (List Token)} {depths : List Nat}
    (h : List.Forall₂ (fun ts depth => depth? 0 ts = some depth) tss depths) (start : Nat) :
    depth? start ([Token.bar].intercalate tss) = some (start + depths.sum) := by
  induction h generalizing start with
  | nil => rfl
  | @cons ts depth tss depths hts hrest ih =>
    have hfirst : depth? start ts = some (start + depth) := depth?_add hts start
    cases hrest with
    | nil => simpa using hfirst
    | cons =>
      have hbar : depth? (start + depth) [Token.bar] = some (start + depth) := rfl
      rw [List.intercalate_cons_cons, depth?_append, depth?_append, hfirst, Option.bind_some, hbar,
        Option.bind_some, ih, List.sum_cons (a := depth), Nat.add_assoc]

namespace Standing

variable {s s' : Standing} {t : Token} {ts : List Token}

/-- A token that is read opens and closes groups as it says. -/
theorem depth?_of_step? (h : s.step? t = some s') : t.depth? s.depth = some s'.depth := by
  obtain ⟨depth, repeatable⟩ := s
  cases t with
  | closing =>
    cases depth with
    | zero => cases h
    | succ depth =>
      cases h
      rfl
  | repetition least most greedy =>
    cases repeatable with
    | false => cases h
    | true =>
      cases h
      rfl
  | _ =>
    cases h
    rfl

theorem depth?_of_run (h : s.run ts = some s') : Pattern.depth? s.depth ts = some s'.depth := by
  induction ts generalizing s with
  | nil =>
    cases h
    rfl
  | cons t ts ih =>
    rw [run_cons] at h
    obtain ⟨s₁, hstep, hrest⟩ := Option.bind_eq_some_iff.mp h
    rw [depth?_cons, depth?_of_step? hstep, Option.bind_some]
    exact ih hrest

/-- Groups further out make no difference to a token that does not close one of them. -/
theorem step?_deeper {depth : Nat} (h : t.depth? s.depth = some depth) (more : Nat) :
    (s.deeper more).step? t = (s.step? t).map (deeper more) := by
  obtain ⟨start, repeatable⟩ := s
  cases t with
  | opening group =>
    exact congrArg (fun n => some (Standing.mk n false)) (Nat.add_right_comm start more 1)
  | closing =>
    cases start with
    | zero => cases h
    | succ start =>
      rw [deeper, Nat.add_right_comm]
      rfl
  | repetition least most greedy => cases repeatable <;> rfl
  | _ => rfl

/-- **Groups further out make no difference** to tokens that close none of them. -/
theorem run_deeper {depth : Nat} (h : Pattern.depth? s.depth ts = some depth) (more : Nat) :
    (s.deeper more).run ts = (s.run ts).map (deeper more) := by
  induction ts generalizing s with
  | nil => rfl
  | cons t ts ih =>
    rw [depth?_cons] at h
    obtain ⟨next, hnext, hrest⟩ := Option.bind_eq_some_iff.mp h
    rw [run_cons, run_cons, step?_deeper hnext]
    cases hstep : s.step? t with
    | none => rfl
    | some s₁ =>
      obtain rfl := Option.some.inj (hnext.symm.trans (depth?_of_step? hstep))
      exact ih hrest

end Standing

section

variable [CharacterData]

/-! ## 3. Texts -/

/-- The text can be read to its end, which closes all groups, and no two groups of it have the same
name. -/
def Reads (s : Standing) (cs : List Char) : Prop :=
  ∃ ts b, tokens cs = some ts ∧ (namesOf ts).Nodup ∧ s.run ts = some ⟨0, b⟩

/-- Inside of one group, of which nothing was read. -/
def Standing.inGroup : Standing := ⟨1, false⟩

/-- A pattern is valid when it can be read from the start. -/
theorem valid_iff_reads {pattern : String} : Valid pattern ↔ Reads .start pattern.toList := by
  rw [Valid, Re.read?]
  cases htokens : tokens pattern.toList with
  | none => simp [Reads, htokens]
  | some ts => simp [Reads, htokens, Re.isSome_ofTokens?_iff]

/-- A token that opens no group with a name adds no name. -/
theorem namesIn_of_tokens {cs rest : List Char} {t : Token}
    (htokens : tokens cs = (tokens rest).map (t :: ·)) (hname : t.name? = none) :
    namesIn cs = namesIn rest := by
  rw [namesIn, namesIn, htokens]
  cases tokens rest with
  | none => rfl
  | some ts =>
    rw [Option.map_some, Option.elim_some, namesOf_cons, hname]
    rfl

/-- Behind a token that opens no group with a name, reading goes on. -/
theorem reads_cons {s s' : Standing} {cs rest : List Char} {t : Token}
    (htokens : tokens cs = (tokens rest).map (t :: ·)) (hname : t.name? = none)
    (hstep : s.step? t = some s') : Reads s cs ↔ Reads s' rest := by
  have hnames : ∀ ts, namesOf (t :: ts) = namesOf ts := fun ts => by rw [namesOf_cons, hname]; rfl
  have hrun : ∀ ts, s.run (t :: ts) = s'.run ts := fun ts => by
    rw [Standing.run_cons, hstep, Option.bind_some]
  simp only [Reads, htokens, Option.map_eq_some_iff]
  constructor
  · rintro ⟨_, b, ⟨ts, hts, rfl⟩, hnodup, h⟩
    exact ⟨ts, b, hts, hnames ts ▸ hnodup, (hrun ts).symm.trans h⟩
  · rintro ⟨ts, b, hts, hnodup, h⟩
    exact ⟨_, b, ⟨ts, hts, rfl⟩, (hnames ts).symm ▸ hnodup, (hrun ts).trans h⟩

/-- The tokens behind the opening of a group. -/
theorem tokens_opening (cs : List Char) :
    tokens ('(' :: '?' :: ':' :: cs) = (tokens cs).map (.opening .plain :: ·) := by
  rw [tokens_cons]
  rfl

/-- The tokens behind a word boundary in front of a group. -/
theorem tokens_boundary (cs : List Char) :
    tokens ('\\' :: 'b' :: '(' :: cs) =
      (tokens ('(' :: cs)).map (.flatAtom (.assertion .wordBoundary) :: ·) := by
  rw [tokens_cons]
  rfl

/-- Behind the opening of a group, reading goes on inside of it. -/
theorem reads_opening (s : Standing) (cs : List Char) :
    Reads s ('(' :: '?' :: ':' :: cs) ↔ Reads ⟨s.depth + 1, false⟩ cs :=
  reads_cons (tokens_opening cs) rfl rfl

/-- A word boundary in front of a group can be read anywhere. -/
theorem reads_boundary (s : Standing) (cs : List Char) :
    Reads s ('\\' :: 'b' :: '(' :: cs) ↔ Reads { s with repeatable := true } ('(' :: cs) :=
  reads_cons (tokens_boundary cs) rfl rfl

/-- The tokens of a pattern that has some and of what stands behind the bar. -/
theorem tokens_append_bar {pattern cs : List Char} {ts : List Token} (hts : tokens pattern = some ts) :
    tokens (pattern ++ '|' :: cs) = (tokens cs).map fun us => ts ++ .bar :: us := by
  rw [tokens_append hts ⟨'|', cs, rfl, Or.inl rfl⟩, tokens_cons]
  simp [token?, Option.map_map, Function.comp_def]

/-- Names behind a bar are names of the whole text. -/
theorem namesIn_isSuffix {pattern : List Char} {ts : List Token} (hts : tokens pattern = some ts)
    (cs : List Char) : namesIn cs <:+ namesIn (pattern ++ '|' :: cs) := by
  unfold namesIn
  rw [tokens_append_bar hts]
  cases tokens cs with
  | none => exact List.nil_suffix
  | some us =>
    refine ⟨namesOf ts, ?_⟩
    simp only [Option.map_some, Option.elim_some]
    rw [namesOf_append, namesOf_cons]
    rfl

/-- **A valid pattern and the bar behind it** can be read anywhere, and reading goes on as if they were
not there, names aside. -/
theorem Valid.reads_append_iff {pattern : String} (h : Valid pattern) (depth : Nat) (cs : List Char) :
    Reads ⟨depth, false⟩ (pattern.toList ++ '|' :: cs) ↔
      Reads ⟨depth, false⟩ cs ∧ (namesIn (pattern.toList ++ '|' :: cs)).Nodup := by
  obtain ⟨ts, b, hts, -, hrun⟩ := valid_iff_reads.mp h
  have hrun : Standing.run ⟨depth, false⟩ ts = some ⟨depth, b⟩ := by
    have hdeeper := Standing.run_deeper (Standing.depth?_of_run hrun) depth
    rw [hrun] at hdeeper
    simpa [Standing.deeper, Standing.start] using hdeeper
  have htokens := @tokens_append_bar _ _ cs _ hts
  have hbar : ∀ us, Standing.run ⟨depth, false⟩ (ts ++ .bar :: us) = Standing.run ⟨depth, false⟩ us :=
    fun us => by
      rw [Standing.run_append, hrun]
      rfl
  constructor
  · rintro ⟨vs, b, hvs, hnodup, hread⟩
    rw [htokens] at hvs
    obtain ⟨us, hus, rfl⟩ := Option.map_eq_some_iff.mp hvs
    rw [← namesIn_eq (htokens.trans hvs)] at hnodup
    have hbehind := hnodup.sublist (namesIn_isSuffix hts cs).sublist
    rw [namesIn_eq hus] at hbehind
    exact ⟨⟨us, b, hus, hbehind, (hbar us).symm.trans hread⟩, hnodup⟩
  · rintro ⟨⟨us, b, hus, -, hread⟩, hnodup⟩
    have hvs : tokens (pattern.toList ++ '|' :: cs) = some (ts ++ .bar :: us) := by
      rw [htokens, hus, Option.map_some]
    rw [namesIn_eq hvs] at hnodup
    exact ⟨_, b, hvs, hnodup, (hbar us).trans hread⟩

/-! ## 4. Tables -/

/-- What stands behind the joined patterns of a table. -/
def closingText (wholeWords : Bool) : List Char := ')' :: if wholeWords then ['\\', 'b'] else []

/-- The joined patterns and what stands behind them. -/
def joinedText (patterns : List String) (wholeWords : Bool) : List Char :=
  ['|'].intercalate (patterns.map String.toList) ++ closingText wholeWords

omit [CharacterData] in
theorem toList_sourceText_true (patterns : List String) :
    (Table.sourceText patterns true).toList =
      '\\' :: 'b' :: '(' :: '?' :: ':' :: joinedText patterns true := by
  simp [Table.toList_sourceText, joinedText, closingText]

omit [CharacterData] in
theorem toList_sourceText_false (patterns : List String) :
    (Table.sourceText patterns false).toList = '(' :: '?' :: ':' :: joinedText patterns false := by
  simp [Table.toList_sourceText, joinedText, closingText]

/-- The text of a table can be read when the joined patterns can be read inside of a group. -/
theorem isSome_read?_sourceText_iff (patterns : List String) (wholeWords : Bool) :
    (Re.read? (Table.sourceText patterns wholeWords).toList).isSome = true ↔
      Reads .inGroup (joinedText patterns wholeWords) := by
  refine (@valid_iff_reads _ (Table.sourceText patterns wholeWords)).trans ?_
  cases wholeWords with
  | true =>
    rw [toList_sourceText_true, reads_boundary, reads_opening]
    rfl
  | false =>
    rw [toList_sourceText_false, reads_opening]
    rfl

/-- What is put around the joined patterns has no names. -/
theorem groupNames_sourceText (patterns : List String) (wholeWords : Bool) :
    groupNames (Table.sourceText patterns wholeWords) = namesIn (joinedText patterns wholeWords) := by
  have hopening := fun cs => namesIn_of_tokens (tokens_opening cs) rfl
  rw [groupNames]
  cases wholeWords with
  | true => rw [toList_sourceText_true, namesIn_of_tokens (tokens_boundary _) rfl, hopening]
  | false => rw [toList_sourceText_false, hopening]

omit [CharacterData] in
/-- Behind the first of several patterns there is a bar. -/
theorem joinedText_cons {p : String} {patterns : List String} (h : patterns ≠ []) (wholeWords : Bool) :
    joinedText (p :: patterns) wholeWords = p.toList ++ '|' :: joinedText patterns wholeWords := by
  obtain ⟨q, rest, rfl⟩ := List.exists_cons_of_ne_nil h
  simp [joinedText, List.intercalate_cons_cons]

/-- **Valid patterns in front make no difference** to whether a table can be read, names aside. -/
theorem reads_joined_iff {before rest : List String} (hbefore : ∀ q ∈ before, Valid q) (hne : rest ≠ [])
    (wholeWords : Bool) :
    Reads .inGroup (joinedText (before ++ rest) wholeWords) ↔
      Reads .inGroup (joinedText rest wholeWords) ∧
        (namesIn (joinedText (before ++ rest) wholeWords)).Nodup := by
  induction before with
  | nil =>
    rw [List.nil_append]
    refine (and_iff_left_of_imp ?_).symm
    rintro ⟨ts, -, hts, hnodup, -⟩
    rwa [namesIn_eq hts]
  | cons q before ih =>
    obtain ⟨hq, hbefore⟩ := List.forall_mem_cons.mp hbefore
    obtain ⟨ts, -, hts, -⟩ := valid_iff_reads.mp hq
    rw [List.cons_append, joinedText_cons (List.append_ne_nil_of_right_ne_nil _ hne)]
    refine (hq.reads_append_iff 1 _).trans ?_
    constructor
    · rintro ⟨hreads, hnodup⟩
      exact ⟨((ih hbefore).mp hreads).1, hnodup⟩
    · rintro ⟨hreads, hnodup⟩
      have hbehind := hnodup.sublist (namesIn_isSuffix hts _).sublist
      exact ⟨(ih hbefore).mpr ⟨hreads, hbehind⟩, hnodup⟩

/-! ## 5. What is beyond repair -/

/-- No text that may stand behind the pattern makes a valid one of it, not even inside of a group. -/
def BeyondRepair (pattern : String) : Prop :=
  ∀ tail : String, Stops tail.toList → ¬ Valid ("(?:" ++ pattern ++ tail)

theorem beyondRepair_iff {pattern : String} :
    BeyondRepair pattern ↔ ∀ tail, Stops tail → ¬ Reads .inGroup (pattern.toList ++ tail) := by
  have hgroup : ∀ tail : List Char, Valid ("(?:" ++ pattern ++ String.ofList tail) ↔
      Reads .inGroup (pattern.toList ++ tail) := fun tail => by
    have htext : ("(?:" ++ pattern ++ String.ofList tail).toList =
        '(' :: '?' :: ':' :: (pattern.toList ++ tail) := by simp
    rw [valid_iff_reads, htext, reads_opening]
    rfl
  constructor
  · intro h tail htail
    rw [← hgroup]
    exact h _ (by rwa [String.toList_ofList])
  · intro h tail htail
    rw [← String.ofList_toList (s := tail), hgroup]
    exact h _ htail

/-- The pattern can be cut into tokens and closes no group that it did not open. -/
def Contained (pattern : String) : Prop :=
  ((tokens pattern.toList).bind (depth? 0)).isSome = true

instance (pattern : String) : Decidable (Contained pattern) := inferInstanceAs (Decidable (_ = _))

/-- The pattern leaves nothing open: it is contained and closes all groups that it opened. -/
def Whole (pattern : String) : Prop :=
  ((tokens pattern.toList).bind (depth? 0)) = some 0

/-- **A malformed pattern that leaves nothing open** is beyond repair: it repeats where there is nothing
to repeat, or two of its groups have the same name. -/
theorem Whole.beyondRepair {pattern : String} (h : Whole pattern) (hmalformed : ¬ Valid pattern) :
    BeyondRepair pattern := by
  obtain ⟨ts, hts, hdepth⟩ := Option.bind_eq_some_iff.mp h
  rw [beyondRepair_iff]
  rintro tail htail ⟨us, b, hus, hnodup, hrun⟩
  rw [tokens_append hts htail] at hus
  obtain ⟨vs, -, rfl⟩ := Option.map_eq_some_iff.mp hus
  rw [namesOf_append] at hnodup
  -- were the tokens read, they would be read with all groups closed
  have hstuck : Standing.run .start ts = none := by
    cases hstart : Standing.run .start ts with
    | none => rfl
    | some s =>
      obtain ⟨depth, b⟩ := s
      obtain rfl : 0 = depth := Option.some.inj (hdepth.symm.trans (Standing.depth?_of_run hstart))
      exact absurd (valid_iff_reads.mpr ⟨ts, b, hts, hnodup.of_append_left, hstart⟩) hmalformed
  have hdeeper : Standing.run .inGroup ts = none :=
    (Standing.run_deeper (s := .start) hdepth 1).trans (by rw [hstuck]; rfl)
  rw [Standing.run_append, hdeeper] at hrun
  cases hrun

/-- Somewhere in the text there is a token that cannot be read, whatever stands behind the text. -/
inductive Stuck : List Char → Prop where
  | here {c : Char} {cs : List Char} (h : ∀ tail, Stops tail → token? c (cs ++ tail) = none) :
    Stuck (c :: cs)
  | later {c : Char} {cs rest : List Char} {t : Token} (hread : token? c cs = some (t, rest))
    (hrest : Stuck rest) : Stuck (c :: cs)

/-- A text with a token that cannot be read has no tokens, with any text behind it. -/
theorem Stuck.tokens_append_eq_none {cs tail : List Char} (h : Stuck cs) (htail : Stops tail) :
    tokens (cs ++ tail) = none := by
  induction h with
  | here h => rw [List.cons_append, tokens_cons, h tail htail, Option.bind_none]
  | later hread _ ih =>
    obtain ⟨-, -, hmore⟩ := local_token? hread
    rw [List.cons_append, tokens_cons, hmore htail, Option.bind_some]
    simp only
    rw [ih, Option.map_none]

/-- **A pattern with a token that cannot be read** is beyond repair. -/
theorem Stuck.beyondRepair {pattern : String} (h : Stuck pattern.toList) : BeyondRepair pattern := by
  rw [beyondRepair_iff]
  rintro tail htail ⟨ts, b, hts, -⟩
  rw [h.tokens_append_eq_none htail] at hts
  cases hts

/-- A back-reference is no token, whatever stands behind it. -/
example : BeyondRepair r"c\1" :=
  Stuck.beyondRepair (.later (t := .char 'c') rfl (.here fun _ _ => rfl))

/-! ## 6. What is mended -/

/-- The patterns from the first malformed one on. -/
def malformedOn (patterns : List String) : List String := patterns.dropWhile fun q => decide (Valid q)

/-- The patterns from the first malformed one on are one valid pattern together. -/
def Mended (patterns : List String) (wholeWords : Bool) : Prop :=
  Valid (Table.sourceText (malformedOn patterns) wholeWords)

instance (patterns : List String) (wholeWords : Bool) : Decidable (Mended patterns wholeWords) :=
  inferInstanceAs (Decidable (Valid _))

/-- A table with a malformed pattern has a first one. -/
theorem exists_first_malformed {patterns : List String} (h : ∃ p ∈ patterns, ¬ Valid p) :
    ∃ before p after, patterns = before ++ p :: after ∧ (∀ q ∈ before, Valid q) ∧ ¬ Valid p ∧
      malformedOn patterns = p :: after := by
  induction patterns with
  | nil => simp at h
  | cons q patterns ih =>
    by_cases hq : Valid q
    · have hrest : ∃ p ∈ patterns, ¬ Valid p := by simpa [hq] using h
      obtain ⟨before, p, after, rfl, hbefore, hp, hfrom⟩ := ih hrest
      refine ⟨q :: before, p, after, rfl, List.forall_mem_cons.mpr ⟨hq, hbefore⟩, hp, ?_⟩
      rw [malformedOn, List.dropWhile_cons_of_pos (by simpa using hq)]
      exact hfrom
    · refine ⟨[], q, patterns, rfl, by simp, hq, ?_⟩
      rw [malformedOn, List.dropWhile_cons_of_neg (by simpa using hq)]

theorem mended_iff_reads (patterns : List String) (wholeWords : Bool) :
    Mended patterns wholeWords ↔ Reads .inGroup (joinedText (malformedOn patterns) wholeWords) :=
  isSome_read?_sourceText_iff (malformedOn patterns) wholeWords

/-- **A table with a malformed pattern can be read exactly when it is mended** and no two of its groups
have the same name, as the valid patterns in front of the first malformed one make no other
difference. -/
theorem isSome_read?_iff_mended {patterns : List String} (h : ∃ p ∈ patterns, ¬ Valid p)
    (wholeWords : Bool) :
    (Re.read? (Table.sourceText patterns wholeWords).toList).isSome = true ↔
      Mended patterns wholeWords ∧ (groupNames (Table.sourceText patterns wholeWords)).Nodup := by
  obtain ⟨before, p, after, hpatterns, hbefore, -, hmalformed⟩ := exists_first_malformed h
  rw [mended_iff_reads, isSome_read?_sourceText_iff, groupNames_sourceText, hmalformed, hpatterns]
  exact reads_joined_iff hbefore (List.cons_ne_nil p after) wholeWords

omit [CharacterData] in
/-- What stands behind the first of some patterns is a text that may stand behind a pattern. -/
theorem exists_joinedText_eq (p : String) (after : List String) (wholeWords : Bool) :
    ∃ tail, Stops tail ∧ joinedText (p :: after) wholeWords = p.toList ++ tail := by
  cases after with
  | nil => exact ⟨closingText wholeWords, ⟨')', _, rfl, Or.inr rfl⟩, by simp [joinedText]⟩
  | cons q after =>
    exact ⟨_, ⟨'|', _, rfl, Or.inl rfl⟩, joinedText_cons (List.cons_ne_nil q after) wholeWords⟩

/-- No patterns can be read behind one that is beyond repair. -/
theorem BeyondRepair.not_reads {p : String} (h : BeyondRepair p) (after : List String)
    (wholeWords : Bool) : ¬ Reads .inGroup (joinedText (p :: after) wholeWords) := by
  obtain ⟨tail, htail, hjoined⟩ := exists_joinedText_eq p after wholeWords
  rw [hjoined]
  exact beyondRepair_iff.mp h tail htail

/-- The tokens of contained patterns and how many groups each of them leaves open. -/
theorem exists_depths {patterns : List String} (h : ∀ p ∈ patterns, Contained p) :
    ∃ tss depths, List.Forall₂ (fun cs ts => tokens cs = some ts) (patterns.map String.toList) tss ∧
      List.Forall₂ (fun ts depth => depth? 0 ts = some depth) tss depths ∧
        (depths.sum = 0 → ∀ p ∈ patterns, Whole p) := by
  induction patterns with
  | nil => exact ⟨[], [], .nil, .nil, fun _ _ hp => absurd hp List.not_mem_nil⟩
  | cons p patterns ih =>
    obtain ⟨hp, hpatterns⟩ := List.forall_mem_cons.mp h
    obtain ⟨tss, depths, htokens, hdepths, hwhole⟩ := ih hpatterns
    obtain ⟨depth, hdepth⟩ := Option.isSome_iff_exists.mp hp
    obtain ⟨ts, hts, hopen⟩ := Option.bind_eq_some_iff.mp hdepth
    refine ⟨ts :: tss, depth :: depths, .cons hts htokens, .cons hopen hdepths, fun hsum => ?_⟩
    rw [List.sum_cons] at hsum
    obtain rfl : depth = 0 := by omega
    exact List.forall_mem_cons.mpr ⟨hdepth, hwhole (by omega)⟩

/-- **Contained patterns that can be read together are whole**, each of them: the one group around them
is closed behind them, so they leave none open. -/
theorem whole_of_reads {patterns : List String} {wholeWords : Bool} (h : ∀ p ∈ patterns, Contained p)
    (hreads : Reads .inGroup (joinedText patterns wholeWords)) : ∀ p ∈ patterns, Whole p := by
  obtain ⟨tss, depths, htokens, hdepths, hwhole⟩ := exists_depths h
  obtain ⟨us, hus, hclosing⟩ : ∃ us, tokens (closingText wholeWords) = some (.closing :: us) ∧
      ∀ depth, depth? (depth + 1) (.closing :: us) = some depth := by
    cases wholeWords with
    | true => exact ⟨[.flatAtom (.assertion .wordBoundary)], rfl, fun _ => rfl⟩
    | false => exact ⟨[], rfl, fun _ => rfl⟩
  obtain ⟨ts, b, hts, -, hrun⟩ := hreads
  have hstops : Stops (closingText wholeWords) := ⟨')', _, rfl, Or.inr rfl⟩
  rw [joinedText, tokens_joined hstops htokens, hus] at hts
  obtain rfl := Option.some.inj hts
  have hdepth := Standing.depth?_of_run hrun
  rw [depth?_append, depth?_joined hdepths, Option.bind_some, Standing.inGroup, Nat.add_comm 1,
    hclosing] at hdepth
  exact hwhole (Option.some.inj hdepth)

/-- **What mending takes**: the first malformed pattern is not beyond repair, and from it on there is a
pattern that is not contained. -/
theorem Mended.not_contained {patterns : List String} {wholeWords : Bool}
    (h : Mended patterns wholeWords) (hmalformed : ∃ p ∈ patterns, ¬ Valid p) :
    (∀ p ∈ (malformedOn patterns).head?, ¬ BeyondRepair p) ∧
      ∃ q ∈ malformedOn patterns, ¬ Contained q := by
  obtain ⟨before, p, after, -, -, hp, hfrom⟩ := exists_first_malformed hmalformed
  have hreads : Reads .inGroup (joinedText (p :: after) wholeWords) :=
    hfrom ▸ (mended_iff_reads patterns wholeWords).mp h
  rw [hfrom]
  constructor
  · intro q hq hbeyond
    obtain rfl := Option.some.inj hq
    exact hbeyond.not_reads after wholeWords hreads
  · refine Classical.byContradiction fun hnone => ?_
    have hcontained : ∀ q ∈ p :: after, Contained q := by simpa using hnone
    have hwhole : Whole p := whole_of_reads hcontained hreads p List.mem_cons_self
    exact (hwhole.beyondRepair hp).not_reads after wholeWords hreads

/-! ## 7. Flags -/

/-- The characters that may follow `(?` where flags are set or cleared. -/
def flagChars : List Char := ['i', 'm', 's', 'U', 'u', 'R', 'x', '-']

/-- Flags begin behind some of the tokens of the text. -/
inductive Flagged : List Char → Prop where
  | here {c : Char} {cs : List Char} (h : c ∈ flagChars) : Flagged ('(' :: '?' :: c :: cs)
  | later {c : Char} {cs rest : List Char} {t : Token} (hread : token? c cs = some (t, rest))
    (hrest : Flagged rest) : Flagged (c :: cs)

/-- The text has no flags. -/
def Flagless (text : String) : Prop := ¬ Flagged text.toList

/-- Flags are no token. -/
theorem token?_flags {c : Char} (h : c ∈ flagChars) (cs : List Char) :
    token? '(' ('?' :: c :: cs) = none := by
  simp only [flagChars, List.mem_cons, List.not_mem_nil, or_false] at h
  rcases h with rfl | rfl | rfl | rfl | rfl | rfl | rfl | rfl <;> rfl

/-- **A text that can be cut into tokens** has no flags. -/
theorem not_flagged_of_tokens {cs : List Char} (h : (tokens cs).isSome = true) : ¬ Flagged cs := by
  intro hflagged
  induction hflagged with
  | here hc =>
    rw [tokens_cons, token?_flags hc] at h
    cases h
  | later hread _ ih =>
    rw [tokens_cons, hread, Option.bind_some, Option.isSome_map] at h
    exact ih h

/-- Flags are still there in front of a stop. -/
theorem Flagged.append {cs tail : List Char} (h : Flagged cs) (htail : Stops tail) :
    Flagged (cs ++ tail) := by
  induction h with
  | here hc => exact .here hc
  | later hread _ ih => exact .later ((local_token? hread).2.2 htail) ih

/-- Flags are still there behind a pattern that can be cut into tokens, and a bar. -/
theorem Flagged.behind_bar {pattern cs : List Char} (htokens : (tokens pattern).isSome = true)
    (h : Flagged cs) : Flagged (pattern ++ '|' :: cs) := by
  induction hlength : pattern.length using Nat.strongRecOn generalizing pattern with
  | ind n ih =>
    cases pattern with
    | nil => exact .later (t := .bar) rfl h
    | cons c pattern =>
      obtain ⟨ts, hts⟩ := Option.isSome_iff_exists.mp htokens
      obtain ⟨t, rest, ts', hread, hrest, -⟩ := tokens_cons_eq_some hts
      obtain ⟨-, hle, hmore⟩ := local_token? hread
      rw [List.length_cons] at hlength
      exact .later (hmore ⟨'|', cs, rfl, Or.inl rfl⟩)
        (ih rest.length (by omega) (hrest ▸ rfl) rfl)

/-- Flags in the joined patterns are flags of the text of the table. -/
theorem Flagged.sourceText {patterns : List String} {wholeWords : Bool}
    (h : Flagged (joinedText patterns wholeWords)) :
    Flagged (Table.sourceText patterns wholeWords).toList := by
  have hgroup : Flagged ('(' :: '?' :: ':' :: joinedText patterns wholeWords) :=
    .later (t := .opening .plain) rfl h
  cases wholeWords with
  | true =>
    rw [toList_sourceText_true]
    exact .later (t := .flatAtom (.assertion .wordBoundary)) rfl hgroup
  | false =>
    rw [toList_sourceText_false]
    exact hgroup

/-- **The first malformed pattern of a table without flags** has no flags either. -/
theorem Flagless.first_malformed {patterns : List String} {wholeWords : Bool}
    (h : Flagless (Table.sourceText patterns wholeWords)) (hmalformed : ∃ p ∈ patterns, ¬ Valid p) :
    ∀ p ∈ (malformedOn patterns).head?, Flagless p ∧ ¬ Valid p := by
  obtain ⟨before, p, after, rfl, hbefore, hp, hfrom⟩ := exists_first_malformed hmalformed
  rw [hfrom]
  intro q hq
  obtain rfl := Option.some.inj hq
  refine ⟨fun hflagged => h (Flagged.sourceText ?_), hp⟩
  clear h hmalformed hfrom
  induction before with
  | nil =>
    obtain ⟨tail, htail, hjoined⟩ := exists_joinedText_eq p after wholeWords
    rw [List.nil_append, hjoined]
    exact hflagged.append htail
  | cons q before ih =>
    obtain ⟨hq, hbefore⟩ := List.forall_mem_cons.mp hbefore
    obtain ⟨ts, -, hts, -⟩ := valid_iff_reads.mp hq
    rw [List.cons_append, joinedText_cons (List.append_ne_nil_of_right_ne_nil _ (List.cons_ne_nil _ _))]
    exact (ih hbefore).behind_bar (hts ▸ rfl)

/-! ## 8. Tables -/

/-- **A table that is not mended is rejected.** -/
theorem compile?_eq_none_of_not_mended {patterns : List String} {wholeWords : Bool}
    (hmalformed : ∃ p ∈ patterns, ¬ Valid p) (h : ¬ Mended patterns wholeWords) :
    Table.compile? patterns wholeWords = none := by
  have hunread : Re.read? (Table.sourceText patterns wholeWords).toList = none :=
    Option.not_isSome_iff_eq_none.mp fun hread =>
      h ((isSome_read?_iff_mended hmalformed wholeWords).mp hread).1
  obtain ⟨p, hp, -⟩ := hmalformed
  rw [Table.compile?, if_neg (by simpa using List.ne_nil_of_mem hp), Re.parse?, ← Re.read?, hunread]
  rfl

/-- **A mended table compiles** if no two of its groups have the same name, limits of size aside. -/
theorem Mended.exists_compile? {patterns : List String} {wholeWords : Bool}
    (h : Mended patterns wholeWords) (hmalformed : ∃ p ∈ patterns, ¬ Valid p)
    (hnames : (groupNames (Table.sourceText patterns wholeWords)).Nodup)
    (hlimits : WithinLimits (Table.sourceText patterns wholeWords)) :
    ∃ t, Table.compile? patterns wholeWords = some t := by
  obtain ⟨n, hn⟩ := Option.isSome_iff_exists.mp
    ((isSome_read?_iff_mended hmalformed wholeWords).mpr ⟨h, hnames⟩)
  obtain ⟨hlevels, hfits⟩ := hlimits n hn
  obtain ⟨p, hp, -⟩ := hmalformed
  rw [Table.compile?, if_neg (by simpa using List.ne_nil_of_mem hp),
    Re.parse?_filter_fits.mpr ⟨n, hn, hlevels, hfits, rfl⟩]
  exact ⟨_, rfl⟩

end

/-- A group that is left open is contained, and is mended by one that closes it. -/
example : Contained "(a" ∧ ¬ Contained "b)" ∧ Mended ["(a", "b)"] true ∧ ¬ Mended ["(a", "b"] true := by
  decide

end Shortlist.Pattern
