import Shortlist.Proofs.Pattern.Words
import Shortlist.Proofs.Pipeline.Reprocessing
import Shortlist.Proofs.Record.Portable
import Shortlist.Proofs.Relevance.BuiltIn
import Shortlist.Proofs.Relevance.Deciders
import Shortlist.Proofs.Relevance.Keywords

/-!
# Running the program on its own output

What a run writes, joined to an array, is an input on which a run writes the same again.  Two facts
are put together for that.  The records of a file are portable, and the pipeline keeps them so; hence the
array is read as the very records that were kept (`parse_bracketed_lines`).  And these are settled and
have links of their own, so a fresh pipeline keeps all of them as they are (`Remembers.keepsAll`).
-/

namespace Shortlist

open Settings (Files Variables)

/-! ## 1. Kept records -/

/-- The pipeline keeps portable records portable. -/
theorem Pipeline.portable_of_mem_kept {j : Judges} {rs : List Record} (h : ∀ r ∈ rs, r.Portable) :
    ∀ k ∈ ((standard j).processBatch rs).kept, k.Portable := by
  intro k hk
  rw [(processBatch_remembers rs (standard_remembers j)).1] at hk
  obtain ⟨r, hr, before, hkept⟩ := exists_of_mem_kept hk
  obtain ⟨-, -, -, rfl⟩ := expected_keep_iff.mp hkept
  exact (h r hr).clean.of_extras_eq rfl

/-- A fresh pipeline keeps once more what a fresh pipeline kept. -/
theorem Pipeline.keepsAll_kept (j : Judges) (rs : List Record) :
    (standard j).KeepsAll ((standard j).processBatch rs).kept := by
  rw [(processBatch_remembers rs (standard_remembers j)).1]
  exact (standard_remembers j).keepsAll (kept_settled rs []) (kept_links rs []).2

/-! ## 2. Runs -/

/-- With these files and variables the program runs, and its input file has that content, if there is
one. -/
def RunsOn (files : Files) (vars : Variables) (content : Option ByteArray) : Prop :=
  ∃ settings path, runSettings files vars = .ok settings ∧ settings.run.input = some path ∧
    files path = content

/-- A run writes the lines of the records of its input that the usual pipeline keeps. -/
theorem RunsOn.runLines_eq {files : Files} {vars : Variables} {content : Option ByteArray}
    (h : RunsOn files vars content) {p : Pipeline} (hp : usualPipeline = .ok p) :
    runLines files vars = .ok (sift p content) := by
  obtain ⟨settings, path, hsettings, hpath, rfl⟩ := h
  rw [runLines, hsettings, hp]
  simp only [hpath]

/-- **What a run writes is a fixed point.**  If the input holds only integers of 64 bits in its extras,
then a run writes one line for each record of the input that the usual pipeline keeps, none of them with a
line feed in it; the lines joined to an array are read as exactly these records; and a run on that array
writes the same lines.  A run on an input that cannot be read writes nothing. -/
theorem output_is_fixed_point {files : Files} {vars : Variables} {content : Option ByteArray}
    (hrun : RunsOn files vars content)
    (hwhole : ∀ r ∈ Record.loadOrEmpty content, ∀ p ∈ r.extras, p.2.Whole) :
    ∃ p lines, usualPipeline = .ok p ∧ runLines files vars = .ok lines ∧
      lines = (p.processBatch (Record.loadOrEmpty content)).kept.map Record.line ∧
      (∀ rs, Record.load content = .ok rs → lines = (p.processBatch rs).kept.map Record.line) ∧
      (∀ line ∈ lines, '\n' ∉ line.toList) ∧
      Record.parse (Record.bracketed lines) =
        .ok (p.processBatch (Record.loadOrEmpty content)).kept ∧
      (∀ files' vars', RunsOn files' vars' (some (Record.bracketed lines).toUTF8) →
        runLines files' vars' = .ok lines) ∧
      ∀ fault, Record.load content = .error fault → lines = [] := by
  obtain ⟨j, -, -, hp⟩ := exists_usualPipeline
  have hportable : ∀ k ∈ ((Pipeline.standard j).processBatch (Record.loadOrEmpty content)).kept,
      k.Portable :=
    Pipeline.portable_of_mem_kept fun r hr => Record.portable_of_mem_loadOrEmpty hr (hwhole r hr)
  have hparse := Record.parse_bracketed_lines hportable
  refine ⟨_, _, hp, hrun.runLines_eq hp, rfl, ?_, ?_, hparse, ?_, ?_⟩
  · intro rs hload
    rw [sift, Record.loadOrEmpty, hload]
  · intro line hline
    obtain ⟨k, hk, rfl⟩ := List.mem_map.mp hline
    exact (hportable k hk).newline_notMem_line
  · intro files' vars' hagain
    -- the second run reads what the first one kept, and keeps it once more
    have hread := (Record.load_toUTF8 _).trans hparse
    rw [hagain.runLines_eq hp, sift, Record.loadOrEmpty]
    simp only [sift, hread]
    rw [(Pipeline.keepsAll_kept j _).1]
  · intro fault hfault
    rw [sift, Record.loadOrEmpty, hfault]
    rfl

/-! ## 3. A run without settings files -/

/-- No file but the input. -/
def onlyInput (content : ByteArray) : Files :=
  fun name => if name = "jobs.json" then some content else none

/-- The variable that names the input. -/
def inputVariable : Variables := [("JOBSIEVE__RUN__INPUT_PATH", "jobs.json")]

/-- The program runs on its input without any settings file. -/
theorem runsOn_onlyInput (content : ByteArray) :
    RunsOn (onlyInput content) inputVariable (some content) := by
  have hnone : (fun name => onlyInput content (settingsPath name)) = fun _ => none := by
    funext name
    refine if_neg fun heq => ?_
    have hfirst := congrArg (fun text => text.toList.head?) heq
    simp [settingsPath, String.toList_append] at hfirst
  have hinput : (runSettings (fun _ => none) inputVariable).toOption.map (·.run.input) =
      some (some "jobs.json") := by decide +kernel
  have hsame : runSettings (onlyInput content) inputVariable =
      runSettings (fun _ => none) inputVariable := by
    simp only [runSettings, hnone]
  rw [← hsame] at hinput
  cases hrun : runSettings (onlyInput content) inputVariable with
  | error fault =>
    rw [hrun] at hinput
    cases hinput
  | ok settings =>
    rw [hrun] at hinput
    exact ⟨settings, "jobs.json", hrun, Option.some.inj hinput, if_pos rfl⟩

/-! ## 4. A run on two postings -/

open Pattern (Misses Plain Table found)

/-- The built-in profile finds one keyword in the title of the posting, and nothing else. -/
theorem Scorer.score_uxLead {s : Scorer} (hs : ofProfile Profile.standard = .ok s) :
    s.isVetoed "UX lead" = false ∧ s.score "UX lead" "" "" "" = 8 := by
  have hcompiles := compiles_of_ofProfile hs
  have hveto : s.isVetoed "UX lead" = false :=
    Table.isMatch_eq_false hcompiles.negative (by decide +kernel)
  have htitle : s.title.isMatch "UX lead" = false :=
    Table.isMatch_eq_false hcompiles.title (by decide +kernel)
  have hsecondary : s.secondary.isMatch ("UX lead" ++ " " ++ "") = false :=
    Table.isMatch_eq_false hcompiles.secondary (by decide +kernel)
  have htools : s.tools.distinctMatches ("UX lead" ++ " " ++ "") = 0 :=
    (Table.distinctMatches_eq_zero_iff _ _).mpr
      (Table.isMatch_eq_false hcompiles.tools (by decide +kernel))
  have hdescription : s.broad.distinctMatches "" = 0 :=
    (Table.distinctMatches_eq_zero_iff _ _).mpr
      (Table.isMatch_eq_false hcompiles.broad (by decide +kernel))
  have hplace : s.locationPoints "" "" = 0 := by
    rw [hcompiles.places.locationPoints_eq_zero_iff, NamesNoPlace]
    decide +kernel
  have hwords : s.broad.distinctMatches "UX lead" = 1 := by
    have hplain : ∀ q ∈ Profile.standard.broadKeywords, Plain q := by decide
    have hothers : ∀ q ∈ Profile.standard.broadKeywords, q = "UX" ∨ Misses q true "UX lead" := by
      decide +kernel
    have hfound : found Profile.standard.broadKeywords true "UX lead" ⊆ {"UX"} :=
      fun q hq => (hothers q hq.1).resolve_right fun hmisses => hmisses.2 hq.2
    have hle := (Table.distinctMatches_le_of_plain hplain hcompiles.broad
      (Text.lowersByFolding_of_ascii (by decide))).trans (Set.ncard_le_ncard hfound)
    have hmatch : s.broad.isMatch "UX lead" = true :=
      (Table.isMatch_iff (fun q hq => (hplain q hq).valid) hcompiles.broad _).mpr
        ⟨"UX", by decide, by decide +kernel⟩
    have hne := mt (Table.distinctMatches_eq_zero_iff _ _).mp (by rw [hmatch]; decide)
    rw [Set.ncard_singleton] at hle
    omega
  refine ⟨hveto, ?_⟩
  unfold score parts
  simp only [hveto, htitle, hsecondary, htools, hdescription, hplace, hwords]
  rfl

/-- The built-in category tables find nothing in the posting. -/
theorem Categorizer.categorize_uxLead {c : Categorizer}
    (hc : ofTables CategoryTables.standard = .ok c) :
    c.jobType "UX lead" "" "" "" "" = .fulltime ∧ c.region "" "" = .unknown := by
  have hcompiles := compiles_of_ofTables hc
  have hfreelance : c.freelance.isMatch (joinPresent ["UX lead", "", "", ""]) = false :=
    Table.isMatch_eq_false hcompiles.freelance (by decide +kernel)
  have hhybrid : c.hybrid.isMatch (joinPresent ["UX lead", "", "", ""]) = false :=
    Table.isMatch_eq_false hcompiles.hybrid (by decide +kernel)
  have hremote : c.remote.isMatch (joinPresent ["UX lead", "", "", ""]) = false :=
    Table.isMatch_eq_false hcompiles.remote (by decide +kernel)
  have hegypt : c.egypt.isMatch ("" ++ " " ++ "") = false :=
    Table.isMatch_eq_false hcompiles.egypt (by decide +kernel)
  have huae : c.uae.isMatch ("" ++ " " ++ "") = false :=
    Table.isMatch_eq_false hcompiles.uae (by decide +kernel)
  have heurope : c.europe.isMatch ("" ++ " " ++ "") = false :=
    Table.isMatch_eq_false hcompiles.europe (by decide +kernel)
  constructor
  · rw [jobType, hcompiles.platforms, hfreelance, hhybrid, hremote]
    decide +kernel
  · rw [region, hegypt, huae, heurope]
    decide +kernel

/-- A posting with an extra number. -/
def uxLead : Record := { title := "UX lead", link := "a", extras := [("pay", .number (.integer 5000))] }

/-- A file of that posting, with blanks around its title, and another one with the same link. -/
def twoPostings : String :=
  "[\x7b\"title\":\" UX lead \",\"link\":\"a\",\"pay\":5000\x7d,"
    ++ "\x7b\"title\":\"UX lead\",\"link\":\"a\"\x7d]"

/-- The line for the posting. -/
def keptLine : String :=
  "\x7b\"title\":\"UX lead\",\"company\":\"\",\"location\":\"\",\"type\":\"\",\"link\":\"a\","
    ++ "\"source\":\"\",\"relevance_score\":8,\"job_category\":\"fulltime\","
    ++ "\"job_category_icon\":\"🏢\",\"region_category\":\"unknown\",\"region_icon\":\"📍\","
    ++ "\"is_remote\":false,\"pay\":5000\x7d"

open Pipeline in
/-- The usual pipeline keeps the first of the two postings. -/
theorem kept_twoPostings {j : Judges} (hs : Scorer.ofProfile Profile.standard = .ok j.scorer)
    (hc : Categorizer.ofTables CategoryTables.standard = .ok j.categorizer) :
    ((standard j).processBatch (Record.loadOrEmpty (some twoPostings.toUTF8))).kept.map Record.line =
      [keptLine] := by
  obtain ⟨hveto, hscore⟩ := Scorer.score_uxLead hs
  obtain ⟨htype, hregion⟩ := Categorizer.categorize_uxLead hc
  have hload : Record.loadOrEmpty (some twoPostings.toUTF8) =
      [{ uxLead with title := " UX lead " }, { uxLead with extras := [] }] := by decide +kernel
  have hclean : ({ uxLead with title := " UX lead " } : Record).clean = uxLead := by decide +kernel
  have hscored : j.scorer.scoreRecord uxLead = 8 := hscore
  have hfirst : expected j [] { uxLead with title := " UX lead " } =
      .keep { uxLead with
        relevanceScore := some 8
        jobCategory := some JobType.fulltime.name
        jobCategoryIcon := some JobType.fulltime.icon
        regionCategory := some Region.unknown.name
        regionIcon := some Region.unknown.icon
        isRemote := some false } := by
    rw [expected_keep_iff, hclean, hscored]
    refine ⟨Or.inr (by simp), hveto, by decide, ?_⟩
    simp only [uxLead, Categorizer.categorize, Option.getD_none, htype, hregion]
    rfl
  have hsecond : expected j [{ uxLead with title := " UX lead " }] { uxLead with extras := [] } =
      .drop .duplicate := if_pos (by decide +kernel)
  rw [hload, (processBatch_remembers _ (standard_remembers j)).1, expectedAll_cons, expectedAll_cons,
    List.nil_append, hfirst, hsecond, expectedAll, List.mapIdx_nil]
  decide +kernel

/-- A run on two postings writes a line for the first one, and a run on that line writes it again. -/
theorem output_is_fixed_point_twoPostings :
    RunsOn (onlyInput twoPostings.toUTF8) inputVariable (some twoPostings.toUTF8) ∧
      (∀ r ∈ Record.loadOrEmpty (some twoPostings.toUTF8), ∀ p ∈ r.extras, p.2.Whole) ∧
      runLines (onlyInput twoPostings.toUTF8) inputVariable = .ok [keptLine] ∧
      runLines (onlyInput (Record.bracketed [keptLine]).toUTF8) inputVariable = .ok [keptLine] := by
  have hruns : RunsOn (onlyInput twoPostings.toUTF8) inputVariable (some twoPostings.toUTF8) :=
    runsOn_onlyInput _
  have hwhole : ∀ r ∈ Record.loadOrEmpty (some twoPostings.toUTF8), ∀ p ∈ r.extras, p.2.Whole := by
    decide +kernel
  obtain ⟨p, lines, hp, hlines, heq, -, -, -, hagain, -⟩ := output_is_fixed_point hruns hwhole
  obtain ⟨j, hs, hc, hj⟩ := exists_usualPipeline
  obtain rfl := Except.ok.inj (hj.symm.trans hp)
  obtain rfl := heq.trans (kept_twoPostings hs hc)
  exact ⟨hruns, hwhole, hlines, hagain _ _ (runsOn_onlyInput _)⟩

end Shortlist
