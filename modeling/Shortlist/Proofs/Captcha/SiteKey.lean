import Shortlist.Proofs.Captcha.Detection
import Shortlist.Proofs.Captcha.Forms

/-!
# Where the site key comes from

A reader answers with the key of one form at the front of a text (`reads_attribute`, `reads_call`).  That is
all that the search has to know of it: for every form that some reader reads, `leftmost?` answers with the
key at the first place (`Reads.leftmost?_eq_some_iff`), and it has an answer if there is any place.

So a broken attribute in front of a good one does no harm, nor does a call of another kind in front of
one that holds a key: they are no places of the form.  And as attributes are searched for by themselves,
no call takes part in it as long as there is one.
-/

namespace Shortlist.Captcha

open Text (Occurs)

variable {cs key object : List Char} {c : Char}

/-! ## 1. Readers -/

/-- A reader looks for a form at the front of a text: it answers with the key behind the longest lead, and
with none if there is no such key. -/
structure Reads (at? : List Char → Option (List Char)) (form : Form) : Prop where
  nil : at? [] = none
  some_iff : ∀ {text key}, at? text = some key ↔ Longest form text key
  not_at : ∀ {text}, at? text = none → ∀ lead key, ¬ At form text lead key

theorem attributeKey?_eq_some_iff :
    attributeKey? cs = some key ↔ ∃ lead, At Attribute cs lead key := by
  rw [attributeKey?, Option.bind_eq_some_iff]
  constructor
  · rintro ⟨rest, hname, hquoted⟩
    obtain ⟨entry, behind, rfl, hentry⟩ := quoted?_eq_some_iff.mp hquoted
    refine ⟨_, entry, behind, ?_, rfl, hentry⟩
    rw [behind?_eq_some_iff.mp hname, List.append_assoc]
  · rintro ⟨lead, entry, behind, rfl, rfl, hentry⟩
    refine ⟨entry ++ behind, behind?_eq_some_iff.mpr (List.append_assoc _ _ _), ?_⟩
    exact quoted?_eq_some_iff.mpr ⟨entry, behind, rfl, hentry⟩

/-- **The reader of attributes.** -/
theorem reads_attribute : Reads attributeKey? Attribute where
  nil := rfl
  some_iff {text key} := by
    rw [attributeKey?_eq_some_iff]
    constructor
    · rintro ⟨lead, hat⟩
      refine ⟨lead, hat, ?_⟩
      obtain ⟨_, _, -, rfl, -⟩ := hat
      rintro _ _ ⟨_, _, -, rfl, -⟩
      exact Nat.le_refl _
    · rintro ⟨lead, hat, -⟩
      exact ⟨lead, hat⟩
  not_at h lead key hat := by
    rw [attributeKey?_eq_some_iff.mpr ⟨lead, hat⟩] at h
    cases h

/-- The characters of a first argument. -/
theorem ne_comma_of_mem {first : List Char} (h : ',' ∉ first) : ∀ c ∈ first, (c != ',') = true :=
  fun _ hc => bne_iff_ne.mpr (ne_of_mem_of_not_mem hc h)

/-- A text has one front of a call at most. -/
theorem Opening.unique {opening opening' : List Char} (h : Opening opening) (h' : Opening opening')
    {object' : List Char} (heq : opening ++ object = opening' ++ object') : opening = opening' := by
  obtain ⟨first, blanks, -, hfirst, hblanks, rfl⟩ := h
  obtain ⟨first', blanks', -, hfirst', hblanks', rfl⟩ := h'
  simp only [List.append_assoc, List.cons_append, List.append_cancel_left_eq, List.nil_append] at heq
  obtain ⟨rfl, hrest⟩ := Text.append_cons_inj (by decide)
    (ne_comma_of_mem hfirst) (ne_comma_of_mem hfirst') heq
  obtain ⟨rfl, -⟩ := Text.append_cons_inj (by decide) hblanks hblanks' hrest
  rfl

/-- **The reader of calls** reads the object behind the front of a call. -/
theorem callKey?_eq_some_iff :
    callKey? cs = some key ↔ ∃ opening object,
      Opening opening ∧ cs = opening ++ object ∧ lastEntryKey? object = some key := by
  have hcomma : (',' != ',') = false := by decide
  have hbrace : Text.isBlank '{' = false := by decide
  rw [callKey?, Option.bind_eq_some_iff]
  constructor
  · rintro ⟨rest, hname, h⟩
    rw [behind?_eq_some_iff] at hname
    split at h
    · cases h
    · rename_i hnonempty
      split at h
      · rename_i second hdrop
        obtain ⟨-, first, hfirst, rfl⟩ := Text.dropWhile_eq_cons_iff.mp hdrop
        rw [Text.takeWhile_append_cons hfirst hcomma, List.isEmpty_iff] at hnonempty
        split at h
        · rename_i object hblank
          obtain ⟨blanks, hblanks, rfl⟩ := (dropWhile_isBlank_iff hbrace).mp hblank
          have hmem : ',' ∉ first := fun hmem => absurd (hfirst ',' hmem) (by decide)
          exact ⟨_, object, ⟨first, blanks, hnonempty, hmem, hblanks, rfl⟩, by simp [hname], h⟩
        · cases h
      · cases h
  · rintro ⟨_, object, ⟨first, blanks, hnonempty, hfirst, hblanks, rfl⟩, rfl, h⟩
    refine ⟨first ++ ',' :: (blanks ++ '{' :: object), behind?_eq_some_iff.mpr (by simp), ?_⟩
    have hdrop : (first ++ ',' :: (blanks ++ '{' :: object)).dropWhile (· != ',') =
        ',' :: (blanks ++ '{' :: object) :=
      Text.dropWhile_eq_cons_iff.mpr ⟨hcomma, first, ne_comma_of_mem hfirst, rfl⟩
    have hblank : (blanks ++ '{' :: object).dropWhile Text.isBlank = '{' :: object :=
      (dropWhile_isBlank_iff hbrace).mpr ⟨blanks, hblanks, rfl⟩
    rw [Text.takeWhile_append_cons (ne_comma_of_mem hfirst) hcomma, if_neg (by simpa), hdrop]
    simp only [hblank]
    exact h

/-- A call is its front and, behind it, an entry that is not behind a closing brace. -/
theorem at_call_iff {lead : List Char} :
    At Call cs lead key ↔ ∃ opening skipped object, Opening opening ∧ lead = opening ++ skipped ∧
      cs = opening ++ object ∧ Skips object skipped key := by
  constructor
  · rintro ⟨entry, behind, rfl, opening, skipped, hopening, hbrace, rfl, hentry⟩
    refine ⟨opening, skipped, skipped ++ (entry ++ behind), hopening, rfl, by simp,
      entry ++ behind, rfl, hbrace, ?_⟩
    exact entryKey?_eq_some_iff.mpr ⟨entry, behind, rfl, hentry⟩
  · rintro ⟨opening, skipped, _, hopening, rfl, rfl, rest, rfl, hbrace, hkey⟩
    obtain ⟨entry, behind, rfl, hentry⟩ := entryKey?_eq_some_iff.mp hkey
    exact ⟨entry, behind, by simp, opening, skipped, hopening, hbrace, rfl, hentry⟩

/-- **The reader of calls.** -/
theorem reads_call : Reads callKey? Call where
  nil := rfl
  some_iff {text key} := by
    rw [callKey?_eq_some_iff]
    constructor
    · rintro ⟨opening, object, hopening, rfl, hkey⟩
      obtain ⟨skipped, hskips, hlast⟩ := exists_skips_of_lastEntryKey? hkey
      refine ⟨opening ++ skipped, at_call_iff.mpr ⟨_, _, _, hopening, rfl, rfl, hskips⟩, ?_⟩
      intro lead' key' hat
      obtain ⟨opening', skipped', object', hopening', rfl, hsplit, hskips'⟩ := at_call_iff.mp hat
      obtain rfl := hopening.unique hopening' hsplit
      obtain rfl := List.append_cancel_left hsplit
      have hle := hlast skipped' key' hskips'
      simp only [List.length_append]
      omega
    · rintro ⟨lead, hat, hlongest⟩
      obtain ⟨opening, skipped, object, hopening, rfl, rfl, hskips⟩ := at_call_iff.mp hat
      refine ⟨opening, object, hopening, rfl, ?_⟩
      rcases hkey : lastEntryKey? object with - | last
      · exact absurd hskips (not_skips_of_lastEntryKey? hkey skipped key)
      · obtain ⟨skipped', hskips', hlast⟩ := exists_skips_of_lastEntryKey? hkey
        have hle := hlast skipped key hskips
        have hge := hlongest (opening ++ skipped') last
          (at_call_iff.mpr ⟨_, _, _, hopening, rfl, rfl, hskips'⟩)
        simp only [List.length_append] at hge
        rw [hskips.unique hskips' (by omega)]
  not_at h lead key hat := by
    obtain ⟨opening, skipped, object, hopening, rfl, rfl, hskips⟩ := at_call_iff.mp hat
    rcases hkey : lastEntryKey? object with - | last
    · exact not_skips_of_lastEntryKey? hkey skipped key hskips
    · rw [callKey?_eq_some_iff.mpr ⟨opening, object, hopening, rfl, hkey⟩] at h
      cases h

/-! ## 2. The leftmost place -/

section Leftmost

variable {at? : List Char → Option (List Char)} {form : Form} {key' : List Char}

/-- A form is had at the front, or behind the first character. -/
theorem has_cons_iff :
    Has form (c :: cs) ↔ (∃ lead key, At form (c :: cs) lead key) ∨ Has form cs := by
  constructor
  · rintro ⟨front, rest, lead, key, hsplit, hat⟩
    cases front with
    | nil =>
      rw [List.nil_append] at hsplit
      exact Or.inl ⟨lead, key, hsplit ▸ hat⟩
    | cons d front =>
      exact Or.inr ⟨front, rest, lead, key, (List.cons.inj hsplit).2, hat⟩
  · rintro (⟨lead, key, hat⟩ | ⟨front, rest, lead, key, rfl, hat⟩)
    · exact ⟨[], c :: cs, lead, key, rfl, hat⟩
    · exact ⟨c :: front, rest, lead, key, rfl, hat⟩

/-- A place that comes first can only be the front or, if nothing is there, the first one behind it. -/
theorem First.cons (h : First form cs key) (hfront : ∀ lead key, ¬ At form (c :: cs) lead key) :
    First form (c :: cs) key := by
  obtain ⟨front, rest, rfl, hlongest, hfirst⟩ := h
  refine ⟨c :: front, rest, rfl, hlongest, ?_⟩
  intro front' rest' lead' key' hsplit hat
  cases front' with
  | nil =>
    rw [List.nil_append] at hsplit
    exact absurd (hsplit ▸ hat) (hfront lead' key')
  | cons d front' =>
    exact Nat.succ_le_succ (hfirst front' rest' lead' key' (List.cons.inj hsplit).2 hat)

/-- No place is overlooked. -/
theorem Reads.not_has_of_leftmost? (h : Reads at? form) :
    ∀ {text : List Char}, leftmost? at? text = none → ¬ Has form text
  | [], _ => by
    rintro ⟨front, rest, lead, key, hsplit, hat⟩
    obtain ⟨rfl, rfl⟩ := List.append_eq_nil_iff.mp hsplit.symm
    exact h.not_at h.nil lead key hat
  | c :: text, hnone => by
    rw [leftmost?] at hnone
    split at hnone
    · cases hnone
    · rename_i hfront
      rw [has_cons_iff]
      rintro (⟨lead, key, hat⟩ | hhas)
      · exact h.not_at hfront lead key hat
      · exact h.not_has_of_leftmost? hnone hhas

/-- **The search answers with the first key.** -/
theorem Reads.first_of_leftmost? (h : Reads at? form) :
    ∀ {text key : List Char}, leftmost? at? text = some key → First form text key
  | [], _, hkey => by cases hkey
  | c :: text, key, hkey => by
    rw [leftmost?] at hkey
    split at hkey
    · rename_i found hfound
      obtain rfl := Option.some.inj hkey
      exact ⟨[], c :: text, rfl, h.some_iff.mp hfound, fun _ _ _ _ _ _ => Nat.zero_le _⟩
    · rename_i hnone
      exact (h.first_of_leftmost? hkey).cons (h.not_at hnone)

/-- There is one first key at most. -/
theorem Reads.first_unique (h : Reads at? form) {text : List Char} (hfirst : First form text key)
    (hfirst' : First form text key') : key = key' := by
  obtain ⟨front, rest, rfl, hlongest, hleft⟩ := hfirst
  obtain ⟨front', rest', hsplit, hlongest', hleft'⟩ := hfirst'
  obtain ⟨lead, hat, -⟩ := id hlongest
  obtain ⟨lead', hat', -⟩ := id hlongest'
  have hle := hleft front' rest' lead' key' hsplit hat'
  have hge := hleft' front rest lead key rfl hat
  obtain ⟨-, rfl⟩ := List.append_inj hsplit (Nat.le_antisymm hle hge)
  rw [← h.some_iff] at hlongest hlongest'
  exact Option.some.inj (hlongest.symm.trans hlongest')

/-- **The search for the leftmost place.** -/
theorem Reads.leftmost?_eq_some_iff (h : Reads at? form) {text : List Char} :
    leftmost? at? text = some key ↔ First form text key := by
  refine ⟨h.first_of_leftmost?, fun hfirst => ?_⟩
  rcases hsearch : leftmost? at? text with - | found
  · obtain ⟨front, rest, hsplit, ⟨lead, hat, -⟩, -⟩ := hfirst
    exact absurd ⟨front, rest, lead, key, hsplit, hat⟩ (h.not_has_of_leftmost? hsearch)
  · rw [h.first_unique hfirst (h.first_of_leftmost? hsearch)]

/-- The search has an answer exactly if some part of the text has the form. -/
theorem Reads.isSome_leftmost?_iff (h : Reads at? form) {text : List Char} :
    (leftmost? at? text).isSome ↔ Has form text := by
  constructor
  · intro hsome
    obtain ⟨key, hkey⟩ := Option.isSome_iff_exists.mp hsome
    obtain ⟨front, rest, hsplit, ⟨lead, hat, -⟩, -⟩ := h.first_of_leftmost? hkey
    exact ⟨front, rest, lead, key, hsplit, hat⟩
  · intro hhas
    rcases hsearch : leftmost? at? text with - | found
    · exact absurd hhas (h.not_has_of_leftmost? hsearch)
    · rfl

end Leftmost

/-! ## 3. Site keys -/

section Page

variable {body : String} {siteKey : String}

theorem siteKey?_eq (body : String) :
    siteKey? body = ((leftmost? attributeKey? body.toList).or
      (leftmost? callKey? body.toList)).map String.ofList := by
  rw [siteKey?]
  cases leftmost? attributeKey? body.toList <;> rfl

/-- Making texts of keys. -/
theorem map_ofList_eq_some_iff {key? : Option (List Char)} :
    key?.map String.ofList = some siteKey ↔ key? = some siteKey.toList := by
  rw [Option.map_eq_some_iff]
  constructor
  · rintro ⟨key, rfl, rfl⟩
    rw [String.toList_ofList]
  · rintro rfl
    exact ⟨siteKey.toList, rfl, String.ofList_toList⟩

/-- **With an attribute** the site key is the one of the first attribute. -/
theorem siteKey?_of_has (h : Has Attribute body.toList) :
    siteKey? body = some siteKey ↔ First Attribute body.toList siteKey.toList := by
  obtain ⟨key, hkey⟩ := Option.isSome_iff_exists.mp (reads_attribute.isSome_leftmost?_iff.mpr h)
  rw [siteKey?_eq, map_ofList_eq_some_iff, ← reads_attribute.leftmost?_eq_some_iff, hkey,
    Option.some_or]

/-- Without an attribute, the site key is left to the calls. -/
theorem siteKey?_eq_of_not_has (h : ¬ Has Attribute body.toList) :
    siteKey? body = (leftmost? callKey? body.toList).map String.ofList := by
  have hnone : leftmost? attributeKey? body.toList = none := by
    rw [← Option.not_isSome_iff_eq_none, reads_attribute.isSome_leftmost?_iff]
    exact h
  rw [siteKey?_eq, hnone, Option.none_or]

/-- **Without an attribute** the site key is the one of the first call. -/
theorem siteKey?_of_not_has (h : ¬ Has Attribute body.toList) :
    siteKey? body = some siteKey ↔ First Call body.toList siteKey.toList := by
  rw [siteKey?_eq_of_not_has h, map_ofList_eq_some_iff, ← reads_call.leftmost?_eq_some_iff]

/-- Without an attribute there is a site key exactly if there is a call that holds one. -/
theorem isSome_siteKey?_of_not_has (h : ¬ Has Attribute body.toList) :
    (siteKey? body).isSome ↔ Has Call body.toList := by
  rw [siteKey?_eq_of_not_has h, Option.isSome_map, reads_call.isSome_leftmost?_iff]

/-- What an attribute holds is in quotes. -/
theorem quoted_of_attribute {lead key entry : List Char} (h : Attribute lead key entry) :
    ∃ quoted, Quoted key quoted ∧ quoted <:+ entry :=
  ⟨entry, h.2, List.suffix_rfl⟩

/-- What a call holds is in quotes. -/
theorem quoted_of_call {lead key entry : List Char} (h : Call lead key entry) :
    ∃ quoted, Quoted key quoted ∧ quoted <:+ entry := by
  obtain ⟨-, -, -, -, -, quote, before, after, quoted, -, -, -, hquoted, rfl⟩ := h
  exact ⟨quoted, hquoted, "sitekey".toList ++ quote ++ before ++ ':' :: after, by simp⟩

/-- **A key is a part of the text**, not empty, and without quotes. -/
theorem First.part {form : Form} {text : List Char} (h : First form text key)
    (hform : ∀ {lead key entry}, form lead key entry → ∃ quoted, Quoted key quoted ∧ quoted <:+ entry) :
    key ≠ [] ∧ (∀ c ∈ key, ¬ Quote c) ∧ key <:+: text := by
  obtain ⟨front, rest, rfl, ⟨lead, ⟨entry, behind, rfl, hentry⟩, -⟩, -⟩ := h
  obtain ⟨quoted, ⟨hnonempty, hnone, q, q', -, -, rfl⟩, before, rfl⟩ := hform hentry
  exact ⟨hnonempty, hnone, front ++ lead ++ before ++ [q], [q'] ++ behind, by simp⟩

/-- The site key of a page is a part of it, not empty, and without quotes. -/
theorem part_of_siteKey? (h : siteKey? body = some siteKey) :
    siteKey ≠ "" ∧ Occurs siteKey body ∧ ∀ c ∈ siteKey.toList, ¬ Quote c := by
  have hkey : siteKey.toList ≠ [] ∧ (∀ c ∈ siteKey.toList, ¬ Quote c) ∧
      siteKey.toList <:+: body.toList := by
    by_cases hhas : Has Attribute body.toList
    · exact ((siteKey?_of_has hhas).mp h).part quoted_of_attribute
    · exact ((siteKey?_of_not_has hhas).mp h).part quoted_of_call
  obtain ⟨hnonempty, hnone, hpart⟩ := hkey
  refine ⟨?_, Text.occurs_iff_isInfix.mpr hpart, hnone⟩
  rintro rfl
  exact hnonempty rfl

/-- A page that shows the first signature is of the first kind, with the site key that is found. -/
theorem classify_of_shows_first (h : Kind.recaptchaV2.Shows body) :
    classify body = .found .recaptchaV2 (siteKey? body) := by
  obtain ⟨kind, key, hfound, hrank⟩ := exists_found_of_shows h
  have hkind : kind = .recaptchaV2 := by
    cases kind <;> first | rfl | exact absurd hrank (by decide)
  subst hkind
  rw [hfound, (classify_eq_found_iff.mp hfound).2, if_pos rfl]

/-- A verdict with a site key is of the first kind, and the key is the one that is found. -/
theorem siteKey?_of_verdict (h : (classify body).siteKey = some siteKey) :
    classify body = .found .recaptchaV2 (some siteKey) ∧ siteKey? body = some siteKey := by
  rcases hverdict : classify body with - | ⟨kind, key?⟩
  · rw [hverdict] at h
    cases h
  · rw [hverdict] at h
    obtain rfl : key? = some siteKey := h
    have hset := (classify_eq_found_iff.mp hverdict).2
    split at hset
    · rename_i hkind
      exact ⟨by rw [hkind], hset.symm⟩
    · cases hset

/-- **The site key of a page.**  It is set only together with the first kind, and then it is a part of the
page, not empty, and without quotes.  On a page with one of the two marks of that kind: if some part of the
page is an attribute that holds a key, it is the key of the leftmost one; otherwise it is set exactly if
some part of the page is a call that holds one, and then it is the key of the leftmost call, of the last
entry in it that begins before the first closing brace. -/
theorem site_key_of_page (body : String) :
    (∀ key, (classify body).siteKey = some key →
      classify body = .found .recaptchaV2 (some key) ∧
        key ≠ "" ∧ Occurs key body ∧ ∀ c ∈ key.toList, ¬ Quote c) ∧
    (Kind.recaptchaV2.Shows body → Has Attribute body.toList →
      ∃ key, classify body = .found .recaptchaV2 (some key) ∧
        ∀ other, First Attribute body.toList other ↔ other = key.toList) ∧
    (Kind.recaptchaV2.Shows body → ¬ Has Attribute body.toList →
      ∃ key?, classify body = .found .recaptchaV2 key? ∧ (key?.isSome ↔ Has Call body.toList) ∧
        ∀ key, key? = some key ↔ First Call body.toList key.toList) := by
  refine ⟨?_, ?_, ?_⟩
  · intro key hkey
    obtain ⟨hverdict, hfound⟩ := siteKey?_of_verdict hkey
    exact ⟨hverdict, part_of_siteKey? hfound⟩
  · intro hshows hhas
    obtain ⟨key, hkey⟩ := Option.isSome_iff_exists.mp (reads_attribute.isSome_leftmost?_iff.mpr hhas)
    have hfirst := reads_attribute.leftmost?_eq_some_iff.mp hkey
    refine ⟨String.ofList key, ?_, fun other => ?_⟩
    · rw [classify_of_shows_first hshows, (siteKey?_of_has hhas).mpr]
      rwa [String.toList_ofList]
    · rw [String.toList_ofList]
      refine ⟨fun hother => reads_attribute.first_unique hother hfirst, ?_⟩
      rintro rfl
      exact hfirst
  · intro hshows hhas
    exact ⟨siteKey? body, classify_of_shows_first hshows, isSome_siteKey?_of_not_has hhas,
      fun _ => siteKey?_of_not_has hhas⟩

end Page

/-- Two pages.  On the first one a call and two broken attributes stand in front of an attribute whose
quotes are of different kinds, and another attribute behind it.  On the second one a call without an
entry stands in front of one with two of them, and the attribute is broken. -/
theorem site_key_of_two_pages :
    let widgets := "grecaptcha.render(a,\x7bsitekey:'CALL'\x7d) data-sitekey=\"\" " ++
      "data-sitekey=BARE data-sitekey='FIRST\" data-sitekey='SECOND'"
    let calls := "data-sitekey=BARE grecaptcha.render(a,\x7b\x7d) grecaptcha.render(b,\n\x7b" ++
      "'sitekey' : 'OLD',sitekey:\n'NEW',x:\x7d,sitekey:'LATE')"
    Kind.recaptchaV2.Shows widgets ∧ Has Attribute widgets.toList ∧
      classify widgets = .found .recaptchaV2 (some "FIRST") ∧
      First Attribute widgets.toList "FIRST".toList ∧ Occurs "FIRST" widgets ∧
      Kind.recaptchaV2.Shows calls ∧ ¬ Has Attribute calls.toList ∧
      classify calls = .found .recaptchaV2 (some "NEW") ∧
      Has Call calls.toList ∧ First Call calls.toList "NEW".toList := by
  intro widgets calls
  have hwidgets : classify widgets = .found .recaptchaV2 (some "FIRST") := by decide +kernel
  have hcalls : classify calls = .found .recaptchaV2 (some "NEW") := by decide +kernel
  have hattribute : Has Attribute widgets.toList :=
    reads_attribute.isSome_leftmost?_iff.mp (by decide +kernel)
  have hbroken : ¬ Has Attribute calls.toList := by
    rw [← reads_attribute.isSome_leftmost?_iff]
    decide +kernel
  obtain ⟨hpart, hfirst, -⟩ := site_key_of_page widgets
  obtain ⟨-, -, hcall⟩ := site_key_of_page calls
  have hshows := (first_of_found hwidgets).1
  have hshows' := (first_of_found hcalls).1
  obtain ⟨key, hkey, hunique⟩ := hfirst hshows hattribute
  obtain ⟨key?, hkey?, hsome, hiff⟩ := hcall hshows' hbroken
  rw [hwidgets] at hkey
  rw [hcalls] at hkey?
  cases hkey
  cases hkey?
  exact ⟨hshows, hattribute, hwidgets, (hunique _).mpr rfl, (hpart "FIRST" (by rw [hwidgets]; rfl)).2.2.1,
    hshows', hbroken, hcalls, hsome.mp rfl, (hiff "NEW").mp rfl⟩

end Shortlist.Captcha
