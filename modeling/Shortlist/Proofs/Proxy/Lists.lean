import Mathlib.Data.List.Forall2
import Shortlist.Proofs.Text.Splitting
import Shortlist.Proxy.Pool

/-!
# Lists of endpoints

An endpoint is written as a line, and a list of endpoints as lines, among which there may be blank lines,
comments and lines that describe nothing.  Whatever the layout, loading the list adds the endpoints that
were written, in their order, and nothing else.

A line is trimmed as a whole, then it is decided whether it is a comment, and then its parts are trimmed,
each by itself.  So everything depends on the trimmed parts of a line alone, and these are the parts that
were written.  How a line ends makes no difference either, as a carriage return is a blank.
-/

namespace Shortlist.Proxy

open Text (Blanks Trimmed trimChars)

/-! ## 1. Ports -/

/-- The text writes a number with decimal digits, and with a plus sign in front or not. -/
def Writes (n : Nat) (cs : List Char) : Prop :=
  ∃ digits, (cs = digits ∨ cs = '+' :: digits) ∧ digits ≠ [] ∧
    (∀ d ∈ digits, d.isDigit = true) ∧ Nat.ofDigitChars 10 digits 0 = n

/-- Digits are read as the number they write. -/
theorem digits?_eq_some_iff {cs : List Char} {n : Nat} :
    Number.digits? cs = some n ↔
      cs ≠ [] ∧ (∀ d ∈ cs, d.isDigit = true) ∧ Nat.ofDigitChars 10 cs 0 = n := by
  have hvalue : Number.natOfDigits cs = Nat.ofDigitChars 10 cs 0 := rfl
  rw [Number.digits?, hvalue]
  simp [and_assoc]

/-- **A natural number is read** from the texts that write it, unless it is above the limit. -/
theorem natural?_eq_some_iff {limit n : Nat} {cs : List Char} :
    Number.natural? limit cs = some n ↔ Writes n cs ∧ n ≤ limit := by
  have hread : ∀ digits, ((Number.digits? digits).bind fun m => if m ≤ limit then some m else none) =
      some n ↔ (digits ≠ [] ∧ (∀ d ∈ digits, d.isDigit = true) ∧
        Nat.ofDigitChars 10 digits 0 = n) ∧ n ≤ limit := by
    intro digits
    rw [← digits?_eq_some_iff]
    simp [Option.bind_eq_some_iff]
  have hplus : ∀ {rest : List Char}, (∀ d ∈ '+' :: rest, d.isDigit = true) → False := fun h =>
    absurd (h '+' List.mem_cons_self) (by decide)
  unfold Number.natural?
  split
  · rename_i rest
    rw [hread]
    refine and_congr_left fun _ => ⟨fun h => ⟨rest, Or.inr rfl, h⟩, ?_⟩
    rintro ⟨digits, rfl | heq, hne, hdigits, hn⟩
    · exact (hplus hdigits).elim
    · cases heq
      exact ⟨hne, hdigits, hn⟩
  · rename_i hsign
    rw [hread]
    refine and_congr_left fun _ => ⟨fun h => ⟨cs, Or.inl rfl, h⟩, ?_⟩
    rintro ⟨digits, rfl | rfl, h⟩
    · exact h
    · exact absurd rfl (hsign digits)

namespace Endpoint

/-- **A port is read** from the texts that write it; there is no port 0. -/
theorem port?_eq_some_iff {cs : List Char} {port : UInt16} :
    port? cs = some port ↔ Writes port.toNat cs ∧ port ≠ 0 := by
  have hlt := port.toNat_lt
  simp only [port?, Option.bind_eq_some_iff, Option.ite_none_left_eq_some, natural?_eq_some_iff,
    Option.some.injEq]
  constructor
  · rintro ⟨n, ⟨hn, hle⟩, hzero, rfl⟩
    have hvalue : (UInt16.ofNat n).toNat = n := UInt16.toNat_ofNat_of_lt' (Nat.lt_succ_of_le hle)
    refine ⟨by rwa [hvalue], fun heq => hzero ?_⟩
    rw [← hvalue, heq]
    rfl
  · rintro ⟨hport, hzero⟩
    refine ⟨port.toNat, ⟨hport, by omega⟩, fun heq => hzero (UInt16.toNat_inj.mp heq), ?_⟩
    exact UInt16.ofNat_toNat

/-- No port is read from any other text. -/
theorem port?_eq_none_iff {cs : List Char} :
    port? cs = none ↔ ∀ n, 1 ≤ n → n ≤ 65535 → ¬ Writes n cs := by
  rw [Option.eq_none_iff_forall_ne_some]
  constructor
  · intro h n hpos hle hn
    have hvalue : (UInt16.ofNat n).toNat = n := UInt16.toNat_ofNat_of_lt' (Nat.lt_succ_of_le hle)
    refine h (UInt16.ofNat n) (port?_eq_some_iff.mpr ⟨by rwa [hvalue], fun hzero => ?_⟩)
    rw [hzero] at hvalue
    exact absurd hvalue (by simpa using Nat.ne_of_lt hpos)
  · intro h port hport
    obtain ⟨hn, hzero⟩ := port?_eq_some_iff.mp hport
    have hlt := port.toNat_lt
    have hpos : port.toNat ≠ 0 := fun heq => hzero (UInt16.toNat_inj.mp heq)
    exact h port.toNat (by omega) (by omega) hn

/-! ## 2. Lines that describe nothing -/

/-- The trimmed parts of a line are not those of an endpoint. -/
inductive Faulty : List (List Char) → Prop where
  | count {parts} (htwo : parts.length ≠ 2) (hfour : parts.length ≠ 4) : Faulty parts
  /-- The host, the user or the password is missing. -/
  | missing {parts i} (hi : i ≠ 1) (h : parts[i]? = some []) : Faulty parts
  | port {parts port} (h : parts[1]? = some port)
      (hport : ∀ n, 1 ≤ n → n ≤ 65535 → ¬ Writes n port) : Faulty parts

/-- The line is not one that describes an endpoint. -/
def Malformed (line : List Char) : Prop := Faulty ((line.splitOn ':').map trimChars)

theorem isBlank_colon : Text.isBlank ':' = false := by decide

/-- Parts whose port is none and whose other parts may be missing. -/
theorem faulty_iff {host port : List Char} {credentials : List (List Char)}
    (hcount : credentials.length = 0 ∨ credentials.length = 2) :
    Faulty (host :: port :: credentials) ↔ host = [] ∨ [] ∈ credentials ∨ port? port = none := by
  constructor
  · intro h
    cases h with
    | count htwo hfour =>
      simp only [List.length_cons] at htwo hfour
      omega
    | @missing i hi h =>
      match i, hi, h with
      | 0, _, h => exact Or.inl (Option.some.inj h)
      | i + 2, _, h => exact Or.inr (Or.inl (List.mem_of_getElem? (i := i) h))
    | port h hport =>
      cases h
      exact Or.inr (Or.inr (port?_eq_none_iff.mpr hport))
  · rintro (rfl | hmem | hport)
    · exact .missing Nat.zero_ne_one rfl
    · obtain ⟨i, hi⟩ := List.mem_iff_getElem?.mp hmem
      exact .missing (i := i + 2) (by omega) hi
    · exact .port rfl (port?_eq_none_iff.mp hport)

/-- **Malformed lines describe nothing**, and no others do. -/
theorem ofLine?_eq_none_iff {line : List Char} : ofLine? line = none ↔ Malformed line := by
  unfold ofLine? Malformed
  rw [Text.splitAt_eq_splitOn]
  split
  · rename_i host port hparts
    rw [hparts, faulty_iff (Or.inl rfl)]
    by_cases hhost : host = []
    · simp [hhost]
    · simp [hhost]
  · rename_i host port user password hparts
    rw [hparts, faulty_iff (Or.inr rfl)]
    by_cases hpart : host = [] ∨ user = [] ∨ password = []
    · rcases hpart with rfl | rfl | rfl
      · simp
      · simp
      · simp
    · obtain ⟨hhost, huser, hpassword⟩ := by simpa only [not_or] using hpart
      simp [hhost, huser, hpassword, Ne.symm huser, Ne.symm hpassword]
  · rename_i htwo hfour
    refine iff_of_true rfl (.count (fun h => ?_) fun h => ?_)
    · obtain ⟨host, port, hparts⟩ := List.length_eq_two.mp h
      exact htwo host port hparts
    · obtain ⟨host, port, user, password, hparts⟩ := List.length_eq_four.mp h
      exact hfour host port user password hparts

/-! ## 3. Written endpoints -/

/-- The text can be written as a part of a line. -/
structure Writable (cs : List Char) : Prop where
  nonempty : cs ≠ []
  colonFree : ':' ∉ cs
  oneLine : '\n' ∉ cs
  trimmed : Trimmed cs

/-- The endpoint can be written as a line: a line tells no protocol and no country, and neither a text
that would be taken for something else nor one half of the credentials. -/
structure Listable (e : Endpoint) : Prop where
  protocol : e.protocol = .http
  country : e.country = none
  host : Writable e.host.toList
  noComment : e.host.toList.head? ≠ some '#'
  port : e.port ≠ 0
  credentials : (e.username = none ∧ e.password = none) ∨
    ∃ user password, e.username = some user ∧ e.password = some password ∧
      Writable user.toList ∧ Writable password.toList

/-- The endpoint as it is before anything was reported on it. -/
def fresh (e : Endpoint) : Endpoint := { e with failures := 0 }

/-- The parts of the line of an endpoint. -/
def parts (e : Endpoint) : List (List Char) :=
  e.host.toList :: Nat.toDigits 10 e.port.toNat ::
    match e.username, e.password with
    | some user, some password => [user.toList, password.toList]
    | _, _ => []

/-- The part is written with blanks around it, but no line feeds. -/
def Padded (part text : List Char) : Prop :=
  ∃ front behind, Blanks front ∧ Blanks behind ∧ '\n' ∉ front ∧ '\n' ∉ behind ∧
    text = front ++ part ++ behind

/-- The line writes the parts of an endpoint with colons in between. -/
def WrittenAs (e : Endpoint) (line : List Char) : Prop :=
  ∃ texts, List.Forall₂ Padded e.parts texts ∧ line = [':'].intercalate texts

theorem Padded.trimChars {part text : List Char} (h : Padded part text) (hpart : Trimmed part) :
    Text.trimChars text = part := by
  obtain ⟨front, behind, hfront, hbehind, -, -, rfl⟩ := h
  rw [Text.trimChars_append hfront hbehind, Text.trimChars_eq_self_iff.mpr hpart]

/-- A digit is no blank: the digits stand between the space and the blanks outside of ASCII. -/
theorem isBlank_of_isDigit {c : Char} (h : c.isDigit = true) : Text.isBlank c = false := by
  obtain ⟨hlow, hhigh⟩ : 48 ≤ c.toNat ∧ c.toNat ≤ 57 := by
    simpa [Char.isDigit, UInt32.le_iff_toNat_le] using h
  have htab : 13 < c.toNat := by omega
  have hspace : 32 < c.toNat := by omega
  have hbehind : c.toNat < 133 := by omega
  simp [Text.isBlank, Text.blankTable, Text.Ranges.holds, Text.Ranges.covers, htab, hspace, hbehind]

/-- The digits of a number can be written as a part. -/
theorem writable_toDigits (n : Nat) : Writable (Nat.toDigits 10 n) := by
  have hdigit : ∀ c ∈ Nat.toDigits 10 n, c.isDigit = true := fun c hc =>
    Nat.isDigit_of_mem_toDigits (by decide) (by decide) hc
  refine ⟨Nat.toDigits_ne_nil, fun hc => ?_, fun hc => ?_, fun h => ?_, fun h => ?_⟩
  · exact absurd (hdigit _ hc) (by decide)
  · exact absurd (hdigit _ hc) (by decide)
  · exact isBlank_of_isDigit (hdigit _ (List.getElem_mem h))
  · exact isBlank_of_isDigit (hdigit _ (List.getLast_mem h))

variable {e : Endpoint} {line : List Char}

theorem Listable.parts (h : e.Listable) : ∀ part ∈ e.parts, Writable part := by
  rcases h.credentials with ⟨huser, hpassword⟩ | ⟨user, password, huser, hpassword, hu, hp⟩
  · simp only [Endpoint.parts, huser, List.forall_mem_cons]
    exact ⟨h.host, writable_toDigits _, List.forall_mem_nil _⟩
  · simp only [Endpoint.parts, huser, hpassword, List.forall_mem_cons]
    exact ⟨h.host, writable_toDigits _, hu, hp, List.forall_mem_nil _⟩

/-- Parts that were written with blanks around them are found again by trimming. -/
theorem map_trimChars_of_padded {parts texts : List (List Char)}
    (h : List.Forall₂ Padded parts texts) (hparts : ∀ part ∈ parts, Writable part) :
    texts.map trimChars = parts ∧ ∀ text ∈ texts, ':' ∉ text ∧ '\n' ∉ text := by
  induction h with
  | nil => exact ⟨rfl, List.forall_mem_nil _⟩
  | @cons part text parts texts hpadded _ ih =>
    obtain ⟨hpart, hparts⟩ := List.forall_mem_cons.mp hparts
    obtain ⟨htrim, hfree⟩ := ih hparts
    refine ⟨by rw [List.map_cons, hpadded.trimChars hpart.trimmed, htrim],
      List.forall_mem_cons.mpr ⟨?_, hfree⟩⟩
    obtain ⟨front, behind, hfront, hbehind, hfront', hbehind', rfl⟩ := hpadded
    simp [hfront.notMem isBlank_colon, hbehind.notMem isBlank_colon, hpart.colonFree, hfront',
      hbehind', hpart.oneLine]

/-- A written line has no line feed, and its trimmed parts are those of the endpoint. -/
theorem WrittenAs.splitOn (h : e.WrittenAs line) (he : e.Listable) :
    (line.splitOn ':').map trimChars = e.parts ∧ '\n' ∉ line := by
  obtain ⟨texts, htexts, rfl⟩ := h
  obtain ⟨htrim, hfree⟩ := map_trimChars_of_padded htexts he.parts
  have hne : texts ≠ [] := by
    rintro rfl
    cases htrim
  refine ⟨?_, fun hmem => ?_⟩
  · rw [List.splitOn_intercalate ':' (fun text htext => (hfree text htext).1) hne, htrim]
  · rcases Text.mem_intercalate hmem with hmem | ⟨text, htext, hmem⟩
    · exact absurd hmem (by decide)
    · exact (hfree text htext).2 hmem

/-- **A written line is read as its endpoint**, whose failures were not written. -/
theorem WrittenAs.ofLine? (h : e.WrittenAs line) (he : e.Listable) :
    Endpoint.ofLine? line = some e.fresh := by
  have hport : port? (Nat.toDigits 10 e.port.toNat) = some e.port :=
    port?_eq_some_iff.mpr ⟨⟨_, Or.inl rfl, Nat.toDigits_ne_nil, fun d hd =>
      Nat.isDigit_of_mem_toDigits (by decide) (by decide) hd, Nat.ofDigitChars_ten_toDigits⟩, he.port⟩
  obtain ⟨host, port, protocol, username, password, country, failures⟩ := e
  obtain rfl : protocol = .http := he.protocol
  obtain rfl : country = none := he.country
  rw [Endpoint.ofLine?, Text.splitAt_eq_splitOn, (h.splitOn he).1]
  rcases he.credentials with ⟨huser, hpassword⟩ | ⟨user, pass, huser, hpassword, hu, hp⟩
  · cases huser
    cases hpassword
    simp [parts, hport, he.host.nonempty, fresh]
  · cases huser
    cases hpassword
    simp [parts, hport, he.host.nonempty, hu.nonempty, hp.nonempty, fresh]

/-! ## 4. Lines of a list -/

/-- The endpoint of a line of a list, if it is no comment. -/
def inLine? (line : List Char) : Option Endpoint :=
  if (trimChars line).head? == some '#' then none else ofLine? (trimChars line)

theorem ofList_eq (text : List Char) : ofList text = (Text.lines text).filterMap inLine? := rfl

/-- What a line of a list stands for: an endpoint, or nothing. -/
inductive StandsFor : List Char → List Endpoint → Prop where
  | endpoint {e : Endpoint} {line : List Char} (h : e.WrittenAs line) : StandsFor line [e]
  | blank {line : List Char} (hone : '\n' ∉ line) (h : Blanks line) : StandsFor line []
  | comment {line : List Char} (hone : '\n' ∉ line) (h : (trimChars line).head? = some '#') :
      StandsFor line []
  | malformed {line : List Char} (hone : '\n' ∉ line) (h : Malformed line) : StandsFor line []

/-- **The text is a list of endpoints**, in which every line but the last one has an end. -/
inductive Lists : List Char → List Endpoint → Prop where
  | last {line : List Char} {es : List Endpoint} (h : StandsFor line es) : Lists line es
  | line {line ending text : List Char} {es more : List Endpoint} (h : StandsFor line es)
      (hending : ending = ['\n'] ∨ ending = ['\r', '\n']) (htext : Lists text more) :
      Lists (line ++ ending ++ text) (es ++ more)

/-- A line is read like the same line without the blanks around it. -/
theorem ofLine?_trimChars (line : List Char) : ofLine? (trimChars line) = ofLine? line := by
  rw [ofLine?, ofLine?, Text.splitAt_eq_splitOn, Text.splitAt_eq_splitOn,
    Text.map_trimChars_splitOn_trimChars isBlank_colon]

/-- A line of an endpoint begins with the host, so it is no comment. -/
theorem WrittenAs.inLine? (h : e.WrittenAs line) (he : e.Listable) :
    Endpoint.inLine? line = some e.fresh := by
  have hhead : (trimChars line).head? = e.host.toList.head? := by
    obtain ⟨texts, htexts, rfl⟩ := h
    obtain ⟨c, more, hhost⟩ := List.exists_cons_of_ne_nil he.host.nonempty
    have hc : Text.isBlank c = false := by
      have hfirst := he.host.trimmed.1
      simp only [hhost] at hfirst
      exact hfirst (Nat.zero_lt_succ _)
    rw [parts, hhost] at htexts
    cases htexts with
    | cons hpadded _ =>
      obtain ⟨front, behind, hfront, -, -, -, rfl⟩ := hpadded
      rw [List.append_assoc, List.cons_append, ← Text.append_intercalate,
        ← @List.singleton_append _ c (more ++ behind), ← Text.append_intercalate,
        List.singleton_append, Text.head?_trimChars_append hfront hc, hhost, List.head?_cons]
  rw [Endpoint.inLine?, if_neg (by simpa [hhead] using he.noComment), ofLine?_trimChars,
    h.ofLine? he]

/-- **A line is read as what it stands for.** -/
theorem StandsFor.read {es : List Endpoint} (h : StandsFor line es) (hes : ∀ e ∈ es, e.Listable) :
    '\n' ∉ line ∧ (Endpoint.inLine? line).toList = es.map fresh := by
  cases h with
  | endpoint h =>
    have he := hes _ List.mem_cons_self
    exact ⟨(h.splitOn he).2, by rw [h.inLine? he]; rfl⟩
  | blank hone h =>
    refine ⟨hone, ?_⟩
    rw [inLine?, Text.trimChars_of_blanks h]
    rfl
  | comment hone h =>
    refine ⟨hone, ?_⟩
    rw [inLine?, h]
    rfl
  | malformed hone h =>
    refine ⟨hone, ?_⟩
    rw [inLine?, ofLine?_trimChars, ofLine?_eq_none_iff.mpr h, ite_self]
    rfl

/-- How a line ends makes no difference. -/
theorem inLine?_append_return (line : List Char) : inLine? (line ++ ['\r']) = inLine? line := by
  have htrim := Text.trimChars_append (List.forall_mem_nil _)
    (show Blanks ['\r'] by decide) line
  rw [List.nil_append] at htrim
  rw [inLine?, htrim, inLine?]

/-- **The endpoints of two lists** with a line feed in between are those of both. -/
theorem ofList_append (a b : List Char) : ofList (a ++ '\n' :: b) = ofList a ++ ofList b := by
  rw [ofList_eq, Text.lines_append, List.filterMap_append]
  rfl

theorem ofList_line {line : List Char} (h : '\n' ∉ line) : ofList line = (inLine? line).toList := by
  rw [ofList_eq, Text.lines_eq_singleton h]
  cases hline : inLine? line <;> simp [hline]

/-- **A list is read as the endpoints it was written for**, in order. -/
theorem Lists.ofList {text : List Char} {es : List Endpoint} (h : Lists text es)
    (hes : ∀ e ∈ es, e.Listable) : Endpoint.ofList text = es.map fresh := by
  induction h with
  | last h =>
    obtain ⟨hone, hread⟩ := h.read hes
    rw [ofList_line hone, hread]
  | @line line ending text es more h hending _ ih =>
    obtain ⟨hes, hmore⟩ := List.forall_mem_append.mp hes
    obtain ⟨hone, hread⟩ := h.read hes
    rw [List.map_append, ← ih hmore, ← hread]
    rcases hending with rfl | rfl
    · rw [List.append_assoc, List.singleton_append, ofList_append, ofList_line hone]
    · have hone' : '\n' ∉ line ++ ['\r'] := by simp [hone]
      have htext : line ++ ['\r', '\n'] ++ text = (line ++ ['\r']) ++ '\n' :: text := by simp
      rw [htext, ofList_append, ofList_line hone', inLine?_append_return]

end Endpoint

/-! ## 5. Loading -/

namespace Pool

/-- A pool with endpoints added last; nothing else about it changes. -/
def withAll (p : Pool) (es : List Endpoint) : Pool :=
  { p with
    entries := p.entries ++ (es.zipIdx p.nextId).map fun x => ⟨x.2, x.1⟩
    nextId := p.nextId + es.length
    enabled := p.enabled || !es.isEmpty }

/-- Adding endpoints one after another. -/
theorem foldl_add (p : Pool) (es : List Endpoint) : es.foldl add p = p.withAll es := by
  induction es generalizing p with
  | nil => simp [withAll]
  | cons e es ih =>
    rw [List.foldl_cons, ih]
    simp [withAll, add, Nat.add_assoc, Nat.add_comm 1]

/-- **A list of endpoints is loaded as it was written.** -/
theorem load_written (p : Pool) :
    (∀ (es : List Endpoint) (text : String), (∀ e ∈ es, e.Listable) →
      Endpoint.Lists text.toList es →
        p.load text = (p.withAll (es.map Endpoint.fresh), es.length)) ∧
    ∀ a b : String, p.load (a ++ "\n" ++ b) =
      (((p.load a).1.load b).1, (p.load a).2 + ((p.load a).1.load b).2) := by
  constructor
  · intro es text hes hlists
    rw [load, hlists.ofList hes, foldl_add, List.length_map]
  · intro a b
    have htext : (a ++ "\n" ++ b).toList = a.toList ++ '\n' :: b.toList := by simp
    rw [load, htext, Endpoint.ofList_append, List.foldl_append, List.length_append]
    rfl

/-- A comment, a line that says too little and a blank one between two endpoints, of which the second one
has credentials; the line ends differ. -/
theorem load_written_mixed :
    let plain : Endpoint := { host := "proxy.test", port := 8080 }
    let known : Endpoint :=
      { host := "h", port := 1, username := some "u", password := some "p#", failures := 2 }
    standard.load "# own\r\n proxy.test : 8080\r\nno port\n\nh:1: u\t:p#" =
      (standard.withAll [plain, known.fresh], 2) := by
  intro plain known
  have hwritable : ∀ {cs : List Char}, cs ≠ [] ∧ ':' ∉ cs ∧ '\n' ∉ cs ∧ trimChars cs = cs →
      Endpoint.Writable cs := fun ⟨hne, hcolon, hone, htrim⟩ =>
    ⟨hne, hcolon, hone, Text.trimChars_eq_self_iff.mp htrim⟩
  have hlistable : ∀ e ∈ [plain, known], e.Listable := by
    refine List.forall_mem_cons.mpr ⟨?_, List.forall_mem_singleton.mpr ?_⟩
    · exact ⟨rfl, rfl, hwritable (by decide), by decide, by decide, Or.inl ⟨rfl, rfl⟩⟩
    · exact ⟨rfl, rfl, hwritable (by decide), by decide, by decide, Or.inr ⟨"u", "p#", rfl, rfl,
        hwritable (by decide), hwritable (by decide)⟩⟩
  have hpadded : ∀ {part : List Char} (front text behind : String),
      part = text.toList ∧ Blanks front.toList ∧ Blanks behind.toList ∧
        '\n' ∉ front.toList ∧ '\n' ∉ behind.toList →
      Endpoint.Padded part (front.toList ++ text.toList ++ behind.toList) :=
    fun _ _ _ ⟨hpart, hfront, hbehind, hfront', hbehind'⟩ =>
      ⟨_, _, hfront, hbehind, hfront', hbehind', hpart ▸ rfl⟩
  have hplain : plain.WrittenAs " proxy.test : 8080".toList :=
    ⟨_, .cons (hpadded " " "proxy.test" " " (by decide)) <|
      .cons (hpadded " " "8080" "" (by decide)) .nil, by decide⟩
  have hknown : known.WrittenAs "h:1: u\t:p#".toList :=
    ⟨_, .cons (hpadded "" "h" "" (by decide)) <| .cons (hpadded "" "1" "" (by decide)) <|
      .cons (hpadded " " "u" "\t" (by decide)) <| .cons (hpadded "" "p#" "" (by decide)) .nil,
      by decide⟩
  have hlists : Endpoint.Lists
      ("# own".toList ++ ['\r', '\n'] ++ (" proxy.test : 8080".toList ++ ['\r', '\n'] ++
        ("no port".toList ++ ['\n'] ++ ([] ++ ['\n'] ++ "h:1: u\t:p#".toList)))) [plain, known] :=
    .line (.comment (by decide) (by decide)) (Or.inr rfl) <|
      .line (.endpoint hplain) (Or.inr rfl) <|
      .line (.malformed (by decide) (.count (by decide) (by decide))) (Or.inl rfl) <|
      .line (.blank (by decide) (by decide)) (Or.inl rfl) <| .last (.endpoint hknown)
  exact (load_written standard).1 [plain, known] _ hlistable (by exact hlists)

end Pool

end Shortlist.Proxy
