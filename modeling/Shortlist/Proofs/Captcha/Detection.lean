import Shortlist.Captcha
import Shortlist.Proofs.Text.Occurrence

/-!
# Detection of captchas

Each kind of captcha has a signature, a condition on which words occur in a page.  The kind of a page is
the first one whose signature it shows (`first_of_found`), and a page without any of the signatures is
clear.

All signatures survive more text around the page, so putting a page into another one never hides a
captcha; it can only bring out one that is looked for earlier.  For `captcha` in any case the search
goes over the lower-case form of the page, which more text around it does change; it is the sigmas that
change, and there is none in that word.
-/

namespace Shortlist.Captcha

open Text (Occurs)

/-! ## 1. Signatures -/

/-- The place of a kind in the order in which captchas are looked for. -/
def Kind.rank : Kind → Nat
  | .recaptchaV2 => 0
  | .recaptchaV3 => 1
  | .hcaptcha => 2
  | .cloudflare => 3
  | .image => 4

/-- The page shows the signature of a kind. -/
def Kind.Shows (body : String) : Kind → Prop
  | .recaptchaV2 => Occurs "g-recaptcha" body ∨ Occurs "grecaptcha" body
  | .recaptchaV3 => Occurs "recaptcha/api.js?render=" body
  | .hcaptcha => Occurs "hcaptcha" body ∨ Occurs "h-captcha" body
  | .cloudflare => Occurs "cf-browser-verification" body ∨ Occurs "Checking your browser" body
  | .image => Occurs "captcha" (Text.lower body) ∧ (Occurs "<img" body ∨ Occurs "data:image" body)

variable {body : String} {kind : Kind} {key : Option String}

/-- The search looks for the signature. -/
theorem Kind.marks_iff : kind.marks body = true ↔ kind.Shows body := by
  cases kind <;> simp only [marks, Shows, Bool.or_eq_true, Bool.and_eq_true, Text.contains_iff]

/-- **A signature survives** in every text around the page. -/
theorem Kind.Shows.embedded (h : kind.Shows body) (front behind : String) :
    kind.Shows (front ++ body ++ behind) := by
  have hword {word : String} (h : Occurs word body) : Occurs word (front ++ body ++ behind) :=
    h.embedded front behind
  cases kind with
  | recaptchaV2 => exact h.imp hword hword
  | recaptchaV3 => exact hword h
  | hcaptcha => exact h.imp hword hword
  | cloudflare => exact h.imp hword hword
  | image =>
    obtain ⟨hcaptcha, himage⟩ := h
    exact ⟨hcaptcha.embedded_lower (by decide) (by decide) front behind, himage.imp hword hword⟩

/-! ## 2. The first signature -/

theorem Kind.mem_order (kind : Kind) : kind ∈ Kind.order := by
  cases kind <;> decide

/-- The kinds are looked for by their places. -/
theorem Kind.pairwise_order : Kind.order.Pairwise (fun a b => a.rank < b.rank) := by decide

/-- **The search stops at the first signature** that the page shows. -/
theorem first_of_find? (h : Kind.order.find? (Kind.marks body) = some kind) :
    kind.Shows body ∧ ∀ other : Kind, other.rank < kind.rank → ¬ other.Shows body := by
  obtain ⟨hmarks, earlier, later, hsplit, hearlier⟩ := List.find?_eq_some_iff_append.mp h
  refine ⟨Kind.marks_iff.mp hmarks, fun other hrank hshows => ?_⟩
  have hmem := Kind.mem_order other
  have hpairwise := Kind.pairwise_order
  rw [hsplit] at hmem hpairwise
  rcases List.mem_append.mp hmem with hbefore | hbehind
  · have hnot := hearlier other hbefore
    rw [Kind.marks_iff.mpr hshows] at hnot
    cases hnot
  · rcases List.mem_cons.mp hbehind with rfl | hlater
    · exact Nat.lt_irrefl _ hrank
    · have hlater := (List.pairwise_cons.mp (List.pairwise_append.mp hpairwise).2.1).1 other hlater
      exact Nat.lt_asymm hrank hlater

/-- What a page is, by the search for its kind; a site key is looked for with the first kind only. -/
theorem classify_eq_found_iff :
    classify body = .found kind key ↔ Kind.order.find? (Kind.marks body) = some kind ∧
      key = if kind = .recaptchaV2 then siteKey? body else none := by
  have hfound {found : Kind} (h : Kind.order.find? (Kind.marks body) = some found) :
      classify body = .found found (if found = .recaptchaV2 then siteKey? body else none) := by
    rw [classify, h]
    cases found <;> rfl
  constructor
  · intro h
    rcases hfind : Kind.order.find? (Kind.marks body) with - | found
    · rw [classify, hfind] at h
      cases h
    · rw [hfound hfind] at h
      cases h
      exact ⟨rfl, rfl⟩
  · rintro ⟨hfind, rfl⟩
    exact hfound hfind

/-- A page is clear if the search finds no kind. -/
theorem classify_eq_clear_iff : classify body = .clear ↔ ∀ kind : Kind, ¬ kind.Shows body := by
  have hfind : classify body = .clear ↔ Kind.order.find? (Kind.marks body) = none := by
    rw [classify]
    rcases Kind.order.find? (Kind.marks body) with - | found
    · simp
    · cases found <;> simp
  rw [hfind, List.find?_eq_none]
  simp only [Kind.marks_iff, Kind.mem_order, true_imp_iff]

/-- **The kind of a page** is the first one whose signature it shows. -/
theorem first_of_found (h : classify body = .found kind key) :
    kind.Shows body ∧ ∀ other : Kind, other.rank < kind.rank → ¬ other.Shows body :=
  first_of_find? (classify_eq_found_iff.mp h).1

/-- **A page that shows a signature** is found to be of that kind or of one before it. -/
theorem exists_found_of_shows (h : kind.Shows body) :
    ∃ first key, classify body = .found first key ∧ first.rank ≤ kind.rank := by
  rcases hverdict : classify body with - | ⟨first, key⟩
  · exact absurd h (classify_eq_clear_iff.mp hverdict kind)
  · refine ⟨first, key, rfl, ?_⟩
    by_contra hlate
    exact (first_of_found hverdict).2 kind (Nat.lt_of_not_le hlate) h

/-! ## 3. Pages in pages -/

/-- **Embedding a page never hides a captcha.**  Whatever text is put around a page that was found to be
of some kind, what comes out is found to be of that kind or of one before it; and exactly the pages that
show none of the signatures are clear. -/
theorem embedding_hides_no_captcha :
    (∀ body front behind kind key, classify body = .found kind key →
      ∃ kind' key', classify (front ++ body ++ behind) = .found kind' key' ∧
        kind'.rank ≤ kind.rank) ∧
    ∀ body, classify body = .clear ↔ ∀ kind : Kind, ¬ kind.Shows body := by
  refine ⟨?_, fun _ => classify_eq_clear_iff⟩
  intro body front behind kind key h
  exact exists_found_of_shows ((first_of_found h).1.embedded front behind)

/-- A page with `CAPTCHA` and a final sigma behind it: more text makes the sigma another one, and the
page stays what it is; but text in front of it can bring out a captcha of the first kind. -/
theorem embedding_hides_no_captcha_sigma :
    let body := "<img alt=CAPTCHAΣ"
    Text.lower body = "<img alt=captchaς" ∧ Text.lower (body ++ "S>") = "<img alt=captchaσs>" ∧
      classify body = .found .image none ∧ classify (" " ++ body ++ "S>") = .found .image none ∧
      classify ("g-re" ++ "captcha<img" ++ "") = .found .recaptchaV2 none ∧
      ∃ kind key, classify ("g-re" ++ body ++ "S>") = .found kind key ∧ kind.rank ≤ 4 := by
  intro body
  have hfound : classify body = .found .image none := by decide +kernel
  refine ⟨by decide +kernel, by decide +kernel, hfound, by decide +kernel, by decide +kernel, ?_⟩
  exact embedding_hides_no_captcha.1 body "g-re" "S>" .image none hfound

end Shortlist.Captcha
