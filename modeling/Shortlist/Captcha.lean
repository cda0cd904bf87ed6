import Shortlist.Text.Blank
import Shortlist.Text.Lower
import Shortlist.Text.Search

/-!
# Captcha pages

A page is searched for the marks of captchas in a fixed order, the specific ones before the general
ones; the first that is found decides the kind.  For a checkbox captcha of the second version the
site key is taken from the page if it can be found: from the leftmost attribute that holds one, else
from the leftmost call that renders one.
-/

namespace Shortlist.Captcha

/-! ## 1. Verdicts -/

/-- The kinds of captchas, in the order in which they are looked for. -/
inductive Kind where
  | recaptchaV2
  | recaptchaV3
  | hcaptcha
  | cloudflare
  | image
deriving Repr, DecidableEq

/-- The name of a kind. -/
def Kind.name : Kind → String
  | .recaptchaV2 => "recaptcha_v2"
  | .recaptchaV3 => "recaptcha_v3"
  | .hcaptcha => "hcaptcha"
  | .cloudflare => "cloudflare"
  | .image => "image"

/-- What a page was found to be. -/
inductive Verdict where
  | clear
  | found (kind : Kind) (siteKey : Option String)
deriving Repr, DecidableEq

namespace Verdict

/-- Whether a captcha was found. -/
def detected : Verdict → Bool
  | .clear => false
  | .found _ _ => true

/-- The name of the kind that was found. -/
def kindName : Verdict → String
  | .clear => "unknown"
  | .found kind _ => kind.name

/-- The site key that was found. -/
def siteKey : Verdict → Option String
  | .clear => none
  | .found _ key => key

end Verdict

/-! ## 2. Site keys -/

/-- Whether a character is one of the two quotes. -/
def isQuote (c : Char) : Bool := c == '"' || c == '\''

/-- The text behind `word`, if it begins with it. -/
def behind? (word : String) (cs : List Char) : Option (List Char) :=
  if word.toList.isPrefixOf cs then some (cs.drop word.toList.length) else none

/-- The text between two quotes at the front; it may not be empty, and the quotes need not be of one
kind. -/
def quoted? : List Char → Option (List Char)
  | [] => none
  | c :: rest =>
    let key := rest.takeWhile (!isQuote ·)
    if isQuote c && !key.isEmpty && !(rest.dropWhile (!isQuote ·)).isEmpty then some key else none

/-- The key of an attribute at the front. -/
def attributeKey? (cs : List Char) : Option (List Char) :=
  (behind? "data-sitekey=" cs).bind quoted?

/-- The key of an entry of an object at the front: its name, a quote or none, a colon, and the key in
quotes, with blanks around the colon. -/
def entryKey? (cs : List Char) : Option (List Char) :=
  (behind? "sitekey" cs).bind fun rest =>
    let rest := match rest with
      | c :: more => if isQuote c then more else c :: more
      | [] => []
    match rest.dropWhile Text.isBlank with
    | ':' :: rest => quoted? (rest.dropWhile Text.isBlank)
    | _ => none

/-- The key of the last entry that begins before the next closing brace. -/
def lastEntryKey? : List Char → Option (List Char)
  | [] => none
  | c :: rest =>
    if c == '}' then none
    else
      match lastEntryKey? rest with
      | some key => some key
      | none => entryKey? (c :: rest)

/-- The key of a rendering call at the front: its first argument may not be empty or hold a comma,
and its second one is an object. -/
def callKey? (cs : List Char) : Option (List Char) :=
  (behind? "grecaptcha.render(" cs).bind fun rest =>
    if (rest.takeWhile (· != ',')).isEmpty then none
    else
      match rest.dropWhile (· != ',') with
      | ',' :: rest =>
        match rest.dropWhile Text.isBlank with
        | '{' :: object => lastEntryKey? object
        | _ => none
      | _ => none

/-- The answer at the leftmost place that has one. -/
def leftmost? (at? : List Char → Option (List Char)) : List Char → Option (List Char)
  | [] => none
  | c :: rest =>
    match at? (c :: rest) with
    | some key => some key
    | none => leftmost? at? rest

/-- The site key of a page. -/
def siteKey? (body : String) : Option String :=
  (match leftmost? attributeKey? body.toList with
    | some key => some key
    | none => leftmost? callKey? body.toList).map String.ofList

/-! ## 3. Classification -/

/-- Whether a page shows the marks of a kind of captcha. -/
def Kind.marks (body : String) : Kind → Bool
  | .recaptchaV2 => Text.contains body "g-recaptcha" || Text.contains body "grecaptcha"
  | .recaptchaV3 => Text.contains body "recaptcha/api.js?render="
  | .hcaptcha => Text.contains body "hcaptcha" || Text.contains body "h-captcha"
  | .cloudflare =>
    Text.contains body "cf-browser-verification" || Text.contains body "Checking your browser"
  | .image =>
    Text.contains (Text.lower body) "captcha" &&
      (Text.contains body "<img" || Text.contains body "data:image")

/-- The kinds in the order in which they are looked for. -/
def Kind.order : List Kind := [.recaptchaV2, .recaptchaV3, .hcaptcha, .cloudflare, .image]

/-- What a page is. -/
def classify (body : String) : Verdict :=
  match Kind.order.find? (Kind.marks body) with
  | none => .clear
  | some .recaptchaV2 => .found .recaptchaV2 (siteKey? body)
  | some kind => .found kind none

/-! ## 4. Solving -/

/-- The service that would solve captchas. -/
structure Solver where
  service : Option String := none
  key : Option String := none
deriving Repr, DecidableEq

namespace Solver

/-- Whether a service and a key that is not empty are configured. -/
def isEnabled (s : Solver) : Bool := s.key.any (· != "") && s.service.isSome

/-- The solution of a captcha.  No service is attached, so there is never one. -/
def solve (_ : Solver) (_ : Verdict) : Option String := none

end Solver

end Shortlist.Captcha
