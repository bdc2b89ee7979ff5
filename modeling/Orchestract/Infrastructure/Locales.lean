import Mathlib.Algebra.Field.Rat
import Orchestract.Domain.Text
import Orchestract.Library.Rankings

/-!
# Languages of a request

The negotiation of `app/infrastructure/i18n/__init__.py` and its use in `app/api/deps.py`. Weights
are exact numbers; `negotiate_locale` of babel is a parameter.
-/

namespace Orchestract

set_option autoImplicit false

namespace Text

/-- The digits on one side of the point, which may be missing. -/
def digitPart (s : List Char) : Option Nat := if s = [] then some 0 else natural s

def signed (s : List Char) : Option Int :=
  match s with
  | '-' :: s => (fun n : Nat => -(n : Int)) <$> natural s
  | '+' :: s => (fun n : Nat => (n : Int)) <$> natural s
  | s => (fun n : Nat => (n : Int)) <$> natural s

def decimal (s : List Char) : Option ℚ := do
  let mantissa := s.takeWhile fun c => c ≠ 'e' ∧ c ≠ 'E'
  let whole := mantissa.takeWhile (· ≠ '.')
  let fraction := (mantissa.dropWhile (· ≠ '.')).drop 1
  if whole = [] ∧ fraction = [] then none
  let units ← digitPart whole
  let parts ← digitPart fraction
  let exponent ← match s.dropWhile fun c => c ≠ 'e' ∧ c ≠ 'E' with
    | [] => some 0
    | _ :: exponent => signed exponent
  return (units + parts / 10 ^ (fraction.filter Char.isDigit).length) * 10 ^ exponent

/-- `float` of a text, except for the infinities and NaN. -/
def float (s : List Char) : Option ℚ :=
  match stripBy isBlank (s.map toAscii) with
  | '-' :: s => (fun q => -q) <$> decimal s
  | '+' :: s => decimal s
  | s => decimal s

end Text

namespace I18n

def defaultLocale : String := "en"

def supportedLocales : List String := ["en", "pt", "fr", "es"]

/-- The locale that `set_current_locale` sets. -/
def setCurrentLocale (locale : Option String) : String :=
  match locale with
  | some code => if code ∈ supportedLocales then code else defaultLocale
  | none => defaultLocale

def quality (params : List Char) : ℚ :=
  match params with
  | 'q' :: '=' :: text => (Text.float text).getD 1
  | _ => 1

/-- The weight and the code of one part of the header, unless it is blank. -/
def rankedPart (part : List Char) : Option (ℚ × String) :=
  let part := Text.stripBy Text.isSpace part
  let code := (Text.stripBy Text.isSpace (part.takeWhile (· ≠ ';'))).map fun c => if c = '-' then '_' else c
  let params := (part.dropWhile (· ≠ ';')).drop 1
  if part = [] ∨ code = [] then none
  else some (quality (Text.stripBy Text.isSpace params), String.ofList code)

/-- `_parse_accept_language`. -/
def parseAcceptLanguage (header : String) : List String :=
  (Rankings.ranked Prod.fst ((header.toList.splitOn ',').filterMap rankedPart)).map Prod.snd

/-- What `negotiate_locale(preferred, available, sep)` is called with and returns. -/
abbrev Negotiator := List String → List String → Char → Option String

def negotiateFromHeader (negotiateLocale : Negotiator) (acceptLanguage : String) : Option String :=
  let preferred := parseAcceptLanguage acceptLanguage
  if preferred = [] then none else negotiateLocale preferred supportedLocales '_'

/-- `_negotiate_and_set_locale`, where the user, if any, has the preference `userLocale`. -/
def negotiateAndSetLocale (negotiateLocale : Negotiator) (userLocale cookie : Option String)
    (acceptLanguage : String) : String :=
  let supported := fun locale : Option String => locale.any (· ∈ supportedLocales)
  setCurrentLocale <|
    if supported userLocale then userLocale
    else if supported cookie then cookie
    else some ((negotiateFromHeader negotiateLocale acceptLanguage).getD defaultLocale)

end I18n

end Orchestract
