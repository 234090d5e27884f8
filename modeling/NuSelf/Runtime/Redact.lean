/-
  Credentials in a text, and what takes their place.

  Four patterns are substituted one after the other: keys that are known by their shape, bearer
  tokens, values of an authorization label, values of other labels.
-/
import NuSelf.Lib.CodePoint
import NuSelf.Lib.Regex

namespace NuSelf.Runtime

open NuSelf.Lib

/-! ## Classes -/

/-- One of these characters. -/
def among (chars : List Char) : CodePoint → Bool
  | .char c => chars.contains c
  | .surrogate _ => false

/-- None of these characters. -/
def noneOf (chars : List Char) (p : CodePoint) : Bool := !among chars p

/-- What else is the letter where case is ignored. -/
def otherCases : Char → List Char
  | 'i' => ['\u0130', '\u0131']
  | 's' => ['\u017f']
  | 'k' => ['\u212a']
  | _ => []

/-- The letter, in either case. -/
def ignoringCase (letter : Char) : CodePoint → Bool :=
  among (letter :: letter.toUpper :: otherCases letter)

/-- `[A-Za-z0-9]`, and some more. -/
def alphanumericOr (chars : List Char) : CodePoint → Bool
  | .char c => c.isAlphanum || chars.contains c
  | .surrogate _ => false

/-- `\w`; the characters beyond ASCII by `str.isalnum`. -/
def isWord (isalnum : Char → Bool) : CodePoint → Bool
  | .char c => if c.toNat < 128 then c.isAlphanum || c = '_' else isalnum c
  | .surrogate _ => false

/-- A text as it is written. -/
def literal (text : List Char) : Regex CodePoint :=
  text.foldr (fun c r => .seq (.char (among [c])) r) .empty

/-- A text in either case. -/
def anyCase (text : List Char) : Regex CodePoint :=
  text.foldr (fun c r => .seq (.char (ignoringCase c)) r) .empty

/-! ## The patterns -/

/-- `_RAW_CREDENTIAL_RE`. -/
def rawCredential (isalnum : Char → Bool) : Regex CodePoint :=
  let body := alphanumericOr ['.', '_', '-']
  let sk := .seq (literal ['s', 'k', '-'])
    (.opt (.alt (literal ['p', 'r', 'o', 'j', '-']) (literal ['a', 'n', 't', '-'])))
  let xox := .seq (literal ['x', 'o', 'x'])
    (.seq (.char (among ['b', 'a', 'p', 'r', 's'])) (literal ['-']))
  let gh := .seq (literal ['g', 'h'])
    (.seq (.char (among ['p', 'o', 'u', 's', 'r'])) (literal ['_']))
  .alt
    (.seq (.boundary (isWord isalnum)) (.seq (.alt sk (.alt xox gh))
      (.seq (.times 8 (.char body)) (.seq (.run body) (.boundary (isWord isalnum))))))
    (.seq (.boundary (isWord isalnum)) (.seq (literal ['A', 'K', 'I', 'A'])
      (.seq (.times 16 (.char fun p => match p with
        | .char c => c.isDigit || c.isUpper
        | .surrogate _ => false)) (.boundary (isWord isalnum)))))

/-- `_BEARER_CREDENTIAL_RE`; a range of letters that ignores case has four letters beyond ASCII. -/
def bearerCredential (isalnum : Char → Bool) : Regex CodePoint :=
  .seq (.boundary (isWord isalnum)) (.seq (anyCase ['b', 'e', 'a', 'r', 'e', 'r'])
    (.seq (.plus CodePoint.isSpace) (.plus (alphanumericOr
      ['.', '_', '~', '+', '/', '=', '-', '\u0130', '\u0131', '\u017f', '\u212a']))))

def quotes : List Char := ['"', '\'']

/-- The `prefix` of a labeled value. -/
def labelPrefix (label : Regex CodePoint) : Regex CodePoint :=
  .seq (.opt (.char (among quotes))) (.seq label (.seq (.opt (.char (among quotes)))
    (.seq (.run CodePoint.isSpace) (.seq (.char (among [':', '='])) (.run CodePoint.isSpace)))))

/-- A text between quotes, with no quote or line end in it. -/
def quoted (quote : Char) : Regex CodePoint :=
  .seq (.char (among [quote]))
    (.seq (.run (noneOf [quote, '\r', '\n'])) (.char (among [quote])))

/-- The `value` of a label; one without quotes goes on to the next of the characters `stop`. -/
def labelValue (stop : CodePoint → Bool) : Regex CodePoint :=
  .alt (quoted '"') (.alt (quoted '\'') (.plus fun p => !stop p))

def authorizationLabel : Regex CodePoint :=
  anyCase ['a', 'u', 't', 'h', 'o', 'r', 'i', 'z', 'a', 't', 'i', 'o', 'n']

/-- `[_-]?` -/
def joint : Regex CodePoint := .opt (.char (among ['_', '-']))

def credentialLabel : Regex CodePoint :=
  .alt (.seq (anyCase ['a', 'p', 'i']) (.seq joint (anyCase ['k', 'e', 'y'])))
    (.alt (.seq (anyCase ['a', 'c', 'c', 'e', 's', 's'])
        (.seq joint (anyCase ['t', 'o', 'k', 'e', 'n'])))
      (.alt (.seq (anyCase ['c', 'l', 'i', 'e', 'n', 't'])
          (.seq joint (anyCase ['s', 'e', 'c', 'r', 'e', 't'])))
        (.alt (anyCase ['p', 'a', 's', 's', 'w', 'o', 'r', 'd'])
          (.alt (anyCase ['s', 'e', 'c', 'r', 'e', 't']) (anyCase ['t', 'o', 'k', 'e', 'n'])))))

/-- Where a value of an authorization ends. -/
def authorizationStop : CodePoint → Bool := among ['\r', '\n', ',', ';']

/-- Where another value ends. -/
def credentialStop (p : CodePoint) : Bool := p.isSpace || among [',', ';', '\x7d', '&'] p

/-! ## The substitution -/

/-- `***` -/
def stars : PyText := [.char '*', .char '*', .char '*']

/-- `_redact_labeled_value`, without the `prefix`; a value is never empty. -/
def redactLabeledValue (value : PyText) : PyText :=
  match value.head?, value.getLast? with
  | some first, some last =>
    if 2 ≤ value.length ∧ first = last ∧ among quotes first = true then
      first :: stars ++ [last]
    else stars
  | _, _ => stars

def findRaw (isalnum : Char → Bool) : Option CodePoint → PyText → Option (Nat × PyText) :=
  Regex.findFixed (rawCredential isalnum) stars

def findBearer (isalnum : Char → Bool) : Option CodePoint → PyText → Option (Nat × PyText) :=
  Regex.findFixed (bearerCredential isalnum)
    ([.char 'B', .char 'e', .char 'a', .char 'r', .char 'e', .char 'r', .char ' '] ++ stars)

/-- `_AUTHORIZATION_VALUE_RE`. -/
def findAuthorization : Option CodePoint → PyText → Option (Nat × PyText) :=
  Regex.findGroups (labelPrefix authorizationLabel) (labelValue authorizationStop)
    redactLabeledValue

/-- `_LABELED_CREDENTIAL_RE`. -/
def findLabeled : Option CodePoint → PyText → Option (Nat × PyText) :=
  Regex.findGroups (labelPrefix credentialLabel) (labelValue credentialStop) redactLabeledValue

def redactSensitiveText (isalnum : Char → Bool) (message : PyText) : PyText :=
  let redacted := Regex.sub (findRaw isalnum) 0 none message
  let redacted := Regex.sub (findBearer isalnum) 0 none redacted
  let redacted := Regex.sub findAuthorization 0 none redacted
  Regex.sub findLabeled 0 none redacted

end NuSelf.Runtime
