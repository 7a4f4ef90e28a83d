import Ultrathink.Library.Replace

/-!
# Redaction of lessons

`redactText` and `redactLine` of `teach/redact.ts`: the patterns in the order of the source. The
back reference of an assignment is written out for the three quotes that it can repeat, and `home`
is the directory given or the one of the environment.
-/

namespace Ultrathink.Source.Teach

open Library JsText Regex Replace

def REDACTED : Text := js "[redacted]"

structure RedactOptions where
  home : Option Text
  repoRoot : Option Text

def lit (s : String) : Expr := literal false (js s)

/-- A literal under the flag `i`. -/
def word (s : String) : Expr := literal true (js s)

def star (p : UInt16 → Bool) : Expr := .many true (.one p)

def plus (p : UInt16 → Bool) : Expr := .seq (.one p) (star p)

def exactly (n : Nat) (p : UInt16 → Bool) : Expr := units (List.replicate n p)

def atLeast (n : Nat) (p : UInt16 → Bool) : Expr := .seq (exactly n p) (star p)

def maybe (e : Expr) : Expr := .alt e .empty

def seqOf : List Expr → Expr
  | [] => .empty
  | [e] => e
  | e :: rest => .seq e (seqOf rest)

def altOf : List Expr → Expr
  | [] => .empty
  | [e] => e
  | e :: rest => .alt e (altOf rest)

def oneOf (s : String) (u : UInt16) : Bool := u ∈ js s

def isLetter (u : UInt16) : Bool := isUpperLetter u || isLowerLetter u

def isAlphanumeric (u : UInt16) : Bool := isLetter u || isDigit u

def anyUnit (_ : UInt16) : Bool := true

def isQuote : UInt16 → Bool := oneOf "\"'"

/-- `[A-Z0-9 ]*` -/
def pemLabel : Expr := star fun u => isUpperLetter u || isDigit u || u = 0x20

def PEM_BLOCK : Expr :=
  seqOf [lit "-----BEGIN ", pemLabel, lit "PRIVATE KEY-----", .many false (.one anyUnit),
    lit "-----END ", pemLabel, lit "PRIVATE KEY-----"]

def PEM_OPEN : Expr :=
  seqOf [lit "-----BEGIN ", pemLabel, lit "PRIVATE KEY-----", star anyUnit, .atEnd]

def URL_USERINFO : Expr :=
  seqOf [.wordEdge,
    .group 1 (seqOf [.one isLetter, star fun u => isAlphanumeric u || oneOf "+.-" u, lit "://"]),
    plus fun u => !isSpace u && !oneOf "/@:" u, lit ":", plus fun u => !isSpace u && u ≠ 0x2F, lit "@"]

/-- `["']?\s*[:=]\s*["']?` -/
def headerSeparator : Expr :=
  seqOf [maybe (.one isQuote), star isSpace, .one (oneOf ":="), star isSpace, maybe (.one isQuote)]

def AUTH_HEADER : Expr :=
  seqOf [.group 1 (.seq (altOf [word "authorization", word "proxy-authorization", word "x-api-key",
      word "api-key", word "x-auth-token", word "cookie", word "set-cookie"]) headerSeparator),
    maybe (.seq (altOf [word "Bearer", word "Basic", word "Token", word "Digest"]) (plus isSpace)),
    plus fun u => !isSpace u && !oneOf "\"',;" u]

def COOKIE_HEADER : Expr :=
  seqOf [.group 1 (seqOf [maybe (word "set-"), word "cookie", headerSeparator]),
    plus fun u => !oneOf "\r\n\"'" u]

def BEARER : Expr :=
  seqOf [.wordEdge, word "Bearer", .group 1 (plus isSpace),
    .group 2 (.seq (plus fun u => isAlphanumeric u || oneOf "._~+/-" u) (star fun u => u = 0x3D))]

/-- `[A-Za-z0-9_-]` -/
def isTokenChar (u : UInt16) : Bool := isWord u || u = 0x2D

def JWT : Expr :=
  seqOf [atLeast 20 isTokenChar, lit ".", atLeast 20 isTokenChar, lit ".", atLeast 10 isTokenChar]

def TOKEN_PATTERNS : List Expr :=
  [seqOf [.wordEdge, lit "sk-ant-", atLeast 8 isTokenChar],
    seqOf [.wordEdge, lit "sk-", atLeast 16 isTokenChar],
    seqOf [.wordEdge, lit "gh", .one (oneOf "pousr"), lit "_", atLeast 20 isAlphanumeric],
    seqOf [.wordEdge, lit "github_pat_", atLeast 20 isWord],
    seqOf [.wordEdge, lit "xox", .one (oneOf "abprs"), lit "-",
      atLeast 10 fun u => isAlphanumeric u || u = 0x2D],
    seqOf [.wordEdge, altOf [lit "AKIA", lit "ASIA"], exactly 16 fun u => isDigit u || isUpperLetter u,
      .wordEdge],
    seqOf [.wordEdge, lit "AIza", atLeast 30 isTokenChar]]

/-- The name between two quotes of one kind, or between none. -/
def quotedName (q : Expr) : Expr :=
  seqOf [.group 1 q, .group 2 (.seq (.one fun u => isLetter u || u = 0x5F)
    (star fun u => isWord u || oneOf ".-" u)), q]

def isBlank (u : UInt16) : Bool := u = 0x20 || u = 0x09

def ASSIGNMENT : Expr :=
  seqOf [altOf [quotedName (lit "\""), quotedName (lit "'"), quotedName .empty],
    .group 3 (seqOf [star isBlank, .one (oneOf ":="), star isBlank]),
    altOf [seqOf [lit "\"", .group 4 (star fun u => !oneOf "\"\n" u), lit "\""],
      seqOf [lit "'", .group 5 (star fun u => !oneOf "'\n" u), lit "'"],
      .group 6 (plus fun u => !isSpace u && !oneOf "\"',;&|" u)]]

def SECRET_WORDS : List Text := [js "key", js "token", js "secret", js "password", js "passwd"]

def groupText (m : Match) (index : Nat) : Text := (m.group index).getD []

/-- `replace(e, "$1 $2")` -/
def spaced (e : Expr) (t : Text) : Text :=
  replaceAll (results e) (fun m => groupText m 1 ++ js " " ++ groupText m 2) t

/-- `split(/[^a-z0-9]+/)`, with empty tokens where two separators meet. -/
def nameTokens : Text → Text → List Text
  | token, [] => [token]
  | token, u :: rest =>
    if isLowerLetter u || isDigit u then nameTokens (token ++ [u]) rest else token :: nameTokens [] rest

def isSecretName (name : Text) : Bool :=
  let tokens := nameTokens [] ((spaced (.seq (.group 1 (plus isUpperLetter))
    (.group 2 (.seq (.one isUpperLetter) (.one isLowerLetter)))) (spaced (.seq
      (.group 1 (.one fun u => isLowerLetter u || isDigit u)) (.group 2 (.one isUpperLetter))) name)).map
    foldCase)
  tokens.any fun token => SECRET_WORDS.any fun secret =>
    secret.isSuffixOf token || (secret ++ js "s").isSuffixOf token

def isCredentialShaped (value : Text) : Bool := 16 ≤ value.length || (6 ≤ value.length && value.any isDigit)

def redactBearer (m : Match) : Text :=
  let value := groupText m 2
  let core := value.rdropWhile (· = 0x2E)
  if isCredentialShaped core = false then m.matched
  else REDACTED ++ value.rtakeWhile (· = 0x2E)

/-- `/^[ \t]*(?:\r?\n|$)/` -/
def fillsLine (after : Text) : Bool :=
  match after.dropWhile isBlank with
  | [] => true
  | [u] => u = 0x0A
  | u :: v :: _ => u = 0x0A || (u = 0x0D && v = 0x0A)

def toUpper (t : Text) : Text := t.map fun u => if isLowerLetter u then u - 0x20 else u

/-- A plain word before an unquoted `:` whose value does not look like a credential is prose. -/
def isProse (m : Match) : Bool :=
  match m.group 6 with
  | none => false
  | some bare =>
    let name := groupText m 2
    (groupText m 3).contains 0x3A && groupText m 1 = [] && !name.any (oneOf "-_.") && name ≠ toUpper name &&
      !fillsLine m.after && !isCredentialShaped (bare.rdropWhile (oneOf ".,:;!?"))

def redactAssignment (m : Match) : Text :=
  let name := groupText m 2
  if isSecretName name = false then m.matched
  else if isProse m then m.matched
  else
    let head := groupText m 1 ++ name ++ groupText m 1 ++ groupText m 3
    if (m.group 4).isSome then head ++ js "\"" ++ REDACTED ++ js "\""
    else if (m.group 5).isSome then head ++ js "'" ++ REDACTED ++ js "'"
    else if (m.group 6).any fun bare => bare.head?.any (oneOf "$(\x7b<%") then m.matched
    else head ++ REDACTED

def slash : UInt16 := 0x2F

def dropSlashes (t : Text) : Text := t.rdropWhile (· = slash)

/-- The pieces between slashes that are not empty. -/
def segmentsOf : Text → Text → List Text
  | segment, [] => [segment].filter fun s => s ≠ []
  | segment, u :: rest =>
    if u = slash then ([segment].filter fun s => s ≠ []) ++ segmentsOf [] rest
    else segmentsOf (segment ++ [u]) rest

def pathMatcher (base : Text) : Matcher :=
  notAfter (fun u => isWord u || oneOf ".~-" u) (notBefore (fun u => isWord u || u = 0x2D)
    (results (.seq (literal false base) (maybe (.seq (lit "/")
      (star fun u => !isSpace u && !oneOf "\"'\x60<>()[]\x7b\x7d,;|\\" u))))))

def redactPath (base : Text) (exempt : Option Text) (m : Match) : Text :=
  let path := m.matched.rdropWhile (oneOf ".:")
  let trailing := m.matched.rtakeWhile (oneOf ".:")
  if exempt.any fun e => path = e || (e ++ [slash]).isPrefixOf path then m.matched
  else
    let segments := segmentsOf [] (path.drop base.length)
    let shown := if segments.length ≤ 2 then join (js "/") segments
      else js ".../" ++ join (js "/") (segments.drop (segments.length - 2))
    (if shown ≠ [] then js "~/" ++ shown else js "~") ++ trailing

def redactPaths (text home : Text) (repoRoot : Option Text) : Text :=
  let base := dropSlashes home
  if base.head? ≠ some slash then text
  else
    let exempt := (repoRoot.map dropSlashes).filter fun keep =>
      keep.head? = some slash && base ≠ keep && !(keep ++ [slash]).isPrefixOf base
    replaceAll (pathMatcher base) (redactPath base exempt) text

def substitute (e : Expr) (by_ : Match → Text) (t : Text) : Text := replaceAll (results e) by_ t

def redactText (text : Text) (options : RedactOptions) : Text :=
  if text = [] then []
  else
    let out := substitute PEM_OPEN (fun _ => REDACTED) (substitute PEM_BLOCK (fun _ => REDACTED) text)
    let out := substitute URL_USERINFO (fun m => groupText m 1 ++ REDACTED ++ js "@") out
    let out := substitute COOKIE_HEADER (fun m => groupText m 1 ++ REDACTED) out
    let out := substitute AUTH_HEADER (fun m => groupText m 1 ++ REDACTED) out
    let out := substitute JWT (fun _ => REDACTED) (substitute BEARER redactBearer out)
    let out := TOKEN_PATTERNS.foldl (fun out pattern => substitute pattern (fun _ => REDACTED) out) out
    let out := substitute ASSIGNMENT redactAssignment out
    match options.home with
    | some home => if home = [] then out else redactPaths out home options.repoRoot
    | none => out

/-- `replace(p+, " ")` for a class of units; `inside` such a run its blank is written already. -/
def blankRuns (blank : UInt16 → Bool) (inside : Bool) : Text → Text
  | [] => []
  | u :: rest =>
    if blank u then if inside then blankRuns blank true rest else 0x20 :: blankRuns blank true rest
    else u :: blankRuns blank false rest

def redactLine (text : Text) (options : RedactOptions) (max : Nat) : Text :=
  (trim (blankRuns isSpace false (redactText text options))).take max

end Ultrathink.Source.Teach
