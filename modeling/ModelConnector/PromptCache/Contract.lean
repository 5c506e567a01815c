import ModelConnector.Foundations.Number
import ModelConnector.Foundations.Regex
import ModelConnector.PromptCache.Policy

/-!
# The vendored contract

What the evaluator reads of `prompt-layout.v1.json`: the models with their minimum prefix, the limit
of breakpoints, the lifetimes, and the scan patterns, compiled. A leading `(?i)` becomes the flag of
the whole pattern. A pattern is written here in the order of its source.
-/

namespace ModelConnector.PromptCache

open Regex

/-! ### Classes of characters -/

/-- `\d`. -/
def digit : Regex :=
  char Char.isDigit

/-- `\s*`. -/
def spaces : Regex :=
  star (char Number.isWhiteSpace)

/-- `\S+`. -/
def filled : Regex :=
  plus (char fun c ↦ !Number.isWhiteSpace c)

/-- One of the characters of a text. -/
def oneOf (s : String) : Regex :=
  char fun c ↦ s.toList.contains c

/-- `[0-9a-fA-F]`. -/
def hex : Regex :=
  char fun c ↦ c.isDigit || ('a' ≤ c && c ≤ 'f') || ('A' ≤ c && c ≤ 'F')

/-- One of some texts, in any case. -/
def wordsI (words : List String) : Regex :=
  alts (words.map litI)

/-- `\s*[:=]\s*`. -/
def assigned : Regex :=
  seqs [spaces, oneOf ":=", spaces]

/-- A character other than a line feed, of so many code units. -/
def lineChar (units : ℕ) : Regex :=
  char fun c ↦ c ≠ '\n' && (codeUnits c).length == units

/-- `[^\n]{0,n}`; a character beyond the basic plane counts as its two units. -/
def lineUpTo : ℕ → Regex
  | 0 => eps
  | 1 => opt (lineChar 1)
  | n + 2 => opt (alt (seq (lineChar 1) (lineUpTo (n + 1))) (seq (lineChar 2) (lineUpTo n)))

/-- `\d{4}-\d{2}-\d{2}`. -/
def isoDate : Regex :=
  seqs [times 4 digit, lit "-", times 2 digit, lit "-", times 2 digit]

/-! ### Scan patterns -/

/-- `DYN_TIMESTAMP`. -/
def timestampPatterns : List Regex :=
  [seqs [isoDate, oneOf "T ", times 2 digit, lit ":", times 2 digit],
    seqs [boundary, alts [litI "today", litI "now", seq (litI "current") (opt (litI "ly")),
        litI "date", litI "time", litI "timestamp",
        seqs [litI "starte", opt (litI "d"), litI "_at"],
        seq (litI "generated") (opt (litI "_at")), litI "as of", litI "issued_at",
        litI "captured_at", litI "updated_at"],
      boundary, lineUpTo 24, boundary, isoDate, boundary],
    seqs [boundary, wordsI ["epoch", "unix", "ts", "timestamp"], assigned, lit "1", oneOf "56789",
      times 8 digit, boundary],
    seqs [boundary, digit, opt digit, lit " ",
      alts (["Jan", "Feb", "Mar", "Apr", "May", "Jun", "Jul", "Aug", "Sep", "Oct", "Nov", "Dec"].map
        lit), lit " ", times 4 digit, lit " ", times 2 digit, lit ":", times 2 digit]]

/-- `DYN_UUID`. -/
def uuidPatterns : List Regex :=
  [seqs [boundary, times 8 hex, lit "-", times 4 hex, lit "-", times 4 hex, lit "-", times 4 hex,
    lit "-", times 12 hex, boundary]]

/-- `DYN_COUNTER`. -/
def counterPatterns : List Regex :=
  [seqs [boundary, alts [litI "step", litI "turn", litI "iteration", litI "attempt", litI "retry",
        litI "retries", litI "seq", litI "sequence", litI "counter",
        seq (litI "request") (opt (wordsI ["_no", "_number", " number"])), litI "call",
        litI "round", litI "tick"],
      spaces, alts [lit "#", seq (litI "no") (opt (lit ".")), litI "number", lit "=", lit ":"],
      spaces, plus digit, boundary],
    seqs [boundary, plus digit, spaces, alts [litI "of", lit "/"], spaces, plus digit,
      plus (char Number.isWhiteSpace), wordsI ["steps", "turns", "attempts", "iterations"], boundary]]

/-- `DYN_ENV`. -/
def envPatterns : List Regex :=
  let upper : Regex := plus (char fun c ↦ c.isUpper || c == '_')
  [seqs [boundary, alts ((["HOME", "USER", "PWD", "OLDPWD", "PATH", "SHELL", "TMPDIR", "HOSTNAME",
        "LOGNAME", "TERM", "LANG"].map lit) ++ [seq (lit "SSH_") upper, seq (lit "XDG_") upper]),
      lit "=", filled],
    seqs [lit "$", alts (["HOME", "USER", "PWD", "TMPDIR", "HOSTNAME"].map lit), boundary],
    seqs [lit "/run/user/", plus digit, lit "/"],
    seqs [lit "/tmp/", plus (char fun c ↦ c.isAlphanum || c == '.' || c == '_' || c == '-')],
    seqs [boundary, wordsI ["hostname", "host", "machine", "pid"], assigned, filled]]

/-- `SESSION_ID_IN_PREFIX`. -/
def sessionIdPatterns : List Regex :=
  [seqs [boundary, wordsI ["session", "run", "request", "trace", "span", "conversation",
        "invocation", "job", "correlation"], opt (oneOf "_-"), litI "id", assigned, filled],
    seqs [boundary, litI "session", assigned, atLeast 6 hex, boundary]]

/-- `FEATURE_FLAG_IN_PREFIX`. -/
def featureFlagPatterns : List Regex :=
  [seqs [boundary, litI "feature", opt (oneOf "_-"), litI "flag", opt (litI "s"), boundary],
    seqs [boundary, lit "FF_", plus (char fun c ↦ c.isUpper || c.isDigit || c == '_'), boundary],
    seqs [boundary, wordsI ["enable", "disable"], lit "_", plus (char isWord), assigned,
      wordsI ["true", "false", "on", "off", "1", "0"], boundary],
    seqs [boundary, litI "flag", opt (litI "s"), assigned, oneOf "[\x7b"]]

/-- `USER_IDENTITY_IN_PREFIX`. -/
def userIdentityPatterns : List Regex :=
  [seqs [plus (char fun c ↦ c.isAlphanum || "._%+-".toList.contains c), lit "@",
      plus (char fun c ↦ c.isAlphanum || c == '.' || c == '-'), lit ".",
      atLeast 2 (char Char.isAlpha)],
    seqs [boundary, wordsI ["user", "username", "user_name", "login", "logged in as"], assigned,
      filled],
    seqs [lit "/", alts [lit "home", lit "Users"], lit "/", char Char.isAlpha,
      star (char fun c ↦ c.isAlphanum || c == '.' || c == '_' || c == '-'), lit "/"]]

/-- `TENANT_IN_PREFIX`. -/
def tenantPatterns : List Regex :=
  [seqs [boundary, wordsI ["tenant", "org", "organization", "organisation", "workspace",
        "customer", "account", "client"], opt (oneOf "_-"),
      wordsI ["id", "slug", "key", "name"], assigned, filled],
    seqs [boundary, litI "tenant", assigned, filled],
    seqs [boundary, litI "x-tenant", opt (litI "-id"), boundary]]

/-- A character of the value of a secret. -/
def isSecretChar (c : Char) : Bool :=
  c.isAlphanum || c == '_' || c == '-'

/-- `SECRET_IN_PREFIX`. -/
def secretPatterns : List Regex :=
  [seq (lit "mun_sk_") (atLeast 8 (char isWord)),
    seq (lit "ghp_") (atLeast 20 (char Char.isAlphanum)),
    seqs [notAfter Char.isAlphanum, lit "sk-", opt (lit "ant-"), atLeast 16 (char isSecretChar)],
    seqs [lit "-----BEGIN ", star (char fun c ↦ c.isUpper || c == ' '), lit "PRIVATE KEY-----"],
    seqs [boundary, lit "AKIA", atLeast 8 (char fun c ↦ c.isDigit || c.isUpper), boundary],
    seqs [boundary, alts [seqs [litI "api", opt (oneOf "_-"), litI "key"], litI "secret",
        litI "password", litI "passwd", litI "token"],
      assigned, opt (oneOf "\"'"), atLeast 16 (char isSecretChar)]]

/-- The patterns of every code, in the order of the contract. -/
def scanPatterns : List (FindingCode × List Regex) :=
  [(.DYN_TIMESTAMP, timestampPatterns), (.DYN_UUID, uuidPatterns),
    (.DYN_COUNTER, counterPatterns), (.DYN_ENV, envPatterns),
    (.SESSION_ID_IN_PREFIX, sessionIdPatterns), (.FEATURE_FLAG_IN_PREFIX, featureFlagPatterns),
    (.USER_IDENTITY_IN_PREFIX, userIdentityPatterns), (.TENANT_IN_PREFIX, tenantPatterns),
    (.SECRET_IN_PREFIX, secretPatterns)]

/-- `compileContractPattern`, of the patterns of a code. -/
def compileRule (rule : FindingCode × List Regex) : CompiledScanRule where
  code := rule.1
  patterns := rule.2.map Regex.test

/-- `loadVendoredPromptLayoutContract`. -/
def vendoredContract : PromptLayoutContract where
  id := "prompt-layout.v1"
  digest := "sha256:678dfa2e9e6c0493a51b432a6be09edabc06fa15e4f423c518f1c1e629c6e06a"
  models := [("claude-fable-5-1", 512), ("claude-mythos-5-1", 512), ("claude-opus-5", 512),
    ("claude-sonnet-5", 1024), ("claude-opus-4-8", 1024), ("claude-haiku-4-5", 4096)]
  maxExplicitBreakpoints := 4
  ttlValues := ["5m", "1h"]
  scanRules := scanPatterns.map compileRule

end ModelConnector.PromptCache
