import EestReplay.Library.Base64
import EestReplay.Library.Digits
import EestReplay.Model.Http
import EestReplay.Model.Lower
import EestReplay.Model.Text

/-! # The endpoint's URL

`split_basic_auth` of `rpc_proxy.py`, with the parts of `urllib.parse` and `ipaddress` that
it rests on. -/

namespace EestReplay.Url

open Digits

/-- `s.partition(sep)`, with whether the separator occurs in the middle. -/
def partition (sep : Char) (s : List Char) : List Char × Bool × List Char :=
  (s.takeWhile (· ≠ sep), s.contains sep, (s.dropWhile (· ≠ sep)).drop 1)

/-- `s.rpartition(sep)` -/
def rpartition (sep : Char) (s : List Char) : List Char × Bool × List Char :=
  (((s.reverse.dropWhile (· ≠ sep)).drop 1).reverse, s.contains sep,
    (s.reverse.takeWhile (· ≠ sep)).reverse)

/-- What `urlsplit` returns. -/
structure SplitResult where
  scheme : List Char
  netloc : List Char
  path : List Char
  query : List Char
  fragment : List Char
  deriving DecidableEq

/-! ## Addresses in brackets -/

def isHexDigit (c : Char) : Bool := (digit 16 c).isSome

/-- `_parse_octet` -/
def parseOctet (s : List Char) : Option ℕ :=
  if s ≠ [] ∧ s.all Char.isDigit ∧ s.length ≤ 3 ∧ (s = ['0'] ∨ s.head? ≠ some '0') then
    (readDigits 10 0 s).filter (· ≤ 255)
  else none

/-- The number of an `IPv4Address`. -/
def parseIPv4 (s : List Char) : Option ℕ :=
  if '/' ∈ s then none
  else
    match (s.splitOn '.').mapM parseOctet with
    | some [a, b, c, d] => some (((a * 256 + b) * 256 + c) * 256 + d)
    | _ => none

/-- What `_parse_hextet` reads. -/
def isHextet (s : List Char) : Bool := s ≠ [] && s.all isHexDigit && s.length ≤ 4

/-- An IPv4 suffix counts as two hextets. -/
def expandSuffix (parts : List (List Char)) : Option (List (List Char)) :=
  let last := parts.getLast?.getD []
  if '.' ∈ last then
    (parseIPv4 last).map fun n =>
      parts.dropLast ++ [Nat.toDigits 16 (n / 2 ^ 16 % 2 ^ 16), Nat.toDigits 16 (n % 2 ^ 16)]
  else some parts

/-- The hextets on one side of `::`, which may be none. -/
def besideSkip (parts : List (List Char)) : List (List Char) := if parts = [[]] then [] else parts

/-- Whether the parts between colons are eight hextets, or fewer around one `::`. -/
def areHextets (parts : List (List Char)) : Bool :=
  let inner := parts.tail.dropLast
  match inner.count [] with
  | 0 => parts.length == 8 && parts.all isHextet
  | 1 =>
    let skip := inner.idxOf [] + 1
    let high := besideSkip (parts.take skip)
    let low := besideSkip (parts.drop (skip + 1))
    high.length + low.length < 8 && high.all isHextet && low.all isHextet
  | _ => false

/-- Whether `IPv6Address` accepts a text. -/
def isIPv6 (s : List Char) : Bool :=
  let (address, haveScope, scope) := partition '%' s
  let parts := address.splitOn ':'
  !s.contains '/' && (!haveScope || (scope ≠ [] && !scope.contains '%')) && 3 ≤ parts.length &&
    match expandSuffix parts with
    | some parts => parts.length ≤ 9 && areHextets parts
    | none => false

/-- `\Av[a-fA-F0-9]+\..+\Z`, behind the letter. -/
def isIPvFuture (rest : List Char) : Bool :=
  match rest.takeWhile isHexDigit, rest.dropWhile isHexDigit with
  | _ :: _, '.' :: c :: cs => !(c :: cs).contains '\n'
  | _, _ => false

def checkBracketedHost : List Char → Except PyError Unit
  | 'v' :: rest =>
    if isIPvFuture rest then .ok () else .error ⟨.valueError, "IPvFuture address is invalid"⟩
  | hostname =>
    if (parseIPv4 hostname).isSome then
      .error ⟨.valueError, "An IPv4 address cannot be in brackets"⟩
    else if isIPv6 hostname then .ok ()
    else .error ⟨.valueError, "does not appear to be an IPv4 or IPv6 address"⟩

/-! ## Splitting -/

/-- The C0 controls and the space, which may stand before a URL. -/
def isC0OrSpace (c : Char) : Bool := c.toNat ≤ 0x20

def unsafeChars : List Char := ['\t', '\r', '\n']

def isSchemeChar (c : Char) : Bool := c.isAlphanum || c == '+' || c == '-' || c == '.'

/-- The scheme in small letters, when there is one, and the rest. -/
def splitScheme (url : List Char) : List Char × List Char :=
  let (scheme, found, rest) := partition ':' url
  if found && (scheme.head?.map Char.isAlpha).getD false && scheme.all isSchemeChar then
    (Text.lower scheme, rest)
  else ([], url)

def isNetlocEnd (c : Char) : Bool := c == '/' || c == '?' || c == '#'

/-- `_splitnetloc` behind two slashes. -/
def splitNetloc : List Char → List Char × List Char
  | '/' :: '/' :: url =>
    (url.takeWhile fun c => !isNetlocEnd c, url.dropWhile fun c => !isNetlocEnd c)
  | url => ([], url)

def checkBrackets (netloc : List Char) : Except PyError Unit :=
  if netloc.contains '[' != netloc.contains ']' then .error ⟨.valueError, "Invalid IPv6 URL"⟩
  else if netloc.contains '[' then
    checkBracketedHost (partition ']' (partition '[' netloc).2.2).1
  else .ok ()

/-- The characters whose compatibility form has one of the delimiters `/?#@:`. No other
character and no sequence of them normalises to one. -/
def compatibilityDelimiters : List ℕ :=
  [0x2047, 0x2048, 0x2049, 0x2100, 0x2101, 0x2105, 0x2106, 0x2A74, 0xFE13, 0xFE16, 0xFE55, 0xFE56,
    0xFE5F, 0xFE6B, 0xFF03, 0xFF0F, 0xFF1A, 0xFF1F, 0xFF20]

/-- `_checknetloc` -/
def checkNetloc (netloc : List Char) : Except PyError Unit :=
  if netloc.any fun c => c.toNat ∈ compatibilityDelimiters then
    .error ⟨.valueError, "netloc '" ++ String.ofList netloc ++
      "' contains invalid characters under NFKC normalization"⟩
  else .ok ()

def urlsplit (text : List Char) : Except PyError SplitResult := do
  let url := (text.dropWhile isC0OrSpace).filter fun c => !unsafeChars.contains c
  let (scheme, url) := splitScheme url
  let (netloc, url) := splitNetloc url
  checkBrackets netloc
  let (url, _, fragment) := partition '#' url
  let (path, _, query) := partition '?' url
  checkNetloc netloc
  return { scheme, netloc, path, query, fragment }

/-! ## The parts of the network location -/

namespace SplitResult

variable (parts : SplitResult)

def userinfo : Option (List Char) × Option (List Char) :=
  let (userinfo, haveInfo, _) := rpartition '@' parts.netloc
  if haveInfo then
    let (username, havePassword, password) := partition ':' userinfo
    (some username, if havePassword then some password else none)
  else (none, none)

def username : Option (List Char) := parts.userinfo.1

def password : Option (List Char) := parts.userinfo.2

def hostinfo : List Char × Option (List Char) :=
  let (_, _, hostinfo) := rpartition '@' parts.netloc
  let (_, haveOpen, bracketed) := partition '[' hostinfo
  let (hostname, port) :=
    if haveOpen then
      let (hostname, _, port) := partition ']' bracketed
      (hostname, (partition ':' port).2.2)
    else
      let (hostname, _, port) := partition ':' hostinfo
      (hostname, port)
  (hostname, if port = [] then none else some port)

/-- The host in small letters, a zone behind a percent sign as it is. -/
def hostname : Option (List Char) :=
  let hostname := parts.hostinfo.1
  if hostname = [] then none
  else
    let (hostname, percent, zone) := partition '%' hostname
    some (Text.lower hostname ++ if percent then '%' :: zone else [])

def port : Except PyError (Option ℕ) :=
  match parts.hostinfo.2 with
  | none => .ok none
  | some port =>
    if port.all Char.isDigit then do
      let n ← Text.int 10 (String.ofList port)
      if 0 ≤ n ∧ n ≤ 65535 then return some n.toNat
      else .error ⟨.valueError, "Port out of range 0-65535"⟩
    else .error ⟨.valueError, "Port could not be cast to integer value as " ++ String.ofList port⟩

end SplitResult

/-! ## Putting together -/

/-- `uses_netloc` -/
def usesNetloc : List (List Char) :=
  ["", "ftp", "http", "gopher", "nntp", "telnet", "imap", "wais", "file", "mms", "https", "shttp",
    "snews", "prospero", "rtsp", "rtsps", "rtspu", "rsync", "svn", "svn+ssh", "sftp", "nfs", "git",
    "git+ssh", "ws", "wss"].map String.toList

/-- Whether two slashes and the network location stand in front of the path. -/
def SplitResult.hasSlashes (parts : SplitResult) : Bool :=
  parts.netloc ≠ [] || (parts.scheme ≠ [] && usesNetloc.contains parts.scheme) ||
    parts.path.take 2 = ['/', '/']

def urlunsplit (parts : SplitResult) : List Char :=
  let path := parts.path
  let url :=
    if parts.hasSlashes then
      '/' :: '/' :: parts.netloc ++ if path ≠ [] ∧ path.take 1 ≠ ['/'] then '/' :: path else path
    else path
  let url := if parts.scheme ≠ [] then parts.scheme ++ ':' :: url else url
  let url := if parts.query ≠ [] then url ++ '?' :: parts.query else url
  if parts.fragment ≠ [] then url ++ '#' :: parts.fragment else url

/-- `s.encode()` -/
def encodeUtf8 (s : List Char) : List UInt8 := s.flatMap String.utf8EncodeChar

/-- The network location that `split_basic_auth` puts together. -/
def authority (hostname : Option (List Char)) (port : Option ℕ) : List Char :=
  hostname.getD [] ++
    match port with
    | some n => if n ≠ 0 then ':' :: (toString n).toList else []
    | none => []

def splitBasicAuth (url : String) : Except PyError (String × List (String × String)) := do
  let parts ← urlsplit url.toList
  let username := parts.username.getD []
  if username = [] then return (url, [])
  else
    let creds := username ++ ':' :: parts.password.getD []
    let token := Base64.encode (encodeUtf8 creds)
    let port ← parts.port
    let netloc := authority parts.hostname port
    let clean := urlunsplit { parts with netloc }
    return (String.ofList clean, [("Authorization", "Basic " ++ String.ofList token)])

end EestReplay.Url

namespace EestReplay.Proxy.Http

/-- What `_make_handler` closes over for an upstream's URL. -/
def Target.ofUrl (targetUrl : String) : Except PyError Target := do
  let (cleanUrl, authHeaders) ← Url.splitBasicAuth targetUrl
  return { cleanUrl, authHeaders }

end EestReplay.Proxy.Http
