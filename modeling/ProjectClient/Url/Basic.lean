import ProjectClient.Text.Blank
import ProjectClient.Url.Host
import ProjectClient.Url.Path

/-! URLs of the schemes `http` and `https` without query and fragment, and how they are read. Those
of other schemes are only tested, so that a faulty one is known as such. -/
namespace ProjectClient

namespace Url

inductive Scheme where
  | http
  | https
deriving DecidableEq

def Scheme.text : Scheme → String
  | http => "http"
  | https => "https"

def Scheme.defaultPort : Scheme → Nat
  | http => 80
  | https => 443

structure Userinfo where
  username : String := ""
  password : Option String := none
deriving DecidableEq

def Userinfo.text (userinfo : Userinfo) : String :=
  if userinfo = {} then ""
  else userinfo.username ++ (userinfo.password.elim "" (":" ++ ·)) ++ "@"

end Url

structure Url where
  scheme : Url.Scheme
  userinfo : Url.Userinfo := {}
  host : Url.Host
  /-- The port, unless it is the default of the scheme. -/
  port : Option UInt16 := none
  /-- The segments of the path. There is always at least one. -/
  path : List String
deriving DecidableEq

namespace Url

def authority (url : Url) : String :=
  url.host.text ++ url.port.elim "" fun port => ":" ++ toString port.toNat

def text (url : Url) : String :=
  url.scheme.text ++ "://" ++ url.userinfo.text ++ url.authority ++ Path.text url.path

inductive SchemeKind where
  | web (scheme : Scheme)
  /-- Read like `http`, but not supported. -/
  | webLike
  | file
  | other

def SchemeKind.ofText (scheme : String) : SchemeKind :=
  if scheme = "http" then .web .http
  else if scheme = "https" then .web .https
  else if ["ws", "wss", "ftp"].contains scheme then .webLike
  else if scheme = "file" then .file
  else .other

def endsAuthority (backslash : Bool) (c : Char) : Bool :=
  c == '/' || c == '?' || c == '#' || (backslash && c == '\\')

def splitAtLastAt (text : List Char) : Option (List Char) × List Char :=
  let host := (text.reverse.takeWhile (· != '@')).reverse
  if host.length < text.length then (some (text.take (text.length - host.length - 1)), host)
  else (none, host)

/-- A user name, and a password after the first colon unless it is empty. -/
def Userinfo.parse (text : List Char) : Userinfo :=
  let username := text.takeWhile (· != ':')
  let password := text.drop (username.length + 1)
  { username := percentEncode inUserinfoSet username
    password := if password = [] then none else some (percentEncode inUserinfoSet password) }

/-- The part before the first colon that is not between brackets, and the rest. -/
def splitHost (inBrackets : Bool) : List Char → List Char × List Char
  | [] => ([], [])
  | c :: rest =>
    if c = ':' ∧ ¬ inBrackets then ([], c :: rest)
    else
      let stillInBrackets := c = '[' ∨ (c ≠ ']' ∧ inBrackets)
      let (host, port) := splitHost stillInBrackets rest
      (c :: host, port)

/-- The port after a colon. No digits mean no port. -/
def port? (text : List Char) : Except Error (Option UInt16) :=
  match text.drop 1 with
  | [] => .ok none
  | digits =>
    match valueInBase? 10 digits with
    | none => .error .invalidPort
    | some value =>
      if value < UInt16.size then .ok (some (UInt16.ofNat value)) else .error .invalidPort

def parseAuthority (idna : Idna) (text : List Char) :
    Except Error (Userinfo × Host × Option UInt16 × List Char) := do
  let (authority, rest) := text.span (!endsAuthority true ·)
  let (user?, hostAndPort) := splitAtLastAt authority
  let (host, port) := splitHost false hostAndPort
  if host = [] then throw .emptyHost
  return ((user?.map Userinfo.parse).getD {}, ← Host.parse idna host, ← port? port, rest)

/-- Tests user, host and port of a scheme whose hosts are not domains. -/
def checkAuthority (text : List Char) : Except Error Unit := do
  let (authority, rest) := text.span (!endsAuthority false ·)
  let (user?, hostAndPort) := splitAtLastAt authority
  let (host, port) := splitHost false hostAndPort
  let userinfo := (user?.map Userinfo.parse).getD {}
  Host.checkOpaque host
  if host = [] ∧ (port ≠ [] ∨ userinfo ≠ {} ∨ (user? = some [] ∧ rest ≠ [])) then throw .emptyHost
  let _ ← port? (port.takeWhile (· != '\\'))

def isDriveHost (host : List Char) : Bool := Path.isDriveLetter (String.ofList host)

def checkFile (idna : Idna) (text : List Char) : Except Error Unit := do
  let isSlash (c : Char) : Bool := c == '/' || c == '\\'
  if (text.take 2).length = 2 ∧ (text.take 2).all isSlash then
    let host := (text.drop 2).takeWhile (!endsAuthority true ·)
    if host = [] ∨ isDriveHost host then return ()
    else let _ ← Host.parse idna host

def splitScheme? (text : List Char) : Option (String × List Char) :=
  let isSchemeChar (c : Char) : Bool := c.isAlphanum || c == '+' || c == '-' || c == '.'
  let scheme := text.takeWhile isSchemeChar
  match scheme, text.drop scheme.length with
  | first :: _, ':' :: rest =>
    if first.isAlpha then some (String.ofList (scheme.map Char.toLower), rest) else none
  | _, _ => none

/-- The text without controls and spaces at the ends, and without tabs and line breaks anywhere. -/
def clean (text : String) : List Char :=
  let isStripped (c : Char) : Bool := c.toNat ≤ 0x20
  (Text.stripEnds isStripped text.toList).filter fun c => c != '\t' && c != '\n' && c != '\r'

def parseWeb (idna : Idna) (scheme : Scheme) (text : List Char) : Except Error Url := do
  let isSlash (c : Char) : Bool := c == '/' || c == '\\'
  let (userinfo, host, port, rest) ← parseAuthority idna (text.dropWhile isSlash)
  let path := rest.takeWhile fun c => c != '?' && c != '#'
  return {
    scheme, userinfo, host
    port := port.filter (·.toNat ≠ scheme.defaultPort)
    path := Path.resolve [] (path.drop 1) }

/-- Reads a URL. One of another scheme than the supported ones is an error of its own. -/
def parse (idna : Idna) (text : String) : Except Error Url := do
  match splitScheme? (clean text) with
  | none => throw .relative
  | some (scheme, rest) =>
    match SchemeKind.ofText scheme with
    | .web web => parseWeb idna web rest
    | .webLike => do
      let _ ← parseWeb idna .http rest
      throw (.unsupportedScheme scheme)
    | .file => do
      checkFile idna rest
      throw (.unsupportedScheme scheme)
    | .other => do
      if rest.take 2 = ['/', '/'] then checkAuthority (rest.drop 2)
      throw (.unsupportedScheme scheme)

end Url

end ProjectClient
