import ProjectClient.Url.Domain
import ProjectClient.Url.Error
import ProjectClient.Url.Ipv6

/-! Hosts: domains and addresses. Domains are lower case and in ASCII. -/
namespace ProjectClient.Url

inductive Host where
  | domain (name : String)
  | ipv4 (address : UInt32)
  | ipv6 (address : Vector UInt16 8)
deriving DecidableEq

namespace Host

def ofBrackets (text : List Char) : Except Error Host :=
  if text.getLast? = some ']' then
    match ipv6Address? (text.drop 1).dropLast with
    | some address => .ok (.ipv6 address)
    | none => .error .invalidIpv6
  else .error .invalidIpv6

def parse (idna : Idna) (text : List Char) : Except Error Host :=
  if text.head? = some '[' then ofBrackets text
  else
    match idna.toAscii? (percentDecode text) with
    | none => .error .invalidDomain
    | some name =>
      if name = [] then .error .emptyHost
      else if EndsInNumber name then
        match ipv4Address? name with
        | some address => .ok (.ipv4 address)
        | none => .error .invalidIpv4
      else .ok (.domain (String.ofList name))

def checkOpaque (text : List Char) : Except Error Unit :=
  if text.head? = some '[' then (ofBrackets text).map fun _ => ()
  else if text.any fun c => "\x00\t\n\r #/:<>?@[\\]^|".toList.contains c then
    .error .invalidHostCharacter
  else .ok ()

def text : Host → String
  | domain name => name
  | ipv4 address => ipv4Text address
  | ipv6 address => "[" ++ ipv6Text address ++ "]"

end Host

end ProjectClient.Url
