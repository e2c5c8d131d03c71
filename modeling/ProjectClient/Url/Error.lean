/-! Why a text is not a URL. -/
namespace ProjectClient.Url

inductive Error where
  | relative
  | emptyHost
  | invalidPort
  | invalidIpv4
  | invalidIpv6
  | invalidDomain
  /-- The same for the host of a scheme whose hosts are not domains. -/
  | invalidHostCharacter
  | unsupportedScheme (scheme : String)
deriving DecidableEq

def Error.message : Error → String
  | .relative => "relative URL without a base"
  | .emptyHost => "empty host"
  | .invalidPort => "invalid port number"
  | .invalidIpv4 => "invalid IPv4 address"
  | .invalidIpv6 => "invalid IPv6 address"
  | .invalidDomain => "invalid international domain name"
  | .invalidHostCharacter => "invalid domain character"
  | .unsupportedScheme scheme => "unsupported scheme '" ++ scheme ++ "'"

end ProjectClient.Url
