/-! Why a call to the projects server failed. -/
namespace ProjectClient

inductive ApiError where
  | invalidUrl (url reason : String)
  | transport (text : String)
  | http (status : Nat)
  | decode (text : String)
deriving DecidableEq, Inhabited

namespace ApiError

def kind : ApiError → String
  | invalidUrl .. => "InvalidUrl"
  | transport _ => "Transport"
  | http _ => "Http"
  | decode _ => "Decode"

def message : ApiError → String
  | invalidUrl url reason => s!"invalid server url {url}: {reason}"
  | transport text => s!"request failed: {text}"
  | http status => s!"server responded with HTTP {status}"
  | decode text => s!"malformed response body: {text}"

end ApiError

end ProjectClient
