import ProjectClient.Text.Base64
import ProjectClient.Text.Utf8
import ProjectClient.Url.Basic

/-! Requests to a web server and its responses. -/
namespace ProjectClient

/-- User name and password as a request shows them to the server. A name that does not decode shows
nothing; a password that does not decode is left out. -/
def Url.Userinfo.credentials? (userinfo : Url.Userinfo) : Option String := do
  let decode (text : String) : Option String := Text.ofUtf8? (Url.percentDecode text.toList)
  let username ← decode userinfo.username
  let password? := userinfo.password.bind decode
  if username = "" ∧ password? = none then none
  else
    let pair := username ++ ":" ++ password?.getD ""
    some ("Basic " ++ String.ofList (Text.base64 (Text.utf8 pair)))

namespace Http

inductive Method where
  | get
  | post
  | delete
deriving DecidableEq

def Method.text : Method → String
  | get => "GET"
  | post => "POST"
  | delete => "DELETE"

structure Request where
  method : Method
  /-- The address, without the user. -/
  url : Url
  authorization : Option String
  contentType : Option String := none
  body : List UInt8 := []
deriving DecidableEq

def userAgent : String := "pilot/0.1.0"

/-- A request without a body. The user in the address becomes the authorization. -/
def Request.to (url : Url) (method : Method) : Request where
  method := method
  url := { url with userinfo := {} }
  authorization := url.userinfo.credentials?

def Request.withJson (request : Request) (json : String) : Request :=
  { request with contentType := some "application/json", body := Text.utf8 json }

def Request.target (request : Request) : String :=
  Url.Path.text request.url.path

structure Response where
  status : Nat
  /-- The body, or why it did not arrive as a whole. -/
  body : Except String (List UInt8)

def Response.IsSuccess (response : Response) : Prop :=
  200 ≤ response.status ∧ response.status < 300

instance (response : Response) : Decidable response.IsSuccess :=
  inferInstanceAs (Decidable (_ ∧ _))

abbrev Answer := Except String Response

abbrev Network (m : Type → Type) := Request → m Answer

end Http

end ProjectClient
