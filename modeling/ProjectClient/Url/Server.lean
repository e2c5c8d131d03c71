import ProjectClient.ApiError
import ProjectClient.Url.Basic

/-! The address of a projects server, and the addresses of its resources beneath it. -/
namespace ProjectClient.Url

def asDirectory (url : Url) : Url :=
  if url.path.getLast? = some "" then url else { url with path := url.path ++ [""] }

def ofServer (text : String) (idna : Idna := .asciiOnly) : Except ApiError Url :=
  match parse idna (Text.trim text) with
  | .ok url => .ok url.asDirectory
  | .error e => .error (.invalidUrl text e.message)

/-- Resolves a relative path: it takes the place of the last segment. -/
def join (url : Url) (path : String) : Url :=
  { url with path := Path.resolve url.path.dropLast path.toList }

/-- Adds a text as one segment. A last segment that is empty gives way to it. The segments `.` and
`..` add nothing; tabs and line breaks in the text do not count, but they are taken out only after
that test. -/
def pushSegment (url : Url) (text : String) : Url :=
  let path := if url.path.getLast? = some "" then url.path.dropLast else url.path
  if text = "." ∨ text = ".." then { url with path := if path = [] then [""] else path }
  else
    let visible := text.toList.filter fun c => c != '\t' && c != '\n' && c != '\r'
    { url with path := Path.finish path (percentEncode inSegmentSet visible) }

def projects (base : Url) : Url :=
  base.join "api/projects"

def project (collection : Url) (id : String) : Url :=
  collection.pushSegment id

end ProjectClient.Url
