import ProjectClient.Http.Message
import ProjectClient.Text.Blank
import ProjectClient.Text.Split

/-! Requests and responses as the bytes of one connection (HTTP/1.1). The client asks for the
connection to be closed behind the response, so the end of the input ends a body of unknown
length. -/
namespace ProjectClient.Http

def headerText (headers : List (String × String)) : String :=
  String.join (headers.map fun (name, value) => name ++ ": " ++ value ++ "\r\n")

def Request.headers (request : Request) : List (String × String) :=
  [("host", request.url.authority), ("user-agent", userAgent), ("accept", "*/*"),
    ("connection", "close")] ++
  (request.authorization.map (("authorization", ·))).toList ++
  (request.contentType.map (("content-type", ·))).toList ++
  (if request.method = .post then [("content-length", toString request.body.length)] else [])

def Request.bytes (request : Request) : List UInt8 :=
  Text.utf8 (request.method.text ++ " " ++ request.target ++ " HTTP/1.1\r\n" ++
    headerText request.headers ++ "\r\n") ++ request.body

def takeLine? : List UInt8 → Option (List Char × List UInt8)
  | [] => none
  | 0x0d :: 0x0a :: rest => some ([], rest)
  | 0x0a :: rest => some ([], rest)
  | b :: rest => (takeLine? rest).map fun (line, rest) => (Char.ofNat b.toNat :: line, rest)

theorem length_of_takeLine? {bytes rest : List UInt8} {line : List Char}
    (h : takeLine? bytes = some (line, rest)) : rest.length < bytes.length := by
  fun_induction takeLine? bytes generalizing line with
  | case1 => simp at h
  | case2 tail =>
    simp only [Option.some.injEq, Prod.mk.injEq] at h
    rw [h.2]
    exact Nat.lt_succ_of_lt (Nat.lt_succ_self _)
  | case3 tail =>
    simp only [Option.some.injEq, Prod.mk.injEq] at h
    rw [h.2]
    exact Nat.lt_succ_self _
  | case4 b tail _ _ ih =>
    simp only [Option.map_eq_some_iff, Prod.mk.injEq] at h
    obtain ⟨⟨found, left⟩, hf, _, rfl⟩ := h
    exact Nat.lt_succ_of_lt (ih hf)

def header? (line : List Char) : Option (String × String) :=
  let name := line.takeWhile (· ≠ ':')
  if name.length < line.length then
    some (String.ofList (name.map Char.toLower),
      Text.trim (String.ofList (line.drop (name.length + 1))))
  else none

def takeHeaders? (bytes : List UInt8) : Option (List (String × String) × List UInt8) :=
  match _ : takeLine? bytes with
  | none => none
  | some ([], rest) => some ([], rest)
  | some (line, rest) => do
    let header ← header? line
    let (headers, rest) ← takeHeaders? rest
    return (header :: headers, rest)
termination_by bytes.length
decreasing_by exact length_of_takeLine? (by assumption)

def status? (line : List Char) : Option Nat :=
  match Text.splitOn (· == ' ') line with
  | version :: status :: _ =>
    if version.take 7 = "HTTP/1.".toList then (String.ofList status).toNat? else none
  | _ => none

def takeChunks? (bytes : List UInt8) : Option (List UInt8) :=
  match _ : takeLine? bytes with
  | none => none
  | some (line, rest) => do
    let size ← Url.valueInBase? 16 (line.takeWhile fun c => (Url.hexValue? c).isSome)
    if size = 0 then return []
    else if rest.length < size then none
    else return rest.take size ++ (← takeChunks? (rest.drop (size + 2)))
termination_by bytes.length
decreasing_by
  have := length_of_takeLine? (by assumption)
  simp only [List.length_drop]
  omega

def body (status : Nat) (headers : List (String × String)) (rest : List UInt8) :
    Except String (List UInt8) :=
  if status = 204 ∨ status = 304 then .ok []
  else if (headers.lookup "transfer-encoding").map (·.map Char.toLower) = some "chunked" then
    match takeChunks? rest with
    | some bytes => .ok bytes
    | none => .error "body ended within a chunk"
  else match (headers.lookup "content-length").bind (·.toNat?) with
    | some length =>
      if rest.length < length then .error s!"body ended after {rest.length} bytes"
      else .ok (rest.take length)
    | none => .ok rest

def Response.ofBytes? (bytes : List UInt8) : Option Response := do
  let (line, rest) ← takeLine? bytes
  let status ← status? line
  let (headers, rest) ← takeHeaders? rest
  return { status, body := Http.body status headers rest }

end ProjectClient.Http
