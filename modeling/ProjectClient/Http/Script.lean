import ProjectClient.Http.Message

/-! A web server that answers from a script. It keeps a log of the requests that reach it. -/
namespace ProjectClient.Http

inductive Reply where
  | respond (status : Nat) (body : List UInt8)
  /-- Responds, but announces more of a body than it sends. -/
  | cutShort (status : Nat) (body : List UInt8)
  | close
deriving DecidableEq

structure ScriptedServer where
  /-- Host and port at which clients reach the server, unless none of them can. -/
  authority : Option String
  replies : List Reply := []
  requests : List Request := []

def isBodiless (status : Nat) : Bool := status == 204 || status == 304

def Reply.answer : Reply → Answer
  | respond status body => .ok ⟨status, .ok (if isBodiless status then [] else body)⟩
  | cutShort status body =>
    let cut : Except String (List UInt8) := .error s!"body ended after {body.length} bytes"
    .ok ⟨status, if isBodiless status then .ok [] else cut⟩
  | close => .error "connection closed before a response"

/-- Answers by the next reply. When there are none left, the server answers that it failed. -/
def ScriptedServer.serve (server : ScriptedServer) (request : Request) : Answer × ScriptedServer :=
  if request.url.scheme = .http ∧ some request.url.authority = server.authority then
    ((server.replies.head?.getD (.respond 500 [])).answer,
      { server with replies := server.replies.tail, requests := server.requests ++ [request] })
  else (.error s!"cannot connect to {request.url.authority}", server)

def ScriptedServer.network : Network (StateM ScriptedServer) := fun request server =>
  server.serve request

end ProjectClient.Http
