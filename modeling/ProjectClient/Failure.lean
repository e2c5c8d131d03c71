import ProjectClient.ApiError
import ProjectClient.Files.Basic
import ProjectClient.Json.Error
import ProjectClient.Text.Columns
import ProjectClient.Text.Split

/-! Why a command of the client failed, and how that is reported. -/
namespace ProjectClient

inductive SaveStep where
  | create (temporary : String)
  | write (temporary : String)
  | sync (temporary : String)
  | rename (temporary path : String)
  /-- The second try to rename, with the file out of the way. -/
  | replace (path : String)
deriving DecidableEq

def SaveStep.message : SaveStep → String
  | create temporary => s!"Failed to create temp file {temporary}"
  | write temporary => s!"Failed to write temp file {temporary}"
  | sync temporary => s!"Failed to sync temp file {temporary}"
  | rename temporary path => s!"Failed to rename {temporary} to {path}"
  | replace path => s!"Failed to replace {path}"

inductive Failure where
  | server (error : ApiError)
  | noDirectory
  | makeDirectory (path : String) (error : FileError)
  | readSettings (error : FileError)
  | parseSettings (path : String) (error : Json.Error)
  | saveSettings (step : SaveStep) (error : FileError)
  | status (text : String)
  | blankName
  | unknownProject (text : String)
  | unlisted (text : String)
  | unanswered (text : String)
  | unfinished

namespace Failure

def chain : Failure → List String
  | server error => [error.message]
  | noDirectory => ["Could not determine config directory"]
  | makeDirectory path error => [s!"Failed to create config dir {path}", error.message]
  | readSettings error => ["Failed to read settings", error.message]
  | parseSettings path error => [s!"Failed to parse {path}", error.message]
  | saveSettings step error => ["Failed to write settings", step.message, error.message]
  | status text => [text]
  | blankName => ["Project name cannot be empty"]
  | unknownProject text => [s!"Project '{text}' not found"]
  | unlisted text => [s!"Project '{text}' is no longer listed"]
  | unanswered text => [text]
  | unfinished => ["The command did not finish"]

def message (failure : Failure) : String :=
  ": ".intercalate failure.chain

/-- A text with a mark before its first line and its other lines under the first. -/
def hanging (mark : String) (text : String) : String :=
  let indent := String.ofList (List.replicate mark.length ' ')
  mark ++ ("\n" ++ indent).intercalate (Text.pieces '\n' text)

/-- A single cause is indented, and several are numbered. -/
def causeLines : List String → List String
  | [cause] => [hanging "    " cause]
  | causes => causes.mapIdx fun i cause => hanging (Text.atRight ' ' 5 (toString i) ++ ": ") cause

def report (failure : Failure) : String :=
  match failure.chain with
  | [] => ""
  | [text] => s!"Error: {text}\n"
  | text :: causes => s!"Error: {text}\n\nCaused by:\n" ++ Text.ofLines (causeLines causes)

end Failure

end ProjectClient
