import ProjectClient.Text.Split
import ProjectClient.Url.Percent

/-! Paths as lists of segments. Segments `.` and `..` are worked off where they are read: the first
adds nothing, and the second takes away the segment before it. At the end of a path either leaves
an empty segment, so that the path ends in `/`. -/
namespace ProjectClient.Url.Path

/-- The segment `.`, or its point percent-encoded. -/
def isHere (segment : String) : Bool :=
  [".", "%2e"].contains (segment.map Char.toLower)

def isUp (segment : String) : Bool :=
  ["..", ".%2e", "%2e.", "%2e%2e"].contains (segment.map Char.toLower)

/-- A letter with a colon or a bar, which `..` does not take away. -/
def isDriveLetter (segment : String) : Bool :=
  match segment.toList with
  | [letter, mark] => letter.isAlpha && (mark == ':' || mark == '|')
  | _ => false

def up (segments : List String) : List String :=
  match segments.getLast? with
  | some last => if isDriveLetter last then segments else segments.dropLast
  | none => []

/-- Adds a segment that has others behind it. -/
def push (segments : List String) (segment : String) : List String :=
  if isUp segment then up segments
  else if isHere segment then segments
  else segments ++ [segment]

/-- Adds the last segment. -/
def finish (segments : List String) (segment : String) : List String :=
  if isUp segment then up segments ++ [""]
  else if isHere segment then segments ++ [""]
  else segments ++ [segment]

def isSeparator (c : Char) : Bool :=
  c == '/' || c == '\\'

def resolve (segments : List String) (text : List Char) : List String :=
  let read := (Text.splitOn isSeparator text).map (percentEncode inPathSet)
  finish (read.dropLast.foldl push segments) (read.getLast?.getD "")

def text (segments : List String) : String :=
  String.join (segments.map ("/" ++ ·))

end ProjectClient.Url.Path
