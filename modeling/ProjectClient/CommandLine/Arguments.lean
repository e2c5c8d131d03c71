/-! What the words of a command line ask for. The words lead down a tree of places, from the client
as a whole to one task. At every place on the way `--verbose` and `--server` may be given, each at
most once. A word that starts with a dash is no argument, unless `--` stands somewhere before it. -/
namespace ProjectClient.CommandLine

inductive Task where
  | list (withSteps : Bool)
  | create (name : String)
  | delete (project : String) (isConfirmed : Bool)
  | showServer
  | setServer (url : String)
deriving DecidableEq

structure Invocation where
  task : Task
  /-- The server that was named, by the innermost of the options. -/
  server : Option String := none
deriving DecidableEq

inductive Place where
  | client
  | projects
  | list
  | create
  | delete
  | config
  | showServer
  | setServer
deriving DecidableEq

namespace Place

def next? : Place → String → Option Place
  | client, word =>
    if word = "projects" then some projects else if word = "config" then some config else none
  | projects, word =>
    if word = "list" ∨ word = "ls" then some list
    else if word = "create" then some create
    else if word = "delete" ∨ word = "rm" then some delete
    else none
  | config, word =>
    if word = "show" then some showServer else if word = "set-server" then some setServer else none
  | _, _ => none

def takesArgument : Place → Bool
  | create | delete | setServer => true
  | _ => false

end Place

inductive Flag where
  | verbose
  | steps
  | yes
deriving DecidableEq

namespace Flag

def ofName? (place : Place) (name : String) : Option Flag :=
  if name = "verbose" then some verbose
  else if name = "steps" ∧ place = .list then some steps
  else if name = "yes" ∧ place = .delete then some yes
  else none

def ofLetter? (place : Place) (letter : Char) : Option Flag :=
  if letter = 'v' then some verbose
  else if letter = 'y' ∧ place = .delete then some yes
  else none

end Flag

inductive Word where
  /-- Two dashes: all words after them are plain. -/
  | divider
  | long (name : String) (value : Option String)
  | short (letters : List Char)
  | plain
deriving DecidableEq

def Word.ofText (text : String) : Word :=
  match text.toList with
  | ['-', '-'] => divider
  | '-' :: '-' :: rest =>
    let name := rest.takeWhile (· ≠ '=')
    let value := rest.drop (name.length + 1)
    long (String.ofList name)
      (if name.length < rest.length then some (String.ofList value) else none)
  | '-' :: letter :: letters => short (letter :: letters)
  | _ => plain

structure Progress where
  place : Place := .client
  flags : List Flag := []
  server : Option String := none
  argument : Option String := none
  outerServer : Option String := none
  /-- The next word is the value of `--server`. -/
  awaitsServer : Bool := false
  isDivided : Bool := false

namespace Progress

def enter (progress : Progress) (place : Place) : Progress :=
  { place, outerServer := progress.server.or progress.outerServer }

def addFlag? (progress : Progress) (flag : Flag) : Option Progress :=
  if flag ∈ progress.flags then none else some { progress with flags := flag :: progress.flags }

def nameServer? (progress : Progress) (url : String) : Option Progress :=
  if progress.server.isSome then none
  else some { progress with server := some url, awaitsServer := false }

def addArgument? (progress : Progress) (text : String) : Option Progress :=
  if progress.place.takesArgument ∧ progress.argument = none then
    some { progress with argument := some text }
  else none

def addLong? (progress : Progress) (name : String) (value : Option String) : Option Progress :=
  match value with
  | some value => if name = "server" then progress.nameServer? value else none
  | none =>
    if name = "server" then some { progress with awaitsServer := true }
    else (Flag.ofName? progress.place name).bind progress.addFlag?

def addShort? (progress : Progress) (letter : Char) : Option Progress :=
  (Flag.ofLetter? progress.place letter).bind progress.addFlag?

/-- Takes one word, unless it makes the whole line invalid. -/
def step? (progress : Progress) (text : String) : Option Progress :=
  if progress.awaitsServer then
    if Word.ofText text = .plain then progress.nameServer? text else none
  else if progress.isDivided then progress.addArgument? text
  else match progress.place.next? text with
    | some place => some (progress.enter place)
    | none =>
      match Word.ofText text with
      | .divider => some { progress with isDivided := true }
      | .long name value => progress.addLong? name value
      | .short letters => letters.foldlM addShort? progress
      | .plain => progress.addArgument? text

def task? (progress : Progress) : Option Task :=
  match progress.place with
  | .list => some (.list (decide (.steps ∈ progress.flags)))
  | .create => progress.argument.map .create
  | .delete => progress.argument.map (.delete · (decide (.yes ∈ progress.flags)))
  | .showServer => some .showServer
  | .setServer => progress.argument.map .setServer
  | .client | .projects | .config => none

def finish? (progress : Progress) : Option Invocation :=
  if progress.awaitsServer then none
  else progress.task?.map fun task => { task, server := progress.server.or progress.outerServer }

end Progress

def usage : String :=
  "usage: pilot [-v|--verbose] [--server URL] COMMAND

  projects list|ls [--steps]
  projects create NAME
  projects delete|rm PROJECT [-y|--yes]
  config show
  config set-server URL
"

def Invocation.parse? (words : List String) : Option Invocation :=
  (words.foldlM Progress.step? {}).bind Progress.finish?

end ProjectClient.CommandLine
