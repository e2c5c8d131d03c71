import ProjectClient.Failure
import ProjectClient.Text.Blank
import ProjectClient.Text.Utf8
import ProjectClient.Wire

/-! Where the settings are kept between two runs of the client. A save never leaves a file that is
half written: the new content takes the place of the old one as a whole. -/
namespace ProjectClient

structure SettingsStore (m : Type → Type) where
  files : FileSystem m
  directory : Option String

namespace SettingsStore

variable {m : Type → Type} [Monad m] (store : SettingsStore m)

def access {α : Type} (failure : FileError → Failure) (result : m (Except FileError α)) :
    ExceptT Failure m α :=
  .mk do return (← result).mapError failure

def within (directory file : String) : String :=
  if directory = "" ∨ directory.endsWith "/" then directory ++ file else directory ++ "/" ++ file

def path : ExceptT Failure m String := do
  match store.directory with
  | none => throw .noDirectory
  | some directory =>
    if ← store.files.isPresent directory then return within directory "settings.json"
    else do
      access (.makeDirectory directory) (store.files.makeDirectory directory)
      return within directory "settings.json"

def read (path : String) (bytes : List UInt8) : Except Failure Settings :=
  match Text.ofUtf8? bytes with
  | none => .error (.readSettings .notText)
  | some _ => (Wire.settings.decode bytes).mapError (.parseSettings path)

def load : ExceptT Failure m Settings := do
  let path ← store.path
  if ← store.files.isPresent path then
    let bytes ← access .readSettings (store.files.read path)
    ExceptT.mk (pure (read path bytes))
  else return {}

/-- Puts a file in the place of another. Where that has to be free, it is made free first. -/
def replace (temporary path : String) : ExceptT Failure m Unit := do
  match ← store.files.rename temporary path with
  | .ok () => return ()
  | .error .alreadyExists => do
    let _ ← store.files.remove path
    access (.saveSettings (.replace path)) (store.files.rename temporary path)
  | .error e => throw (.saveSettings (.rename temporary path) e)

/-- Writes a temporary file beside the settings file and then puts it in its place. -/
def save (settings : Settings) : ExceptT Failure m Unit := do
  let path ← store.path
  let temporary := path ++ ".tmp"
  access (.saveSettings (.create temporary)) (store.files.create temporary)
  access (.saveSettings (.write temporary))
    (store.files.write temporary (Text.utf8 settings.fileText))
  access (.saveSettings (.sync temporary)) (store.files.sync temporary)
  store.replace temporary path

/-- The server that the user names, or else the saved one. A blank name names none. -/
def server (named : Option String) : ExceptT Failure m String := do
  match (named.map Text.trim).filter (· ≠ "") with
  | some url => return url
  | none => return (← store.load).serverUrl

end SettingsStore

end ProjectClient
