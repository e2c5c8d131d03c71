import ProjectClient.Settings.Store
import ProjectClient.Text.Columns
import ProjectClient.Url.Server

/-! The commands about the saved server. -/
namespace ProjectClient.SettingsStore

variable {m : Type → Type} [Monad m] (store : SettingsStore m) (print : String → m Unit)

def showServer (named : Option String) : ExceptT Failure m String := do
  let server ← store.server named
  let saved ← store.load
  let path ← store.path
  print <| Text.ofLines [
    ":: Client configuration",
    s!"   Server:   {server}",
    s!"   Saved:    {saved.serverUrl}",
    s!"   Settings: {path}"]
  return server

def setServer (text : String) (idna : Url.Idna := .asciiOnly) : ExceptT Failure m Settings := do
  let url ← ExceptT.mk (pure ((Url.ofServer text idna).mapError Failure.server))
  let settings : Settings := { serverUrl := url.text }
  store.save settings
  print s!"Server set to {settings.serverUrl}\n"
  return settings

end ProjectClient.SettingsStore
