/-! Where the system wants a client to keep its settings. -/
namespace ProjectClient

/-- The directory for settings: it lies in the directory that the environment names for all
settings, if that is an absolute path, and else in `.config` of the home directory. -/
def settingsDirectory? (configHome home : Option String) : Option String :=
  let absolute := configHome.filter (·.toList.head? = some '/')
  let inHome := (home.filter (· ≠ "")).map (· ++ "/.config")
  (absolute.or inHome).map (· ++ "/projects")

end ProjectClient
