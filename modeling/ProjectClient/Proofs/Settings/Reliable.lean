import ProjectClient.Session.Server

/-! Saving and loading settings on a file system where what the client asks for is granted. The laws
are those that an operating system documents, for the three paths that the client uses. -/
namespace ProjectClient

open Text (utf8)

/-! ## Runs -/

section Runs

variable {ε σ α β : Type} {x : ExceptT ε (StateM σ) α} {f : α → ExceptT ε (StateM σ) β} {s t : σ}

theorem run_bind (x : ExceptT ε (StateM σ) α) (f : α → ExceptT ε (StateM σ) β) (s : σ) :
    (x >>= f).run s = let (result, t) := x.run s; ExceptT.bindCont f result t :=
  rfl

theorem run_bind_of_ok {a : α} (h : x.run s = (.ok a, t)) : (x >>= f).run s = (f a).run t := by
  rw [run_bind, h]
  rfl

theorem run_bind_of_error {e : ε} (h : x.run s = (.error e, t)) :
    (x >>= f).run s = (.error e, t) := by
  rw [run_bind, h]
  rfl

end Runs

namespace SettingsStore

variable {σ : Type} {s t : σ}

theorem run_lift {α : Type} {a : α} {result : StateM σ α} (h : result s = (a, t)) :
    (ExceptT.lift result : ExceptT Failure (StateM σ) α).run s = (.ok a, t) := by
  change (Except.ok (result s).1, (result s).2) = _
  rw [h]

theorem run_access {failure : FileError → Failure} {α : Type} {a : α}
    {result : StateM σ (Except FileError α)} (h : result s = (.ok a, t)) :
    (access failure result).run s = (.ok a, t) := by
  change ((result s).1.mapError failure, (result s).2) = _
  rw [h]
  rfl

def settingsFile (directory : String) : String := within directory "settings.json"

def temporaryFile (directory : String) : String := settingsFile directory ++ ".tmp"

/-- What a file system keeps to that grants what the client asks for in the states that are ready.
`content` is what is in the files of a state. -/
structure Reliable (files : FileSystem (StateM σ)) (directory : String) (Ready : σ → Prop)
    (content : σ → String → Option (List UInt8)) : Prop where
  look (path : String) (s : σ) : (files.isPresent path s).2 = s
  read {bytes : List UInt8} {s : σ} (there : content s (settingsFile directory) = some bytes) :
    (files.isPresent directory s).1 ∧ (files.isPresent (settingsFile directory) s).1 ∧
      files.read (settingsFile directory) s = (.ok bytes, s)
  makeDirectory {s : σ} (ready : Ready s) (missing : (files.isPresent directory s).1 = false) :
    ∃ t, files.makeDirectory directory s = (.ok (), t) ∧ Ready t ∧
      (files.isPresent directory t).1
  create {s : σ} (ready : Ready s) (present : (files.isPresent directory s).1) :
    ∃ t, files.create (temporaryFile directory) s = (.ok (), t) ∧ Ready t ∧
      content t (temporaryFile directory) = some []
  write {s : σ} (ready : Ready s) (empty : content s (temporaryFile directory) = some [])
      (bytes : List UInt8) :
    ∃ t, files.write (temporaryFile directory) bytes s = (.ok (), t) ∧ Ready t ∧
      content t (temporaryFile directory) = some bytes
  sync {bytes : List UInt8} {s : σ} (ready : Ready s)
      (there : content s (temporaryFile directory) = some bytes) :
    ∃ t, files.sync (temporaryFile directory) s = (.ok (), t) ∧ Ready t ∧
      content t (temporaryFile directory) = some bytes
  rename {bytes : List UInt8} {s : σ} (ready : Ready s)
      (there : content s (temporaryFile directory) = some bytes) :
    ∃ t, files.rename (temporaryFile directory) (settingsFile directory) s = (.ok (), t) ∧
      content t (settingsFile directory) = some bytes

variable {store : SettingsStore (StateM σ)} {directory : String} {Ready : σ → Prop}
  {content : σ → String → Option (List UInt8)}

theorem run_path_of_present (named : store.directory = some directory)
    (present : store.files.isPresent directory s = (true, s)) :
    store.path.run s = (.ok (settingsFile directory), s) := by
  simp only [path, named]
  exact (run_bind_of_ok (run_lift present)).trans rfl

theorem run_load_of_read (named : store.directory = some directory)
    (inDirectory : store.files.isPresent directory s = (true, s))
    (present : store.files.isPresent (settingsFile directory) s = (true, s)) {bytes : List UInt8}
    (found : store.files.read (settingsFile directory) s = (.ok bytes, s)) :
    store.load.run s = (SettingsStore.read (settingsFile directory) bytes, s) := by
  rw [load, run_bind_of_ok (run_path_of_present named inDirectory)]
  exact (run_bind_of_ok (run_lift present)).trans (run_bind_of_ok (run_access found))

theorem Reliable.isPresent_eq (reliable : Reliable store.files directory Ready content)
    {path : String} {present : Bool} (h : (store.files.isPresent path s).1 = present) :
    store.files.isPresent path s = (present, s) :=
  Prod.ext h (reliable.look path s)

section

variable (named : store.directory = some directory)
  (reliable : Reliable store.files directory Ready content)

include named reliable

theorem run_path (ready : Ready s) :
    ∃ t, store.path.run s = (.ok (settingsFile directory), t) ∧ Ready t ∧
      (store.files.isPresent directory t).1 := by
  cases present : (store.files.isPresent directory s).1 with
  | true =>
    exact ⟨s, run_path_of_present named (reliable.isPresent_eq present), ready, present⟩
  | false =>
    obtain ⟨t, made, ready, present'⟩ := reliable.makeDirectory ready present
    refine ⟨t, ?_, ready, present'⟩
    simp only [path, named]
    exact (run_bind_of_ok (run_lift (reliable.isPresent_eq present))).trans
      (run_bind_of_ok (run_access made))

theorem run_save (ready : Ready s) (settings : Settings) :
    ∃ t, (store.save settings).run s = (.ok (), t) ∧
      content t (settingsFile directory) = some (utf8 settings.fileText) := by
  obtain ⟨t₁, path, ready, present⟩ := run_path named reliable ready
  obtain ⟨t₂, create, ready, empty⟩ := reliable.create ready present
  obtain ⟨t₃, write, ready, there⟩ := reliable.write ready empty (utf8 settings.fileText)
  obtain ⟨t₄, sync, ready, there⟩ := reliable.sync ready there
  obtain ⟨t₅, rename, there⟩ := reliable.rename ready there
  have replaced : (store.replace (temporaryFile directory) (settingsFile directory)).run t₄ =
      (.ok (), t₅) :=
    run_bind_of_ok (run_lift rename)
  refine ⟨t₅, ?_, there⟩
  rw [save, run_bind_of_ok path]
  calc _ = _ := run_bind_of_ok (run_access create)
    _ = _ := run_bind_of_ok (run_access write)
    _ = _ := run_bind_of_ok (run_access sync)
    _ = _ := replaced

theorem run_load {bytes : List UInt8} (there : content s (settingsFile directory) = some bytes) :
    store.load.run s = (SettingsStore.read (settingsFile directory) bytes, s) := by
  obtain ⟨inDirectory, present, read⟩ := reliable.read there
  exact run_load_of_read named (reliable.isPresent_eq inDirectory) (reliable.isPresent_eq present)
    read

end

/-! ## Servers -/

theorem server_of_named {m : Type → Type} [Monad m] (store : SettingsStore m) {text : String}
    (visible : ¬ Text.IsBlank text) : store.server (some text) = pure (Text.trim text) := by
  have kept : (Option.map Text.trim (some text)).filter (· ≠ "") = some (Text.trim text) := by
    simpa [Text.IsBlank] using visible
  rw [server, kept]

theorem server_of_blank {m : Type → Type} [Monad m] (store : SettingsStore m)
    {named : Option String} (blank : ∀ text ∈ named, Text.IsBlank text) :
    store.server named = do return (← store.load).serverUrl := by
  have none : (named.map Text.trim).filter (· ≠ "") = none := by
    cases named with
    | none => rfl
    | some text =>
      have isBlank : Text.trim text = "" := blank text rfl
      simp [isBlank]
  rw [server, none]

end SettingsStore

end ProjectClient
