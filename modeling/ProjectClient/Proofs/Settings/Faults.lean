import ProjectClient.Proofs.Settings.Disk

/-! File systems on which every access may fail, with any error and at any time. A step that fails
leaves the settings file as it was. -/
namespace ProjectClient

open SettingsStore (settingsFile temporaryFile)

variable {σ : Type}

/-- Between two states, of which the second is ready again, nothing has happened to the settings
file. `entry` is what is found at a path. -/
def Spares (directory : String) (Ready : σ → Prop) (entry : σ → String → Option DiskEntry)
    (s t : σ) : Prop :=
  Ready t ∧ entry t (settingsFile directory) = entry s (settingsFile directory)

/-- What a file system keeps to in the states that are ready, whatever goes wrong. Of a write that
failed anything may be in the temporary file. -/
structure FileSystem.Fallible (files : FileSystem (StateM σ)) (directory : String)
    (Ready : σ → Prop) (entry : σ → String → Option DiskEntry) : Prop where
  look (path : String) (s : σ) : files.isPresent path s = ((entry s path).isSome, s)
  inside {s : σ} (there : (entry s (settingsFile directory)).isSome) :
    (entry s directory).isSome
  read {bytes : List UInt8} {s : σ}
      (there : entry s (settingsFile directory) = some (.file bytes)) :
    files.read (settingsFile directory) s = (.ok bytes, s)
  makeDirectory {result : Except FileError Unit} {s t : σ} (ready : Ready s)
      (missing : entry s directory = none)
      (ran : files.makeDirectory directory s = (result, t)) :
    Spares directory Ready entry s t
  create {result : Except FileError Unit} {s t : σ} (ready : Ready s)
      (ran : files.create (temporaryFile directory) s = (result, t)) :
    Spares directory Ready entry s t ∧
      (result = .ok () → entry t (temporaryFile directory) = some (.file []))
  write {bytes : List UInt8} {result : Except FileError Unit} {s t : σ} (ready : Ready s)
      (empty : entry s (temporaryFile directory) = some (.file []))
      (ran : files.write (temporaryFile directory) bytes s = (result, t)) :
    Spares directory Ready entry s t ∧
      (result = .ok () → entry t (temporaryFile directory) = some (.file bytes))
  sync {result : Except FileError Unit} {s t : σ} (ready : Ready s)
      (ran : files.sync (temporaryFile directory) s = (result, t)) :
    Spares directory Ready entry s t ∧
      (result = .ok () → entry t (temporaryFile directory) = entry s (temporaryFile directory))
  rename {s t : σ} (ready : Ready s)
      (ran : files.rename (temporaryFile directory) (settingsFile directory) s = (.ok (), t)) :
    entry t (settingsFile directory) = entry s (temporaryFile directory)
  rename_failed {e : FileError} {s t : σ} (ready : Ready s)
      (ran : files.rename (temporaryFile directory) (settingsFile directory) s = (.error e, t)) :
    Spares directory Ready entry s t ∧
      entry t (temporaryFile directory) = entry s (temporaryFile directory)
  remove {s t : σ} (ready : Ready s)
      (ran : files.remove (settingsFile directory) s = (.ok (), t)) :
    Ready t ∧ entry t (settingsFile directory) = none ∧
      entry t (temporaryFile directory) = entry s (temporaryFile directory)
  remove_failed {e : FileError} {s t : σ} (ready : Ready s)
      (ran : files.remove (settingsFile directory) s = (.error e, t)) :
    Spares directory Ready entry s t ∧
      entry t (temporaryFile directory) = entry s (temporaryFile directory)

/-! ## A disk with faults -/

structure FaultyDisk where
  disk : Disk := {}
  /-- What goes wrong with each of the next changes, if anything. -/
  faults : List (Option FileError) := []

namespace FaultyDisk

def change (f : Disk → Except FileError Disk) (damage : Disk → Disk) :
    StateM FaultyDisk (Except FileError Unit) := fun state =>
  match state.faults.head?.join with
  | some e => (.error e, { disk := damage state.disk, faults := state.faults.tail })
  | none =>
    let (result, disk) := Disk.change f state.disk
    (result, { disk, faults := state.faults.tail })

def files : FileSystem (StateM FaultyDisk) where
  isPresent path := fun state => ((state.disk.find? path).isSome, state)
  makeDirectory path := fun state =>
    let (result, disk) := state.disk.makeDirectory path
    (result, { state with disk })
  read path := fun state => (state.disk.read path, state)
  create path := change (·.create path) id
  write path bytes := change (·.write path bytes) fun disk =>
    (disk.write path (bytes.take (bytes.length / 2))).toOption.getD disk
  sync _ := change .ok id
  rename source target := change (·.rename source target) id
  remove path := change (·.remove path) id

def entry (state : FaultyDisk) (path : String) : Option DiskEntry :=
  state.disk.find? path

theorem change_eq {f : Disk → Except FileError Disk} {damage : Disk → Disk} {s t : FaultyDisk}
    {result : Except FileError Unit} (ran : change f damage s = (result, t)) :
    result = .ok () ∧ f s.disk = .ok t.disk ∨
      (∃ e, result = .error e) ∧ (t.disk = s.disk ∨ t.disk = damage s.disk) := by
  rw [change] at ran
  split at ran
  · cases ran
    exact .inr ⟨⟨_, rfl⟩, .inr rfl⟩
  · cases made : f s.disk with
    | ok disk =>
      simp only [Disk.change, made] at ran
      cases ran
      exact .inl ⟨rfl, rfl⟩
    | error e =>
      simp only [Disk.change, made] at ran
      cases ran
      exact .inr ⟨⟨e, rfl⟩, .inl rfl⟩

theorem change_id_eq {f : Disk → Except FileError Disk} {s t : FaultyDisk}
    {result : Except FileError Unit} (ran : change f id s = (result, t)) :
    result = .ok () ∧ f s.disk = .ok t.disk ∨ (∃ e, result = .error e) ∧ t.disk = s.disk :=
  (change_eq ran).imp_right (And.imp_right fun same => same.elim id id)

end FaultyDisk

namespace Disk

variable {disk other : Disk} {directory : String} {place found : List String}

theorem entry?_erase_self (some : place ≠ []) : entry? (disk.erase place) place = none := by
  rw [ entry?, if_neg some, erase, List.lookup_eq_none_iff]
  intro other kept
  have apart : other.1 ≠ place := by simpa using (List.mem_filter.1 kept).2
  simpa using apart.symm

theorem IsAt.find?_settings (isAt : disk.IsAt directory place) :
    disk.find? (settingsFile directory) = disk.entry? (place ++ ["settings.json"]) :=
  isAt.find?_within isName_settings

theorem IsAt.find?_temporary (isAt : disk.IsAt directory place) :
    disk.find? (temporaryFile directory) = disk.entry? (place ++ ["settings.json.tmp"]) := by
  rw [temporaryFile_eq, isAt.find?_within isName_temporary]

theorem IsAt.locate_settings (isAt : disk.IsAt directory place) :
    disk.locate (settingsFile directory) = .ok (place ++ ["settings.json"]) :=
  isAt.within isName_settings

theorem IsAt.locate_temporary (isAt : disk.IsAt directory place) :
    disk.locate (temporaryFile directory) = .ok (place ++ ["settings.json.tmp"]) := by
  rw [temporaryFile_eq, isAt.within isName_temporary]

theorem IsAt.put_temporary (isAt : disk.IsAt directory place)
    (free : disk.entry? (place ++ ["settings.json.tmp"]) ≠ some .directory) (bytes : List UInt8) :
    let next := disk.insert (place ++ ["settings.json.tmp"]) (.file bytes)
    next.IsAt directory place ∧
      next.find? (settingsFile directory) = disk.find? (settingsFile directory) ∧
      next.find? (temporaryFile directory) = some (.file bytes) := by
  intro next
  have isAt' : next.IsAt directory place := isAt.put free
  refine ⟨isAt', ?_, ?_⟩
  · rw [isAt'.find?_settings, isAt.find?_settings]
    exact entry?_insert (by simp)
  · rw [isAt'.find?_temporary]
    exact entry?_insert_self (by simp)

variable (isAt : disk.IsAt directory place)

include isAt

theorem create_temporary (made : disk.create (temporaryFile directory) = .ok other) :
    other.IsAt directory place ∧
      other.find? (settingsFile directory) = disk.find? (settingsFile directory) ∧
      other.find? (temporaryFile directory) = some (.file []) := by
  rw [create, isAt.locate_temporary] at made
  by_cases taken : disk.entry? (place ++ ["settings.json.tmp"]) = some .directory
  · simp [bind, Except.bind, taken, throw, throwThe, MonadExceptOf.throw] at made
  · simp only [bind, Except.bind, if_neg taken] at made
    cases made
    exact isAt.put_temporary taken []

theorem write_temporary {bytes : List UInt8}
    (made : disk.write (temporaryFile directory) bytes = .ok other) :
    other.IsAt directory place ∧
      other.find? (settingsFile directory) = disk.find? (settingsFile directory) ∧
      other.find? (temporaryFile directory) = some (.file bytes) := by
  rw [write, isAt.locate_temporary] at made
  simp only [bind, Except.bind] at made
  split at made
  · rename_i old there
    cases made
    exact isAt.put_temporary (by simp [there]) bytes
  · cases made
  · cases made

theorem rename_temporary
    (made : disk.rename (temporaryFile directory) (settingsFile directory) = .ok other) :
    other.find? (settingsFile directory) = disk.find? (temporaryFile directory) := by
  rw [rename, except_bind_eq_ok] at made
  obtain ⟨bytes, source, made⟩ := made
  obtain ⟨found, located, there⟩ := read_eq_ok.1 source
  cases isAt.locate_temporary.symm.trans located
  rw [isAt.locate_temporary, isAt.locate_settings] at made
  by_cases taken : disk.entry? (place ++ ["settings.json"]) = some .directory
  · simp [bind, Except.bind, taken, throw, throwThe, MonadExceptOf.throw] at made
  · simp only [bind, Except.bind, if_neg taken] at made
    cases made
    have erased : (disk.erase (place ++ ["settings.json.tmp"])).IsAt directory place :=
      isAt.erase (by simp [there])
    have isAt' : ((disk.erase (place ++ ["settings.json.tmp"])).insert
        (place ++ ["settings.json"]) (.file bytes)).IsAt directory place :=
      erased.put (by
        rw [entry?_erase (by simp)]
        exact taken)
    rw [isAt'.find?_settings, isAt.find?_temporary, there]
    exact entry?_insert_self (by simp)

theorem remove_settings (made : disk.remove (settingsFile directory) = .ok other) :
    other.IsAt directory place ∧ other.find? (settingsFile directory) = none ∧
      other.find? (temporaryFile directory) = disk.find? (temporaryFile directory) := by
  rw [remove, isAt.locate_settings] at made
  simp only [bind, Except.bind] at made
  split at made
  · rename_i old there
    cases made
    have isAt' : (disk.erase (place ++ ["settings.json"])).IsAt directory place :=
      isAt.erase (by simp [there])
    refine ⟨isAt', ?_, ?_⟩
    · rw [isAt'.find?_settings]
      exact entry?_erase_self (by simp)
    · rw [isAt'.find?_temporary, isAt.find?_temporary]
      exact entry?_erase (by simp)
  · cases made
  · cases made

end Disk

namespace FaultyDisk

def IsReady (directory : String) (state : FaultyDisk) : Prop :=
  ∃ place, state.disk.IsAt directory place

theorem spares_of_same {directory : String} {s t : FaultyDisk} (ready : s.IsReady directory)
    (same : t.disk = s.disk) :
    Spares directory (IsReady directory) entry s t ∧
      t.entry (temporaryFile directory) = s.entry (temporaryFile directory) := by
  rw [Spares, IsReady, entry, entry, same]
  exact ⟨⟨ready, rfl⟩, congrArg (Disk.find? · _) same⟩

/-- The disk keeps to the laws, whatever its faults are. -/
theorem fallible (directory : String) :
    files.Fallible directory (IsReady directory) entry where
  look path state := rfl
  inside := by
    intro state there
    obtain ⟨place, isAt⟩ : ∃ place, state.disk.IsAt directory place := by
      rw [entry, Disk.find?] at there
      split at there
      · rename_i found located
        exact Disk.exists_isAt (.inr ⟨_, found, Disk.isName_settings, located⟩)
      · cases there
    rw [entry, isAt.find?_eq]
    rfl
  read := by
    intro bytes state there
    rw [entry, Disk.find?] at there
    split at there
    · rename_i found located
      exact Prod.ext (Disk.read_eq_ok.2 ⟨found, located, there⟩) rfl
    · cases there
  makeDirectory := by
    rintro result s t ⟨place, isAt⟩ missing -
    rw [entry, isAt.find?_eq] at missing
    cases missing
  create := by
    rintro result s t ⟨place, isAt⟩ ran
    rcases change_id_eq (f := (·.create _)) ran with ⟨rfl, made⟩ | ⟨⟨e, rfl⟩, same⟩
    · obtain ⟨isAt', settings, temporary⟩ := Disk.create_temporary isAt made
      exact ⟨⟨⟨place, isAt'⟩, settings⟩, fun _ => temporary⟩
    · exact ⟨(spares_of_same ⟨place, isAt⟩ same).1, fun ok => by cases ok⟩
  write := by
    rintro bytes result s t ⟨place, isAt⟩ empty ran
    rcases change_eq (f := (·.write _ bytes)) ran with ⟨rfl, made⟩ | ⟨⟨e, rfl⟩, same | damaged⟩
    · obtain ⟨isAt', settings, temporary⟩ := Disk.write_temporary isAt made
      exact ⟨⟨⟨place, isAt'⟩, settings⟩, fun _ => temporary⟩
    · exact ⟨(spares_of_same ⟨place, isAt⟩ same).1, fun ok => by cases ok⟩
    · refine ⟨?_, fun ok => by cases ok⟩
      cases half : s.disk.write (temporaryFile directory) (bytes.take (bytes.length / 2)) with
      | ok disk =>
        rw [half] at damaged
        obtain ⟨isAt', settings, -⟩ := Disk.write_temporary isAt half
        have same : t.disk = disk := damaged
        rw [Spares, IsReady, entry, entry, same]
        exact ⟨⟨place, isAt'⟩, settings⟩
      | error e =>
        rw [half] at damaged
        exact (spares_of_same ⟨place, isAt⟩ damaged).1
  sync := by
    rintro result s t ready ran
    have same : t.disk = s.disk := by
      rcases change_id_eq (f := .ok) ran with ⟨-, made⟩ | ⟨-, same⟩
      · exact (Except.ok.inj made).symm
      · exact same
    exact (spares_of_same ready same).imp_right fun same _ => same
  rename := by
    rintro s t ⟨place, isAt⟩ ran
    rcases change_id_eq (f := (·.rename _ _)) ran with ⟨-, made⟩ | ⟨⟨e, failed⟩, -⟩
    · exact Disk.rename_temporary isAt made
    · cases failed
  rename_failed := by
    rintro e s t ready ran
    rcases change_id_eq (f := (·.rename _ _)) ran with ⟨ok, -⟩ | ⟨-, same⟩
    · cases ok
    · exact spares_of_same ready same
  remove := by
    rintro s t ⟨place, isAt⟩ ran
    rcases change_id_eq (f := (·.remove _)) ran with ⟨-, made⟩ | ⟨⟨e, failed⟩, -⟩
    · obtain ⟨isAt', settings, temporary⟩ := Disk.remove_settings isAt made
      exact ⟨⟨place, isAt'⟩, settings, temporary⟩
    · cases failed
  remove_failed := by
    rintro e s t ready ran
    rcases change_id_eq (f := (·.remove _)) ran with ⟨ok, -⟩ | ⟨-, same⟩
    · cases ok
    · exact spares_of_same ready same

end FaultyDisk

end ProjectClient
