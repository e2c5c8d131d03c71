import ProjectClient.CommandLine.Machine
import ProjectClient.Proofs.Results
import ProjectClient.Proofs.Settings.Reliable
import ProjectClient.Proofs.Text.Split

/-! The disk in memory keeps to the laws of a reliable file system, as long as the settings
directory is there or can be made and no directory stands in the place of one of the two files. -/
namespace ProjectClient

namespace Disk

variable {disk other : Disk} {place found : List String} {entry : DiskEntry}

/-! ## Entries -/

theorem lookup_filter {entries : List (List String × DiskEntry)} (h : found ≠ place) :
    (entries.filter (·.1 ≠ place)).lookup found = entries.lookup found := by
  induction entries with
  | nil => rfl
  | cons first entries ih =>
    obtain ⟨at_, entry⟩ := first
    by_cases gone : at_ = place
    · have differs : (found == at_) = false := by simpa [gone] using h
      rw [List.filter_cons_of_neg (by simpa using gone), ih, List.lookup_cons, differs]
    · rw [List.filter_cons_of_pos (by simpa using gone), List.lookup_cons, List.lookup_cons, ih]

theorem entry?_erase (h : found ≠ place) :
    entry? (disk.erase place) found = disk.entry? found := by
  rw [ entry?, entry?, erase, lookup_filter h]

theorem entry?_insert (h : found ≠ place) :
    entry? (disk.insert place entry) found = disk.entry? found := by
  have differs : (found == place) = false := by simpa using h
  have behind : entry? (disk.insert place entry) found = entry? (disk.erase place) found := by
    rw [ entry?, entry?, insert, List.lookup_cons, differs]
  rw [behind, entry?_erase h]

theorem entry?_insert_self (some : place ≠ []) :
    entry? (disk.insert place entry) place = .some entry := by
  rw [ entry?, if_neg some, insert, List.lookup_cons, beq_self_eq_true]

/-! ## Walks -/

def step (place : List String) (name : String) : List String :=
  if name = "" ∨ name = "." then place
  else if name = ".." then place.dropLast
  else place ++ [name]

theorem walk_cons {name : String} {names : List String} :
    disk.walk place (name :: names) = .ok found ↔
      disk.entry? place = some .directory ∧ disk.walk (step place name) names = .ok found := by
  rw [walk, step]
  cases disk.entry? place with
  | none => simp
  | some entry =>
    cases entry with
    | file bytes => simp
    | directory =>
      simp only [true_and]
      split
      · rfl
      · split <;> rfl

theorem walk_mono (kept : ∀ at_, disk.entry? at_ = some .directory →
      other.entry? at_ = some .directory) {names : List String}
    (h : disk.walk place names = .ok found) : other.walk place names = .ok found := by
  induction names generalizing place with
  | nil => exact h
  | cons name names ih =>
    obtain ⟨directory, h⟩ := walk_cons.1 h
    exact walk_cons.2 ⟨kept place directory, ih h⟩

theorem walk_append {names more : List String} :
    disk.walk place (names ++ more) = .ok found ↔
      ∃ between, disk.walk place names = .ok between ∧ disk.walk between more = .ok found := by
  induction names generalizing place with
  | nil => simp [walk]
  | cons name names ih =>
    rw [List.cons_append, walk_cons, ih]
    simp only [walk_cons, and_assoc, exists_and_left]

/-! ## Files in a directory -/

def IsName (name : String) : Prop :=
  '/' ∉ name.toList ∧ name ∉ ["", ".", ".."]

theorem walk_name {name : String} (isName : IsName name) :
    disk.walk place [name] = .ok found ↔
      disk.entry? place = some .directory ∧ place ++ [name] = found := by
  have leads : step place name = place ++ [name] := by
    obtain ⟨-, ordinary⟩ := isName
    simp only [List.mem_cons, List.not_mem_nil, or_false, not_or] at ordinary
    simp [step, ordinary]
  rw [walk_cons, leads, walk, Except.ok.injEq]

theorem pieces_append_slash (before after : String) :
    Text.pieces '/' (before ++ "/" ++ after) = Text.pieces '/' before ++ Text.pieces '/' after := by
  have slash : "/".toList = ['/'] := rfl
  simp only [Text.pieces, String.toList_append, slash, Text.splitOn_eq_splitOnP]
  rw [List.append_assoc, List.singleton_append, List.splitOnP_append_cons _ _ (by simp),
    List.map_append]

theorem pieces_name {name : String} (isName : IsName name) : Text.pieces '/' name = [name] := by
  have alone : ∀ c ∈ name.toList, (c == '/') = false := fun c h => by
    have other : c ≠ '/' := fun same => isName.1 (same ▸ h)
    simpa using other
  rw [Text.pieces, Text.splitOn_eq_splitOnP, List.splitOnP_eq_singleton alone]
  simp

/-- The names on the way to a directory, which lead to the files in it, too. A slash at the end
makes an empty name that stays in the directory. -/
theorem exists_names (directory : String) :
    ∃ names last, Text.pieces '/' directory = names ++ last ∧ (last = [] ∨ last = [""]) ∧
      ∀ name, IsName name →
        Text.pieces '/' (SettingsStore.within directory name) = names ++ [name] := by
  by_cases none : directory = ""
  · refine ⟨[], [""], by rw [none]; rfl, .inr rfl, fun name isName => ?_⟩
    rw [SettingsStore.within, if_pos (.inl none), none, String.empty_append, pieces_name isName]
    rfl
  by_cases slash : directory.endsWith "/"
  · obtain ⟨before, rfl⟩ : ∃ before, directory = before ++ "/" := by
      rw [String.endsWith_eq_endsWith_toSlice, String.Slice.endsWith_string_iff,
        String.copy_toSlice] at slash
      obtain ⟨before, same⟩ := slash
      exact ⟨String.ofList before, String.toList_inj.1 (by rw [← same]; simp)⟩
    refine ⟨Text.pieces '/' before, [""], ?_, .inr rfl, fun name isName => ?_⟩
    · have split := pieces_append_slash before ""
      rw [String.append_empty] at split
      exact split
    · rw [SettingsStore.within, if_pos (.inr slash), pieces_append_slash, pieces_name isName]
  · refine ⟨_, [], (List.append_nil _).symm, .inl rfl, fun name isName => ?_⟩
    rw [SettingsStore.within, if_neg (by simp [none, slash]), pieces_append_slash,
      pieces_name isName]

structure IsAt (disk : Disk) (directory : String) (place : List String) : Prop where
  entry : disk.entry? place = some .directory
  locate : disk.locate directory = .ok place
  within {name : String} (isName : IsName name) :
    disk.locate (SettingsStore.within directory name) = .ok (place ++ [name])

variable {directory name : String}

theorem exists_isAt (h : disk.find? directory = some .directory ∨
      ∃ name found, IsName name ∧
        disk.locate (SettingsStore.within directory name) = .ok found) :
    ∃ place, disk.IsAt directory place := by
  obtain ⟨names, last, pieces, ends, beneath⟩ := exists_names directory
  have stays {place found : List String} (h : disk.walk place last = .ok found) :
      found = place := by
    rcases ends with rfl | rfl
    · exact (Except.ok.inj h).symm
    · exact (Except.ok.inj (walk_cons.1 h).2).symm
  obtain ⟨place, way, entry⟩ : ∃ place, disk.walk [] names = .ok place ∧
      disk.entry? place = some .directory := by
    rcases h with itself | ⟨name, found, isName, h⟩
    · rw [find?, locate, pieces] at itself
      split at itself
      · rename_i found h
        obtain ⟨place, way, h⟩ := walk_append.1 h
        exact ⟨place, way, stays h ▸ itself⟩
      · cases itself
    · rw [locate, beneath name isName, walk_append] at h
      obtain ⟨place, way, h⟩ := h
      exact ⟨place, way, ((walk_name isName).1 h).1⟩
  refine ⟨place, entry, ?_, fun {other} isName => ?_⟩
  · rw [locate, pieces, walk_append]
    refine ⟨place, way, ?_⟩
    rcases ends with rfl | rfl
    · rfl
    · exact walk_cons.2 ⟨entry, rfl⟩
  · rw [locate, beneath other isName, walk_append]
    exact ⟨place, way, (walk_name isName).2 ⟨entry, rfl⟩⟩

theorem IsAt.mono (kept : ∀ at_, disk.entry? at_ = some .directory →
      other.entry? at_ = some .directory) (isAt : disk.IsAt directory place) :
    other.IsAt directory place :=
  ⟨kept place isAt.entry, walk_mono kept isAt.locate,
    fun isName => walk_mono kept (isAt.within isName)⟩

theorem IsAt.find?_eq (isAt : disk.IsAt directory place) :
    disk.find? directory = some .directory := by
  simp only [find?, isAt.locate, isAt.entry]

theorem IsAt.find?_within (isAt : disk.IsAt directory place) (isName : IsName name) :
    disk.find? (SettingsStore.within directory name) = disk.entry? (place ++ [name]) := by
  simp only [find?, isAt.within isName]

theorem IsAt.put (isAt : disk.IsAt directory place) {bytes : List UInt8}
    (free : disk.entry? found ≠ some .directory) :
    (disk.insert found (.file bytes)).IsAt directory place := by
  refine isAt.mono fun at_ entry => ?_
  have differs : at_ ≠ found := fun same => free (same ▸ entry)
  rw [entry?_insert differs, entry]

theorem IsAt.erase (isAt : disk.IsAt directory place)
    (free : disk.entry? found ≠ some .directory) : (disk.erase found).IsAt directory place := by
  refine isAt.mono fun at_ entry => ?_
  have differs : at_ ≠ found := fun same => free (same ▸ entry)
  rw [entry?_erase differs, entry]

/-! ## Accesses -/

theorem read_eq_ok {path : String} {bytes : List UInt8} :
    disk.read path = .ok bytes ↔
      ∃ place, disk.locate path = .ok place ∧ disk.entry? place = some (.file bytes) := by
  rw [read, except_bind_eq_ok]
  refine exists_congr fun place => and_congr_right fun _ => ?_
  cases disk.entry? place with
  | none => exact ⟨nofun, nofun⟩
  | some entry =>
    cases entry with
    | directory => exact ⟨nofun, nofun⟩
    | file content => exact ⟨fun h => by cases h; rfl, fun h => by cases h; rfl⟩

section

variable (isAt : disk.IsAt directory place) (isName : IsName name)

include isAt isName

theorem create_within (free : disk.entry? (place ++ [name]) ≠ some .directory) :
    disk.create (SettingsStore.within directory name) =
      .ok (disk.insert (place ++ [name]) (.file [])) := by
  rw [create, isAt.within isName]
  exact if_neg free

theorem write_within {old : List UInt8} (there : disk.entry? (place ++ [name]) = some (.file old))
    (bytes : List UInt8) :
    disk.write (SettingsStore.within directory name) bytes =
      .ok (disk.insert (place ++ [name]) (.file bytes)) := by
  rw [write, isAt.within isName]
  simp [bind, Except.bind, there, pure, Except.pure]

theorem rename_within {bytes : List UInt8} {target : String} (isTarget : IsName target)
    (there : disk.entry? (place ++ [name]) = some (.file bytes))
    (free : disk.entry? (place ++ [target]) ≠ some .directory) :
    disk.rename (SettingsStore.within directory name) (SettingsStore.within directory target) =
      .ok ((disk.erase (place ++ [name])).insert (place ++ [target]) (.file bytes)) := by
  have source : disk.read (SettingsStore.within directory name) = .ok bytes :=
    read_eq_ok.2 ⟨_, isAt.within isName, there⟩
  rw [rename, source, isAt.within isName, isAt.within isTarget]
  exact if_neg free

end

/-! ## The settings directory -/

/-- The directory is there, and no directory stands in the place of its two files. -/
def IsOpen (disk : Disk) (directory : String) : Prop :=
  disk.find? directory = some .directory ∧
    disk.find? (SettingsStore.settingsFile directory) ≠ some .directory ∧
    disk.find? (SettingsStore.temporaryFile directory) ≠ some .directory

instance (disk : Disk) (directory : String) : Decidable (disk.IsOpen directory) :=
  inferInstanceAs (Decidable (_ ∧ _ ∧ _))

def IsReady (disk : Disk) (directory : String) : Prop :=
  disk.IsOpen directory ∨
    disk.find? directory = none ∧ (disk.makeDirectory directory).1 = .ok () ∧
      (disk.makeDirectory directory).2.IsOpen directory

theorem isName_settings : IsName "settings.json" := by
  simp [IsName]

theorem isName_temporary : IsName "settings.json.tmp" := by
  simp [IsName]

theorem temporaryFile_eq (directory : String) :
    SettingsStore.temporaryFile directory = SettingsStore.within directory "settings.json.tmp" := by
  have name : "settings.json.tmp" = "settings.json" ++ ".tmp" := rfl
  rw [SettingsStore.temporaryFile, SettingsStore.settingsFile, SettingsStore.within,
    SettingsStore.within, name]
  split <;> simp [String.append_assoc]

theorem isOpen_iff : disk.IsOpen directory ↔ ∃ place, disk.IsAt directory place ∧
    disk.entry? (place ++ ["settings.json"]) ≠ some .directory ∧
    disk.entry? (place ++ ["settings.json.tmp"]) ≠ some .directory := by
  rw [IsOpen, temporaryFile_eq, SettingsStore.settingsFile]
  constructor
  · rintro ⟨there, settings, temporary⟩
    obtain ⟨place, isAt⟩ := exists_isAt (.inl there)
    rw [isAt.find?_within isName_settings] at settings
    rw [isAt.find?_within isName_temporary] at temporary
    exact ⟨place, isAt, settings, temporary⟩
  · rintro ⟨place, isAt, settings, temporary⟩
    rw [isAt.find?_within isName_settings, isAt.find?_within isName_temporary]
    exact ⟨isAt.find?_eq, settings, temporary⟩

theorem IsReady.free (ready : disk.IsReady directory) (isAt : disk.IsAt directory place) :
    disk.entry? (place ++ ["settings.json"]) ≠ some .directory ∧
      disk.entry? (place ++ ["settings.json.tmp"]) ≠ some .directory := by
  rcases ready with ⟨-, settings, temporary⟩ | ⟨missing, -⟩
  · rw [SettingsStore.settingsFile, isAt.find?_within isName_settings] at settings
    rw [temporaryFile_eq, isAt.find?_within isName_temporary] at temporary
    exact ⟨settings, temporary⟩
  · rw [isAt.find?_eq] at missing
    cases missing

end Disk

namespace Machine

open SettingsStore (settingsFile temporaryFile)

def content (machine : Machine) (path : String) : Option (List UInt8) :=
  (machine.disk.read path).toOption

variable {machine : Machine} {directory : String} {bytes : List UInt8}

theorem content_eq_some {path : String} :
    machine.content path = some bytes ↔ machine.disk.read path = .ok bytes := by
  rw [content]
  cases machine.disk.read path with
  | error e => exact ⟨nofun, nofun⟩
  | ok found => exact ⟨fun h => by cases h; rfl, fun h => by cases h; rfl⟩

theorem onDisk_change {f : Disk → Except FileError Disk} {disk : Disk}
    (h : f machine.disk = .ok disk) :
    onDisk (Disk.change f) machine = (.ok (), { machine with disk }) := by
  simp [onDisk, Disk.change, h]

theorem exists_place {name : String} (isName : Disk.IsName name)
    (there : machine.content (SettingsStore.within directory name) = some bytes) :
    ∃ place, machine.disk.IsAt directory place ∧
      machine.disk.entry? (place ++ [name]) = some (.file bytes) := by
  obtain ⟨found, located, entry⟩ := Disk.read_eq_ok.1 (content_eq_some.1 there)
  obtain ⟨place, isAt⟩ := Disk.exists_isAt (.inr ⟨name, found, isName, located⟩)
  have same := (isAt.within isName).symm.trans located
  cases same
  exact ⟨place, isAt, entry⟩

theorem content_within {name : String} {place : List String} (isName : Disk.IsName name)
    (isAt : machine.disk.IsAt directory place)
    (entry : machine.disk.entry? (place ++ [name]) = some (.file bytes)) :
    machine.content (SettingsStore.within directory name) = some bytes :=
  content_eq_some.2 (Disk.read_eq_ok.2 ⟨_, isAt.within isName, entry⟩)

theorem put_temporary (ready : machine.disk.IsReady directory) {place : List String}
    (isAt : machine.disk.IsAt directory place) (bytes : List UInt8) :
    let next : Machine := { machine with
      disk := machine.disk.insert (place ++ ["settings.json.tmp"]) (.file bytes) }
    next.disk.IsReady directory ∧ next.content (temporaryFile directory) = some bytes := by
  intro next
  obtain ⟨settings, temporary⟩ := ready.free isAt
  have isAt' : next.disk.IsAt directory place := isAt.put temporary
  have entry : next.disk.entry? (place ++ ["settings.json.tmp"]) = some (.file bytes) :=
    Disk.entry?_insert_self (by simp)
  have settings' : next.disk.entry? (place ++ ["settings.json"]) ≠ some .directory := by
    rw [Disk.entry?_insert (by simp)]
    exact settings
  constructor
  · exact .inl (Disk.isOpen_iff.2 ⟨place, isAt', settings', by simp [entry]⟩)
  · rw [Disk.temporaryFile_eq]
    exact content_within Disk.isName_temporary isAt' entry

/-- The machine keeps to the laws wherever the settings directory is there or can be made. -/
theorem reliable (directory : String) :
    SettingsStore.Reliable files directory (fun machine => machine.disk.IsReady directory)
      content where
  look path machine := rfl
  read := by
    intro bytes machine there
    obtain ⟨place, isAt, entry⟩ := exists_place Disk.isName_settings there
    have directoryThere : (machine.disk.find? directory).isSome := by rw [isAt.find?_eq]; rfl
    have fileThere : (machine.disk.find? (settingsFile directory)).isSome := by
      rw [settingsFile, isAt.find?_within Disk.isName_settings, entry]
      rfl
    exact ⟨directoryThere, fileThere, Prod.ext (content_eq_some.1 there) rfl⟩
  makeDirectory := by
    intro machine ready missing
    have none : (machine.disk.find? directory).isSome = false := missing
    rcases ready with ⟨there, -⟩ | ⟨-, made, isOpen⟩
    · rw [there] at none
      cases none
    · refine ⟨_, Prod.ext made rfl, .inl isOpen, ?_⟩
      have there : ((machine.disk.makeDirectory directory).2.find? directory).isSome := by
        rw [isOpen.1]
        rfl
      exact there
  create := by
    intro machine ready present
    obtain ⟨place, isAt⟩ : ∃ place, machine.disk.IsAt directory place := by
      rcases ready with ⟨there, -⟩ | ⟨missing, -⟩
      · exact Disk.exists_isAt (.inl there)
      · have some : (machine.disk.find? directory).isSome := present
        rw [missing] at some
        cases some
    have created := Disk.create_within isAt Disk.isName_temporary (ready.free isAt).2
    rw [← Disk.temporaryFile_eq] at created
    exact ⟨_, onDisk_change (f := (·.create _)) created, put_temporary ready isAt []⟩
  write := by
    intro machine ready empty bytes
    rw [Disk.temporaryFile_eq] at empty
    obtain ⟨place, isAt, entry⟩ := exists_place Disk.isName_temporary empty
    have written := Disk.write_within isAt Disk.isName_temporary entry bytes
    rw [← Disk.temporaryFile_eq] at written
    exact ⟨_, onDisk_change (f := (·.write _ bytes)) written, put_temporary ready isAt bytes⟩
  sync ready there := ⟨_, rfl, ready, there⟩
  rename := by
    intro bytes machine ready there
    rw [Disk.temporaryFile_eq] at there
    obtain ⟨place, isAt, entry⟩ := exists_place Disk.isName_temporary there
    have free := (ready.free isAt).1
    have renamed := Disk.rename_within isAt Disk.isName_temporary Disk.isName_settings entry free
    rw [← Disk.temporaryFile_eq] at renamed
    refine ⟨_, onDisk_change (f := (·.rename _ _)) renamed, ?_⟩
    have isAt' : ((machine.disk.erase (place ++ ["settings.json.tmp"])).insert
        (place ++ ["settings.json"]) (.file bytes)).IsAt directory place :=
      (isAt.erase (by simp [entry])).put (by rw [Disk.entry?_erase (by simp)]; exact free)
    exact content_within Disk.isName_settings isAt' (Disk.entry?_insert_self (by simp))

end Machine

end ProjectClient
