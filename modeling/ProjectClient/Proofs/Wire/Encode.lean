import ProjectClient.Http.Resource
import ProjectClient.Proofs.Json.Written
import ProjectClient.Proofs.Settings.Disk
import ProjectClient.Proofs.Wire.Texts

/-! What the client writes is read back as the value that it was written for. -/
namespace ProjectClient

open Json
open Text (utf8)

/-! ## Written values are texts of them -/

theorem Step.isText_json (step : Step) : step.IsText (utf8 step.json) :=
  Writes.isRecord_ofMembers
    (.cons ⟨rfl, isOrdinal_toString step.ordinal⟩ (.cons ⟨rfl, isString_ofString step.name⟩ .nil))
    (by simp [Step.parts])

theorem Branch.isText_json (branch : Branch) : branch.IsText (utf8 branch.json) :=
  Writes.isRecord_ofMembers
    (.cons ⟨rfl, isString_ofString branch.id⟩ (.cons ⟨rfl, isString_ofString branch.name⟩
      (.cons ⟨rfl, isListOf_ofList fun step _ => step.isText_json⟩ .nil)))
    (by simp [Branch.parts])

theorem Project.isText_json (project : Project) : project.IsText (utf8 project.json) :=
  Writes.isRecord_ofMembers
    (.cons ⟨rfl, isString_ofString project.id⟩ (.cons ⟨rfl, isString_ofString project.name⟩
      (.cons ⟨rfl, isOptional_ofOptional project.updatedAt⟩
        (.cons ⟨rfl, isListOf_ofList fun branch _ => branch.isText_json⟩ .nil))))
    (by simp [Project.parts])

theorem Listing.isText_json (listing : Listing) : listing.IsText (utf8 listing.json) :=
  Writes.isRecord_ofMembers
    (.cons ⟨rfl, isListOf_ofList fun project _ => project.isText_json⟩ .nil)
    (by simp [Listing.parts])

theorem Creation.writes_name (creation : Creation) :
    Writes (Wire.creationSlots.map (·.part creation)) [("name", ofString creation.name)] :=
  .cons ⟨rfl, isString_ofString creation.name⟩ .nil

theorem Settings.writes_serverUrl (settings : Settings) :
    Writes (Wire.settingsSlots.map (·.part settings))
      [("server_url", ofString settings.serverUrl)] :=
  .cons ⟨rfl, isString_ofString settings.serverUrl⟩ .nil

theorem Json.Describes.decode_of_isRecord {δ α : Type} {slots : List (Slot δ α)}
    {shape : Shape δ α} (describes : Describes slots shape) {a : α} {parts : List Part} {t : Bytes}
    (same : slots.map (·.part a) = parts) (isRecord : IsRecord parts t) :
    shape.decode t = .ok a :=
  describes.decode_eq_ok.2 ⟨[], t, [], allBlank_nil, same.symm ▸ isRecord, allBlank_nil, by simp⟩

theorem Settings.decode_fileText (settings : Settings) :
    Wire.settings.decode (utf8 settings.fileText) = .ok settings :=
  Wire.settings_describes.decode_of_isRecord rfl
    (settings.writes_serverUrl.isRecord_ofMembersOnLines (by simp [Wire.settingsSlots]))

theorem Listing.decode_utf8_json (listing : Listing) :
    Wire.listing.decode (utf8 listing.json) = .ok listing :=
  Wire.listing_describes.decode_of_isRecord (Wire.listing_parts _) listing.isText_json

theorem SettingsStore.read_fileText (path : String) (settings : Settings) :
    read path (utf8 settings.fileText) = .ok settings := by
  rw [read, Text.ofUtf8?_utf8, settings.decode_fileText]
  rfl

/-- Every value is read back from what is written for it: from its compact text, from the file that
it is saved in, and from the body of the request that it is sent in. -/
theorem decode_json :
    (∀ listing : Listing, Wire.listing.decode (utf8 listing.json) = .ok listing) ∧
    (∀ project : Project, Wire.project.decode (utf8 project.json) = .ok project) ∧
    (∀ branch : Branch, Wire.branch.decode (utf8 branch.json) = .ok branch) ∧
    (∀ step : Step, Wire.step.decode (utf8 step.json) = .ok step) ∧
    (∀ creation : Creation, Wire.creation.decode (utf8 creation.json) = .ok creation) ∧
    (∀ settings : Settings, Wire.settings.decode (utf8 settings.json) = .ok settings) ∧
    (∀ settings : Settings, Wire.settings.decode (utf8 settings.fileText) = .ok settings ∧
      ∀ path, SettingsStore.read path (utf8 settings.fileText) = .ok settings) ∧
    (∀ (resource : Http.Resource) (name : String),
      Wire.creation.decode (resource.request (.create name)).body = .ok ⟨name⟩) ∧
    (∀ {σ : Type} (store : SettingsStore (StateM σ)) (directory : String) (Ready : σ → Prop)
        (content : σ → String → Option (List UInt8)), store.directory = some directory →
      SettingsStore.Reliable store.files directory Ready content →
      ∀ (settings : Settings) (s : σ), Ready s →
        ∃ t bytes, (store.save settings).run s = (.ok (), t) ∧
          content t (SettingsStore.settingsFile directory) = some bytes ∧
          bytes = utf8 settings.fileText ∧ Wire.settings.decode bytes = .ok settings ∧
          store.load.run t = (.ok settings, t)) := by
  have creation (creation : Creation) : Wire.creation.decode (utf8 creation.json) = .ok creation :=
    Wire.creation_describes.decode_of_isRecord rfl
      (creation.writes_name.isRecord_ofMembers (by simp [Wire.creationSlots]))
  have settings (settings : Settings) : Wire.settings.decode (utf8 settings.json) = .ok settings :=
    Wire.settings_describes.decode_of_isRecord rfl
      (settings.writes_serverUrl.isRecord_ofMembers (by simp [Wire.settingsSlots]))
  refine ⟨Listing.decode_utf8_json, fun project => ?_, fun branch => ?_, fun step => ?_, creation,
    settings, fun settings =>
      ⟨settings.decode_fileText, fun path => SettingsStore.read_fileText path settings⟩,
    fun resource name => creation ⟨name⟩, ?_⟩
  · exact Wire.project_describes.decode_of_isRecord (Wire.project_parts _) project.isText_json
  · exact Wire.branch_describes.decode_of_isRecord (Wire.branch_parts _) branch.isText_json
  · exact Wire.step_describes.decode_of_isRecord (Wire.step_parts _) step.isText_json
  · intro σ store directory Ready content named reliable settings s ready
    obtain ⟨t, saved, there⟩ := SettingsStore.run_save named reliable ready settings
    have loaded := SettingsStore.run_load named reliable there
    rw [SettingsStore.read_fileText] at loaded
    exact ⟨t, _, saved, there, rfl, settings.decode_fileText, loaded⟩

/-- Quotation marks and letters beyond ASCII survive a save on a disk without a settings file. -/
theorem decode_json_of_machine :
    let store := (Machine.host (some "/cfg") none).settings
    let machine : Machine := { disk.entries := [], server.authority := none }
    let settings : Settings := ⟨"http://\"é\"/"⟩
    machine.disk.IsReady "/cfg" ∧
    ∃ t bytes, (store.save settings).run machine = (.ok (), t) ∧
      t.content "/cfg/settings.json" = some bytes ∧ Wire.settings.decode bytes = .ok settings := by
  intro store machine settings
  have ready : machine.disk.IsReady "/cfg" := .inr (by decide +kernel)
  obtain ⟨-, -, -, -, -, -, -, -, saves⟩ := decode_json
  obtain ⟨t, bytes, saved, there, -, decoded, -⟩ :=
    saves store "/cfg" _ _ rfl (Machine.reliable "/cfg") settings machine ready
  have file : SettingsStore.settingsFile "/cfg" = "/cfg/settings.json" := by decide +kernel
  rw [file] at there
  exact ⟨ready, t, bytes, saved, there, decoded⟩

end ProjectClient
