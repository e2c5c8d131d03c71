import ProjectClient.Proofs.Settings.Disk
import ProjectClient.Proofs.Url.Address
import ProjectClient.Proofs.Url.Normal
import ProjectClient.Proofs.Wire.Encode

/-! To save a server is to name it in every later run. -/
namespace ProjectClient.SettingsStore

variable {σ : Type} {store : SettingsStore (StateM σ)} {directory text : String} {Ready : σ → Prop}
  {content : σ → String → Option (List UInt8)} {print : String → StateM σ Unit} {s : σ} {url : Url}
  {idna : Url.Idna}

theorem ofServer_trim :
    Url.ofServer (Text.trim text) idna = .ok url ↔ Url.ofServer text idna = .ok url := by
  rw [Url.ofServer, Url.ofServer, Text.trim_trim]
  cases Url.parse idna (Text.trim text) with
  | ok => exact Iff.rfl
  | error => constructor <;> rintro ⟨⟩

theorem resource_eq_ok {resource : Http.Resource} :
    Http.Resource.ofServer text idna = .ok resource ↔
      ∃ base, Url.ofServer text idna = .ok base ∧ resource = ⟨base, base.projects⟩ := by
  rw [Http.Resource.ofServer, except_bind_eq_ok]
  refine exists_congr fun base => and_congr_right fun _ => ?_
  exact ⟨fun h => by cases h; rfl, fun h => h ▸ rfl⟩

theorem run_setServer_of_refused {e : ApiError} (refused : Url.ofServer text idna = .error e)
    (s : σ) :
    (store.setServer print text idna).run s = (.error (.server e), s) := by
  rw [setServer, refused]
  rfl

theorem run_setServer (named : store.directory = some directory)
    (reliable : Reliable store.files directory Ready content)
    (quiet : ∀ line s, content (print line s).2 = content s) (ready : Ready s)
    (accepted : Url.ofServer text idna = .ok url) :
    ∃ t, (store.setServer print text idna).run s = (.ok ⟨url.text⟩, t) ∧
      content t (settingsFile directory) = some (Text.utf8 (Settings.fileText ⟨url.text⟩)) := by
  obtain ⟨t, saved, there⟩ := run_save named reliable ready ⟨url.text⟩
  have address : (ExceptT.mk (pure ((Url.ofServer text idna).mapError Failure.server)) :
      ExceptT Failure (StateM σ) Url).run s = (.ok url, s) := by
    rw [accepted]
    rfl
  have printed (line : String) :
      (ExceptT.lift (print line) : ExceptT Failure (StateM σ) Unit).run t =
        (.ok (), (print line t).2) :=
    run_lift rfl
  refine ⟨(print s!"Server set to {url.text}\n" t).2, ?_, by rw [quiet, there]⟩
  rw [setServer, run_bind_of_ok address]
  exact (run_bind_of_ok saved).trans (run_bind_of_ok (printed _))

theorem run_server_of_blank (named : store.directory = some directory)
    (reliable : Reliable store.files directory Ready content) {bytes : List UInt8}
    (there : content s (settingsFile directory) = some bytes) {blank? : Option String}
    (blank : ∀ text ∈ blank?, Text.IsBlank text) :
    (store.server blank?).run s =
      ((read (settingsFile directory) bytes).map Settings.serverUrl, s) := by
  have loaded := run_load named reliable there
  rw [server_of_blank store blank]
  cases settings : read (settingsFile directory) bytes with
  | ok settings' =>
    rw [settings] at loaded
    exact run_bind_of_ok loaded
  | error failure =>
    rw [settings] at loaded
    exact run_bind_of_error loaded

/-- To save a server is to name it in every later run. It is saved if the client could work on it
when it is named, whatever was in the settings file before, and else nothing is done. From then on a
run that names no server works at the same addresses as one that names it, as long as the settings
file stays as it was saved. A server that is named needs no settings file at all. -/
theorem saved_server_is_named_server (named : store.directory = some directory)
    (reliable : Reliable store.files directory Ready content)
    (quiet : ∀ line s, content (print line s).2 = content s) (visible : ¬ Text.IsBlank text) :
    (∀ {m : Type → Type} [Monad m] (other : SettingsStore m),
      other.server (some text) = pure (Text.trim text)) ∧
    ∀ s, Ready s →
      ((∃ settings t, (store.setServer print text idna).run s = (.ok settings, t)) ↔
        ∃ server resource, (store.server (some text)).run s = (.ok server, s) ∧
          Http.Resource.ofServer server idna = .ok resource) ∧
      (∀ failure t, (store.setServer print text idna).run s = (.error failure, t) → t = s) ∧
      (∀ settings t, (store.setServer print text idna).run s = (.ok settings, t) →
        ∀ later, content later (settingsFile directory) = content t (settingsFile directory) →
          ∀ blank? : Option String, (∀ text ∈ blank?, Text.IsBlank text) →
            ∃ saved server resource, (store.server blank?).run later = (.ok saved, later) ∧
              (store.server (some text)).run later = (.ok server, later) ∧
              Http.Resource.ofServer saved idna = .ok resource ∧
              Http.Resource.ofServer server idna = .ok resource) := by
  have own (s : σ) : (store.server (some text)).run s = (.ok (Text.trim text), s) := by
    rw [server_of_named store visible]
    rfl
  refine ⟨fun other => server_of_named other visible, fun s ready => ?_⟩
  cases accepted : Url.ofServer text idna with
  | error e =>
    have refused : (store.setServer print text idna).run s = (.error (.server e), s) :=
      run_setServer_of_refused accepted s
    refine ⟨⟨?_, ?_⟩, fun failure t run => ?_, fun settings t run => ?_⟩
    · rintro ⟨settings, t, run⟩
      cases refused.symm.trans run
    · rintro ⟨server, resource, run, works⟩
      cases (own s).symm.trans run
      obtain ⟨base, trimmed, -⟩ := resource_eq_ok.1 works
      cases accepted.symm.trans (ofServer_trim.1 trimmed)
    · cases refused.symm.trans run
      rfl
    · cases refused.symm.trans run
  | ok url =>
    obtain ⟨t, saved, there⟩ := run_setServer named reliable quiet ready accepted
    obtain ⟨normal, directory⟩ := Url.isNormal_of_ofServer accepted
    have works : Http.Resource.ofServer (Text.trim text) idna = .ok ⟨url, url.projects⟩ :=
      resource_eq_ok.2 ⟨url, ofServer_trim.2 accepted, rfl⟩
    have works' : Http.Resource.ofServer url.text idna = .ok ⟨url, url.projects⟩ :=
      resource_eq_ok.2 ⟨url, Url.ofServer_text normal directory, rfl⟩
    refine ⟨⟨fun _ => ⟨_, _, own s, works⟩, fun _ => ⟨_, t, saved⟩⟩, fun failure t' run => ?_,
      fun settings t' run later same blank? blank => ?_⟩
    · cases saved.symm.trans run
    · cases saved.symm.trans run
      have found := run_server_of_blank named reliable (same.trans there) blank
      rw [read_fileText] at found
      exact ⟨_, _, _, found, own later, works', works⟩

/-- A settings file that cannot be read gives way to a saved server. What is found there later is
the server that was named with blanks, in another script and with the port of its scheme. -/
theorem saved_server_is_named_server_of_corrupt :
    let idna := Url.Idna.asciiOnly.withName (Text.utf8 "Bücher.de") "xn--bcher-kva.de".toList
      (by decide +kernel) (by decide +kernel)
    let text := " HTTP://Bücher.de:80 "
    let named := "HTTP://Bücher.de:80"
    let base : Url := { scheme := .http, host := .domain "xn--bcher-kva.de", path := [""] }
    let corrupt := Text.utf8 "\x7b nope"
    let store := (Machine.host (some "/cfg") none).settings
    let machine : Machine := {
      disk.entries := [(["cfg"], .directory), (["cfg", "settings.json"], .file corrupt)]
      server.authority := none }
    ¬ Text.IsBlank text ∧ machine.disk.IsReady "/cfg" ∧
      (∃ e, (store.server none).run machine =
        (.error (.parseSettings "/cfg/settings.json" e), machine)) ∧
      (store.server (some text)).run machine = (.ok named, machine) ∧
      ∃ settings t, (store.setServer Machine.print text idna).run machine = (.ok settings, t) ∧
        ∃ saved, (store.server (some " ")).run t = (.ok saved, t) ∧
          Http.Resource.ofServer saved idna = .ok ⟨base, base.projects⟩ := by
  intro idna text named base corrupt store machine
  have visible : ¬ Text.IsBlank text := by decide +kernel
  have ready : machine.disk.IsReady "/cfg" := .inl (by decide +kernel)
  have quiet (line : String) (machine : Machine) :
      (Machine.print line machine).2.content = machine.content := rfl
  have configured : store.directory = some "/cfg" := rfl
  obtain ⟨own, runs⟩ := saved_server_is_named_server configured (Machine.reliable "/cfg") quiet
    visible
  obtain ⟨saves, -, later⟩ := runs machine ready
  have works : Http.Resource.ofServer named idna = .ok ⟨base, base.projects⟩ := by
    decide +kernel
  have trimmed : Text.trim text = named := by decide +kernel
  have found : (store.server (some text)).run machine = (.ok named, machine) := by
    rw [own, trimmed]
    rfl
  obtain ⟨e, faulty⟩ : ∃ e, Wire.settings.decode corrupt = .error e := by
    have none : (Wire.settings.decode corrupt).toOption = .none := by decide +kernel
    cases decoded : Wire.settings.decode corrupt with
    | error e => exact ⟨e, rfl⟩
    | ok settings =>
      rw [decoded] at none
      cases none
  have unread : (store.server .none).run machine =
      (.error (.parseSettings "/cfg/settings.json" e), machine) := by
    have there : machine.content (settingsFile "/cfg") = some corrupt := by decide +kernel
    have found : (store.server .none).run machine = _ :=
      run_server_of_blank configured (Machine.reliable "/cfg") there (by simp)
    have file : settingsFile "/cfg" = "/cfg/settings.json" := by decide +kernel
    rw [read, Text.ofUtf8?_utf8, faulty, file] at found
    exact found
  obtain ⟨settings, t, run⟩ := saves.2 ⟨_, _, found, works⟩
  obtain ⟨saved, server, resource, again, same, worksSaved, worksNamed⟩ :=
    later settings t run t rfl (some " ") (by decide +kernel)
  refine ⟨visible, ready, ⟨e, unread⟩, found, settings, t, run, saved, again, ?_⟩
  rw [own, trimmed] at same
  cases same
  exact worksSaved.trans (worksNamed.symm.trans works)

end ProjectClient.SettingsStore
