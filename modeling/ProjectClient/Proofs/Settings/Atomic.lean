import ProjectClient.Proofs.Settings.Faults
import ProjectClient.Proofs.Wire.Encode

/-! Saving settings where every access may fail. The settings file keeps what is in it until all of
the new content is safe in the temporary file. It is only at risk while the temporary file takes its
place, and there only if it has to be taken away first. -/
namespace ProjectClient

open SettingsStore (settingsFile temporaryFile)
open Text (utf8)

variable {σ : Type} {directory : String} {Ready : σ → Prop}
  {entry : σ → String → Option DiskEntry} {s t u : σ}

theorem Spares.refl (ready : Ready s) : Spares directory Ready entry s s :=
  ⟨ready, rfl⟩

theorem Spares.trans (first : Spares directory Ready entry s t)
    (second : Spares directory Ready entry t u) : Spares directory Ready entry s u :=
  ⟨second.1, second.2.trans first.2⟩

def Secures {α : Type} (directory : String) (Ready : σ → Prop)
    (entry : σ → String → Option DiskEntry) (action : ExceptT Failure (StateM σ) α) (s : σ)
    (effect : α → σ → Prop) : Prop :=
  Spares directory Ready entry s (action.run s).2 ∧
    ∀ a, (action.run s).1 = .ok a → effect a (action.run s).2

section Secures

variable {α β : Type} {x : ExceptT Failure (StateM σ) α} {f : α → ExceptT Failure (StateM σ) β}
  {effect : β → σ → Prop}

theorem Secures.congr {y : ExceptT Failure (StateM σ) α} {effect : α → σ → Prop}
    (same : x.run s = y.run s) (secures : Secures directory Ready entry y s effect) :
    Secures directory Ready entry x s effect := by
  rw [Secures, same]
  exact secures

theorem Secures.pure {a : α} {effect : α → σ → Prop} (ready : Ready s) (holds : effect a s) :
    Secures directory Ready entry (Pure.pure a) s effect := by
  refine ⟨.refl ready, fun b same => ?_⟩
  cases same
  exact holds

theorem Secures.bind (between : α → σ → Prop) (first : Secures directory Ready entry x s between)
    (second : ∀ a t, Ready t → between a t → Secures directory Ready entry (f a) t effect) :
    Secures directory Ready entry (x >>= f) s effect := by
  rcases ran : x.run s with ⟨_ | a, t⟩
  · rw [Secures, run_bind_of_error ran]
    rw [Secures, ran] at first
    exact ⟨first.1, nofun⟩
  · rw [Secures, ran] at first
    rw [Secures, run_bind_of_ok ran]
    obtain ⟨spares, holds⟩ := second a t first.1.1 (first.2 a rfl)
    exact ⟨first.1.trans spares, holds⟩

theorem Secures.access {effect : α → σ → Prop} {failure : FileError → Failure}
    {act : StateM σ (Except FileError α)}
    (spares : ∀ result t, act s = (result, t) → Spares directory Ready entry s t ∧
      ∀ a, result = .ok a → effect a t) :
    Secures directory Ready entry (SettingsStore.access failure act) s effect := by
  obtain ⟨kept, holds⟩ := spares _ _ rfl
  refine ⟨kept, fun a succeeded => holds a ?_⟩
  exact mapError_eq_ok.1 succeeded

end Secures

namespace SettingsStore

variable {store : SettingsStore (StateM σ)}

def prepare {m : Type → Type} [Monad m] (store : SettingsStore m) (settings : Settings) :
    ExceptT Failure m String := do
  let path ← store.path
  let temporary := path ++ ".tmp"
  access (.saveSettings (.create temporary)) (store.files.create temporary)
  access (.saveSettings (.write temporary)) (store.files.write temporary (utf8 settings.fileText))
  access (.saveSettings (.sync temporary)) (store.files.sync temporary)
  return path

theorem save_eq {m : Type → Type} [Monad m] [LawfulMonad m] (store : SettingsStore m)
    (settings : Settings) : store.save settings =
      store.prepare settings >>= fun path => store.replace (path ++ ".tmp") path := by
  simp [save, prepare]

/-- The settings file is taken away for the temporary one, which then does not come in its
place. -/
def Drops (files : FileSystem (StateM σ)) (directory : String) (s : σ) : Prop :=
  ∃ s₁ s₂ s₃ e,
    files.rename (temporaryFile directory) (settingsFile directory) s =
      (.error .alreadyExists, s₁) ∧
    files.remove (settingsFile directory) s₁ = (.ok (), s₂) ∧
    files.rename (temporaryFile directory) (settingsFile directory) s₂ = (.error e, s₃)

section Replace

variable {temporary path : String}

theorem run_replace_of_renamed (renamed : store.files.rename temporary path s = (.ok (), t)) :
    (store.replace temporary path).run s = (.ok (), t) :=
  run_bind_of_ok (run_lift renamed)

theorem run_replace_of_failed {e : FileError} (other : e ≠ .alreadyExists)
    (failed : store.files.rename temporary path s = (.error e, t)) :
    (store.replace temporary path).run s =
      (.error (.saveSettings (.rename temporary path) e), t) := by
  refine (run_bind_of_ok (run_lift failed)).trans ?_
  cases e with
  | alreadyExists => exact absurd rfl other
  | _ => rfl

theorem run_replace_of_blocked {removal retry : Except FileError Unit} {v : σ}
    (blocked : store.files.rename temporary path s = (.error .alreadyExists, t))
    (removed : store.files.remove path t = (removal, u))
    (again : store.files.rename temporary path u = (retry, v)) :
    (store.replace temporary path).run s =
      (retry.mapError (.saveSettings (.replace path)), v) := by
  have last : (access (.saveSettings (.replace path)) (store.files.rename temporary path)).run u =
      (retry.mapError (.saveSettings (.replace path)), v) := by
    change ((store.files.rename temporary path u).1.mapError _,
      (store.files.rename temporary path u).2) = _
    rw [again]
  exact (run_bind_of_ok (run_lift blocked)).trans ((run_bind_of_ok (run_lift removed)).trans last)

end Replace

section

variable (named : store.directory = some directory)
  (fallible : store.files.Fallible directory Ready entry)

include named fallible

theorem secures_path (ready : Ready s) :
    Secures directory Ready entry store.path s fun path _ => path = settingsFile directory := by
  have looked := fallible.look directory s
  cases found : entry s directory with
  | some there =>
    rw [found] at looked
    rw [Secures, run_path_of_present named looked]
    exact ⟨.refl ready, fun path same => (Except.ok.inj same).symm⟩
  | none =>
    rw [found] at looked
    have first : store.path.run s =
        (access (.makeDirectory directory) (store.files.makeDirectory directory) >>= fun _ =>
          (pure (settingsFile directory) : ExceptT Failure (StateM σ) String)).run s := by
      simp only [path, named]
      exact (run_bind_of_ok (run_lift looked)).trans rfl
    refine .congr first (.bind (fun _ _ => True) (.access fun result t ran => ?_) ?_)
    · exact ⟨fallible.makeDirectory ready found ran, fun _ _ => trivial⟩
    · exact fun _ t ready _ => .pure ready rfl

theorem secures_prepare (ready : Ready s) (settings : Settings) :
    Secures directory Ready entry (store.prepare settings) s fun path t =>
      path = settingsFile directory ∧
        entry t (temporaryFile directory) = some (.file (utf8 settings.fileText)) := by
  refine .bind _ (secures_path named fallible ready) ?_
  rintro _ s₁ ready rfl
  refine .bind (fun _ t => entry t (temporaryFile directory) = some (.file []))
    (.access fun result t ran => ?_) ?_
  · obtain ⟨spares, empty⟩ := fallible.create ready ran
    exact ⟨spares, fun _ => empty⟩
  intro _ s₂ ready empty
  refine .bind (fun _ t =>
      entry t (temporaryFile directory) = some (.file (utf8 settings.fileText)))
    (.access fun result t ran => ?_) ?_
  · obtain ⟨spares, written⟩ := fallible.write ready empty ran
    exact ⟨spares, fun _ => written⟩
  intro _ s₃ ready written
  refine .bind (fun _ t =>
      entry t (temporaryFile directory) = some (.file (utf8 settings.fileText)))
    (.access fun result t ran => ?_) ?_
  · obtain ⟨spares, same⟩ := fallible.sync ready ran
    exact ⟨spares, fun _ ok => (same ok).trans written⟩
  · exact fun _ s₄ ready written => .pure ready ⟨rfl, written⟩

omit named in
/-- The temporary file takes the place of the settings file, or what was there stays, unless it was
dropped. -/
theorem run_replace {bytes : List UInt8} (ready : Ready s)
    (whole : entry s (temporaryFile directory) = some (.file bytes)) :
    ∃ result t,
      (store.replace (temporaryFile directory) (settingsFile directory)).run s = (result, t) ∧
      (result = .ok () → entry t (settingsFile directory) = some (.file bytes)) ∧
      ∀ failure, result = .error failure →
        Drops store.files directory s ∧ entry t (settingsFile directory) = none ∨
          ¬ Drops store.files directory s ∧
            entry t (settingsFile directory) = entry s (settingsFile directory) := by
  rcases renamed : store.files.rename (temporaryFile directory) (settingsFile directory) s with
    ⟨e | _, s₁⟩
  swap
  · refine ⟨_, s₁, run_replace_of_renamed renamed, fun _ => ?_, nofun⟩
    exact (fallible.rename ready renamed).trans whole
  obtain ⟨⟨ready₁, kept₁⟩, whole₁⟩ := fallible.rename_failed ready renamed
  -- Only this failure is answered with more than the error.
  by_cases blocked : e = .alreadyExists
  swap
  · refine ⟨_, s₁, run_replace_of_failed blocked renamed, nofun, fun _ _ => .inr ⟨?_, kept₁⟩⟩
    rintro ⟨_, _, _, _, first, -⟩
    cases renamed.symm.trans first
    exact blocked rfl
  subst blocked
  rcases removed : store.files.remove (settingsFile directory) s₁ with ⟨removal, s₂⟩
  rcases again : store.files.rename (temporaryFile directory) (settingsFile directory) s₂ with
    ⟨retry, s₃⟩
  have ran := run_replace_of_blocked renamed removed again
  obtain ⟨ready₂, whole₂⟩ : Ready s₂ ∧
      entry s₂ (temporaryFile directory) = entry s₁ (temporaryFile directory) := by
    cases removal with
    | ok => exact (fallible.remove ready₁ removed).imp_right And.right
    | error e => exact (fallible.remove_failed ready₁ removed).imp_left And.left
  cases retry with
  | ok =>
    refine ⟨_, s₃, ran, fun _ => ?_, nofun⟩
    exact (fallible.rename ready₂ again).trans (whole₂.trans (whole₁.trans whole))
  | error e =>
    obtain ⟨⟨-, kept₃⟩, -⟩ := fallible.rename_failed ready₂ again
    refine ⟨_, s₃, ran, nofun, fun _ _ => ?_⟩
    cases removal with
    | ok =>
      obtain ⟨-, gone, -⟩ := fallible.remove ready₁ removed
      exact .inl ⟨⟨s₁, s₂, s₃, e, renamed, removed, again⟩, kept₃.trans gone⟩
    | error e₂ =>
      obtain ⟨⟨-, kept₂⟩, -⟩ := fallible.remove_failed ready₁ removed
      refine .inr ⟨?_, kept₃.trans (kept₂.trans kept₁)⟩
      rintro ⟨_, _, _, _, first, second, -⟩
      cases renamed.symm.trans first
      cases removed.symm.trans second

theorem run_load_of_there {settings : Settings}
    (there : entry s (settingsFile directory) = some (.file (utf8 settings.fileText))) :
    store.load.run s = (.ok settings, s) := by
  have isThere : (entry s (settingsFile directory)).isSome := by
    rw [there]
    rfl
  have inDirectory := fallible.look directory s
  have present := fallible.look (settingsFile directory) s
  rw [fallible.inside isThere] at inDirectory
  rw [isThere] at present
  rw [run_load_of_read named inDirectory present (fallible.read there), read_fileText]

/-- A save that succeeds leaves the new settings in the settings file, where they are found. One
that fails leaves what was there before, with one exception: when the temporary file could not take
the place of the settings file because that was there, and still could not when it had been removed,
then it is lost. It is never half written. -/
theorem save_keeps_or_drops (ready : Ready s) (settings : Settings) :
    ∃ result t, (store.save settings).run s = (result, t) ∧
      (result = .ok () →
        entry t (settingsFile directory) = some (.file (utf8 settings.fileText)) ∧
          store.load.run t = (.ok settings, t)) ∧
      ∀ failure, result = .error failure →
        (entry t (settingsFile directory) = entry s (settingsFile directory) ∨
          entry t (settingsFile directory) = none) ∧
        (entry t (settingsFile directory) ≠ entry s (settingsFile directory) ↔
          (entry s (settingsFile directory)).isSome ∧
            ∃ w, (store.prepare settings).run s = (.ok (settingsFile directory), w) ∧
              Drops store.files directory w) := by
  obtain ⟨⟨ready', kept⟩, whole⟩ := secures_prepare named fallible ready settings
  rcases prepared : (store.prepare settings).run s with ⟨failure | path, w⟩
  · rw [prepared] at kept
    refine ⟨.error failure, w, ?_, nofun, fun _ _ => ⟨.inl kept, ?_⟩⟩
    · rw [save_eq, run_bind_of_error prepared]
    · refine ⟨fun differs => absurd kept differs, ?_⟩
      rintro ⟨-, w', other, -⟩
      cases other
  · rw [prepared] at kept ready' whole
    obtain ⟨rfl, whole⟩ := whole path rfl
    obtain ⟨result, t, ran, new, old⟩ := run_replace fallible ready' whole
    refine ⟨result, t, ?_, fun ok => ⟨new ok, ?_⟩, fun failure failed => ?_⟩
    · rw [save_eq, run_bind_of_ok prepared]
      exact ran
    · exact run_load_of_there named fallible (new ok)
    · rcases old failure failed with ⟨drops, gone⟩ | ⟨stays, same⟩
      · refine ⟨.inr gone, ?_⟩
        rw [gone, ne_comm, ← Option.isSome_iff_ne_none]
        exact ⟨fun there => ⟨there, w, rfl, drops⟩, And.left⟩
      · refine ⟨.inl (same.trans kept), fun differs => absurd (same.trans kept) differs, ?_⟩
        rintro ⟨-, w', other, drops⟩
        cases other
        exact absurd drops stays

end

/-- The disk is full in the middle of the write, and the old settings stay. The settings file is in
the way and cannot be removed either, but then gives way after all. -/
theorem save_keeps_or_drops_of_faults :
    let store : SettingsStore (StateM FaultyDisk) :=
      { files := FaultyDisk.files, directory := some "/cfg" }
    let settings : Settings := { serverUrl := "http://host/" }
    let disk : Disk := { entries :=
      [(["cfg"], .directory), (["cfg", "settings.json"], .file (utf8 "old"))] }
    let full : FaultyDisk := { disk, faults := [none, some (.other "full")] }
    let blocked : FaultyDisk :=
      { disk, faults := [none, none, none, some .alreadyExists, some (.other "busy")] }
    (full.IsReady "/cfg" ∧ blocked.IsReady "/cfg") ∧
      (∃ failure t, (store.save settings).run full = (.error failure, t) ∧
        t.entry (settingsFile "/cfg") = some (.file (utf8 "old"))) ∧
      ∃ t, (store.save settings).run blocked = (.ok (), t) ∧
        store.load.run t = (.ok settings, t) := by
  intro store settings disk full blocked
  have isAt : ∃ place, disk.IsAt "/cfg" place := Disk.exists_isAt (.inl (by decide +kernel))
  have fullReady : full.IsReady "/cfg" := isAt
  have blockedReady : blocked.IsReady "/cfg" := isAt
  have configured : store.directory = some "/cfg" := rfl
  refine ⟨⟨isAt, isAt⟩, ?_, ?_⟩
  · obtain ⟨result, t, ran, -, old⟩ :=
      save_keeps_or_drops configured (FaultyDisk.fallible "/cfg") fullReady settings
    have failed : ((store.save settings).run full).1.toOption = none ∧
        ((store.save settings).run full).2.entry (settingsFile "/cfg") ≠ none := by
      decide +kernel
    have there : full.entry (settingsFile "/cfg") = some (.file (utf8 "old")) := by
      decide +kernel
    rw [ran] at failed
    cases result with
    | ok => cases failed.1
    | error failure =>
      obtain ⟨same | none, -⟩ := old failure rfl
      · exact ⟨failure, t, ran, same.trans there⟩
      · exact absurd none failed.2
  · obtain ⟨result, t, ran, new, -⟩ :=
      save_keeps_or_drops configured (FaultyDisk.fallible "/cfg") blockedReady settings
    have succeeded : ((store.save settings).run blocked).1.toOption = some () := by
      decide +kernel
    rw [ran] at succeeded
    cases result with
    | ok => exact ⟨t, ran, (new rfl).2⟩
    | error failure => cases succeeded

/-- The settings file is in the way and is removed, and then the disk fails: the old settings are
lost. Where the settings directory is reached through the name of the settings file, a directory is
made in its place. -/
theorem settings_lost :
    let settings : Settings := { serverUrl := "http://host/" }
    let lost : FaultyDisk := {
      disk.entries := [(["cfg"], .directory), (["cfg", "settings.json"], .file (utf8 "old"))]
      faults := [none, none, none, some .alreadyExists, none, some (.other "full")] }
    let store : SettingsStore (StateM FaultyDisk) :=
      { files := FaultyDisk.files, directory := some "/cfg" }
    let odd : SettingsStore (StateM Disk) :=
      { files := Disk.files, directory := some "/settings.json/.." }
    (∃ failure t, (store.save settings).run lost = (.error failure, t) ∧
      lost.entry (settingsFile "/cfg") = some (.file (utf8 "old")) ∧
      t.entry (settingsFile "/cfg") = none) ∧
    ∃ failure disk, (odd.save settings).run {} = (.error failure, disk) ∧
      Disk.find? {} "/settings.json" = none ∧
      disk.find? "/settings.json" = some .directory := by
  intro settings lost store odd
  have seen : ((store.save settings).run lost).1.toOption = none ∧
      lost.entry (settingsFile "/cfg") = some (.file (utf8 "old")) ∧
      ((store.save settings).run lost).2.entry (settingsFile "/cfg") = none := by decide +kernel
  have oddly : ((odd.save settings).run {}).1.toOption = none ∧
      Disk.find? {} "/settings.json" = none ∧
      ((odd.save settings).run {}).2.find? "/settings.json" = some .directory := by decide +kernel
  constructor
  · rcases ran : (store.save settings).run lost with ⟨failure | _, t⟩
    · rw [ran] at seen
      exact ⟨failure, t, rfl, seen.2⟩
    · rw [ran] at seen
      cases seen.1
  · rcases ran : (odd.save settings).run {} with ⟨failure | _, disk⟩
    · rw [ran] at oddly
      exact ⟨failure, disk, rfl, oddly.2⟩
    · rw [ran] at oddly
      cases oddly.1

end SettingsStore

end ProjectClient
