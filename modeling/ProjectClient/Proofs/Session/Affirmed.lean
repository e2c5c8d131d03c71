import ProjectClient.Proofs.Session.Tells
import ProjectClient.Proofs.Text.Split
import ProjectClient.Proofs.Text.Utf8
import ProjectClient.Proofs.Url.Path
import ProjectClient.Proofs.Wire.Encode
import ProjectClient.Session.Terminal

/-! A delete is sent for the project that was found in the list just fetched and that the user
affirmed, and for nothing else. -/
namespace ProjectClient.Session

/-! ## What a text means -/

def IsFirst {α : Type} (p : α → Prop) (l : List α) (a : α) : Prop :=
  ∃ before after, l = before ++ a :: after ∧ p a ∧ ∀ other ∈ before, ¬ p other

def SameLetters (text other : String) : Prop :=
  text.map Char.toLower = other.map Char.toLower

instance (text other : String) : Decidable (SameLetters text other) :=
  inferInstanceAs (Decidable (_ = _))

/-- The project that a text stands for in a list: the first one with this id or, if there is none,
the first one with such a name. -/
def Means (text : String) (projects : List Project) (project : Project) : Prop :=
  IsFirst (fun listed => listed.id = text) projects project ∨
    (∀ listed ∈ projects, listed.id ≠ text) ∧
      IsFirst (fun listed => SameLetters listed.name text) projects project

theorem find?_eq_some_iff_isFirst {α : Type} {p : α → Prop} [DecidablePred p] {l : List α}
    {a : α} : l.find? (fun a => decide (p a)) = some a ↔ IsFirst p l a := by
  rw [List.find?_eq_some_iff_append]
  simp only [decide_eq_true_eq, Bool.not_eq_eq_eq_not, Bool.not_true, decide_eq_false_iff_not]
  constructor
  · rintro ⟨own, before, after, split, others⟩
    exact ⟨before, after, split, own, others⟩
  · rintro ⟨before, after, split, own, others⟩
    exact ⟨own, before, after, split, others⟩

theorem find?_eq_some_iff_means {projects : List Project} {text : String} {project : Project} :
    find? projects text = some project ↔ Means text projects project := by
  have named : (projects.find? fun listed =>
      decide (listed.name.map Char.toLower = text.map Char.toLower)) = some project ↔
        IsFirst (fun listed => SameLetters listed.name text) projects project :=
    find?_eq_some_iff_isFirst (p := fun listed : Project => SameLetters listed.name text)
  rw [find?, Option.or_eq_some_iff, find?_eq_some_iff_isFirst, List.find?_eq_none, Means, named]
  simp only [decide_eq_true_eq]

/-! ## Ends -/

/-- On every kernel that is at rest and shows the page, the work leaves another page and desk that
satisfy `post`, whatever it comes to. -/
def Ends {α : Type} (work : SessionM (StateM Desk) α) (page : Page) (desk : Desk)
    (post : Page → Desk → Prop) : Prop :=
  ∃ result page' desk', Leads work page desk result page' desk' ∧ post page' desk'

namespace Ends

variable {α β : Type} {work : SessionM (StateM Desk) α} {next : α → SessionM (StateM Desk) β}
variable {page page' : Page} {desk desk' : Desk} {post : Page → Desk → Prop}

theorem of_leads {result : Except Failure α} (leads : Leads work page desk result page' desk')
    (holds : post page' desk') : Ends work page desk post :=
  ⟨result, page', desk', leads, holds⟩

theorem imp {weaker : Page → Desk → Prop} (ends : Ends work page desk post)
    (implies : ∀ page desk, post page desk → weaker page desk) : Ends work page desk weaker := by
  obtain ⟨result, page', desk', leads, holds⟩ := ends
  exact .of_leads leads (implies page' desk' holds)

theorem bind {a : α} (first : Leads work page desk (.ok a) page' desk')
    (rest : Ends (next a) page' desk' post) : Ends (work >>= next) page desk post := by
  obtain ⟨result, page'', desk'', leads, holds⟩ := rest
  exact .of_leads (first.bind leads) holds

theorem bind_error {failure : Failure} (first : Leads work page desk (.error failure) page' desk')
    (holds : post page' desk') : Ends (work >>= next) page desk post :=
  .of_leads first.bind_error holds

theorem bind_keeps (first : Ends work page desk post)
    (rest : ∀ a page desk, post page desk → Ends (next a) page desk post) :
    Ends (work >>= next) page desk post := by
  obtain ⟨result, page', desk', leads, holds⟩ := first
  cases result with
  | error failure => exact .bind_error leads holds
  | ok a => exact .bind leads (rest a page' desk' holds)

theorem get {next : Kernel → SessionM (StateM Desk) β} {same : SessionM (StateM Desk) β}
    (looks : ∀ kernel : Kernel, kernel.state.page = page → next kernel = same)
    (rest : Ends same page desk post) : Ends (get >>= next) page desk post := by
  obtain ⟨result, page', desk', leads, holds⟩ := rest
  exact .of_leads (leads_get fun kernel shown => looks kernel shown ▸ leads) holds

end Ends

variable {resource : Http.Resource} {script : Script}

def Script.Sends (script : Script) (resource : Http.Resource) (mutation : Mutation)
    (before after : List Http.Request) : Prop :=
  let asked := before ++ [resource.request mutation.call]
  (script.Accepts asked → after = asked ++ [resource.request .list]) ∧
    (¬ script.Accepts asked → after = asked)

theorem ends_make {command : Command} {flow : Flow} {mutation : Mutation} {page page' : Page}
    {desk : Desk} (accepted : ({ page } : Plain).accept command = ({ page := page' }, some flow))
    (own : flow.ask (script.session resource).api = mutation.ask (script.session resource).api) :
    Ends ((script.session resource).perform command) page desk fun _ last =>
      last.asked = desk.asked ∧ script.Sends resource mutation desk.requests last.requests := by
  cases changed : script.change mutation (desk.requests ++ [resource.request mutation.call]) with
  | error reason =>
    obtain ⟨error, refused, -⟩ := mapError_eq_error.1 changed
    have asked := Mutation.ask_of_failed (mutate_eq refused)
    rw [← own] at asked
    refine .of_leads (leads_flow accepted asked trivial) ⟨rfl, fun accepts => ?_, fun _ => rfl⟩
    cases (Script.change_eq_ok.2 accepts).symm.trans changed
  | ok =>
    have asked := ask_changed own changed rfl
    refine .of_leads (leads_flow accepted asked (ofExcept_ne_crashed _)) ⟨rfl, fun _ => rfl, ?_⟩
    exact fun refused => absurd (Script.change_eq_ok.1 changed) refused

theorem ends_answered (target : PendingDelete) (projects : List Project) (page : Page)
    (desk : Desk) :
    Ends
      (ExceptT.mk (StateT.lift (script.confirm target.prompt)) >>=
        whenAnswered (script.session resource))
      (asking target projects page) desk fun last out =>
        out.asked = desk.asked ++ [target.prompt] ∧
        (script.confirmed = .ok true →
          script.Sends resource (.delete target.id) desk.requests out.requests) ∧
        (script.confirmed ≠ .ok true → out.requests = desk.requests ∧ last.projects = projects) := by
  cases confirmed : script.confirmed with
  | error failure =>
    refine .bind_error (leads_confirm confirmed _) ⟨rfl, nofun, fun _ => ⟨rfl, rfl⟩⟩
  | ok isConfirmed =>
    refine .bind (leads_confirm confirmed _) ?_
    cases isConfirmed with
    | false =>
      let dropped : Page := { asking target projects page with pendingDelete := none }
      have declined : ({ page := asking target projects page } : Plain).accept .cancelDelete =
          ({ page := dropped }, none) := rfl
      refine .bind (leads_at_once declined) (.bind (leads_say _) ?_)
      exact .of_leads (leads_pure false) ⟨rfl, nofun, fun _ => ⟨rfl, rfl⟩⟩
    | true =>
      have confirms : Ends ((script.session resource).perform .confirmDelete)
          (asking target projects page) (desk.ask target.prompt) _ :=
        ends_make (rfl : _ = (_, some (Flow.delete target)))
          (rfl : _ = (Mutation.delete target.id).ask _)
      refine (confirms.bind_keeps fun _ page desk' holds => ?_).imp
        fun _ _ holds => ⟨holds.1, fun _ => holds.2, fun other => absurd rfl other⟩
      exact .bind (leads_printList page.projects rfl false) (.of_leads (leads_pure true) holds)

/-! ## Deletes -/

section Delete

variable {text : String} {page : Page}

theorem ends_delete_unlisted (unlisted : ∀ listing, ¬ script.Lists [resource.request .list] listing) :
    Ends ((script.session resource).delete text script.confirm) page {} fun last out =>
      out.asked = [] ∧ out.requests = [resource.request .list] ∧ last.projects = page.projects := by
  cases fetched : script.fetch [resource.request .list] with
  | error failure => exact .bind_error (leads_refresh_error rfl fetched) ⟨rfl, rfl, rfl⟩
  | ok projects =>
    obtain ⟨listing, lists, -⟩ := Script.fetch_eq_ok.1 fetched
    exact absurd lists (unlisted listing)

/-- Behind a good list, a delete goes on with what the text stands for in it. -/
theorem ends_delete_listed {listing : Listing} {post : Page → Desk → Prop}
    (lists : script.Lists [resource.request .list] listing) {rest : SessionM (StateM Desk) Bool}
    (same : (match find? listing.projects text with
      | none => throw (.unknownProject text)
      | some project => whenFound (script.session resource) text script.confirm project) = rest)
    (ends : Ends rest { page with projects := listing.projects, status := none }
      ((({} : Desk).request (resource.request .list)).print (reports [.loading])) post) :
    Ends ((script.session resource).delete text script.confirm) page {} post := by
  have fetched := Script.fetch_eq_ok.2 ⟨listing, lists, rfl⟩
  refine .bind (leads_refresh rfl fetched) (.get (fun kernel shown => ?_) ends)
  have listed : kernel.state.projects = listing.projects := congrArg Page.projects shown
  rw [← same, listed]
  rfl

theorem ends_found {projects : List Project} {project : Project} (listed : project ∈ projects)
    (desk : Desk) :
    Ends (whenFound (script.session resource) text script.confirm project)
      { page with projects, status := none } desk fun last out =>
        (∃ first, IsFirst (fun other => other.id = project.id) projects first ∧
          out.asked = desk.asked ++ [PendingDelete.prompt ⟨first.id, first.name⟩]) ∧
        (script.confirmed = .ok true →
          script.Sends resource (.delete project.id) desk.requests out.requests) ∧
        (script.confirmed ≠ .ok true →
          out.requests = desk.requests ∧ last.projects = projects) := by
  obtain ⟨target, found, same⟩ := exists_deleteTarget? projects listed
  obtain ⟨first, isFirst, rfl⟩ := Option.map_eq_some_iff.1 found
  have answered := @ends_answered resource script ⟨first.id, first.name⟩ projects page
    (desk.print (reports []))
  refine Ends.imp (.bind (leads_request found page desk) (.get ?_ answered)) ?_
  · intro kernel shown
    rw [confirmView_of_asking shown]
  · rintro last out ⟨asked, sends, keeps⟩
    exact ⟨⟨first, find?_eq_some_iff_isFirst.1 isFirst, asked⟩, same ▸ sends, keeps⟩

theorem ends_delete_unknown {listing : Listing}
    (lists : script.Lists [resource.request .list] listing)
    (unknown : ∀ project, ¬ Means text listing.projects project) :
    Ends ((script.session resource).delete text script.confirm) page {} fun last out =>
      out.asked = [] ∧ out.requests = [resource.request .list] ∧
        last.projects = listing.projects := by
  have none : find? listing.projects text = none :=
    Option.eq_none_iff_forall_ne_some.2 fun project found =>
      unknown project (find?_eq_some_iff_means.1 found)
  refine ends_delete_listed lists rfl ?_
  rw [none]
  exact .of_leads (leads_throw _) ⟨rfl, rfl, rfl⟩

theorem ends_delete_found {listing : Listing} {project : Project}
    (lists : script.Lists [resource.request .list] listing)
    (means : Means text listing.projects project) :
    Ends ((script.session resource).delete text script.confirm) page {} fun last out =>
      (∃ first, IsFirst (fun other => other.id = project.id) listing.projects first ∧
        out.asked = [PendingDelete.prompt ⟨first.id, first.name⟩]) ∧
      (script.confirmed = .ok true → script.Sends resource (.delete project.id)
        [resource.request .list] out.requests) ∧
      (script.confirmed ≠ .ok true →
        out.requests = [resource.request .list] ∧ last.projects = listing.projects) := by
  have found := find?_eq_some_iff_means.2 means
  refine ends_delete_listed lists rfl ?_
  rw [found]
  exact ends_found (find?_mem found) _

end Delete

theorem Ends.run {kernel : Kernel} {page : Page} {text : String} {post : Page → Desk → Prop}
    (ends : Ends ((script.session resource).delete text script.confirm) page {} post)
    (mirrors : kernel.Mirrors { page }) :
    post ((Job.delete text).run resource script kernel).1.2.state.page
      ((Job.delete text).run resource script kernel).2 := by
  have whole : Ends ((Job.delete text).work resource script) page {} post :=
    ends.bind_keeps fun isSent page desk holds => .of_leads (leads_pure (Returned.sent isSent)) holds
  obtain ⟨result, page', desk', leads, holds⟩ := whole
  obtain ⟨kernel', mirrors', ran⟩ := leads kernel mirrors
  rw [Job.run, ran, mirrors'.page]
  exact holds

/-! ## Answers -/

def SaysYes (line : String) : Prop :=
  ∃ before word after, line.toList = before ++ word ++ after ∧
    (∀ c ∈ before, Text.isBlank c) ∧ (∀ c ∈ after, Text.isBlank c) ∧
      word.map Char.toLower ∈ [['y'], ['y', 'e', 's']]

theorem isBlank_of_toLower {c d : Char} (h : c.toLower = d) (low : 0x61 ≤ d.toNat)
    (high : d.toNat ≤ 0x7a) : Text.isBlank c = false := by
  subst h
  rcases Url.toLower_eq_or c with same | ⟨least, most, -⟩
  · rw [same] at low high
    exact Text.isBlank_eq_false (by omega) (by omega)
  · exact Text.isBlank_eq_false (by omega) (by omega)

theorem isYes_iff (line : String) : Terminal.IsYes line ↔ SaysYes line := by
  have words : ["y", "yes"] = [['y'], ['y', 'e', 's']].map String.ofList := rfl
  rw [Terminal.IsYes, words]
  constructor
  · intro isYes
    obtain ⟨before, after, split, beforeBlank, afterBlank, -⟩ := Text.trim_eq_iff.1 rfl
    refine ⟨before, _, after, split, beforeBlank, afterBlank, ?_⟩
    obtain ⟨word, among, same⟩ := List.mem_map.1 isYes
    rw [← String.toList_map, ← same, String.toList_ofList]
    exact among
  · rintro ⟨before, word, after, split, beforeBlank, afterBlank, among⟩
    have visible : ∀ c ∈ word, ¬ Text.isBlank c := by
      intro c inside
      have letter : c.toLower ∈ ['y', 'e', 's'] := by
        have lowered := List.mem_map_of_mem (f := Char.toLower) inside
        simp only [List.mem_cons, List.not_mem_nil, or_false] at among
        rcases among with same | same
        · rw [same] at lowered
          exact List.mem_cons.2 (.inl (List.mem_singleton.1 lowered))
        · rwa [same] at lowered
      have bounds : ∀ d ∈ ['y', 'e', 's'], 0x61 ≤ d.toNat ∧ d.toNat ≤ 0x7a := by simp
      rw [isBlank_of_toLower rfl (bounds _ letter).1 (bounds _ letter).2]
      decide
    have trimmed : Text.trim line = String.ofList word := by
      refine Text.trim_eq_iff.2 ⟨before, after, ?_⟩
      rw [String.toList_ofList]
      exact ⟨split, beforeBlank, afterBlank, fun c first => visible c (List.mem_of_mem_head? first),
        fun c last => visible c (List.mem_of_mem_getLast? last)⟩
    rw [trimmed]
    refine List.mem_map.2 ⟨word.map Char.toLower, among, ?_⟩
    rw [← String.toList_inj, String.toList_ofList, String.toList_map, String.toList_ofList]

theorem confirm_eq_ok_true_iff {σ : Type} (terminal : Terminal (StateM σ)) (question : String)
    (world : σ) :
    (terminal.confirm question world).1 = .ok true ↔ ∃ line,
      (terminal.readLine (terminal.print s!"{question} [y/N] " world).2).1 = Text.utf8 line ∧
        SaysYes line := by
  let bytes := (terminal.readLine (terminal.print s!"{question} [y/N] " world).2).1
  have reads : (terminal.confirm question world).1 =
      (Text.ofUtf8? bytes).elim (.error (.unanswered FileError.notText.message))
        fun answer => .ok (decide (Terminal.IsYes answer)) := by
    rcases printed : terminal.print s!"{question} [y/N] " world with ⟨_, world₁⟩
    rcases line : terminal.readLine world₁ with ⟨read, world₂⟩
    simp only [Terminal.confirm, bind, StateT.bind, bytes, printed, line]
    cases Text.ofUtf8? read <;> rfl
  rw [reads]
  constructor
  · intro affirmed
    cases decoded : Text.ofUtf8? bytes with
    | none =>
      rw [decoded] at affirmed
      cases affirmed
    | some line =>
      rw [decoded, Option.elim_some] at affirmed
      refine ⟨line, ?_, (isYes_iff line).1 (by simpa using affirmed)⟩
      rw [Text.utf8_eq_flatMap]
      exact Text.ofUtf8?_eq_some.1 decoded
  · rintro ⟨line, same, isYes⟩
    have decoded : Text.ofUtf8? bytes = some line :=
      (congrArg Text.ofUtf8? same).trans (Text.ofUtf8?_utf8 line)
    rw [decoded, Option.elim_some]
    simpa using (isYes_iff line).2 isYes

/-- A delete asks once about what its text stands for in the list that it fetched, by the name of
the first project with that id, and does not ask if the text stands for nothing or no list came. It
sends the delete of that project, once, if and only if the user affirms it. Else the server has seen
no more than the request for the list, and the list is shown. On the terminal a line affirms if and
only if it is a word for yes, with any blanks around it. -/
theorem deletes_what_is_affirmed (resource : Http.Resource) (past : List (Job × Script))
    (script : Script) (text : String) :
    let kernel := kernelAfter resource past
    let list := resource.request .list
    let outcome := (Job.delete text).run resource script kernel
    let shown := outcome.1.2.state.projects
    let asked := outcome.2.asked
    let requests := outcome.2.requests
    ((∀ listing, ¬ script.Lists [list] listing) →
      asked = [] ∧ requests = [list] ∧ shown = kernel.state.projects) ∧
    (∀ listing, script.Lists [list] listing →
      (∀ project, ¬ Means text listing.projects project) →
        asked = [] ∧ requests = [list] ∧ shown = listing.projects) ∧
    (∀ listing, script.Lists [list] listing →
      ∀ project, Means text listing.projects project →
        let delete := resource.request (.delete project.id)
        (∃ first, IsFirst (fun other => other.id = project.id) listing.projects first ∧
          asked = [s!"Delete project \"{first.name}\"? This cannot be undone."]) ∧
        (script.confirmed = .ok true →
          (script.Accepts [list, delete] → requests = [list, delete, list]) ∧
          (¬ script.Accepts [list, delete] → requests = [list, delete])) ∧
        (script.confirmed ≠ .ok true → requests = [list] ∧ shown = listing.projects)) ∧
    (∀ {σ : Type} (terminal : Terminal (StateM σ)) (question : String) (world : σ),
      (terminal.confirm question world).1 = .ok true ↔ ∃ line,
        (terminal.readLine (terminal.print s!"{question} [y/N] " world).2).1 = Text.utf8 line ∧
          SaysYes line) := by
  intro kernel list outcome shown asked requests
  obtain ⟨page, mirrors⟩ := kernelAfter_mirrors resource past
  have old : kernel.state.projects = page.projects := congrArg Page.projects mirrors.page
  refine ⟨fun unlisted => ?_, fun listing lists unknown => ?_, fun listing lists project means => ?_,
    confirm_eq_ok_true_iff⟩
  · rw [old]
    exact (ends_delete_unlisted unlisted).run mirrors
  · exact (ends_delete_unknown lists unknown).run mirrors
  · exact (ends_delete_found lists means).run mirrors

/-- The text is the id of the second project and the name of the first. The third has the same id. An
earlier delete was never answered, and the one that the user affirms now leaves a list that cannot be
fetched. -/
theorem deletes_what_is_affirmed_of_twins :
    let root : Url := { scheme := .http, host := .domain "host", path := [""] }
    let resource : Http.Resource := { base := root, collection := root.projects }
    let plan : Project := { id := "docs", name := "Plan" }
    let listing : Listing :=
      ⟨[{ id := "p1", name := "Docs" }, plan, { id := "docs", name := "Twin" }]⟩
    let listed : Http.Answer := .ok ⟨200, .ok (Text.utf8 listing.json)⟩
    let past : List (Job × Script) :=
      [(.delete "DOCS", .ofAnswers [listed] (.error (.unanswered "no terminal")))]
    let script := Script.ofAnswers [listed, .ok ⟨204, .error "no body"⟩] (.ok true)
    let list := resource.request .list
    let delete := resource.request (.delete "docs")
    script.Lists [list] listing ∧ Means "docs" listing.projects plan ∧
      script.Accepts [list, delete] ∧
      ((Job.delete "docs").run resource script (kernelAfter resource past)).2.asked =
        ["Delete project \"Plan\"? This cannot be undone."] ∧
      ((Job.delete "docs").run resource script (kernelAfter resource past)).2.requests =
        [list, delete, list] := by
  intro root resource plan listing listed past script list delete
  have lists : script.Lists [list] listing :=
    ⟨_, _, rfl, by decide, by decide, rfl, listing.decode_utf8_json⟩
  have accepts : script.Accepts [list, delete] :=
    ⟨⟨204, .error "no body"⟩, rfl, by decide, by decide⟩
  have means : Means "docs" listing.projects plan :=
    .inl ⟨[{ id := "p1", name := "Docs" }], [{ id := "docs", name := "Twin" }], rfl, rfl, by simp⟩
  obtain ⟨⟨first, isFirst, asked⟩, sends, -⟩ :=
    (deletes_what_is_affirmed resource past script "docs").2.2.1 listing lists plan means
  have found : listing.projects.find? (fun other => decide (other.id = "docs")) = some first :=
    find?_eq_some_iff_isFirst.2 isFirst
  obtain rfl : plan = first := Option.some.inj found
  exact ⟨lists, means, accepts, asked, (sends rfl).1 accepts⟩

end ProjectClient.Session
