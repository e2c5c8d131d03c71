import ProjectClient.Proofs.Kernel.Mirrors
import ProjectClient.Session.Basic

/-! Commands of a session, told by what they make of the page. What else earlier commands left in
the kernel plays no part. For kernels that are not at rest there is a logic of what holds when the
work is done and when it fails. -/
namespace ProjectClient.Session

variable {σ α β : Type}

/-- On every kernel that is at rest and shows the page, the work comes to the result and leaves such
a kernel with the second page. -/
def Leads (work : SessionM (StateM σ) α) (page : Page) (world : σ) (result : Except Failure α)
    (page' : Page) (world' : σ) : Prop :=
  ∀ kernel : Kernel, kernel.Mirrors { page } →
    ∃ kernel' : Kernel, kernel'.Mirrors { page := page' } ∧
      work.run.run kernel world = ((result, kernel'), world')

def verdict : Option Status → Except Failure Unit
  | some ⟨.error, text⟩ => .error (.status text)
  | _ => .ok ()

variable {session : Session (StateM σ)} {work : SessionM (StateM σ) α}
variable {next : α → SessionM (StateM σ) β} {page page' page'' : Page} {world world' world'' : σ}

theorem run_bind (work : SessionM (StateM σ) α) (next : α → SessionM (StateM σ) β)
    (kernel : Kernel) (world : σ) :
    (work >>= next).run.run kernel world =
      let ((result, kernel), world) := work.run.run kernel world
      ExceptT.bindCont next result kernel world :=
  rfl

theorem run_bind_of_ok {a : α} {kernel kernel' : Kernel}
    (h : work.run.run kernel world = ((.ok a, kernel'), world')) :
    (work >>= next).run.run kernel world = (next a).run.run kernel' world' := by
  rw [run_bind, h]
  rfl

theorem leads_pure (a : α) : Leads (pure a) page world (.ok a) page world :=
  fun kernel mirrors => ⟨kernel, mirrors, rfl⟩

theorem leads_throw (failure : Failure) :
    Leads (throw failure : SessionM (StateM σ) α) page world (.error failure) page world :=
  fun kernel mirrors => ⟨kernel, mirrors, rfl⟩

theorem Leads.bind {a : α} {result : Except Failure β}
    (first : Leads work page world (.ok a) page' world')
    (rest : Leads (next a) page' world' result page'' world'') :
    Leads (work >>= next) page world result page'' world'' := by
  intro kernel mirrors
  obtain ⟨kernel', mirrors', ran⟩ := first kernel mirrors
  obtain ⟨kernel'', mirrors'', ran'⟩ := rest kernel' mirrors'
  exact ⟨kernel'', mirrors'', (run_bind_of_ok ran).trans ran'⟩

theorem Leads.bind_error {failure : Failure}
    (first : Leads work page world (.error failure) page' world') :
    Leads (work >>= next) page world (.error failure) page' world' := by
  intro kernel mirrors
  obtain ⟨kernel', mirrors', ran⟩ := first kernel mirrors
  refine ⟨kernel', mirrors', ?_⟩
  rw [run_bind, ran]
  rfl

theorem leads_get {next : Kernel → SessionM (StateM σ) β} {result : Except Failure β}
    (rest : ∀ kernel : Kernel, kernel.state.page = page →
      Leads (next kernel) page world result page' world') :
    Leads (get >>= next) page world result page' world' :=
  fun kernel mirrors => rest kernel mirrors.page kernel mirrors

theorem leads_say (text : String) :
    Leads (session.say text) page world (.ok ()) page (session.print text world).2 :=
  fun kernel mirrors => ⟨kernel, mirrors, rfl⟩

theorem run_perform_eq {command : Command} {kernel kernel' : Kernel}
    {trail? : Option (List Status)}
    (h : kernel.execute session.api command world = ((kernel', trail?), world')) :
    (session.perform command).run.run kernel world =
      match trail? with
      | none => ((.error .unfinished, kernel'), world')
      | some trail =>
        ((verdict kernel'.state.status, kernel'), (session.print (reports trail) world').2) := by
  have asks : (get : SessionM (StateM σ) Kernel).run.run kernel world =
      ((.ok kernel, kernel), world) := rfl
  have executes : (ExceptT.lift (StateT.lift (kernel.execute session.api command)) :
      SessionM (StateM σ) _).run.run kernel world =
        ((.ok (kernel', trail?), kernel), world') := by
    show ((Except.ok (kernel.execute session.api command world).1, kernel),
      (kernel.execute session.api command world).2) = _
    rw [h]
  have keeps : (set kernel' : SessionM (StateM σ) PUnit).run.run kernel world' =
      ((.ok ⟨⟩, kernel'), world') := rfl
  rw [perform, run_bind_of_ok asks, run_bind_of_ok executes, run_bind_of_ok keeps]
  cases trail? with
  | none => rfl
  | some trail =>
    have prints : (session.say (reports trail)).run.run kernel' world' =
        ((.ok (), kernel'), (session.print (reports trail) world').2) := rfl
    rw [run_bind_of_ok prints]
    rcases kernel'.state.status with _ | ⟨_ | _ | _, text⟩ <;> rfl

/-- A command does on every such kernel what it does without tokens. -/
theorem leads_perform {command : Command} {trail : List Status}
    (h : Plain.execute session.api { page } command world =
      (({ page := page' }, some trail), world')) :
    Leads (session.perform command) page world (verdict page'.status) page'
      (session.print (reports trail) world').2 := by
  intro kernel mirrors
  rcases mirrors.execute session.api command world with
    ⟨_, none⟩ | ⟨kernel', plain', trail', world₁, own, other, mirrors'⟩
  · rw [h] at none
    cases none
  · cases h.symm.trans other
    have shown : kernel'.state.status = page'.status := congrArg Page.status mirrors'.page
    refine ⟨kernel', mirrors', ?_⟩
    exact (run_perform_eq own).trans (by rw [shown])

theorem leads_at_once {command : Command}
    (accepted : ({ page } : Plain).accept command = ({ page := page' }, none)) :
    Leads (session.perform command) page world (verdict page'.status) page'
      (session.print (reports []) world).2 := by
  apply leads_perform
  rw [Plain.execute, accepted]
  rfl

theorem leads_flow {command : Command} {flow : Flow} {course : Course}
    (accepted : ({ page } : Plain).accept command = ({ page := page' }, some flow))
    (asked : flow.ask session.api world = (course, world')) (whole : course.IsWhole) :
    Leads (session.perform command) page world
      (verdict (page'.receiveAll course.reports).status) (page'.receiveAll course.reports)
      (session.print (reports (course.reports.filterMap Report.status?)) world').2 := by
  apply leads_perform
  have room : ([] : List Report).length + course.reports.length ≤ 100 := by
    have few := course.length_reports_le
    simp only [List.length_nil]
    omega
  have follows : ({ page := page' } : Plain).follow course =
      ({ page := page'.receiveAll course.reports },
        some (course.reports.filterMap Report.status?)) := by
    rw [Plain.follow, Plain.take?, if_pos room]
    exact if_pos whole
  rw [Plain.execute, accepted, ← follows]
  simp only [bind, StateT.bind, asked]
  rfl

theorem leads_printList (projects : List Project) (shown : page.projects = projects)
    (withSteps : Bool) :
    Leads (session.printList withSteps) page world (.ok (.ofProjects projects)) page
      (session.print ((ListView.ofProjects projects).text withSteps) world).2 := by
  refine leads_get fun kernel same => ?_
  have listed : kernel.state.projects = projects := (congrArg Page.projects same).trans shown
  rw [listed]
  exact (leads_say _).bind (leads_pure _)

/-! ## On any kernel -/

structure Yields (work : SessionM (StateM σ) α) (kernel : Kernel) (world : σ)
    (onOk : α → Kernel → σ → Prop) (onError : Kernel → σ → Prop) : Prop where
  ok : ∀ a kernel' world', work.run.run kernel world = ((.ok a, kernel'), world') →
    onOk a kernel' world'
  error : ∀ failure kernel' world', work.run.run kernel world = ((.error failure, kernel'), world') →
    onError kernel' world'

section Yields

variable {kernel kernel' : Kernel} {onOk : α → Kernel → σ → Prop} {onError : Kernel → σ → Prop}

theorem yields_of_ok {a : α} (ran : work.run.run kernel world = ((.ok a, kernel'), world'))
    (holds : onOk a kernel' world') : Yields work kernel world onOk onError where
  ok _ _ _ same := by
    cases ran.symm.trans same
    exact holds
  error _ _ _ same := by cases ran.symm.trans same

theorem yields_of_error {failure : Failure}
    (ran : work.run.run kernel world = ((.error failure, kernel'), world'))
    (holds : onError kernel' world') : Yields work kernel world onOk onError where
  ok _ _ _ same := by cases ran.symm.trans same
  error _ _ _ same := by
    cases ran.symm.trans same
    exact holds

theorem Yields.bind {middle : α → Kernel → σ → Prop} {lost : Kernel → σ → Prop}
    {onOk : β → Kernel → σ → Prop} (first : Yields work kernel world middle lost)
    (fails : ∀ kernel world, lost kernel world → onError kernel world)
    (rest : ∀ a kernel world, middle a kernel world → Yields (next a) kernel world onOk onError) :
    Yields (work >>= next) kernel world onOk onError := by
  rcases ran : work.run.run kernel world with ⟨⟨failure | a, kernel'⟩, world'⟩
  · have stops : (work >>= next).run.run kernel world = ((.error failure, kernel'), world') := by
      rw [run_bind, ran]
      rfl
    exact yields_of_error stops (fails _ _ (first.error _ _ _ ran))
  · have further := rest _ _ _ (first.ok _ _ _ ran)
    have same : (work >>= next).run.run kernel world = _ := run_bind_of_ok ran
    exact ⟨fun _ _ _ done => further.ok _ _ _ (same.symm.trans done),
      fun _ _ _ done => further.error _ _ _ (same.symm.trans done)⟩

theorem yields_get {next : Kernel → SessionM (StateM σ) α}
    (rest : Yields (next kernel) kernel world onOk onError) :
    Yields (get >>= next) kernel world onOk onError :=
  ⟨rest.ok, rest.error⟩

theorem yields_perform {command : Command} {trail? : Option (List Status)}
    {onOk : Unit → Kernel → σ → Prop}
    (ran : kernel.execute session.api command world = ((kernel', trail?), world'))
    (unfinished : trail? = none → onError kernel' world')
    (error : ∀ trail failure, trail? = some trail → verdict kernel'.state.status = .error failure →
      onError kernel' (session.print (reports trail) world').2)
    (ok : ∀ trail, trail? = some trail → verdict kernel'.state.status = .ok () →
      onOk () kernel' (session.print (reports trail) world').2) :
    Yields (session.perform command) kernel world onOk onError := by
  have performed := run_perform_eq ran
  cases trail? with
  | none => exact yields_of_error performed (unfinished rfl)
  | some trail =>
    cases ends : verdict kernel'.state.status with
    | error failure =>
      rw [ends] at performed
      exact yields_of_error performed (error trail failure rfl ends)
    | ok =>
      rw [ends] at performed
      exact yields_of_ok performed (ok trail rfl ends)

theorem Yields.always {post : Kernel → σ → Prop}
    (yields : Yields work kernel world (fun _ => post) post) :
    post (work.run.run kernel world).1.2 (work.run.run kernel world).2 := by
  rcases ran : work.run.run kernel world with ⟨⟨failure | a, kernel'⟩, world'⟩
  · exact yields.error _ _ _ ran
  · exact yields.ok _ _ _ ran

end Yields

end ProjectClient.Session
