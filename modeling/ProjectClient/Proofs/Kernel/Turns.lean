import ProjectClient.Proofs.Kernel.Mirrors

/-! A client whose flows take turns. A command is executed, or its flow is dispatched and nothing
else is done until that flow is over. Then the race guard cannot be seen. -/
namespace ProjectClient

inductive Exchange where
  | listed (outcome : Outcome (List Project))
  | changed (mutation : Mutation) (outcome : Outcome Unit)
deriving DecidableEq

def Exchange.snapshot? : Exchange → Option (List Project)
  | listed (.ok projects) => some projects
  | _ => none

structure Recorded (σ : Type) where
  server : σ
  log : List Exchange := []
deriving DecidableEq

namespace Recorded

variable {σ : Type} (world : Recorded σ)

def snapshots : List (List Project) :=
  world.log.filterMap Exchange.snapshot?

def snapshot : List Project :=
  world.snapshots.getLast?.getD []

end Recorded

def Api.recorded {σ : Type} (api : Api (StateM σ)) : Api (StateM (Recorded σ)) where
  list world :=
    let (outcome, server) := api.list world.server
    (outcome, { server, log := world.log ++ [.listed outcome] })
  mutate mutation world :=
    let (outcome, server) := api.mutate mutation world.server
    (outcome, { server, log := world.log ++ [.changed mutation outcome] })

inductive Turn (σ : Type) where
  | execute (command : Command)
  | dispatch (command : Command)
  | tick
  | edit (edit : String → String)
  | serve (change : σ → σ)

structure Glimpse (σ : Type) where
  page : Page
  trail? : Option (List Status)
  world : Recorded σ
deriving DecidableEq

variable {σ : Type} (api : Api (StateM σ))

/-- One turn, or nothing if the flow crashes in the middle of a command that is executed, or stops
in front of a channel with a hundred events. -/
def Kernel.turn? (kernel : Kernel) (world : Recorded σ) :
    Turn σ → Option (Kernel × Option (List Status) × Recorded σ)
  | .execute command =>
    let ((kernel, trail?), world) := kernel.execute api.recorded command world
    trail?.map fun trail => (kernel, some trail, world)
  | .dispatch command =>
    let (kernel, world) := (kernel.dispatch command).runTasks api.recorded world
    if kernel.tasks = [] then some (kernel, none, world) else none
  | .tick => some (kernel.tick.1, some kernel.tick.2, world)
  | .edit edit => some (kernel.editDraft edit, none, world)
  | .serve change => some (kernel, none, { world with server := change world.server })

def Kernel.watch? (kernel : Kernel) (world : Recorded σ) :
    List (Turn σ) → Option (List (Glimpse σ))
  | [] => some []
  | turn :: turns => do
    let (kernel, trail?, world) ← kernel.turn? api world turn
    let later ← kernel.watch? world turns
    return ⟨kernel.state.page, trail?, world⟩ :: later

def Plain.turn? (plain : Plain) (world : Recorded σ) :
    Turn σ → Option (Plain × Option (List Status) × Recorded σ)
  | .execute command =>
    let ((plain, trail?), world) := plain.execute api.recorded command world
    trail?.map fun trail => (plain, some trail, world)
  | .dispatch command =>
    let (plain?, world) := plain.dispatch api.recorded command world
    plain?.map fun plain => (plain, none, world)
  | .tick => some (plain.tick.1, some plain.tick.2, world)
  | .edit edit =>
    some ({ plain with page.createDraft := edit plain.page.createDraft }, none, world)
  | .serve change => some (plain, none, { world with server := change world.server })

def Plain.watch? (plain : Plain) (world : Recorded σ) :
    List (Turn σ) → Option (List (Glimpse σ))
  | [] => some []
  | turn :: turns => do
    let (plain, trail?, world) ← plain.turn? api world turn
    let later ← plain.watch? world turns
    return ⟨plain.page, trail?, world⟩ :: later

/-! ## The same with tokens and without -/

namespace Kernel.Mirrors

variable {kernel : Kernel} {plain : Plain} {api}

theorem turn? (mirrors : kernel.Mirrors plain) (world : Recorded σ) (turn : Turn σ) :
    kernel.turn? api world turn = none ∧ plain.turn? api world turn = none ∨
    ∃ kernel' plain' trail? world',
      kernel.turn? api world turn = some (kernel', trail?, world') ∧
      plain.turn? api world turn = some (plain', trail?, world') ∧ kernel'.Mirrors plain' := by
  cases turn with
  | execute command =>
    rcases mirrors.execute api.recorded command world with
      ⟨own, other⟩ | ⟨kernel', plain', trail, world', own, other, mirrors'⟩
    · exact .inl ⟨congrArg (Option.map _) own, congrArg (Option.map _) other⟩
    · right
      simp only [Kernel.turn?, Plain.turn?, own, other]
      exact ⟨_, _, _, _, rfl, rfl, mirrors'⟩
  | dispatch command =>
    rcases mirrors.dispatch api.recorded command world with
      ⟨own, other⟩ | ⟨kernel', plain', world', own, other, mirrors'⟩
    · exact .inl ⟨if_neg own, congrArg (Option.map _) other⟩
    · right
      simp only [Kernel.turn?, Plain.turn?, own, other, if_pos mirrors'.resting]
      exact ⟨_, _, _, _, rfl, rfl, mirrors'⟩
  | tick =>
    obtain ⟨trail, ticked⟩ := mirrors.tick
    refine .inr ⟨_, _, _, _, rfl, ?_, ticked⟩
    rw [trail]
    rfl
  | edit edit => exact .inr ⟨_, _, _, _, rfl, rfl, mirrors.edit edit⟩
  | serve change => exact .inr ⟨_, _, _, _, rfl, rfl, mirrors⟩

theorem watch?_eq (mirrors : kernel.Mirrors plain) (world : Recorded σ) (turns : List (Turn σ)) :
    kernel.watch? api world turns = plain.watch? api world turns := by
  induction turns generalizing kernel plain world with
  | nil => rfl
  | cons turn turns ih =>
    rcases mirrors.turn? world turn with
      ⟨own, other⟩ | ⟨kernel', plain', trail?, world', own, other, mirrors'⟩
    · rw [Kernel.watch?, Plain.watch?, own, other]
      rfl
    · rw [Kernel.watch?, Plain.watch?, own, other]
      dsimp only [Option.bind_eq_bind, Option.bind_some]
      rw [ih mirrors', mirrors'.page]

end Kernel.Mirrors

/-! ## The last snapshot -/

def Course.snapshots (course : Course) : List (List Project) :=
  course.reports.filterMap Report.snapshot?

theorem Page.projects_receiveAll (page : Page) (reports : List Report) :
    (page.receiveAll reports).projects =
      (reports.filterMap Report.snapshot?).getLast?.getD page.projects := by
  induction reports generalizing page with
  | nil => rfl
  | cons report reports ih =>
    have step : page.receiveAll (report :: reports) = (page.receive report).receiveAll reports :=
      rfl
    rw [step, ih]
    cases report with
    | status => rfl
    | snapshot => simp [Report.snapshot?, List.getLast?_cons, Page.receive]

variable {api} {plain : Plain} {world world' : Recorded σ}

theorem Api.snapshots_list (world : Recorded σ) :
    (api.recorded.list world).2.snapshots =
      world.snapshots ++ (Course.refreshed (api.recorded.list world).1).snapshots := by
  have logged : (api.recorded.list world).2.log =
      world.log ++ [.listed (api.recorded.list world).1] := rfl
  rw [Recorded.snapshots, logged, List.filterMap_append]
  cases (api.recorded.list world).1 <;> rfl

theorem Api.snapshots_mutate (mutation : Mutation) (world : Recorded σ) :
    (api.recorded.mutate mutation world).2.snapshots = world.snapshots := by
  have logged : (api.recorded.mutate mutation world).2.log =
      world.log ++ [.changed mutation (api.recorded.mutate mutation world).1] := rfl
  rw [Recorded.snapshots, logged, List.filterMap_append]
  exact List.append_nil _

theorem Mutation.snapshots_ask (mutation : Mutation) (world : Recorded σ) :
    (mutation.ask api.recorded world).2.snapshots =
      world.snapshots ++ (mutation.ask api.recorded world).1.snapshots := by
  have quiet := api.snapshots_mutate mutation world
  rcases answer : api.recorded.mutate mutation world with ⟨outcome, world₁⟩
  rw [answer] at quiet
  cases outcome with
  | ok =>
    rw [ask_of_ok answer, Api.snapshots_list, quiet]
    rfl
  | failed error =>
    rw [ask_of_failed answer, quiet]
    exact (List.append_nil _).symm
  | crashed =>
    rw [ask_of_crashed answer, quiet]
    exact (List.append_nil _).symm

theorem Flow.snapshots_ask (flow : Flow) (world : Recorded σ) :
    (flow.ask api.recorded world).2.snapshots =
      world.snapshots ++ (flow.ask api.recorded world).1.snapshots := by
  cases flow with
  | refresh => exact Api.snapshots_list world
  | create name => exact Mutation.snapshots_ask (.create name) world
  | delete target => exact Mutation.snapshots_ask (.delete target.id) world

theorem State.projects_accept (state : State) (command : Command) :
    (state.accept command).1.projects = state.projects := by
  cases command with
  | submitCreate | createProject =>
    simp only [accept, submitDraft]
    split <;> rfl
  | requestDelete | confirmDelete | cancelDelete =>
    simp only [accept]
    split <;> rfl
  | loadInitialState | refresh | clearStatus => rfl

namespace Plain

def Shows (plain : Plain) (world : Recorded σ) : Prop :=
  (plain.page.receiveAll plain.queue).projects = world.snapshot

theorem shows_of_projects (shows : plain.Shows world) {page : Page}
    (same : page.projects = plain.page.projects) : { plain with page }.Shows world := by
  rw [Shows, Page.projects_receiveAll] at shows ⊢
  rw [same]
  exact shows

theorem Shows.accept (shows : plain.Shows world) (command : Command) :
    (plain.accept command).1.Shows world :=
  shows_of_projects shows (State.projects_accept _ command)

theorem Shows.tick (shows : plain.Shows world) :
    plain.tick.1.Shows world ∧ plain.tick.1.page.projects = world.snapshot :=
  ⟨shows, shows⟩

theorem Shows.take? (shows : plain.Shows world) {course : Course} {plain' : Plain}
    (brought : world'.snapshots = world.snapshots ++ course.snapshots)
    (h : plain.take? course = some plain') : plain'.Shows world' := by
  rw [Plain.take?] at h
  split at h
  · cases h
    have last : (plain.page.receiveAll (plain.queue ++ course.reports)).projects =
        course.snapshots.getLast?.getD world.snapshot := by
      rw [Page.receiveAll_append, Page.projects_receiveAll, ← shows]
      rfl
    rw [Shows, last, Recorded.snapshot, Recorded.snapshot, brought, List.getLast?_append]
    cases course.snapshots.getLast? <;> rfl
  · cases h

theorem Shows.execute (shows : plain.Shows world) {command : Command} {plain' : Plain}
    {trail : List Status}
    (h : plain.execute api.recorded command world = ((plain', some trail), world')) :
    plain'.Shows world' ∧ plain'.page.projects = world'.snapshot := by
  have accepted := shows.accept command
  rw [Plain.execute] at h
  rcases accepting : plain.accept command with ⟨plain₁, _ | flow⟩
  · rw [accepting] at h accepted
    cases h
    exact accepted.tick
  · rw [accepting] at h accepted
    have follows : (plain₁.follow (flow.ask api.recorded world).1,
        (flow.ask api.recorded world).2) = ((plain', some trail), world') := h
    obtain ⟨follow, rfl⟩ := Prod.mk.inj follows
    rw [Plain.follow] at follow
    split at follow
    · rename_i last taken
      split at follow
      · cases follow
        exact (accepted.take? (flow.snapshots_ask world) taken).tick
      · cases follow
    · cases follow

theorem Shows.dispatch (shows : plain.Shows world) {command : Command} {plain' : Plain}
    (h : plain.dispatch api.recorded command world = (some plain', world')) :
    plain'.Shows world' := by
  have accepted := shows.accept command
  rw [Plain.dispatch] at h
  rcases accepting : plain.accept command with ⟨plain₁, _ | flow⟩
  · rw [accepting] at h accepted
    cases h
    exact accepted
  · rw [accepting] at h accepted
    have takes : (plain₁.take? (flow.ask api.recorded world).1,
        (flow.ask api.recorded world).2) = (some plain', world') := h
    obtain ⟨taken, rfl⟩ := Prod.mk.inj takes
    exact accepted.take? (flow.snapshots_ask world) taken

theorem Shows.turn? (shows : plain.Shows world) {turn : Turn σ} {plain' : Plain}
    {trail? : Option (List Status)}
    (h : plain.turn? api world turn = some (plain', trail?, world')) :
    plain'.Shows world' ∧ (trail?.isSome → plain'.page.projects = world'.snapshot) := by
  cases turn with
  | execute command =>
    rcases ran : plain.execute api.recorded command world with ⟨⟨plain₁, _ | trail⟩, world₁⟩
    · rw [Plain.turn?, ran] at h
      cases h
    · rw [Plain.turn?, ran] at h
      cases h
      obtain ⟨shows', seen⟩ := shows.execute ran
      exact ⟨shows', fun _ => seen⟩
  | dispatch command =>
    rcases ran : plain.dispatch api.recorded command world with ⟨_ | plain₁, world₁⟩
    · rw [Plain.turn?, ran] at h
      cases h
    · rw [Plain.turn?, ran] at h
      cases h
      exact ⟨shows.dispatch ran, fun some => by cases some⟩
  | tick =>
    cases h
    exact ⟨shows.tick.1, fun _ => shows.tick.2⟩
  | edit edit =>
    cases h
    exact ⟨shows_of_projects shows rfl, fun some => by cases some⟩
  | serve change =>
    cases h
    exact ⟨shows, fun some => by cases some⟩

theorem Shows.watch? (shows : plain.Shows world) {turns : List (Turn σ)}
    {glimpses : List (Glimpse σ)} (h : plain.watch? api world turns = some glimpses) :
    ∀ glimpse ∈ glimpses, glimpse.trail?.isSome →
      glimpse.page.projects = glimpse.world.snapshot := by
  induction turns generalizing plain world glimpses with
  | nil =>
    cases h
    simp
  | cons turn turns ih =>
    simp only [Plain.watch?, Option.bind_eq_bind, Option.bind_eq_some_iff, Option.pure_def,
      Option.some.injEq] at h
    obtain ⟨⟨plain', trail?, world'⟩, first, later, rest, rfl⟩ := h
    obtain ⟨shows', seen⟩ := shows.turn? first
    simp only [List.mem_cons, forall_eq_or_imp]
    exact ⟨seen, ih shows' rest⟩

end Plain

/-- While flows take turns, all that can be seen is the same with tokens and without: the page after
each turn, what is answered and what the server is asked. Whenever events were applied last, the
page shows the answer of the most recent list call that succeeded. -/
theorem same_without_tokens {σ : Type} (api : Api (StateM σ)) (server : σ)
    (turns : List (Turn σ)) :
    Kernel.watch? api {} { server } turns = Plain.watch? api {} { server } turns ∧
    ∀ glimpses ∈ Kernel.watch? api {} { server } turns, ∀ glimpse ∈ glimpses,
      glimpse.trail?.isSome → glimpse.page.projects = glimpse.world.snapshot := by
  have same : Kernel.watch? api {} { server } turns = Plain.watch? api {} { server } turns :=
    Kernel.mirrors_initial.watch?_eq _ turns
  have initial : Plain.Shows {} ({ server } : Recorded σ) := rfl
  refine ⟨same, fun glimpses watched => ?_⟩
  exact initial.watch? (same.symm.trans watched)

def Api.prepared : Api (StateM (List (Outcome (List Project)))) where
  list lists := (lists.headD .crashed, lists.tail)
  mutate _ lists := (.ok (), lists)

/-- The start of a dispatched refresh that crashed waits in the queue while the next refresh runs,
and counts for nothing behind it. -/
theorem same_without_tokens_of_crashed :
    let project : Project := { id := "p1", name := "Site" }
    let lost : Recorded _ := { server := [.ok [project]], log := [.listed .crashed] }
    let got : Recorded _ := { server := [], log := [.listed .crashed, .listed (.ok [project])] }
    Kernel.watch? .prepared {} { server := [.crashed, .ok [project]] }
        [.dispatch .refresh, .execute .refresh] =
      some [⟨{}, none, lost⟩, ⟨{ projects := [project] }, some [.loading, .loading], got⟩] ∧
    got.snapshot = [project] := by
  intro project lost got
  have watched := (same_without_tokens .prepared [.crashed, .ok [project]]
    [.dispatch .refresh, .execute .refresh]).1
  exact ⟨watched.trans rfl, rfl⟩

end ProjectClient
