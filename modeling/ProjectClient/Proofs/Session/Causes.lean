import ProjectClient.Proofs.Kernel.Errors
import ProjectClient.Session.Basic

/-! Why a call failed is not for the client to see. Two servers that differ in the causes of their
failures only cannot be told apart, and each failure comes to light as one error. -/
namespace ProjectClient

/-- Two outcomes of a call that agree, the cause of a failure apart. -/
inductive Outcome.Alike {α : Type} : Outcome α → Outcome α → Prop
  | same (outcome : Outcome α) : Alike outcome outcome
  | failed (cause other : ApiError) : Alike (failed cause) (failed other)

/-- Two servers that answer alike. A server may look at all that it was asked before, so each of the
failures may have any cause in either of them. -/
structure Api.Alike {σ : Type} (api other : Api (StateM σ)) : Prop where
  list (server : σ) :
    (api.list server).1.Alike (other.list server).1 ∧
      (api.list server).2 = (other.list server).2
  mutate (mutation : Mutation) (server : σ) :
    (api.mutate mutation server).1.Alike (other.mutate mutation server).1 ∧
      (api.mutate mutation server).2 = (other.mutate mutation server).2

variable {σ : Type} {api other : Api (StateM σ)}

theorem Outcome.Alike.isFailed_eq {α : Type} {first second : Outcome α}
    (alike : first.Alike second) : first.isFailed = second.isFailed := by
  cases alike <;> rfl

theorem Api.Alike.logged (alike : api.Alike other) : api.logged.Alike other.logged where
  list world := by
    obtain ⟨outcome, server⟩ := alike.list world.server
    refine ⟨outcome, ?_⟩
    show world.add .list (api.list world.server).1.isFailed (api.list world.server).2 = _
    rw [server, outcome.isFailed_eq]
    rfl
  mutate mutation world := by
    obtain ⟨outcome, server⟩ := alike.mutate mutation world.server
    refine ⟨outcome, ?_⟩
    show world.add mutation.call (api.mutate mutation world.server).1.isFailed
      (api.mutate mutation world.server).2 = _
    rw [server, outcome.isFailed_eq]
    rfl

/-! ## Flows -/

namespace Stage

theorem answered_of_alike (mutation : Mutation) {first second : Outcome Unit}
    (alike : first.Alike second) : answered mutation first = answered mutation second := by
  cases alike <;> rfl

theorem listed_of_alike (token : Token) {first second : Outcome (List Project)}
    (alike : first.Alike second) : listed token first = listed token second := by
  cases alike <;> rfl

theorem run_of_alike (alike : api.Alike other) (stage : Stage) (outbox : Outbox) :
    stage.run api outbox = stage.run other outbox := by
  induction stage, outbox using induction_run with
  | awaits mutation outbox ih =>
    funext server
    obtain ⟨outcome, rest⟩ := alike.mutate mutation server
    rw [run_awaiting, run_awaiting, rest, answered_of_alike mutation outcome]
    exact congrFun (ih _) _
  | awaitsList token outbox ih =>
    funext server
    obtain ⟨outcome, rest⟩ := alike.list server
    rw [run_awaitingList, run_awaitingList, rest, listed_of_alike token outcome]
    exact congrFun (ih _) _
  | moves moved ih => rw [run_of_advance? api moved, run_of_advance? other moved, ih]
  | waits stage outbox still notAwaiting notListing =>
    rw [run_of_waiting api still notAwaiting notListing,
      run_of_waiting other still notAwaiting notListing]

end Stage

namespace Kernel

theorem execute_of_alike (alike : api.Alike other) (kernel : Kernel) (command : Command) :
    kernel.execute api command = kernel.execute other command := by
  simp only [execute, Stage.run_of_alike alike]

theorem runTasks_of_alike (alike : api.Alike other) (kernel : Kernel) :
    kernel.runTasks api = kernel.runTasks other := by
  have go (stages : List Stage) (kernel : Kernel) :
      runTasks.go api stages kernel = runTasks.go other stages kernel := by
    induction stages generalizing kernel with
    | nil => rfl
    | cons stage stages ih => simp only [runTasks.go, Stage.run_of_alike alike, ih]
  exact go kernel.tasks _

theorem act?_of_alike (alike : api.Alike other) (kernel : Kernel) (server : σ) (act : Act) :
    kernel.act? api server act = kernel.act? other server act := by
  cases act with
  | execute command => simp only [act?, execute_of_alike alike]
  | dispatch command => simp only [act?, runTasks_of_alike alike]
  | tick | edit => rfl

theorem acts?_of_alike (alike : api.Alike other) (kernel : Kernel) (server : σ)
    (acts : List Act) : kernel.acts? api server acts = kernel.acts? other server acts := by
  induction acts generalizing kernel server with
  | nil => rfl
  | cons act acts ih => simp only [acts?, act?_of_alike alike, ih]

end Kernel

/-! ## Interleavings -/

inductive Move.Alike : Move → Move → Prop
  | same (move : Move) : Alike move move
  | answer (flow : Option Nat) {first second : Outcome Unit} (alike : first.Alike second) :
    Alike (answer flow first) (answer flow second)
  | answerList (flow : Option Nat) {first second : Outcome (List Project)}
    (alike : first.Alike second) : Alike (answerList flow first) (answerList flow second)

namespace Client

theorem perform?_of_alike (client : Client) {move other : Move} (alike : move.Alike other) :
    client.perform? move = client.perform? other := by
  cases alike with
  | same => rfl
  | answer flow alike =>
    simp only [perform?, fun mutation => Stage.answered_of_alike mutation alike]
  | answerList flow alike =>
    simp only [perform?, fun token => Stage.listed_of_alike token alike]

theorem told?_of_alike (client : Client) {move other : Move} (alike : move.Alike other) :
    client.told? move = client.told? other := by
  cases alike <;> rfl

theorem watch?_of_alike (client : Client) {moves others : List Move}
    (alike : List.Forall₂ Move.Alike moves others) :
    client.watch? moves = client.watch? others := by
  induction alike generalizing client with
  | nil => rfl
  | cons first rest ih =>
    simp only [watch?, client.perform?_of_alike first, client.told?_of_alike first, ih]

end Client

/-! ## Commands of a session -/

namespace Session

theorem perform_of_alike (alike : api.Alike other) (print : String → StateM σ Unit)
    (command : Command) :
    perform { api, print } command = perform { api := other, print } command := by
  simp only [perform, Kernel.execute_of_alike alike]
  rfl

theorem list_of_alike (alike : api.Alike other) (print : String → StateM σ Unit)
    (withSteps : Bool) :
    list { api, print } withSteps = list { api := other, print } withSteps := by
  simp only [list, perform_of_alike alike]
  rfl

theorem create_of_alike (alike : api.Alike other) (print : String → StateM σ Unit)
    (name : String) : create { api, print } name = create { api := other, print } name := by
  simp only [create, perform_of_alike alike]
  rfl

theorem delete_of_alike (alike : api.Alike other) (print : String → StateM σ Unit)
    (text : String) (confirm : String → StateM σ (Except Failure Bool)) :
    delete { api, print } text confirm = delete { api := other, print } text confirm := by
  simp only [delete, perform_of_alike alike]
  rfl

end Session

/-- The cause of a failure is never seen: flows, clients and the commands of a session come to the
same with servers that answer alike, and ask them for the same, in whatever order all parties move.
That a call failed is always seen, as one error, if the client starts from a state in which the next
refresh is the newest and no two flows are under way at once. The error is told, waits in the queue or
is with the one flow that is about to report it, which may have to wait for a free place. -/
theorem causes_change_nothing (alike : api.Alike other) :
    (∀ (stage : Stage) (outbox : Outbox),
      stage.run api.logged outbox = stage.run other.logged outbox) ∧
    (∀ (kernel : Kernel) (server : σ) (acts : List Act),
      kernel.acts? api.logged { server } acts = kernel.acts? other.logged { server } acts) ∧
    (∀ (print : String → StateM (Logged σ) Unit) (withSteps : Bool),
      Session.list { api := api.logged, print } withSteps =
        Session.list { api := other.logged, print } withSteps) ∧
    (∀ (print : String → StateM (Logged σ) Unit) (name : String),
      Session.create { api := api.logged, print } name =
        Session.create { api := other.logged, print } name) ∧
    (∀ (print : String → StateM (Logged σ) Unit) (text : String)
        (confirm : String → StateM (Logged σ) (Except Failure Bool)),
      Session.delete { api := api.logged, print } text confirm =
        Session.delete { api := other.logged, print } text confirm) ∧
    (∀ (client : Client) (moves others : List Move), List.Forall₂ Move.Alike moves others →
      client.watch? moves = client.watch? others) ∧
    (∀ (client : Client) (moves : List Move), client.flows = [] →
      client.kernel.outbox.channel.queue = [] → client.kernel.outbox.channel.isOpen →
      client.kernel.state.Opened (client.kernel.outbox.issued + 1) → client.TakesTurns moves →
      ∀ last trail, client.watch? moves = some (last, trail) →
        Status.countErrors (trail ++ last.kernel.tick.2 ++ last.untold) =
          moves.countP Move.fails ∧
        last.untold.length ≤ 1) := by
  refine ⟨fun stage => stage.run_of_alike alike.logged, ?_, fun print => ?_, fun print => ?_,
    fun print => ?_, fun client moves others => client.watch?_of_alike, ?_⟩
  · exact fun kernel server acts => kernel.acts?_of_alike alike.logged { server } acts
  · exact Session.list_of_alike alike.logged print
  · exact Session.create_of_alike alike.logged print
  · exact Session.delete_of_alike alike.logged print
  · intro client moves atRest empty listening opened turns last trail run
    exact Client.countErrors_of_watch? atRest empty listening opened turns run

def Api.failing (cause : Nat → ApiError) : Api (StateM Nat) where
  list calls := (.failed (cause calls), calls + 1)
  mutate _ calls := (.failed (cause calls), calls + 1)

/-- One server is down, and the other answers with ever another text that makes no sense. A tick
comes while the refresh is under way, and the flow of the new project has not reported yet. -/
theorem causes_change_nothing_of_failing :
    let down : Api (StateM Nat) := .failing fun _ => .http 503
    let odd : Api (StateM Nat) := .failing fun calls => .decode (toString calls)
    let acts : List Act := [.dispatch .refresh, .edit fun _ => "Docs", .execute .submitCreate]
    let result : List Status × Logged Nat := ([.loading, .loadFailed, .createFailed],
      { server := 2, calls := [.list, .create "Docs"], failures := 2 })
    let refresh : List Move := [.dispatch .refresh, .advance (some 0), .advance (some 0), .receive,
      .advance (some 0)]
    let create : List Move := [.advance (some 0), .settle 0, .edit fun _ => "Docs",
      .execute .submitCreate, .advance none]
    let moves (cause later : ApiError) : List Move :=
      refresh ++ .answerList (some 0) (.failed cause) :: (create ++ [.answer none (.failed later)])
    let client : Client := {}
    down.Alike odd ∧
    (∃ kernel, Kernel.acts? down.logged {} { server := 0 } acts = some (kernel, result) ∧
      Kernel.acts? odd.logged {} { server := 0 } acts = some (kernel, result)) ∧
    ∃ last, client.watch? (moves (.http 503) (.http 503)) = some (last, [.loading]) ∧
      client.watch? (moves (.decode "0") (.decode "1")) = some (last, [.loading]) ∧
      last.kernel.tick.2 = [.loadFailed] ∧ last.untold = [.createFailed] ∧
      Status.countErrors ([.loading] ++ last.kernel.tick.2 ++ last.untold) = 2 := by
  intro down odd acts result refresh create moves client
  have alike : down.Alike odd :=
    ⟨fun _ => ⟨.failed .., rfl⟩, fun _ _ => ⟨.failed .., rfl⟩⟩
  obtain ⟨-, same, -, -, -, blind, told⟩ := causes_change_nothing alike
  have acted : (Kernel.acts? down.logged {} { server := 0 } acts).map Prod.snd = some result := by
    decide +kernel
  have turns : client.TakesTurns (moves (.http 503) (.http 503)) := by decide +kernel
  have seen : (client.watch? (moves (.http 503) (.http 503))).map
      (fun result => (result.2, result.1.kernel.tick.2, result.1.untold)) =
        some ([.loading], [.loadFailed], [.createFailed]) := by decide +kernel
  have unchanged (moves : List Move) : List.Forall₂ Move.Alike moves moves :=
    List.forall₂_same.2 fun move _ => .same move
  have alikes : List.Forall₂ Move.Alike (moves (.http 503) (.http 503))
      (moves (.decode "0") (.decode "1")) :=
    List.rel_append (unchanged refresh) (.cons (.answerList (some 0) (.failed ..))
      (List.rel_append (unchanged create) (.cons (.answer none (.failed ..)) .nil)))
  obtain ⟨⟨kernel, _⟩, ran, rfl⟩ := Option.map_eq_some_iff.1 acted
  obtain ⟨⟨last, trail⟩, watched, shown⟩ := Option.map_eq_some_iff.1 seen
  obtain ⟨rfl, queued, untold⟩ : trail = [.loading] ∧ last.kernel.tick.2 = [.loadFailed] ∧
      last.untold = [.createFailed] := by simpa using shown
  refine ⟨alike, ⟨kernel, ran, (same _ _ _).symm.trans ran⟩, last, watched,
    (blind client _ _ alikes).symm.trans watched, queued, untold, ?_⟩
  have fresh : client.kernel.state.Opened (client.kernel.outbox.issued + 1) :=
    fun latest known => absurd known (Option.not_mem_none latest)
  exact (told client _ rfl rfl rfl fresh turns last _ watched).1

/-- The client took over the state of another one that had refreshed seven times. The result of its
own first refresh is taken for a late one, and no error tells of the failed call. -/
theorem failure_untold :
    let kernel : Kernel := { state := { latestRefresh := some 7 } }
    let down : Api (StateM Nat) := .failing fun _ => .http 500
    let world : Logged Nat := { server := 1, calls := [.list], failures := 1 }
    ∃ last, kernel.acts? down.logged { server := 0 } [.execute .refresh] = some (last, [], world) ∧
      last.state = kernel.state ∧ Status.countErrors ([] ++ last.tick.2) = 0 := by
  intro kernel down world
  have seen : (kernel.acts? down.logged { server := 0 } [.execute .refresh]).map
      (fun (last, trail, world) => (last.state, last.tick.2, trail, world)) =
        some (kernel.state, [], [], world) := by decide +kernel
  obtain ⟨⟨last, trail, world'⟩, ran, same⟩ := Option.map_eq_some_iff.1 seen
  obtain ⟨state, still, rfl, rfl⟩ : last.state = kernel.state ∧ last.tick.2 = [] ∧ trail = [] ∧
      world' = world := by simpa using same
  exact ⟨last, ran, state, congrArg Status.countErrors still⟩

end ProjectClient
