import ProjectClient.Proofs.Flow.Course

/-! A flow that runs while no other moves. The answers to its calls are all that it needs to know,
and it comes to its end if the channel has room for everything that it has to send. -/
namespace ProjectClient

section Asking

variable {m : Type → Type} [Monad m] (api : Api m)

def Mutation.ask (mutation : Mutation) : m Course := do
  match ← api.mutate mutation with
  | .ok _ => return .changed mutation (← api.list)
  | .failed error => return .refused mutation error
  | .crashed => return .lost mutation

def Flow.ask : Flow → m Course
  | refresh => return .refreshed (← api.list)
  | create name => Mutation.ask api (.create name)
  | delete target => Mutation.ask api (.delete target.id)

end Asking

namespace Outbox

def push (outbox : Outbox) (events : List Event) : Outbox :=
  { outbox with channel := { outbox.channel with queue := outbox.channel.queue ++ events } }

def Holds (outbox : Outbox) (events : List Event) : Prop :=
  outbox.channel.queue.length + events.length ≤ outbox.channel.capacity

instance (outbox : Outbox) (events : List Event) : Decidable (outbox.Holds events) :=
  inferInstanceAs (Decidable (_ ≤ _))

theorem push_nil (outbox : Outbox) : outbox.push [] = outbox := by
  simp [push]

theorem push_push (outbox : Outbox) (first second : List Event) :
    (outbox.push first).push second = outbox.push (first ++ second) := by
  simp [push]

theorem holds_push {outbox : Outbox} {first second : List Event} :
    (outbox.push first).Holds second ↔ outbox.Holds (first ++ second) := by
  simp [Holds, push, Nat.add_assoc]

theorem holds_nil_push {outbox : Outbox} (room : outbox.channel.HasRoom) (event : Event) :
    (outbox.push [event]).Holds [] :=
  holds_push.2 room

theorem holds_cons {outbox : Outbox} {event : Event} {events : List Event}
    (h : outbox.Holds (event :: events)) : outbox.channel.HasRoom := by
  simp only [Holds, List.length_cons] at h
  simp only [Channel.HasRoom]
  omega

theorem send?_of_hasRoom {outbox : Outbox} (listening : outbox.channel.isOpen)
    (room : outbox.channel.HasRoom) (event : Event) :
    outbox.send? event = some (outbox.push [event]) := by
  rw [send?, Channel.send?, if_pos listening, if_pos room]
  rfl

theorem send?_of_full {outbox : Outbox} (listening : outbox.channel.isOpen)
    (full : ¬ outbox.channel.HasRoom) (event : Event) : outbox.send? event = none := by
  rw [send?, Channel.send?, if_pos listening, if_neg full]
  rfl

end Outbox

namespace Course

def taken (course : Course) : Nat :=
  course.listed?.elim 0 fun _ => 1

def leaves (course : Course) (outbox : Outbox) : Outbox :=
  { outbox.push (course.events (outbox.issued + 1)) with issued := outbox.issued + course.taken }

end Course

namespace Mutation

variable {σ : Type} {api : Api (StateM σ)} {mutation : Mutation} {server server' : σ}

theorem ask_of_ok (h : api.mutate mutation server = (.ok (), server')) :
    mutation.ask api server =
      (.changed mutation (api.list server').1, (api.list server').2) := by
  simp only [ask, bind, StateT.bind, h]
  rfl

theorem ask_of_failed {error : ApiError}
    (h : api.mutate mutation server = (.failed error, server')) :
    mutation.ask api server = (.refused mutation error, server') := by
  simp only [ask, bind, StateT.bind, h]
  rfl

theorem ask_of_crashed (h : api.mutate mutation server = (.crashed, server')) :
    mutation.ask api server = (.lost mutation, server') := by
  simp only [ask, bind, StateT.bind, h]
  rfl

end Mutation

namespace Stage

theorem run_of_advance? {m : Type → Type} [Monad m] (api : Api m) {outbox next : Outbox}
    {stage stage' : Stage} (h : stage.advance? outbox = some (stage', next)) :
    stage.run api outbox = stage'.run api next := by
  rw [Stage.run.eq_def]
  cases stage with
  | awaiting | awaitingList => cases h
  | _ =>
    dsimp only
    split
    · rename_i hn
      cases h.symm.trans hn
      rfl
    · rename_i hn
      cases h.symm.trans hn

theorem run_of_waiting {m : Type → Type} [Monad m] (api : Api m) {outbox : Outbox}
    {stage : Stage} (h : stage.advance? outbox = none)
    (answered : ∀ mutation, stage ≠ .awaiting mutation)
    (listed : ∀ token, stage ≠ .awaitingList token) :
    stage.run api outbox = pure (stage, outbox) := by
  rw [Stage.run.eq_def]
  cases stage with
  | awaiting mutation => exact absurd rfl (answered mutation)
  | awaitingList token => exact absurd rfl (listed token)
  | _ =>
    dsimp only
    split
    · rename_i hn
      cases h.symm.trans hn
    · rfl

variable {σ : Type} {api : Api (StateM σ)} {outbox : Outbox} {server server' : σ}

theorem run_awaiting (api : Api (StateM σ)) (mutation : Mutation) (outbox : Outbox) (server : σ) :
    (awaiting mutation).run api outbox server =
      (answered mutation (api.mutate mutation server).1).run api outbox
        (api.mutate mutation server).2 := by
  rw [Stage.run.eq_def]
  rfl

theorem run_awaitingList (api : Api (StateM σ)) (token : Token) (outbox : Outbox) (server : σ) :
    (awaitingList token).run api outbox server =
      (Stage.listed token (api.list server).1).run api outbox (api.list server).2 := by
  rw [Stage.run.eq_def]
  rfl

/-- A flow that is alone goes from one answer to the next until it has to wait for good. -/
theorem induction_run {motive : Stage → Outbox → Prop}
    (awaits : ∀ mutation outbox, (∀ outcome, motive (.answered mutation outcome) outbox) →
      motive (.awaiting mutation) outbox)
    (awaitsList : ∀ token outbox, (∀ outcome, motive (.listed token outcome) outbox) →
      motive (.awaitingList token) outbox)
    (moves : ∀ {stage next outbox outbox'}, stage.advance? outbox = some (next, outbox') →
      motive next outbox' → motive stage outbox)
    (waits : ∀ stage outbox, stage.advance? outbox = none →
      (∀ mutation, stage ≠ .awaiting mutation) → (∀ token, stage ≠ .awaitingList token) →
        motive stage outbox)
    (stage : Stage) (outbox : Outbox) : motive stage outbox := by
  -- Every move of the flow and every answer to it lowers its rank.
  induction left : stage.rank using Nat.strongRecOn generalizing stage outbox with
  | ind n ih =>
    subst left
    by_cases answers : ∃ mutation, stage = .awaiting mutation
    · obtain ⟨mutation, rfl⟩ := answers
      exact awaits _ _ fun outcome => ih _ (rank_answered_lt mutation outcome) _ _ rfl
    by_cases lists : ∃ token, stage = .awaitingList token
    · obtain ⟨token, rfl⟩ := lists
      exact awaitsList _ _ fun outcome => ih _ (rank_listed_lt token outcome) _ _ rfl
    cases moved : stage.advance? outbox with
    | none =>
      exact waits _ _ moved (fun mutation h => answers ⟨mutation, h⟩)
        (fun token h => lists ⟨token, h⟩)
    | some next => exact moves moved (ih _ (rank_lt_of_advance? moved) _ _ rfl)

theorem run_keeps (holds : Stage → Outbox → σ → Prop)
    (advance : ∀ {stage next : Stage} {outbox outbox' : Outbox} {server : σ},
      stage.advance? outbox = some (next, outbox') → holds stage outbox server →
        holds next outbox' server)
    (answer : ∀ {mutation : Mutation} {outbox : Outbox} {server : σ},
      holds (.awaiting mutation) outbox server →
        holds (.answered mutation (api.mutate mutation server).1) outbox
          (api.mutate mutation server).2)
    (list : ∀ {token : Token} {outbox : Outbox} {server : σ},
      holds (.awaitingList token) outbox server →
        holds (.listed token (api.list server).1) outbox (api.list server).2)
    {stage stage' : Stage} {outbox' : Outbox} (start : holds stage outbox server)
    (ran : stage.run api outbox server = ((stage', outbox'), server')) :
    holds stage' outbox' server' := by
  induction stage, outbox using induction_run generalizing server with
  | awaits mutation outbox ih =>
    rw [run_awaiting] at ran
    exact ih _ (answer start) ran
  | awaitsList token outbox ih =>
    rw [run_awaitingList] at ran
    exact ih _ (list start) ran
  | moves moved ih =>
    rw [run_of_advance? api moved] at ran
    exact ih (advance moved start) ran
  | waits stage outbox still notAwaiting notListing =>
    rw [run_of_waiting api still notAwaiting notListing] at ran
    cases ran
    exact start

/-- Alone with the server, the flow sends the events and comes to stand at the last stage with so
many tokens handed out, unless the channel has no room for all of the events: then it is not
over. -/
structure Finishes (api : Api (StateM σ)) (stage : Stage) (outbox : Outbox) (server : σ)
    (events : List Event) (issued : Nat) (last : Stage) (server' : σ) : Prop where
  fits : outbox.Holds events →
    stage.run api outbox server = ((last, { outbox.push events with issued }), server')
  full : ¬ outbox.Holds events → ¬ (stage.run api outbox server).1.1.IsOver

variable {stage stage' last : Stage} {events : List Event} {issued : Nat}

theorem Finishes.finished (finished : stage.IsOver) (held : outbox.Holds []) :
    stage.Finishes api outbox server [] outbox.issued stage server where
  fits _ := by
    rw [Outbox.push_nil]
    rcases finished with rfl | rfl
    · rw [run_of_waiting api rfl (by simp) (by simp)]
      rfl
    · rw [run_of_waiting api rfl (by simp) (by simp)]
      rfl
  full h := absurd held h

theorem Finishes.advance {next : Outbox} (h : stage.advance? outbox = some (stage', next))
    (channel : next.channel = outbox.channel)
    (rest : stage'.Finishes api next server events issued last server') :
    stage.Finishes api outbox server events issued last server' := by
  have same : next.Holds events ↔ outbox.Holds events := by
    rw [Outbox.Holds, channel, Outbox.Holds]
  constructor
  · intro fits
    rw [run_of_advance? api h, rest.fits (same.2 fits), Outbox.push, Outbox.push, channel]
  · intro full
    rw [run_of_advance? api h]
    exact rest.full fun h => full (same.1 h)

theorem Finishes.send {event : Event} (listening : outbox.channel.isOpen)
    (h : stage.advance? outbox = (outbox.send? event).map (stage', ·))
    (sends : stage.event? = some event)
    (rest : outbox.channel.HasRoom →
      stage'.Finishes api (outbox.push [event]) server events issued last server') :
    stage.Finishes api outbox server (event :: events) issued last server' := by
  by_cases room : outbox.channel.HasRoom
  · have sent : stage.advance? outbox = some (stage', outbox.push [event]) := by
      rw [h, Outbox.send?_of_hasRoom listening room]
      rfl
    have held : (outbox.push [event]).Holds events ↔ outbox.Holds (event :: events) :=
      Outbox.holds_push
    constructor
    · intro fits
      rw [run_of_advance? api sent, (rest room).fits (held.2 fits), Outbox.push_push]
      rfl
    · intro full
      rw [run_of_advance? api sent]
      exact (rest room).full fun h => full (held.1 h)
  · have waits : stage.advance? outbox = none := by
      rw [h, Outbox.send?_of_full listening room]
      rfl
    constructor
    · intro fits
      exact absurd (Outbox.holds_cons fits) room
    · intro _
      have still : stage.run api outbox = pure (stage, outbox) := by
        refine run_of_waiting api waits ?_ ?_ <;> (rintro _ rfl; cases sends)
      rw [still]
      rintro (finished | finished)
      · rw [show stage = .ended from finished] at sends
        cases sends
      · rw [show stage = .crashed from finished] at sends
        cases sends

theorem Finishes.answer {mutation : Mutation}
    (rest : (answered mutation (api.mutate mutation server).1).Finishes api outbox
      (api.mutate mutation server).2 events issued last server') :
    (awaiting mutation).Finishes api outbox server events issued last server' where
  fits held := (run_awaiting ..).trans (rest.fits held)
  full held := by
    rw [run_awaiting]
    exact rest.full held

theorem Finishes.list {token : Token}
    (rest : (Stage.listed token (api.list server).1).Finishes api outbox (api.list server).2 events
      issued last server') :
    (awaitingList token).Finishes api outbox server events issued last server' where
  fits held := (run_awaitingList ..).trans (rest.fits held)
  full held := by
    rw [run_awaitingList]
    exact rest.full held

theorem Finishes.deliver (listening : outbox.channel.isOpen) (held : outbox.Holds [])
    (token : Token) (listed : Outcome (List Project)) :
    (Stage.listed token listed).Finishes api outbox server (listed.report? token).toList
      outbox.issued (Course.refreshed listed).stage server := by
  cases listed with
  | ok projects =>
    exact .send listening rfl rfl fun room => .finished (.inl rfl) (Outbox.holds_nil_push room _)
  | failed error =>
    exact .send listening rfl rfl fun room => .finished (.inl rfl) (Outbox.holds_nil_push room _)
  | crashed => exact .finished (.inr rfl) held

theorem Finishes.refresh (listening : outbox.channel.isOpen) (server : σ) :
    starting.Finishes api outbox server
      (Token.events (outbox.issued + 1) (api.list server).1) (outbox.issued + 1)
      (Course.refreshed (api.list server).1).stage (api.list server).2 := by
  refine .advance rfl rfl (.send listening rfl rfl fun room => ?_)
  refine .advance rfl rfl (.list (.deliver ?_ (Outbox.holds_nil_push room _) _ _))
  exact listening

theorem Finishes.change (listening : outbox.channel.isOpen) (held : outbox.Holds [])
    (mutation : Mutation) (server : σ) :
    (calling mutation).Finishes api outbox server
      ((mutation.ask api server).1.events (outbox.issued + 1))
      (outbox.issued + (mutation.ask api server).1.taken)
      (mutation.ask api server).1.stage (mutation.ask api server).2 := by
  refine .advance rfl rfl (.answer ?_)
  rcases answer : api.mutate mutation server with ⟨outcome, server₁⟩
  cases outcome with
  | ok result =>
    rw [Mutation.ask_of_ok answer]
    have still : (outbox.push [mutation.report true]).channel.isOpen := listening
    exact .send listening rfl rfl fun _ => .refresh still server₁
  | failed error =>
    rw [Mutation.ask_of_failed answer]
    exact .send listening rfl rfl fun room => .finished (.inl rfl) (Outbox.holds_nil_push room _)
  | crashed =>
    rw [Mutation.ask_of_crashed answer]
    exact .finished (.inr rfl) held

theorem finishes_ofFlow (listening : outbox.channel.isOpen) (held : outbox.Holds []) (flow : Flow)
    (server : σ) :
    (ofFlow flow).Finishes api outbox server ((flow.ask api server).1.events (outbox.issued + 1))
      (outbox.issued + (flow.ask api server).1.taken) (flow.ask api server).1.stage
      (flow.ask api server).2 := by
  cases flow with
  | refresh => exact .refresh listening server
  | create name => exact .change listening held (.create name) server
  | delete target => exact .change listening held (.delete target.id) server

/-- A flow that runs alone comes to the end of its course if everything fits into the channel, and
else waits for a place. -/
theorem run_ofFlow (api : Api (StateM σ)) (listening : outbox.channel.isOpen)
    (held : outbox.Holds []) (flow : Flow) (server : σ) :
    (outbox.Holds ((flow.ask api server).1.events (outbox.issued + 1)) →
      (ofFlow flow).run api outbox server =
        (((flow.ask api server).1.stage, (flow.ask api server).1.leaves outbox),
          (flow.ask api server).2)) ∧
    (¬ outbox.Holds ((flow.ask api server).1.events (outbox.issued + 1)) →
      ¬ ((ofFlow flow).run api outbox server).1.1.IsOver) :=
  ⟨(finishes_ofFlow listening held flow server).fits,
    (finishes_ofFlow listening held flow server).full⟩

end Stage

end ProjectClient
