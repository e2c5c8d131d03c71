import ProjectClient.Flow.System

/-! What flows do, one deed after another. The history of an interleaving lists the deeds of all
flows in the order in which they were done. A flow alone is a machine over its own deeds: the others
reach it only through the token it gets and the places they take in the channel. -/
namespace ProjectClient

inductive Deed where
  | began (flow : Flow)
  | called (mutation : Mutation)
  | answered (mutation : Mutation) (outcome : Outcome Unit)
  | took (token : Token)
  | asked (token : Token)
  | listed (token : Token) (outcome : Outcome (List Project))
  | sent (event : Event)
deriving DecidableEq

/-- One deed of a flow, with the stages before and behind it. -/
inductive Stage.Does : Stage → Deed → Stage → Prop where
  | call (mutation) : Does (.calling mutation) (.called mutation) (.awaiting mutation)
  | answer (mutation outcome) :
    Does (.awaiting mutation) (.answered mutation outcome) (.answered mutation outcome)
  | confirm (mutation) :
    Does (.reporting mutation true) (.sent (mutation.report true)) .starting
  | refuse (mutation) :
    Does (.reporting mutation false) (.sent (mutation.report false)) .ended
  | take (token) : Does .starting (.took token) (.announcing token)
  | announce (token) : Does (.announcing token) (.sent (.refreshStarted token)) (.listing token)
  | ask (token) : Does (.listing token) (.asked token) (.awaitingList token)
  | list (token outcome) :
    Does (.awaitingList token) (.listed token outcome) (.listed token outcome)
  | load (token projects) :
    Does (.delivering token (some projects)) (.sent (.projectsLoaded token projects)) .ended
  | fail (token) : Does (.delivering token none) (.sent (.refreshFailed token)) .ended

def Deed.Shares (outbox next : Outbox) : Deed → Prop
  | took token => (token, next) = outbox.issue
  | sent event => outbox.send? event = some next
  | _ => next = outbox

def Deed.call? : Deed → Option Call
  | called mutation => some mutation.call
  | asked _ => some .list
  | _ => none

def Stage.deed? (outbox : Outbox) : Stage → Option Deed
  | calling mutation => some (.called mutation)
  | starting => some (.took outbox.issue.1)
  | listing token => some (.asked token)
  | stage => stage.event?.map .sent

theorem Stage.does_of_advance? {outbox next : Outbox} {stage stage' : Stage}
    (h : stage.advance? outbox = some (stage', next)) :
    ∃ deed, stage.deed? outbox = some deed ∧ stage.Does deed stage' ∧ deed.Shares outbox next ∧
      stage.call? = deed.call? := by
  cases stage with
  | calling mutation =>
    cases h
    exact ⟨_, rfl, .call mutation, rfl, rfl⟩
  | starting =>
    cases h
    exact ⟨_, rfl, .take _, rfl, rfl⟩
  | listing token =>
    cases h
    exact ⟨_, rfl, .ask token, rfl, rfl⟩
  | reporting mutation accepted =>
    simp only [advance?, Option.map_eq_some_iff, Prod.mk.injEq] at h
    obtain ⟨outbox', hs, rfl, rfl⟩ := h
    cases accepted with
    | true => exact ⟨_, rfl, .confirm mutation, hs, rfl⟩
    | false => exact ⟨_, rfl, .refuse mutation, hs, rfl⟩
  | announcing token =>
    simp only [advance?, Option.map_eq_some_iff, Prod.mk.injEq] at h
    obtain ⟨outbox', hs, rfl, rfl⟩ := h
    exact ⟨_, rfl, .announce token, hs, rfl⟩
  | delivering token listed =>
    cases listed with
    | some projects =>
      simp only [advance?, Option.map_eq_some_iff, Prod.mk.injEq] at h
      obtain ⟨outbox', hs, rfl, rfl⟩ := h
      exact ⟨_, rfl, .load token projects, hs, rfl⟩
    | none =>
      simp only [advance?, Option.map_eq_some_iff, Prod.mk.injEq] at h
      obtain ⟨outbox', hs, rfl, rfl⟩ := h
      exact ⟨_, rfl, .fail token, hs, rfl⟩
  | awaiting | awaitingList | ended | crashed => cases h

theorem Outbox.queue_of_send? {outbox next : Outbox} {event : Event}
    (h : outbox.send? event = some next) :
    ∀ other ∈ next.channel.queue, other ∈ outbox.channel.queue ∨ event = other := by
  simp only [send?, Channel.send?, Option.map_eq_some_iff] at h
  obtain ⟨channel, sent, rfl⟩ := h
  intro other queued
  split at sent
  · split at sent
    · cases sent
      rcases List.mem_append.1 queued with before | last
      · exact .inl before
      · exact .inr (List.mem_singleton.1 last).symm
    · cases sent
  · cases sent
    exact .inl queued

theorem Stage.event?_of_advance? {outbox next : Outbox} {stage stage' : Stage}
    (h : stage.advance? outbox = some (stage', next)) :
    ∀ event ∈ next.channel.queue, event ∈ outbox.channel.queue ∨ stage.event? = some event := by
  obtain ⟨deed, own, does, shares, -⟩ := does_of_advance? h
  intro event queued
  cases does with
  | call | ask =>
    cases shares
    exact .inl queued
  | take token =>
    cases shares
    exact .inl queued
  | answer | list => cases own
  | confirm | refuse | announce | load | fail =>
    rcases Outbox.queue_of_send? shares event queued with before | rfl
    · exact .inl before
    · exact .inr rfl

abbrev History := List (Nat × Deed)

namespace Flows

def deed? (flows : Flows) : Action → Option (Nat × Deed)
  | .start flow => some (flows.stages.length, .began flow)
  | .advance i => (flows.stages[i]?.bind (Stage.deed? flows.outbox)).map (i, ·)
  | .answer i outcome =>
    match flows.stages[i]? with
    | some (.awaiting mutation) => some (i, .answered mutation outcome)
    | _ => none
  | .answerList i outcome =>
    match flows.stages[i]? with
    | some (.awaitingList token) => some (i, .listed token outcome)
    | _ => none
  | .receive => none
  | .close => none

def history (flows : Flows) : List Action → History
  | [] => []
  | action :: actions =>
    (flows.deed? action).toList ++ (flows.perform? action).elim [] fun next => next.history actions

inductive Step (flows : Flows) : Option (Nat × Deed) → Flows → Prop where
  | start (flow : Flow) :
    Step flows (some (flows.stages.length, .began flow))
      { flows with stages := flows.stages ++ [.ofFlow flow] }
  | act {i : Nat} {stage stage' : Stage} {deed : Deed} {outbox : Outbox} {calls : List (Nat × Call)}
    (before : flows.stages[i]? = some stage) (does : stage.Does deed stage')
    (shares : deed.Shares flows.outbox outbox)
    (logged : calls = flows.calls ++ (deed.call?.map (i, ·)).toList) :
    Step flows (some (i, deed)) { flows with outbox, stages := flows.stages.set i stage', calls }
  | receive {event : Event} {rest : List Event}
    (head : flows.outbox.channel.queue = event :: rest) :
    Step flows none { flows with
      outbox := { flows.outbox with channel := { flows.outbox.channel with queue := rest } }
      received := flows.received ++ [event] }
  | close :
    Step flows none { flows with
      outbox := { flows.outbox with channel := flows.outbox.channel.close } }

theorem step_of_advance? {flows next : Flows} {i : Nat} (h : flows.advance? i = some next) :
    flows.Step (flows.deed? (.advance i)) next := by
  simp only [advance?, Option.bind_eq_bind, Option.bind_eq_some_iff, Option.pure_def,
    Option.some.injEq] at h
  obtain ⟨stage, hs, ⟨stage', outbox⟩, ha, rfl⟩ := h
  obtain ⟨deed, hd, does, shares, hc⟩ := Stage.does_of_advance? ha
  have named : flows.deed? (.advance i) = some (i, deed) := by
    simp only [deed?, hs, Option.bind_some, hd, Option.map_some]
  rw [named]
  exact .act hs does shares (by rw [hc])

theorem step_of_perform? {flows next : Flows} {action : Action}
    (h : flows.perform? action = some next) : flows.Step (flows.deed? action) next := by
  cases action with
  | start flow =>
    cases h
    exact .start flow
  | advance i => exact step_of_advance? h
  | answer i outcome =>
    simp only [perform?] at h
    split at h
    · rename_i mutation hs
      cases h
      simp only [deed?, hs]
      exact .act hs (.answer mutation outcome) rfl (List.append_nil _).symm
    · contradiction
  | answerList i outcome =>
    simp only [perform?] at h
    split at h
    · rename_i token hs
      cases h
      simp only [deed?, hs]
      exact .act hs (.list token outcome) rfl (List.append_nil _).symm
    · contradiction
  | receive =>
    simp only [perform?, Channel.receive?, Option.bind_eq_bind, Option.bind_eq_some_iff,
      Option.pure_def, Option.some.injEq] at h
    obtain ⟨⟨event, channel⟩, hr, rfl⟩ := h
    split at hr
    · contradiction
    · rename_i head
      cases hr
      exact .receive head
  | close =>
    cases h
    exact .close

/-- The flows that some interleaving leads to, with the deeds done on the way. -/
inductive Reached (initial : Flows) : History → Flows → Prop where
  | start : Reached initial [] initial
  | step {story : History} {flows next : Flows} {deed? : Option (Nat × Deed)}
    (reached : Reached initial story flows) (step : flows.Step deed? next) :
    Reached initial (story ++ deed?.toList) next

theorem Reached.performAll? {initial mid flows : Flows} {story : History} {actions : List Action}
    (reached : Reached initial story mid) (run : mid.performAll? actions = some flows) :
    Reached initial (story ++ mid.history actions) flows := by
  induction actions generalizing story mid with
  | nil =>
    cases Option.some.inj run
    simpa [history] using reached
  | cons action actions ih =>
    simp only [Flows.performAll?, List.foldlM_cons, Option.bind_eq_bind,
      Option.bind_eq_some_iff] at run
    obtain ⟨next, hp, run⟩ := run
    have later := ih (reached.step (step_of_perform? hp)) run
    simpa only [history, hp, Option.elim_some, List.append_assoc] using later

theorem reached_of_performAll? {initial flows : Flows} {actions : List Action}
    (run : initial.performAll? actions = some flows) :
    initial.Reached (initial.history actions) flows := by
  simpa using Reached.start.performAll? run

theorem Reached.at_deed {initial flows : Flows} {earlier later : History} {i : Nat} {deed : Deed}
    (reached : initial.Reached (earlier ++ (i, deed) :: later) flows) :
    ∃ before after, initial.Reached earlier before ∧ before.Step (some (i, deed)) after := by
  generalize hs : earlier ++ (i, deed) :: later = story at reached
  induction reached generalizing later with
  | start => simp at hs
  | @step story flows next deed? reached step ih =>
    rcases List.eq_nil_or_concat later with rfl | ⟨front, last, rfl⟩
    · cases deed? with
      | none => exact @ih [] (by simpa using hs)
      | some named =>
        have parts : earlier = story ∧ (i, deed) = named := by
          simpa using List.append_inj' hs rfl
        obtain ⟨rfl, rfl⟩ := parts
        exact ⟨flows, next, reached, step⟩
    · cases deed? with
      | none => exact @ih (front ++ [last]) (by simpa using hs)
      | some named =>
        have parts : earlier ++ (i, deed) :: front = story ∧ last = named := by
          have whole : (earlier ++ (i, deed) :: front) ++ [last] = story ++ [named] := by
            simpa using hs
          simpa using List.append_inj' whole rfl
        exact ih parts.1

end Flows

end ProjectClient
