import ProjectClient.Proofs.Flow.Course
import ProjectClient.Proofs.Flow.Snapshot

/-! What flows report while others run beside them. The received events are the reports of all
flows, each flow's in the order of its own course: none is lost, doubled or moved. -/
namespace ProjectClient

def partOf {α : Type} (tagged : List (Nat × α)) (i : Nat) : List α :=
  tagged.filterMap fun (j, a) => if j = i then some a else none

/-- The whole consists of the parts, each in its own order and anyhow among the others. -/
def Interleaves {α : Type} (parts : List (List α)) (whole : List α) : Prop :=
  ∃ tagged : List (Nat × α), tagged.map (·.2) = whole ∧ ∀ i, partOf tagged i = parts.getD i []

def Action.started? : Action → Option Flow
  | start flow => some flow
  | _ => none

def Deed.began? : Deed → Option Flow
  | began flow => some flow
  | _ => none

namespace History

theorem partOf_filterMap {α : Type} (shown : Deed → Option α) (story : History) (i : Nat) :
    partOf (story.filterMap fun entry => (shown entry.2).map (entry.1, ·)) i =
      (story.deedsOf i).filterMap shown := by
  rw [partOf, deedsOf, List.filterMap_filterMap, List.filterMap_filterMap]
  congr 1
  funext entry
  by_cases same : entry.1 = i <;> cases hs : shown entry.2 <;> simp [same, hs]

def begun (story : History) : List Flow :=
  story.filterMap (·.2.began?)

@[simp] theorem begun_append (first second : History) :
    begun (first ++ second) = first.begun ++ second.begun :=
  List.filterMap_append

end History

theorem Stage.began?_of_deed? {outbox : Outbox} {stage : Stage} {deed : Deed}
    (h : stage.deed? outbox = some deed) : deed.began? = none := by
  cases stage with
  | calling | starting | listing =>
    cases h
    rfl
  | _ =>
    simp only [deed?, Option.map_eq_some_iff] at h
    obtain ⟨event, _, rfl⟩ := h
    rfl

namespace Flows

theorem begun_deed? {flows next : Flows} {action : Action}
    (step : flows.perform? action = some next) :
    History.begun (flows.deed? action).toList = action.started?.toList := by
  cases action with
  | start | receive | close => rfl
  | advance i =>
    cases hd : flows.stages[i]?.bind (Stage.deed? flows.outbox) with
    | none => simp [deed?, hd, History.begun, Action.started?]
    | some deed =>
      obtain ⟨stage, _, own⟩ := Option.bind_eq_some_iff.1 hd
      simp [deed?, hd, History.begun, Action.started?, Stage.began?_of_deed? own]
  | answer i outcome | answerList i outcome =>
    simp only [deed?]
    split <;> rfl

theorem begun_history {flows last : Flows} {actions : List Action}
    (run : flows.performAll? actions = some last) :
    (flows.history actions).begun = actions.filterMap Action.started? := by
  induction actions generalizing flows with
  | nil => rfl
  | cons action actions ih =>
    simp only [performAll?, List.foldlM_cons, Option.bind_eq_bind, Option.bind_eq_some_iff] at run
    obtain ⟨next, step, run⟩ := run
    rw [history, step, Option.elim_some, History.begun_append, begun_deed? step, ih run]
    cases hs : action.started? <;> simp [hs]

namespace Reached

variable {capacity : Nat} {story : History} {flows : Flows} {i : Nat}

theorem length_begun (reached : (withCapacity capacity).Reached story flows) :
    story.begun.length = flows.stages.length := by
  induction reached with
  | start => rfl
  | step _ step ih =>
    rw [History.begun_append, List.length_append, ih]
    cases step with
    | start flow => simp [History.begun, Deed.began?]
    | act _ does => cases does <;> simp [History.begun, Deed.began?]
    | receive | close => rfl

theorem begun_getElem? (reached : (withCapacity capacity).Reached story flows) {flow : Flow}
    (h : (i, .began flow) ∈ story) : story.begun[i]? = some flow := by
  induction reached with
  | start => cases h
  | @step story flows next deed? reached step ih =>
    rw [History.begun_append]
    rcases List.mem_append.1 h with before | now
    · have old := ih before
      rw [List.getElem?_append_left (List.getElem?_eq_some_iff.1 old).1, old]
    · cases step with
      | start other =>
        have own : i = flows.stages.length ∧ flow = other := by simpa using now
        obtain ⟨rfl, rfl⟩ := own
        rw [← reached.length_begun]
        exact List.getElem?_concat_length
      | act _ does => cases does <;> simp at now
      | receive | close => cases now

theorem calls_eq (reached : (withCapacity capacity).Reached story flows) :
    flows.calls = story.filterMap fun (j, deed) => deed.call?.map (j, ·) := by
  induction reached with
  | start => rfl
  | step _ step ih =>
    rw [List.filterMap_append, ← ih]
    cases step with
    | start => exact (List.append_nil _).symm
    | @act j _ _ deed _ _ _ _ _ logged =>
      rw [logged]
      cases hc : deed.call? <;> simp [hc]
    | receive | close => exact (List.append_nil _).symm

theorem course_of_ended (reached : (withCapacity capacity).Reached story flows)
    (ended : flows.stages[i]? = some .ended) :
    ∃ (flow : Flow) (course : Course) (token : Token), story.begun[i]? = some flow ∧
      course.mutation? = flow.mutation? ∧ course.IsWhole ∧
      story.deedsOf i = .began flow :: course.deeds token := by
  obtain ⟨flow, deeds, hd, past⟩ := reached.tells.past ended
  obtain ⟨course, token, own, whole, rfl⟩ := past.exists_course (.inl rfl)
  have began : (i, .began flow) ∈ story := by
    rw [← History.mem_deedsOf, hd]
    exact List.mem_cons_self
  exact ⟨flow, course, token, reached.begun_getElem? began, own,
    Course.stage_eq_ended_iff.1 whole, hd⟩

theorem courses_of_ended (reached : (withCapacity capacity).Reached story flows)
    (ended : ∀ stage ∈ flows.stages, stage = .ended) :
    ∃ courses : List (Course × Token), courses.length = flows.stages.length ∧
      ∀ i course token, courses[i]? = some (course, token) →
        ∃ flow, story.begun[i]? = some flow ∧ course.mutation? = flow.mutation? ∧
          course.IsWhole ∧ story.deedsOf i = .began flow :: course.deeds token := by
  have each : ∀ i : Fin flows.stages.length, ∃ pair : Course × Token,
      ∃ flow, story.begun[i.1]? = some flow ∧ pair.1.mutation? = flow.mutation? ∧
        pair.1.IsWhole ∧ story.deedsOf i = .began flow :: pair.1.deeds pair.2 := by
    intro i
    have at_i : flows.stages[i.1]? = some .ended := by
      rw [List.getElem?_eq_getElem i.2, ended _ (List.getElem_mem i.2)]
    obtain ⟨flow, course, token, facts⟩ := reached.course_of_ended at_i
    exact ⟨(course, token), flow, facts⟩
  obtain ⟨pair, facts⟩ := Classical.skolem.1 each
  refine ⟨List.ofFn pair, List.length_ofFn, fun i course token at_i => ?_⟩
  obtain ⟨bound, same⟩ := List.getElem?_eq_some_iff.1 at_i
  rw [List.getElem_ofFn] at same
  have own := facts ⟨i, by simpa using bound⟩
  rw [same] at own
  exact own

/-- What a history shows is put together from what the courses of the flows show. -/
theorem partOf_courses (reached : (withCapacity capacity).Reached story flows)
    {courses : List (Course × Token)} (length : courses.length = flows.stages.length)
    (own : ∀ i course token, courses[i]? = some (course, token) →
      ∃ flow, story.deedsOf i = .began flow :: course.deeds token)
    {α : Type} {shown : Deed → Option α} (silent : ∀ flow, shown (.began flow) = none) (i : Nat) :
    partOf (story.filterMap fun entry => (shown entry.2).map (entry.1, ·)) i =
      (courses.map fun (course, token) => (course.deeds token).filterMap shown).getD i [] := by
  rw [History.partOf_filterMap, List.getD_eq_getElem?_getD, List.getElem?_map]
  cases at_i : courses[i]? with
  | none =>
    have beyond : flows.stages.length ≤ i := by
      rw [← length]
      exact List.getElem?_eq_none_iff.1 at_i
    rw [reached.tells.unborn beyond]
    rfl
  | some pair =>
    obtain ⟨flow, hd⟩ := own i pair.1 pair.2 at_i
    rw [hd, List.filterMap_cons_none (silent flow)]
    rfl

end Reached

theorem advance?_of_closed {flows : Flows} (closed : ¬ flows.outbox.channel.isOpen) {i : Nat}
    {stage : Stage} (at_i : flows.stages[i]? = some stage) (sends : stage.event? ≠ none) :
    flows.perform? (.advance i) ≠ none := by
  have free : ∀ event, flows.outbox.send? event = some flows.outbox := by
    intro event
    rw [Outbox.send?, Channel.send?, if_neg closed]
    rfl
  cases stage with
  | reporting | announcing => simp [perform?, advance?, at_i, Stage.advance?, free]
  | delivering token listed =>
    cases listed <;> simp [perform?, advance?, at_i, Stage.advance?, free]
  | _ => exact absurd rfl sends

end Flows

/-- Flows neither lose nor double nor reorder their reports, and each makes its calls once. When all
flows have ended, what they sent is an interleaving of the events of their courses. All of it is
received while the receiver is there, and a first part of it if the receiver goes away, which holds
up no flow. The tokens are 1, 2, 3 and so on in the order in which the refreshes started. -/
theorem reports_interleave_courses {capacity : Nat} {actions : List Action} {flows : Flows}
    (run : (Flows.withCapacity capacity).performAll? actions = some flows) :
    (¬ flows.outbox.channel.isOpen → ∀ i stage, flows.stages[i]? = some stage →
      stage.event? ≠ none → flows.perform? (.advance i) ≠ none) ∧
    ((∀ stage ∈ flows.stages, stage = .ended) → ∃ courses : List (Course × Token),
      courses.length = (actions.filterMap Action.started?).length ∧
      (∀ i course token, courses[i]? = some (course, token) →
        ∃ flow, (actions.filterMap Action.started?)[i]? = some flow ∧
          course.mutation? = flow.mutation? ∧ course.IsWhole ∧
          ((Flows.withCapacity capacity).history actions).deedsOf i =
            .began flow :: course.deeds token) ∧
      (∀ i, partOf flows.calls i = (courses.map fun (course, _) => course.calls).getD i []) ∧
      ((Flows.withCapacity capacity).history actions).tokens =
        List.range' 1 flows.outbox.issued ∧
      ∃ told, Interleaves (courses.map fun (course, token) => course.events token) told ∧
        flows.received <+: told ∧
        (flows.outbox.channel.isOpen →
          told = flows.received ++ flows.outbox.channel.queue)) := by
  have reached := Flows.reached_of_performAll? run
  refine ⟨fun closed i stage at_i sends => Flows.advance?_of_closed closed at_i sends,
    fun ended => ?_⟩
  obtain ⟨courses, length, own⟩ := reached.courses_of_ended ended
  have begun := Flows.begun_history run
  have deeds : ∀ i course token, courses[i]? = some (course, token) → ∃ flow,
      ((Flows.withCapacity capacity).history actions).deedsOf i =
        .began flow :: course.deeds token := by
    intro i course token at_i
    obtain ⟨flow, _, _, _, hd⟩ := own i course token at_i
    exact ⟨flow, hd⟩
  rw [← begun]
  refine ⟨courses, length.trans reached.length_begun.symm, own, fun i => ?_, reached.tokens,
    ((Flows.withCapacity capacity).history actions).sends.map (·.2), ⟨_, rfl, fun i => ?_⟩,
    (List.prefix_append _ _).trans reached.events.1, reached.events.2⟩
  · rw [reached.calls_eq, reached.partOf_courses length deeds (fun _ => rfl)]
    simp only [Course.filterMap_call?_deeds]
  · rw [History.sends, reached.partOf_courses length deeds (fun _ => rfl)]
    simp only [Course.filterMap_event?_deeds]

def crowded : List Action :=
  [.start .refresh, .start (.delete ⟨"x", "X"⟩), .start (.create "a"), .advance 0, .advance 1,
    .advance 2, .answer 1 (.failed (.http 404)), .answer 2 (.ok ()), .advance 0, .receive,
    .advance 1, .receive, .advance 2, .advance 0, .answerList 0 (.ok [⟨"a", "A", none, []⟩]),
    .receive, .advance 0, .receive, .advance 2, .advance 2, .receive, .advance 2,
    .answerList 2 (.failed (.http 500)), .advance 2, .receive]

def abandoned : List Action :=
  [.start .refresh, .start .refresh, .advance 0, .advance 1, .advance 0, .close]

theorem reports_interleave_courses_of_crowded :
    (∃ flows, (Flows.withCapacity 1).performAll? crowded = some flows ∧
      (∀ stage ∈ flows.stages, stage = .ended) ∧
      ∃ courses : List (Course × Token), courses.length = 3 ∧
        Interleaves (courses.map fun (course, token) => course.events token) flows.received) ∧
    ∃ flows, (Flows.withCapacity 1).performAll? abandoned = some flows ∧
      ¬ flows.outbox.channel.isOpen ∧ flows.stages[1]? = some (.announcing 2) ∧
      flows.perform? (.advance 1) ≠ none := by
  constructor
  · have result : ∃ flows, (Flows.withCapacity 1).performAll? crowded = some flows ∧
        (∀ stage ∈ flows.stages, stage = .ended) ∧ flows.outbox.channel.isOpen ∧
        flows.outbox.channel.queue = [] := ⟨_, rfl, by decide, rfl, rfl⟩
    obtain ⟨flows, run, ended, listening, empty⟩ := result
    obtain ⟨courses, length, _, _, _, told, parts, _, whole⟩ :=
      (reports_interleave_courses run).2 ended
    refine ⟨flows, run, ended, courses, length, ?_⟩
    rw [whole listening, empty, List.append_nil] at parts
    exact parts
  · have result : ∃ flows, (Flows.withCapacity 1).performAll? abandoned = some flows ∧
        ¬ flows.outbox.channel.isOpen ∧ flows.stages[1]? = some (.announcing 2) :=
      ⟨_, rfl, by decide, rfl⟩
    obtain ⟨flows, run, closed, waiting⟩ := result
    exact ⟨flows, run, closed, waiting,
      (reports_interleave_courses run).1 closed 1 _ waiting (by decide)⟩

end ProjectClient
