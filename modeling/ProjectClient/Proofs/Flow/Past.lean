import ProjectClient.Proofs.Flow.Deed
import ProjectClient.Proofs.State.Effect

/-! The life of one flow. The stage at which a flow stands tells all the deeds that it has done, in
their order, whatever the other flows do meanwhile. -/
namespace ProjectClient

def Flow.mutation? : Flow → Option Mutation
  | refresh => none
  | create name => some (.create name)
  | delete target => some (.delete target.id)

/-- The deeds of a flow before its refresh. A flow whose change fails comes to no refresh. -/
def Flow.lead (flow : Flow) : List Deed :=
  flow.mutation?.elim [] fun mutation =>
    [.called mutation, .answered mutation (.ok ()), .sent (mutation.report true)]

def Outcome.report? (token : Token) : Outcome (List Project) → Option Event
  | ok projects => some (.projectsLoaded token projects)
  | failed _ => some (.refreshFailed token)
  | crashed => none

theorem Outcome.resolves?_report {token : Token} {outcome : Outcome (List Project)} {event : Event}
    (h : outcome.report? token = some event) : event.resolves? = some token := by
  cases outcome <;> cases h <;> rfl

/-- The deeds of a flow after its beginning, when it stands at a stage. -/
def Stage.Past (flow : Flow) (deeds : List Deed) : Stage → Prop
  | calling mutation => flow.mutation? = some mutation ∧ deeds = []
  | awaiting mutation => flow.mutation? = some mutation ∧ deeds = [.called mutation]
  | reporting mutation true =>
    flow.mutation? = some mutation ∧ deeds = [.called mutation, .answered mutation (.ok ())]
  | reporting mutation false =>
    flow.mutation? = some mutation ∧
      ∃ error, deeds = [.called mutation, .answered mutation (.failed error)]
  | starting => deeds = flow.lead
  | announcing token => deeds = flow.lead ++ [.took token]
  | listing token => deeds = flow.lead ++ [.took token, .sent (.refreshStarted token)]
  | awaitingList token =>
    deeds = flow.lead ++ [.took token, .sent (.refreshStarted token), .asked token]
  | delivering token listed => ∃ outcome, Stage.listed token outcome = delivering token listed ∧
    deeds = flow.lead ++
      [.took token, .sent (.refreshStarted token), .asked token, .listed token outcome]
  | ended =>
    (∃ mutation error, flow.mutation? = some mutation ∧ deeds =
      [.called mutation, .answered mutation (.failed error), .sent (mutation.report false)]) ∨
    ∃ token outcome report, outcome.report? token = some report ∧ deeds = flow.lead ++
      [.took token, .sent (.refreshStarted token), .asked token, .listed token outcome,
        .sent report]
  | crashed =>
    (∃ mutation, flow.mutation? = some mutation ∧
      deeds = [.called mutation, .answered mutation .crashed]) ∨
    ∃ token, deeds = flow.lead ++
      [.took token, .sent (.refreshStarted token), .asked token, .listed token .crashed]

namespace Stage

theorem past_ofFlow (flow : Flow) : (ofFlow flow).Past flow [] := by
  cases flow with
  | refresh => rfl
  | create name => exact ⟨rfl, rfl⟩
  | delete target => exact ⟨rfl, rfl⟩

theorem past_answered {flow : Flow} {mutation : Mutation} (own : flow.mutation? = some mutation)
    (outcome : Outcome Unit) :
    (answered mutation outcome).Past flow [.called mutation, .answered mutation outcome] := by
  cases outcome with
  | ok result => exact ⟨own, rfl⟩
  | failed error => exact ⟨own, error, rfl⟩
  | crashed => exact .inl ⟨mutation, own, rfl⟩

theorem past_listed (flow : Flow) (token : Token) (outcome : Outcome (List Project)) :
    (listed token outcome).Past flow (flow.lead ++
      [.took token, .sent (.refreshStarted token), .asked token, .listed token outcome]) := by
  cases outcome with
  | ok projects => exact ⟨.ok projects, rfl, rfl⟩
  | failed error => exact ⟨.failed error, rfl, rfl⟩
  | crashed => exact .inr ⟨token, rfl⟩

theorem Past.does {flow : Flow} {deeds : List Deed} {stage stage' : Stage} {deed : Deed}
    (past : stage.Past flow deeds) (does : stage.Does deed stage') :
    stage'.Past flow (deeds ++ [deed]) := by
  cases does with
  | call mutation =>
    obtain ⟨own, rfl⟩ := past
    exact ⟨own, rfl⟩
  | answer mutation outcome =>
    obtain ⟨own, rfl⟩ := past
    exact past_answered own outcome
  | confirm mutation =>
    obtain ⟨own, rfl⟩ := past
    simp [Past, Flow.lead, own]
  | refuse mutation =>
    obtain ⟨own, error, rfl⟩ := past
    exact .inl ⟨mutation, error, own, rfl⟩
  | take token => exact congrArg (· ++ [Deed.took token]) past
  | announce token =>
    rw [show deeds = _ from past, List.append_assoc]
    rfl
  | ask token =>
    rw [show deeds = _ from past, List.append_assoc]
    rfl
  | list token outcome =>
    rw [show deeds = _ from past, List.append_assoc]
    exact past_listed flow token outcome
  | load token projects =>
    obtain ⟨outcome, delivers, rfl⟩ := past
    cases outcome with
    | ok found =>
      cases delivers
      exact .inr ⟨token, .ok projects, _, rfl, List.append_assoc ..⟩
    | failed | crashed => cases delivers
  | fail token =>
    obtain ⟨outcome, delivers, rfl⟩ := past
    cases outcome with
    | failed error => exact .inr ⟨token, .failed error, _, rfl, List.append_assoc ..⟩
    | ok | crashed => cases delivers

end Stage

namespace History

def deedsOf (story : History) (i : Nat) : List Deed :=
  story.filterMap fun (j, deed) => if j = i then some deed else none

@[simp] theorem deedsOf_append (first second : History) (i : Nat) :
    deedsOf (first ++ second) i = first.deedsOf i ++ second.deedsOf i :=
  List.filterMap_append

@[simp] theorem mem_deedsOf {story : History} {i : Nat} {deed : Deed} :
    deed ∈ story.deedsOf i ↔ (i, deed) ∈ story := by
  simp [deedsOf]

theorem mem_append_of_deedsOf {first second : History} {i : Nat} {deed : Deed}
    (h : deed ∈ first.deedsOf i) : (i, deed) ∈ first ++ second :=
  List.mem_append_left _ (mem_deedsOf.1 h)

theorem deedsOf_self (i : Nat) (deed : Deed) : deedsOf [(i, deed)] i = [deed] := by
  simp [deedsOf]

theorem deedsOf_other {i j : Nat} (h : j ≠ i) (deed : Deed) : deedsOf [(j, deed)] i = [] := by
  simp [deedsOf, h]

structure Tells (story : History) (flows : Flows) : Prop where
  past : ∀ {i stage}, flows.stages[i]? = some stage →
    ∃ flow deeds, story.deedsOf i = .began flow :: deeds ∧ stage.Past flow deeds
  unborn : ∀ {i}, flows.stages.length ≤ i → story.deedsOf i = []

theorem Tells.start {story : History} {flows : Flows} (tells : story.Tells flows) (flow : Flow) :
    Tells (story ++ [(flows.stages.length, .began flow)])
      { flows with stages := flows.stages ++ [.ofFlow flow] } where
  past := by
    intro i stage at_i
    rcases Nat.lt_trichotomy i flows.stages.length with old | rfl | beyond
    · rw [List.getElem?_append_left old] at at_i
      obtain ⟨own, deeds, hd, past⟩ := tells.past at_i
      refine ⟨own, deeds, ?_, past⟩
      rw [deedsOf_append, deedsOf_other (Nat.ne_of_gt old), List.append_nil, hd]
    · rw [List.getElem?_concat_length] at at_i
      cases at_i
      refine ⟨flow, [], ?_, Stage.past_ofFlow flow⟩
      rw [deedsOf_append, tells.unborn (Nat.le_refl _), deedsOf_self, List.nil_append]
    · have short : (flows.stages ++ [Stage.ofFlow flow]).length ≤ i := by
        rw [List.length_append]
        exact beyond
      rw [List.getElem?_eq_none short] at at_i
      cases at_i
  unborn := by
    intro i beyond
    have later : flows.stages.length < i := by
      rw [List.length_append] at beyond
      exact beyond
    rw [deedsOf_append, tells.unborn (Nat.le_of_lt later), deedsOf_other (Nat.ne_of_lt later),
      List.append_nil]

theorem Tells.act {story : History} {flows next : Flows} {i : Nat} {stage stage' : Stage}
    {deed : Deed} (tells : story.Tells flows) (before : flows.stages[i]? = some stage)
    (does : stage.Does deed stage') (after : next.stages = flows.stages.set i stage') :
    Tells (story ++ [(i, deed)]) next where
  past := by
    intro j now at_j
    rw [after] at at_j
    by_cases same : i = j
    · subst same
      have bound : i < flows.stages.length := (List.getElem?_eq_some_iff.1 before).1
      rw [List.getElem?_set_self bound] at at_j
      cases at_j
      obtain ⟨flow, deeds, hd, past⟩ := tells.past before
      refine ⟨flow, deeds ++ [deed], ?_, past.does does⟩
      rw [deedsOf_append, deedsOf_self, hd, List.cons_append]
    · rw [List.getElem?_set_ne same] at at_j
      obtain ⟨flow, deeds, hd, past⟩ := tells.past at_j
      refine ⟨flow, deeds, ?_, past⟩
      rw [deedsOf_append, deedsOf_other same, List.append_nil, hd]
  unborn := by
    intro j beyond
    rw [after, List.length_set] at beyond
    have bound : i < flows.stages.length := (List.getElem?_eq_some_iff.1 before).1
    have other : i ≠ j := Nat.ne_of_lt (Nat.lt_of_lt_of_le bound beyond)
    rw [deedsOf_append, deedsOf_other other, tells.unborn beyond, List.append_nil]

end History

namespace Mutation

@[simp] theorem opens?_report (mutation : Mutation) (accepted : Bool) :
    (mutation.report accepted).opens? = none := by
  cases mutation <;> cases accepted <;> rfl

@[simp] theorem resolves?_report (mutation : Mutation) (accepted : Bool) :
    (mutation.report accepted).resolves? = none := by
  cases mutation <;> cases accepted <;> rfl

theorem isSuccess_report {mutation : Mutation} {accepted : Bool} :
    (mutation.report accepted).IsSuccess ↔ accepted = true := by
  cases mutation <;> cases accepted <;> simp [report, Event.IsSuccess]

end Mutation

theorem Flow.took_notMem_lead {flow : Flow} {token : Token} : .took token ∉ flow.lead := by
  cases flow <;> simp [lead, mutation?]

theorem Flow.opened_notMem_lead {flow : Flow} {token : Token} :
    .sent (.refreshStarted token) ∉ flow.lead := by
  cases flow <;> simp [lead, mutation?, Mutation.report]

theorem Flow.listed_notMem_lead {flow : Flow} {token : Token} {outcome : Outcome (List Project)} :
    .listed token outcome ∉ flow.lead := by
  cases flow <;> simp [lead, mutation?]

theorem Flow.resolves?_of_mem_lead {flow : Flow} {event : Event} (h : .sent event ∈ flow.lead) :
    event.resolves? = none := by
  cases flow with
  | refresh => cases h
  | create | delete =>
    have own := by simpa [lead, mutation?] using h
    rw [own]
    exact Mutation.resolves?_report _ _

namespace Flows.Reached

variable {capacity : Nat} {story earlier later : History} {flows : Flows} {i : Nat}

theorem tells (reached : (withCapacity capacity).Reached story flows) : story.Tells flows := by
  induction reached with
  | start => exact ⟨fun at_i => by simp [withCapacity] at at_i, fun _ => rfl⟩
  | step _ step ih =>
    cases step with
    | start flow => exact ih.start flow
    | act before does => exact ih.act before does rfl
    | receive | close =>
      rw [Option.toList_none, List.append_nil]
      exact ⟨ih.past, ih.unborn⟩

theorem stage_of_mem (reached : (withCapacity capacity).Reached story flows) {deed : Deed}
    (h : (i, deed) ∈ story) : ∃ stage, flows.stages[i]? = some stage := by
  have own := History.mem_deedsOf.2 h
  have bound : i < flows.stages.length := by
    refine Nat.lt_of_not_le fun beyond => ?_
    rw [reached.tells.unborn beyond] at own
    cases own
  exact ⟨_, List.getElem?_eq_getElem bound⟩

theorem past_at {deed : Deed}
    (reached : (withCapacity capacity).Reached (earlier ++ (i, deed) :: later) flows)
    (goes : ∀ flow, deed ≠ .began flow) :
    ∃ (flow : Flow) (deeds : List Deed) (stage stage' : Stage),
      History.deedsOf earlier i = .began flow :: deeds ∧
      stage.Past flow deeds ∧ stage.Does deed stage' := by
  obtain ⟨before, after, reached, step⟩ := reached.at_deed
  cases step with
  | start flow => exact absurd rfl (goes flow)
  | act at_i does =>
    obtain ⟨flow, deeds, hd, past⟩ := reached.tells.past at_i
    exact ⟨flow, deeds, _, _, hd, past, does⟩

theorem past_of_answered {mutation : Mutation} {outcome : Outcome Unit}
    (reached : (withCapacity capacity).Reached
      (earlier ++ (i, .answered mutation outcome) :: later) flows) :
    ∃ flow, History.deedsOf earlier i = [.began flow, .called mutation] := by
  obtain ⟨flow, deeds, stage, stage', hd, past, does⟩ := reached.past_at (by simp)
  cases does
  obtain ⟨_, rfl⟩ := past
  exact ⟨flow, hd⟩

theorem past_of_success {event : Event} (success : event.IsSuccess)
    (reached : (withCapacity capacity).Reached (earlier ++ (i, .sent event) :: later) flows) :
    ∃ flow mutation, History.deedsOf earlier i =
      [.began flow, .called mutation, .answered mutation (.ok ())] := by
  obtain ⟨flow, deeds, stage, stage', hd, past, does⟩ := reached.past_at (by simp)
  cases does with
  | confirm mutation =>
    obtain ⟨_, rfl⟩ := past
    exact ⟨flow, mutation, hd⟩
  | refuse mutation => cases Mutation.isSuccess_report.1 success
  | announce | load | fail => simp [Event.IsSuccess] at success

theorem past_of_opened {token : Token}
    (reached : (withCapacity capacity).Reached
      (earlier ++ (i, .sent (.refreshStarted token)) :: later) flows) :
    ∃ flow : Flow, History.deedsOf earlier i = .began flow :: (flow.lead ++ [.took token]) := by
  obtain ⟨flow, deeds, stage, stage', hd, past, does⟩ := reached.past_at (by simp)
  generalize he : Event.refreshStarted token = event at does
  cases does with
  | announce =>
    cases he
    cases past
    exact ⟨flow, hd⟩
  | confirm | refuse =>
    have opens := congrArg Event.opens? he
    rw [Mutation.opens?_report] at opens
    cases opens
  | load | fail => cases he

theorem past_of_asked {token : Token}
    (reached : (withCapacity capacity).Reached (earlier ++ (i, .asked token) :: later) flows) :
    ∃ flow : Flow, History.deedsOf earlier i =
      .began flow :: (flow.lead ++ [.took token, .sent (.refreshStarted token)]) := by
  obtain ⟨flow, deeds, stage, stage', hd, past, does⟩ := reached.past_at (by simp)
  cases does
  cases past
  exact ⟨flow, hd⟩

theorem past_of_listed {token : Token} {outcome : Outcome (List Project)}
    (reached : (withCapacity capacity).Reached
      (earlier ++ (i, .listed token outcome) :: later) flows) :
    ∃ flow : Flow, History.deedsOf earlier i =
      .began flow :: (flow.lead ++ [.took token, .sent (.refreshStarted token), .asked token]) := by
  obtain ⟨flow, deeds, stage, stage', hd, past, does⟩ := reached.past_at (by simp)
  cases does
  cases past
  exact ⟨flow, hd⟩

/-- The result of a refresh is sent after its start, its call and the answer, and tells the
answer. -/
theorem past_of_resolved {event : Event} {token : Token} (resolves : event.resolves? = some token)
    (reached : (withCapacity capacity).Reached (earlier ++ (i, .sent event) :: later) flows) :
    ∃ (flow : Flow) (outcome : Outcome (List Project)), outcome.report? token = some event ∧
      History.deedsOf earlier i = .began flow :: (flow.lead ++
        [.took token, .sent (.refreshStarted token), .asked token, .listed token outcome]) := by
  obtain ⟨flow, deeds, stage, stage', hd, past, does⟩ := reached.past_at (by simp)
  cases does with
  | load own projects =>
    cases resolves
    obtain ⟨outcome, delivers, rfl⟩ := past
    cases outcome with
    | ok found =>
      cases delivers
      exact ⟨flow, _, rfl, hd⟩
    | failed | crashed => cases delivers
  | fail own =>
    cases resolves
    obtain ⟨outcome, delivers, rfl⟩ := past
    cases outcome with
    | failed error => exact ⟨flow, _, rfl, hd⟩
    | ok | crashed => cases delivers
  | confirm | refuse => simp at resolves
  | announce => cases resolves

theorem sent_ne_statusCleared (reached : (withCapacity capacity).Reached story flows)
    {event : Event} (h : (i, .sent event) ∈ story) : event ≠ .statusCleared := by
  obtain ⟨front, back, rfl⟩ := List.append_of_mem h
  obtain ⟨flow, deeds, stage, stage', _, _, does⟩ := reached.past_at (by simp)
  cases does with
  | confirm mutation | refuse mutation => cases mutation <;> simp [Mutation.report]
  | announce | load | fail => simp

theorem took_of_opened (reached : (withCapacity capacity).Reached story flows) {token : Token}
    (h : (i, .sent (.refreshStarted token)) ∈ story) : (i, .took token) ∈ story := by
  obtain ⟨front, back, rfl⟩ := List.append_of_mem h
  obtain ⟨flow, hd⟩ := reached.past_of_opened
  exact History.mem_append_of_deedsOf (by simp [hd])

theorem took_of_listed (reached : (withCapacity capacity).Reached story flows) {token : Token}
    {outcome : Outcome (List Project)} (h : (i, .listed token outcome) ∈ story) :
    (i, .took token) ∈ story := by
  obtain ⟨front, back, rfl⟩ := List.append_of_mem h
  obtain ⟨flow, hd⟩ := reached.past_of_listed
  exact History.mem_append_of_deedsOf (by simp [hd])

theorem listed_of_resolved (reached : (withCapacity capacity).Reached story flows) {event : Event}
    {token : Token} (resolves : event.resolves? = some token) (h : (i, .sent event) ∈ story) :
    ∃ outcome : Outcome (List Project),
      outcome.report? token = some event ∧ (i, .listed token outcome) ∈ story := by
  obtain ⟨front, back, rfl⟩ := List.append_of_mem h
  obtain ⟨flow, outcome, report, hd⟩ := reached.past_of_resolved resolves
  exact ⟨outcome, report, History.mem_append_of_deedsOf (by simp [hd])⟩

theorem life_of_ended (reached : (withCapacity capacity).Reached story flows) {token : Token}
    (took : (i, .took token) ∈ story) (ended : flows.stages[i]? = some .ended) :
    ∃ (flow : Flow) (outcome : Outcome (List Project)) (report : Event),
      outcome.report? token = some report ∧ story.deedsOf i = .began flow :: (flow.lead ++
        [.took token, .sent (.refreshStarted token), .asked token, .listed token outcome,
          .sent report]) := by
  obtain ⟨flow, deeds, hd, past⟩ := reached.tells.past ended
  have own := History.mem_deedsOf.2 took
  rw [hd] at own
  rcases past with ⟨mutation, error, _, rfl⟩ | ⟨other, outcome, report, told, rfl⟩
  · simp at own
  · have same : token = other := by simpa [Flow.took_notMem_lead] using own
    subst same
    exact ⟨flow, outcome, report, told, hd⟩

end Flows.Reached

end ProjectClient
