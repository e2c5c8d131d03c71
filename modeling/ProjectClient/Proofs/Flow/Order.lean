import ProjectClient.Proofs.Flow.Past

/-! Three orders of one history: tokens rise in the order in which they are taken, events are
received in the order in which they are sent, and the deeds of one flow stand in the order of its
life. -/
namespace ProjectClient

def Deed.token? : Deed → Option Token
  | took token => some token
  | _ => none

def Deed.event? : Deed → Option Event
  | sent event => some event
  | _ => none

def Deed.IsSuccess (deed : Deed) : Prop :=
  (∃ mutation, deed = answered mutation (.ok ())) ∨ ∃ event, deed = sent event ∧ event.IsSuccess

namespace History

def tokens (story : History) : List Token :=
  story.filterMap (·.2.token?)

def sends (story : History) : List (Nat × Event) :=
  story.filterMap fun (i, deed) => deed.event?.map (i, ·)

@[simp] theorem tokens_append (first second : History) :
    tokens (first ++ second) = first.tokens ++ second.tokens :=
  List.filterMap_append

@[simp] theorem sends_append (first second : History) :
    sends (first ++ second) = first.sends ++ second.sends :=
  List.filterMap_append

theorem tokens_singleton (i : Nat) (deed : Deed) : tokens [(i, deed)] = deed.token?.toList := by
  cases deed <;> rfl

theorem sends_singleton (i : Nat) (deed : Deed) :
    sends [(i, deed)] = (deed.event?.map (i, ·)).toList := by
  cases deed <;> rfl

theorem mem_tokens {story : History} {i : Nat} {token : Token} (h : (i, .took token) ∈ story) :
    token ∈ story.tokens :=
  List.mem_filterMap.2 ⟨_, h, rfl⟩

theorem mem_sends {story : History} {i : Nat} {event : Event} :
    (i, event) ∈ story.sends ↔ (i, .sent event) ∈ story := by
  constructor
  · intro h
    obtain ⟨⟨j, deed⟩, member, hd⟩ := List.mem_filterMap.1 h
    cases deed with
    | sent other =>
      cases hd
      exact member
    | _ => cases hd
  · intro h
    exact List.mem_filterMap.2 ⟨_, h, rfl⟩

theorem exists_of_sends_eq {story : History} {first second : List (Nat × Event)} {i : Nat}
    {event : Event} (h : story.sends = first ++ (i, event) :: second) :
    ∃ earlier later, story = earlier ++ (i, .sent event) :: later ∧
      History.sends earlier = first ∧ History.sends later = second := by
  obtain ⟨front, back, rfl, hf, hb⟩ := List.filterMap_eq_append_iff.1 h
  obtain ⟨skipped, ⟨j, deed⟩, later, rfl, none, hd, hl⟩ := List.filterMap_eq_cons_iff.1 hb
  have own : (j, deed) = (i, .sent event) := by
    cases deed with
    | sent other =>
      cases hd
      rfl
    | _ => cases hd
  have silent : History.sends skipped = [] := List.filterMap_eq_nil_iff.2 none
  refine ⟨front ++ skipped, later, by rw [own, List.append_assoc], ?_, hl⟩
  rw [sends_append, silent, List.append_nil]
  exact hf

end History

theorem Outbox.send?_eq_some {outbox next : Outbox} {event : Event}
    (h : outbox.send? event = some next) :
    next.issued = outbox.issued ∧
    next.channel.isOpen = outbox.channel.isOpen ∧
    next.channel.queue = if outbox.channel.isOpen then outbox.channel.queue ++ [event]
      else outbox.channel.queue := by
  simp only [Outbox.send?, Channel.send?, Option.map_eq_some_iff] at h
  obtain ⟨channel, hc, rfl⟩ := h
  split at hc
  · rename_i listening
    split at hc
    · cases hc
      exact ⟨rfl, rfl, by rw [if_pos listening]⟩
    · contradiction
  · rename_i deaf
    cases hc
    exact ⟨rfl, rfl, by rw [if_neg deaf]⟩

theorem Deed.Shares.tokens {outbox next : Outbox} {deed : Deed} (shares : deed.Shares outbox next) :
    List.range' 1 outbox.issued ++ deed.token?.toList = List.range' 1 next.issued := by
  cases deed with
  | took token =>
    cases shares
    show List.range' 1 outbox.issued ++ [outbox.issued + 1] = List.range' 1 (outbox.issued + 1)
    rw [List.range'_1_concat, Nat.add_comm 1]
  | sent event =>
    rw [(Outbox.send?_eq_some shares).1]
    exact List.append_nil _
  | _ =>
    cases shares
    exact List.append_nil _

namespace Flows.Reached

variable {capacity : Nat} {story earlier later : History} {flows : Flows}

theorem tokens (reached : (withCapacity capacity).Reached story flows) :
    story.tokens = List.range' 1 flows.outbox.issued := by
  induction reached with
  | start => rfl
  | step _ step ih =>
    rw [History.tokens_append, ih]
    cases step with
    | start => exact List.append_nil _
    | act before does shares =>
      rw [Option.toList_some, History.tokens_singleton]
      exact shares.tokens
    | receive | close => exact List.append_nil _

theorem token_lt (reached : (withCapacity capacity).Reached (earlier ++ later) flows) {i j : Nat}
    {first second : Token} (before : (i, .took first) ∈ earlier)
    (behind : (j, .took second) ∈ later) : first < second := by
  have sorted := List.pairwise_lt_range' (s := 1) (n := flows.outbox.issued)
  rw [← reached.tokens, History.tokens_append, List.pairwise_append] at sorted
  exact sorted.2.2 first (History.mem_tokens before) second (History.mem_tokens behind)

theorem owner_unique (reached : (withCapacity capacity).Reached story flows) {i j : Nat}
    {token : Token} (one : (i, .took token) ∈ story) (other : (j, .took token) ∈ story) :
    i = j := by
  obtain ⟨front, back, rfl⟩ := List.append_of_mem one
  rcases List.mem_append.1 other with before | behind
  · exact absurd (reached.token_lt before List.mem_cons_self) (Nat.lt_irrefl _)
  · rcases List.mem_cons.1 behind with same | behind
    · cases same
      rfl
    · have whole : (front ++ [(i, .took token)]) ++ back = front ++ (i, .took token) :: back :=
        List.append_assoc ..
      rw [← whole] at reached
      have own : (i, .took token) ∈ front ++ [(i, .took token)] :=
        List.mem_append_right _ List.mem_cons_self
      exact absurd (reached.token_lt own behind) (Nat.lt_irrefl _)

/-- What is received and what waits in the channel are the first events sent. Nothing else was sent
while the receiver is there. -/
theorem events (reached : (withCapacity capacity).Reached story flows) :
    flows.received ++ flows.outbox.channel.queue <+: story.sends.map (·.2) ∧
    (flows.outbox.channel.isOpen →
      story.sends.map (·.2) = flows.received ++ flows.outbox.channel.queue) := by
  induction reached with
  | start => exact ⟨List.nil_prefix, fun _ => rfl⟩
  | step _ step ih =>
    rw [History.sends_append]
    cases step with
    | start => simpa [History.sends, Deed.event?] using ih
    | @act i stage stage' deed outbox calls before does shares logged =>
      rw [Option.toList_some, History.sends_singleton]
      cases deed with
      | sent event =>
        obtain ⟨_, listening, queue⟩ := Outbox.send?_eq_some shares
        simp only [listening, queue]
        split
        · rename_i listens
          have whole := ih.2 listens
          simp [Deed.event?, whole]
        · rename_i deaf
          refine ⟨ih.1.trans ?_, fun listens => absurd listens deaf⟩
          rw [List.map_append]
          exact List.prefix_append _ _
      | _ =>
        cases shares
        simpa [Deed.event?] using ih
    | receive head =>
      rw [head] at ih
      simpa [History.sends] using ih
    | close =>
      refine ⟨?_, fun listens => by cases listens⟩
      have first := (List.prefix_append _ _).trans ih.1
      simpa [History.sends, Channel.close] using first

theorem took_behind_success {i : Nat} {deed : Deed} {token : Token} (success : deed.IsSuccess)
    (reached : (withCapacity capacity).Reached (earlier ++ (i, deed) :: later) flows)
    (own : (i, .took token) ∈ earlier ++ (i, deed) :: later) : (i, .took token) ∈ later := by
  have early : .took token ∉ History.deedsOf earlier i := by
    rcases success with ⟨mutation, rfl⟩ | ⟨event, rfl, success⟩
    · obtain ⟨flow, hd⟩ := reached.past_of_answered
      simp [hd]
    · obtain ⟨flow, mutation, hd⟩ := reached.past_of_success success
      simp [hd]
  rcases List.mem_append.1 own with before | behind
  · exact absurd (History.mem_deedsOf.2 before) early
  · rcases List.mem_cons.1 behind with same | behind
    · cases same
      rcases success with ⟨mutation, h⟩ | ⟨event, h, _⟩ <;> cases h
    · exact behind

theorem exists_took_behind_success {i : Nat} {deed : Deed} (success : deed.IsSuccess)
    (reached : (withCapacity capacity).Reached (earlier ++ (i, deed) :: later) flows)
    (ended : flows.stages[i]? = some .ended) : ∃ token, (i, .took token) ∈ later := by
  have done : deed ∈ History.deedsOf (earlier ++ (i, deed) :: later) i := by
    rw [History.mem_deedsOf]
    exact List.mem_append_right _ List.mem_cons_self
  obtain ⟨flow, deeds, hd, past⟩ := reached.tells.past ended
  rw [hd] at done
  rcases past with ⟨mutation, error, _, rfl⟩ | ⟨token, outcome, report, _, rfl⟩
  · rcases success with ⟨other, rfl⟩ | ⟨event, rfl, success⟩
    · simp at done
    · have refused : event = mutation.report false := by simpa using done
      subst refused
      cases Mutation.isSuccess_report.1 success
  · have own : Deed.took token ∈ History.deedsOf (earlier ++ (i, deed) :: later) i := by simp [hd]
    exact ⟨token, reached.took_behind_success success (History.mem_deedsOf.1 own)⟩

theorem resolved_once {i j : Nat} {event other : Event} {token : Token}
    (reached : (withCapacity capacity).Reached (earlier ++ (i, .sent event) :: later) flows)
    (resolves : event.resolves? = some token) (before : (j, .sent other) ∈ earlier) :
    other.resolves? ≠ some token := by
  intro again
  obtain ⟨flow, outcome, _, hd⟩ := reached.past_of_resolved resolves
  have own : (i, .took token) ∈ earlier := by
    rw [← History.mem_deedsOf]
    simp [hd]
  have theirs : (j, .took token) ∈ earlier ++ (i, .sent event) :: later := by
    obtain ⟨_, _, answer⟩ := reached.listed_of_resolved again (List.mem_append_left _ before)
    exact reached.took_of_listed answer
  -- The flow that took the token sends both results, but it had sent none before this one.
  have same := reached.owner_unique (List.mem_append_left _ own) theirs
  subst same
  have sent := History.mem_deedsOf.2 before
  rw [hd] at sent
  simp only [List.mem_cons, List.mem_append, reduceCtorEq, Deed.sent.injEq, List.not_mem_nil,
    false_or, or_false] at sent
  rcases sent with lead | rfl
  · rw [Flow.resolves?_of_mem_lead lead] at again
    cases again
  · cases again

theorem resolved_nodup (reached : (withCapacity capacity).Reached story flows) :
    (story.sends.filterMap (·.2.resolves?)).Nodup := by
  induction reached with
  | start => exact List.nodup_nil
  | @step story flows next deed? reached step ih =>
    have whole := reached.step step
    rw [History.sends_append, List.filterMap_append]
    rcases deed? with _ | ⟨i, deed⟩
    · simpa [History.sends] using ih
    · rw [Option.toList_some, History.sends_singleton]
      rcases he : deed.event? with _ | event
      · simpa using ih
      · rcases hr : event.resolves? with _ | token
        · simpa [hr] using ih
        · cases deed with
          | sent own =>
            cases he
            have new : token ∉ story.sends.filterMap (·.2.resolves?) := by
              intro old
              obtain ⟨⟨j, other⟩, member, again⟩ := List.mem_filterMap.1 old
              exact whole.resolved_once hr (History.mem_sends.1 member) again
            simpa [hr, List.nodup_append, ih] using fun t h => ne_of_mem_of_not_mem h new
          | _ => cases he

end Flows.Reached

end ProjectClient
