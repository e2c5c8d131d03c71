import ProjectClient.Proofs.Flow.Order

/-! The course of a flow: how its calls were answered. Together with the token that it took, the
course of a flow that is over tells everything that the flow did. -/
namespace ProjectClient

inductive Course where
  | refreshed (listed : Outcome (List Project))
  | refused (mutation : Mutation) (error : ApiError)
  /-- The call of the change never came back. -/
  | lost (mutation : Mutation)
  | changed (mutation : Mutation) (listed : Outcome (List Project))
deriving DecidableEq

namespace Token

def events (token : Token) (listed : Outcome (List Project)) : List Event :=
  .refreshStarted token :: (listed.report? token).toList

def deeds (token : Token) (listed : Outcome (List Project)) : List Deed :=
  [.took token, .sent (.refreshStarted token), .asked token, .listed token listed] ++
    (listed.report? token).toList.map .sent

end Token

namespace Course

def mutation? : Course → Option Mutation
  | refreshed _ => none
  | refused mutation _ => some mutation
  | lost mutation => some mutation
  | changed mutation _ => some mutation

def calls : Course → List Call
  | refreshed _ => [.list]
  | refused mutation _ => [mutation.call]
  | lost mutation => [mutation.call]
  | changed mutation _ => [mutation.call, .list]

def events (token : Token) : Course → List Event
  | refreshed listed => token.events listed
  | refused mutation _ => [mutation.report false]
  | lost _ => []
  | changed mutation listed => mutation.report true :: token.events listed

def deeds (token : Token) : Course → List Deed
  | refreshed listed => token.deeds listed
  | refused mutation error =>
    [.called mutation, .answered mutation (.failed error), .sent (mutation.report false)]
  | lost mutation => [.called mutation, .answered mutation .crashed]
  | changed mutation listed =>
    [.called mutation, .answered mutation (.ok ()), .sent (mutation.report true)] ++
      token.deeds listed

def listed? : Course → Option (Outcome (List Project))
  | refreshed listed => some listed
  | changed _ listed => some listed
  | refused .. => none
  | lost _ => none

def IsWhole : Course → Prop
  | refreshed listed => listed ≠ .crashed
  | refused .. => True
  | lost _ => False
  | changed _ listed => listed ≠ .crashed

instance (course : Course) : Decidable course.IsWhole :=
  match course with
  | refreshed listed => inferInstanceAs (Decidable (listed ≠ .crashed))
  | refused .. => isTrue trivial
  | lost _ => isFalse id
  | changed _ listed => inferInstanceAs (Decidable (listed ≠ .crashed))

def stage (course : Course) : Stage :=
  if course.IsWhole then .ended else .crashed

theorem isOver_stage (course : Course) : course.stage.IsOver := by
  unfold stage
  split
  · exact .inl rfl
  · exact .inr rfl

theorem stage_eq_ended_iff {course : Course} : course.stage = .ended ↔ course.IsWhole := by
  unfold stage
  split <;> simp [*]

theorem filterMap_event?_deeds (course : Course) (token : Token) :
    (course.deeds token).filterMap Deed.event? = course.events token := by
  cases course with
  | refreshed listed | changed mutation listed => cases listed <;> rfl
  | refused | lost => rfl

theorem filterMap_call?_deeds (course : Course) (token : Token) :
    (course.deeds token).filterMap Deed.call? = course.calls := by
  cases course with
  | refreshed listed | changed mutation listed => cases listed <;> rfl
  | refused | lost => rfl

def ofListed (mutation? : Option Mutation) (listed : Outcome (List Project)) : Course :=
  mutation?.elim (refreshed listed) (changed · listed)

theorem mutation?_ofListed (mutation? : Option Mutation) (listed : Outcome (List Project)) :
    (ofListed mutation? listed).mutation? = mutation? := by
  cases mutation? <;> rfl

theorem isWhole_ofListed (mutation? : Option Mutation) (listed : Outcome (List Project)) :
    (ofListed mutation? listed).IsWhole ↔ listed ≠ .crashed := by
  cases mutation? <;> rfl

theorem deeds_ofListed (flow : Flow) (listed : Outcome (List Project)) (token : Token) :
    (ofListed flow.mutation? listed).deeds token = flow.lead ++ token.deeds listed := by
  cases flow <;> rfl

end Course

theorem Stage.Past.exists_course {flow : Flow} {deeds : List Deed} {stage : Stage}
    (past : stage.Past flow deeds) (finished : stage.IsOver) :
    ∃ (course : Course) (token : Token), course.mutation? = flow.mutation? ∧
      course.stage = stage ∧ deeds = course.deeds token := by
  rcases finished with rfl | rfl
  · rcases past with ⟨mutation, error, own, rfl⟩ | ⟨token, listed, report, told, rfl⟩
    · exact ⟨.refused mutation error, 0, own.symm, rfl, rfl⟩
    · have whole : listed ≠ .crashed := by
        rintro rfl
        cases told
      refine ⟨.ofListed flow.mutation? listed, token, Course.mutation?_ofListed .., ?_, ?_⟩
      · exact Course.stage_eq_ended_iff.2 ((Course.isWhole_ofListed ..).2 whole)
      · rw [Course.deeds_ofListed, Token.deeds, told]
        rfl
  · rcases past with ⟨mutation, own, rfl⟩ | ⟨token, rfl⟩
    · exact ⟨.lost mutation, 0, own.symm, rfl, rfl⟩
    · refine ⟨.ofListed flow.mutation? .crashed, token, Course.mutation?_ofListed .., ?_, ?_⟩
      · exact if_neg fun whole => (Course.isWhole_ofListed ..).1 whole rfl
      · rw [Course.deeds_ofListed]
        rfl

end ProjectClient
