import ProjectClient.Screen.View
import ProjectClient.Text.Columns

/-! The projects screen as lines of a terminal. -/
namespace ProjectClient

open Text

def Status.line (status : Status) : String :=
  let tag := match status.kind with
    | .info => ".."
    | .success => "ok"
    | .error => "!!"
  s!"[{tag}] {status.text}"

def tableLine (filling : Char) (id name updated branches steps : String) : String :=
  " ".intercalate
    [atLeft filling 34 id, atLeft filling 24 name, atLeft filling 17 updated,
      atRight filling 8 branches, atRight filling 6 steps]

def headerLine : String :=
  tableLine ' ' "ID" "NAME" "UPDATED" "BRANCHES" "STEPS"

def ruleLine : String :=
  tableLine '-' "" "" "" "" ""

def Step.line (step : Step) : String :=
  let ordinal := atLeft ' ' 4 (toString step.ordinal)
  s!"      #{ordinal} {step.name}"

def BranchView.line (branch : BranchView) : String :=
  match branch.latestStep with
  | some latest => s!"    {branch.name} (latest: {latest})"
  | none => s!"    {branch.name} (no steps)"

def BranchView.lines (withSteps : Bool) (branch : BranchView) : List String :=
  branch.line :: if withSteps then branch.steps.map Step.line else []

def RowView.line (row : RowView) : String :=
  tableLine ' ' row.id row.name row.updated (toString row.branchCount) (toString row.stepCount)

def RowView.lines (withSteps : Bool) (row : RowView) : List String :=
  row.line :: row.branches.flatMap (·.lines withSteps)

def ListView.lines (withSteps : Bool) : ListView → List String
  | .empty marker => [marker]
  | .rows shown => headerLine :: ruleLine :: shown.flatMap (·.lines withSteps)

def ListView.text (withSteps : Bool) (list : ListView) : String :=
  ofLines (list.lines withSteps)

end ProjectClient
