/-! Projects as the server reports them. A project is built in branches and a branch in steps.
Every order is the server's own and is never changed here. -/
namespace ProjectClient

structure Step where
  ordinal : Int64
  name : String
deriving DecidableEq, Inhabited

structure Branch where
  id : String
  name : String
  steps : List Step := []
deriving DecidableEq, Inhabited

/-- The step that is listed last, whatever its ordinal. -/
def Branch.latestStep? (branch : Branch) : Option Step :=
  branch.steps.getLast?

structure Project where
  id : String
  name : String
  updatedAt : Option String := none
  branches : List Branch := []
deriving DecidableEq, Inhabited

def Project.stepCount (project : Project) : Nat :=
  (project.branches.flatMap (·.steps)).length

end ProjectClient
