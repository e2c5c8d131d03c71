import ProjectClient.Failure
import ProjectClient.Text.Blank
import ProjectClient.Text.Utf8

/-! The user's terminal. -/
namespace ProjectClient

structure Terminal (m : Type → Type) where
  print : String → m Unit
  readLine : m (List UInt8)

namespace Terminal

def IsYes (answer : String) : Prop :=
  (Text.trim answer).map Char.toLower ∈ ["y", "yes"]

instance (answer : String) : Decidable (IsYes answer) :=
  inferInstanceAs (Decidable (_ ∈ _))

variable {m : Type → Type} [Monad m]

/-- Asks a question and reads a line as its answer. Everything but a clear yes means no. -/
def confirm (terminal : Terminal m) (question : String) : m (Except Failure Bool) := do
  terminal.print s!"{question} [y/N] "
  match Text.ofUtf8? (← terminal.readLine) with
  | some answer => return .ok (decide (IsYes answer))
  | none => return .error (.unanswered FileError.notText.message)

end Terminal

end ProjectClient
