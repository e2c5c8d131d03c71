/-! Splitting a list at the members of a class. -/
namespace ProjectClient.Text

/-- The pieces between the members that satisfy `p`. There is one piece more than such members. -/
def splitOn {α : Type} (p : α → Bool) : List α → List (List α)
  | [] => [[]]
  | a :: rest =>
    if p a then [] :: splitOn p rest
    else match splitOn p rest with
      | [] => [[a]]
      | piece :: pieces => (a :: piece) :: pieces

def pieces (separator : Char) (text : String) : List String :=
  (splitOn (· == separator) text.toList).map String.ofList

end ProjectClient.Text
