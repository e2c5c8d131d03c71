/-! Blank characters (the Unicode property `White_Space`) and trimming. -/
namespace ProjectClient.Text

/-- The character has the property `White_Space`. -/
def isBlank (c : Char) : Bool :=
  (0x09 ≤ c.val && c.val ≤ 0x0d) || c.val == 0x20 || c.val == 0x85 || c.val == 0xa0 ||
  c.val == 0x1680 || (0x2000 ≤ c.val && c.val ≤ 0x200a) || c.val == 0x2028 || c.val == 0x2029 ||
  c.val == 0x202f || c.val == 0x205f || c.val == 0x3000

def stripEnds {α : Type} (p : α → Bool) (l : List α) : List α :=
  ((l.dropWhile p).reverse.dropWhile p).reverse

def trim (text : String) : String :=
  String.ofList (stripEnds isBlank text.toList)

def IsBlank (text : String) : Prop := trim text = ""

instance (text : String) : Decidable (IsBlank text) :=
  inferInstanceAs (Decidable (trim text = ""))

end ProjectClient.Text
