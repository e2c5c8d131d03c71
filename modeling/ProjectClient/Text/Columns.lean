/-! Text in columns. A width counts characters, and a text that is too wide stays whole. -/
namespace ProjectClient.Text

def filler (filling : Char) (width : Nat) (text : String) : String :=
  String.ofList (List.replicate (width - text.length) filling)

def atLeft (filling : Char) (width : Nat) (text : String) : String :=
  text ++ filler filling width text

def atRight (filling : Char) (width : Nat) (text : String) : String :=
  filler filling width text ++ text

def ofLines (lines : List String) : String :=
  String.join (lines.map (· ++ "\n"))

end ProjectClient.Text
