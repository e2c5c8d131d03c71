/-! Compact JSON text. Only the quotation mark, the backslash and the characters below U+0020 are
escaped. -/
namespace ProjectClient.Json

def numberEscape (c : Char) : List Char :=
  ['\\', 'u', '0', '0', Nat.digitChar (c.toNat / 16), Nat.digitChar (c.toNat % 16)]

def escapedChar (c : Char) : List Char :=
  if c = '"' ∨ c = '\\' then ['\\', c]
  else if c = '\x08' then ['\\', 'b']
  else if c = '\x0c' then ['\\', 'f']
  else if c = '\n' then ['\\', 'n']
  else if c = '\r' then ['\\', 'r']
  else if c = '\t' then ['\\', 't']
  else if c.toNat < 0x20 then numberEscape c
  else [c]

def ofString (text : String) : String :=
  String.ofList ('"' :: text.toList.flatMap escapedChar ++ ['"'])

def ofOptional {α : Type} (write : α → String) : Option α → String
  | none => "null"
  | some a => write a

def ofList {α : Type} (write : α → String) (values : List α) : String :=
  "[" ++ ",".intercalate (values.map write) ++ "]"

def ofMembers (members : List (String × String)) : String :=
  "\x7b" ++ ",".intercalate (members.map fun (key, value) => ofString key ++ ":" ++ value) ++ "\x7d"

def ofMembersOnLines (members : List (String × String)) : String :=
  "\x7b\n" ++
    ",\n".intercalate (members.map fun (key, value) => "  " ++ ofString key ++ ": " ++ value) ++
    "\n\x7d"

end ProjectClient.Json
