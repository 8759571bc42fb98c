import EffectFusion.Text.Class

/-!
# Quoted text in messages

A list of names in a message is written `["a", "b"]`.  Inside the quotes whatever would not show
as itself is written as an escape, so two different names never look the same.
-/

namespace EffectFusion.Text

/-- lower-case hexadecimal digits without leading zeros -/
def hex (n : Nat) : List Char := Nat.toDigits 16 n

/-- one character between quotes -/
def escape (c : Char) : List Char :=
  if c = '"' then ['\\', '"']
  else if c = '\\' then ['\\', '\\']
  else if c = '\n' then ['\\', 'n']
  else if c = '\r' then ['\\', 'r']
  else if c = '\t' then ['\\', 't']
  else if c = '\x00' then ['\\', '0']
  else if isExtender c || isUnseen c then ['\\', 'u', '\x7b'] ++ hex c.toNat ++ ['\x7d']
  else [c]

/-- a name between quotes -/
def quoted (s : String) : String :=
  "\"" ++ String.ofList (s.toList.flatMap escape) ++ "\""

/-- items between brackets, a comma and a space between two of them -/
def bracketed (items : List String) : String :=
  "[" ++ String.intercalate ", " items ++ "]"

def quotedList (names : List String) : String := bracketed (names.map quoted)

end EffectFusion.Text
