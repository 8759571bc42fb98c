import EffectFusion.Number.Notation

/-!
# Structured data and its text

A value of structured data, and its two written forms: `compact` without any space and `pretty`
with one item a line, two spaces a level.  A number that is not finite has no written form of its
own and is written as `null`.
-/

namespace EffectFusion

/-- Structured data.  `beyond` is a numeral too large for a double.  A string that holds half of a
surrogate pair has no text; it is `unpaired`, and as a key it is `none`. -/
inductive Json
  | null
  | bool (b : Bool)
  | whole (n : Int)
  | real (x : Float)
  | beyond
  | text (s : String)
  | unpaired
  | list (items : List Json)
  | record (fields : List (Option String × Json))

namespace Json

def fields (fs : List (String × Json)) : Json := .record (fs.map (fun f => (some f.1, f.2)))

/-! ### Strings -/

def hexDigit (n : Nat) : Char := if n < 10 then Char.ofNat (48 + n) else Char.ofNat (87 + n)

def escape (c : Char) : List Char :=
  if c = '"' then ['\\', '"']
  else if c = '\\' then ['\\', '\\']
  else if c = '\n' then ['\\', 'n']
  else if c = '\r' then ['\\', 'r']
  else if c = '\t' then ['\\', 't']
  else if c = '\x08' then ['\\', 'b']
  else if c = '\x0c' then ['\\', 'f']
  else if c.toNat < 32 then ['\\', 'u', '0', '0', hexDigit (c.toNat / 16), hexDigit (c.toNat % 16)]
  else [c]

def stringText (s : String) : List Char := '"' :: s.toList.flatMap escape ++ ['"']

/-- half of a surrogate pair has no text, so no string is written for it but the empty one -/
def keyText : Option String → List Char
  | some k => stringText k
  | none => stringText ""

def realText (x : Float) : List Char :=
  match Number.Binary.ofFloat? x with
  | some b => (Number.precise b).toList
  | none => ['n', 'u', 'l', 'l']

def wholeText (n : Int) : List Char :=
  if n < 0 then '-' :: Number.digitsOf n.natAbs else Number.digitsOf n.natAbs

/-! ### Compact form -/

mutual

def compact : Json → List Char
  | .null => ['n', 'u', 'l', 'l']
  | .bool true => ['t', 'r', 'u', 'e']
  | .bool false => ['f', 'a', 'l', 's', 'e']
  | .whole n => wholeText n
  | .real x => realText x
  | .beyond => ['n', 'u', 'l', 'l']
  | .text s => stringText s
  | .unpaired => stringText ""
  | .list items => '[' :: compactItems items ++ [']']
  | .record fields => '\x7b' :: compactFields fields ++ ['\x7d']

def compactItems : List Json → List Char
  | [] => []
  | [v] => compact v
  | v :: w :: rest => compact v ++ ',' :: compactItems (w :: rest)

def compactFields : List (Option String × Json) → List Char
  | [] => []
  | [(k, v)] => keyText k ++ ':' :: compact v
  | (k, v) :: f :: rest => keyText k ++ ':' :: compact v ++ ',' :: compactFields (f :: rest)

end

/-! ### Pretty form -/

def newLine (level : Nat) : List Char := '\n' :: List.replicate (2 * level) ' '

mutual

def pretty (level : Nat) : Json → List Char
  | .list [] => ['[', ']']
  | .list (v :: rest) => '[' :: prettyItems (level + 1) (v :: rest) ++ newLine level ++ [']']
  | .record [] => ['\x7b', '\x7d']
  | .record (f :: rest) =>
    '\x7b' :: prettyFields (level + 1) (f :: rest) ++ newLine level ++ ['\x7d']
  | .null => compact .null
  | .bool b => compact (.bool b)
  | .whole n => compact (.whole n)
  | .real x => compact (.real x)
  | .beyond => compact .beyond
  | .text s => compact (.text s)
  | .unpaired => compact .unpaired

def prettyItems (level : Nat) : List Json → List Char
  | [] => []
  | [v] => newLine level ++ pretty level v
  | v :: w :: rest => newLine level ++ pretty level v ++ ',' :: prettyItems level (w :: rest)

def prettyFields (level : Nat) : List (Option String × Json) → List Char
  | [] => []
  | [(k, v)] => newLine level ++ keyText k ++ ':' :: ' ' :: pretty level v
  | (k, v) :: f :: rest =>
    newLine level ++ keyText k ++ ':' :: ' ' :: pretty level v
      ++ ',' :: prettyFields level (f :: rest)

end

def render (v : Json) : String := String.ofList (compact v)

def renderPretty (v : Json) : String := String.ofList (pretty 0 v)

end Json

end EffectFusion
