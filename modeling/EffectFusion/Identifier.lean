import EffectFusion.History

/-!
# Where ids come from

A generator is a sequence of ids and how many of them have been drawn.  It may repeat itself; the
history then refuses the record.
-/

namespace EffectFusion

structure IdGenerator where
  ids : Nat → String
  drawn : Nat

namespace IdGenerator

def next (g : IdGenerator) : String × IdGenerator :=
  (g.ids g.drawn, { g with drawn := g.drawn + 1 })

def numbered : IdGenerator := ⟨fun n => numberedId (n + 1), 0⟩

/-- the ids of a list and then the empty id for ever -/
def ofList (ids : List String) : IdGenerator := ⟨fun n => ids.getD n "", 0⟩

/-! ### Random ids -/

/-- the last `count` hexadecimal digits, in lower case -/
def hexDigits : Nat → Nat → List Char
  | 0, _ => []
  | count + 1, n => hexDigits count (n / 16) ++ [Nat.digitChar (n % 16)]

/-- a version 4 UUID made of 122 random bits, in five groups with hyphens between them; the
version and two bits of the variant are fixed -/
def uuidText (bits : Nat) : String :=
  String.ofList (hexDigits 8 bits ++ '-' :: hexDigits 4 (bits >>> 32)
    ++ '-' :: '4' :: hexDigits 3 (bits >>> 48)
    ++ '-' :: hexDigits 4 (0x8000 + (bits >>> 60) % 0x4000)
    ++ '-' :: hexDigits 12 (bits >>> 74))

def uuids (random : Nat → Nat) : IdGenerator := ⟨fun n => uuidText (random n), 0⟩

/-- `count` hexadecimal digits in lower case -/
def isHexText (count : Nat) (s : List Char) : Bool :=
  s.length = count && s.all (fun c => ('0' ≤ c && c ≤ '9') || ('a' ≤ c && c ≤ 'f'))

/-- has the form of a version 4 UUID -/
def isUuid (id : String) : Bool :=
  match id.toList.splitOn '-' with
  | [a, b, c, d, e] =>
    isHexText 8 a && isHexText 4 b && isHexText 4 c && c.head? = some '4'
      && isHexText 4 d && "89ab".toList.contains (d.headD '0') && isHexText 12 e
  | _ => false

end IdGenerator

end EffectFusion
