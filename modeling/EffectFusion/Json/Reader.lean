import EffectFusion.Json.Value
import EffectFusion.Number.Scaled

/-!
# Reading structured data

`read?` accepts exactly one value with nothing but white space around it.  White space is space,
tab, line feed and carriage return.  Half of a surrogate pair is no fault of the text: it is one
of whoever needs that string, so it is kept apart as `unpaired`.
-/

namespace EffectFusion.Json

open Number

/-- white space between the parts of a value -/
def isSpace (c : Char) : Bool := c = ' ' || c = '\n' || c = '\t' || c = '\r'

def skipSpace (s : List Char) : List Char := s.dropWhile isSpace

/-! ### Strings -/

def hexValue? (c : Char) : Option Nat :=
  if '0' ≤ c ∧ c ≤ '9' then some (c.toNat - 48)
  else if 'a' ≤ c ∧ c ≤ 'f' then some (c.toNat - 87)
  else if 'A' ≤ c ∧ c ≤ 'F' then some (c.toNat - 55)
  else none

/-- the unit of four hexadecimal digits -/
def unit? (a b c d : Char) : Option Nat := do
  let a ← hexValue? a
  let b ← hexValue? b
  let c ← hexValue? c
  let d ← hexValue? d
  pure (((a * 16 + b) * 16 + c) * 16 + d)

def isHighHalf (n : Nat) : Bool := 0xD800 ≤ n && n < 0xDC00

def isLowHalf (n : Nat) : Bool := 0xDC00 ≤ n && n < 0xE000

/-- the code point of a surrogate pair -/
def joinHalves (high low : Nat) : Char := Char.ofNat (0x10000 + (high - 0xD800) * 0x400 + (low - 0xDC00))

def shortEscape? : Char → Option Char
  | '"' => some '"'
  | '\\' => some '\\'
  | '/' => some '/'
  | 'b' => some '\x08'
  | 'f' => some '\x0c'
  | 'n' => some '\n'
  | 'r' => some '\r'
  | 't' => some '\t'
  | _ => none

/-- the low half that completes a pair at the start of `s` -/
def lowHalf? : List Char → Option Nat
  | '\\' :: 'u' :: a :: b :: c :: d :: _ =>
    match unit? a b c d with
    | some n => if isLowHalf n then some n else none
    | none => none
  | _ => none

/-- the rest of a string whose opening quote has been read.  `done` is what came before, last
first; `sound` says that no half of a pair stood alone in it; `high` is a high half that waits
for the escape of its low half, which is known to follow. -/
def readString (done : List Char) (sound : Bool) (high : Option Nat) :
    List Char → Option (Option String × List Char)
  | [] => none
  | '"' :: rest => some (if sound then some (String.ofList done.reverse) else none, rest)
  | '\\' :: 'u' :: a :: b :: c :: d :: rest =>
    match unit? a b c d with
    | none => none
    | some n =>
      match high with
      | some h => readString (joinHalves h n :: done) sound none rest
      | none =>
        if isHighHalf n then
          match lowHalf? rest with
          | some _ => readString done sound (some n) rest
          | none => readString done false none rest
        else if isLowHalf n then readString done false none rest
        else readString (Char.ofNat n :: done) sound none rest
  | '\\' :: c :: rest =>
    match shortEscape? c with
    | some e => readString (e :: done) sound none rest
    | none => none
  | c :: rest =>
    if c.toNat < 32 ∨ c = '\\' then none else readString (c :: done) sound none rest

/-! ### Values -/

/-- a numeral as a value; the negative zero is no whole number -/
def ofScaled (n : Scaled) : Json :=
  if n.whole ∧ (n.negative = false ∨ n.significand ≠ 0) then
    .whole (if n.negative then -(n.significand : Int) else n.significand)
  else match n.value? with
    | some x => .real x
    | none => .beyond

/-- what a word or a numeral at the start of `s` stands for -/
def readPlain : List Char → Option (Json × List Char)
  | 'n' :: 'u' :: 'l' :: 'l' :: rest => some (.null, rest)
  | 't' :: 'r' :: 'u' :: 'e' :: rest => some (.bool true, rest)
  | 'f' :: 'a' :: 'l' :: 's' :: 'e' :: rest => some (.bool false, rest)
  | s => (readStrict s).map (fun p => (ofScaled p.1, p.2))

mutual

/-- a value at the start of `s`; `fuel` bounds the number of parts -/
def readValue : Nat → List Char → Option (Json × List Char)
  | 0, _ => none
  | fuel + 1, s =>
    match s with
    | '"' :: rest =>
      match readString [] true none rest with
      | some (some t, r) => some (.text t, r)
      | some (none, r) => some (.unpaired, r)
      | none => none
    | '[' :: rest =>
      match skipSpace rest with
      | ']' :: r => some (.list [], r)
      | r => (readItems fuel r).map (fun p => (.list p.1, p.2))
    | '\x7b' :: rest =>
      match skipSpace rest with
      | '\x7d' :: r => some (.record [], r)
      | r => (readFields fuel r).map (fun p => (.record p.1, p.2))
    | s => readPlain s

/-- at least one item, then the closing bracket -/
def readItems : Nat → List Char → Option (List Json × List Char)
  | 0, _ => none
  | fuel + 1, s =>
    match readValue fuel s with
    | none => none
    | some (v, r) =>
      match skipSpace r with
      | ']' :: r => some ([v], r)
      | ',' :: r => (readItems fuel (skipSpace r)).map (fun p => (v :: p.1, p.2))
      | _ => none

/-- at least one field, then the closing brace -/
def readFields : Nat → List Char → Option (List (Option String × Json) × List Char)
  | 0, _ => none
  | fuel + 1, s =>
    match s with
    | '"' :: rest =>
      match readString [] true none rest with
      | none => none
      | some (k, r) =>
        match skipSpace r with
        | ':' :: r =>
          match readValue fuel (skipSpace r) with
          | none => none
          | some (v, r) =>
            match skipSpace r with
            | '\x7d' :: r => some ([(k, v)], r)
            | ',' :: r => (readFields fuel (skipSpace r)).map (fun p => ((k, v) :: p.1, p.2))
            | _ => none
        | _ => none
    | _ => none

end

/-- the one value that a text holds; every part takes a character, so the fuel suffices -/
def read? (text : String) : Option Json :=
  let s := skipSpace text.toList
  match readValue (2 * s.length + 2) s with
  | some (v, rest) => if skipSpace rest = [] then some v else none
  | none => none

end EffectFusion.Json
