import EffectFusion.Json.Value
import EffectFusion.Keyed
import EffectFusion.Tag

/-!
# Values as structured data

`Written` gives the structured form of a value and `Readable` takes it back.  A record may be read
from a record with its fields in any order, unknown fields being skipped and a known field
appearing at most once, or from a list of its fields in their own order.  Fields with a default
may be missing; in a list they may be missing from the end only.
-/

namespace EffectFusion

class Written (α : Type) where
  toJson : α → Json

class Readable (α : Type) where
  ofJson? : Json → Option α

export Written (toJson)
export Readable (ofJson?)

namespace Json

/-! ### Leaves -/

instance : Written Bool := ⟨.bool⟩

instance : Readable Bool where
  ofJson?
    | .bool b => some b
    | _ => none

instance : Written String := ⟨.text⟩

instance : Readable String where
  ofJson?
    | .text s => some s
    | _ => none

instance : Written Float := ⟨.real⟩

/-- a whole number of any size counts as long as the double next to it is finite -/
instance : Readable Float where
  ofJson?
    | .real x => some x
    | .whole n =>
      let x := Float.ofInt n
      if x.isFinite then some x else none
    | _ => none

instance : Written UInt8 := ⟨fun n => .whole n.toNat⟩

instance : Readable UInt8 where
  ofJson?
    | .whole n => if 0 ≤ n ∧ n < 256 then some (UInt8.ofNat n.toNat) else none
    | _ => none

instance : Written Int32 := ⟨fun n => .whole n.toInt⟩

instance : Readable Int32 where
  ofJson?
    | .whole n => if -2147483648 ≤ n ∧ n < 2147483648 then some (Int32.ofInt n) else none
    | _ => none

instance : Written Nat := ⟨fun n => .whole n⟩

instance : Readable Nat where
  ofJson?
    | .whole n => if 0 ≤ n then some n.toNat else none
    | _ => none

instance {α : Type} [Written α] : Written (Option α) where
  toJson
    | some v => toJson v
    | none => .null

instance {α : Type} [Readable α] : Readable (Option α) where
  ofJson?
    | .null => some none
    | v => (ofJson? v).map some

/-! ### Tags: a name, or a record with the name as its only key -/

instance (priority := low) {α : Type} [Tag α] : Written α := ⟨fun t => .text (Tag.name t)⟩

instance (priority := low) {α : Type} [Tag α] : Readable α where
  ofJson?
    | .text s => Tag.ofName? s
    | .record [(some s, .null)] => Tag.ofName? s
    | _ => none

/-! ### Collections -/

instance {α : Type} [Written α] : Written (List α) := ⟨fun vs => .list (vs.map toJson)⟩

instance {α : Type} [Readable α] : Readable (List α) where
  ofJson?
    | .list vs => vs.mapM ofJson?
    | _ => none

instance {α : Type} [Tag α] : Written (TagSet α) := ⟨fun s => toJson s.members⟩

instance {α : Type} [Tag α] : Readable (TagSet α) where
  ofJson? v := (ofJson? v : Option (List α)).map TagSet.ofList

instance {α : Type} [Written α] : Written (Keyed α) where
  toJson m := Json.fields (m.entries.map (fun e => (e.1, toJson e.2)))

def entry? {α : Type} [Readable α] (f : Option String × Json) : Option (String × α) := do
  let k ← f.1
  let v ← ofJson? f.2
  pure (k, v)

instance {α : Type} [Readable α] : Readable (Keyed α) where
  ofJson?
    | .record fs => (fs.mapM entry?).map Keyed.ofList
    | _ => none

/-! ### Records -/

/-- the value of the first field of that name -/
def lookup (fs : List (Option String × Json)) (name : String) : Option Json :=
  (fs.find? (fun f => f.1 = some name)).map (·.2)

/-- every key is a text and no known name comes twice -/
def keysFit (names : List String) (fs : List (Option String × Json)) : Bool :=
  fs.all (fun f => f.1.isSome)
    && names.all (fun name => (fs.filter (fun f => f.1 = some name)).length ≤ 1)

/-- the values of the named fields in their order, `none` for a missing one -/
def fieldValues? (names : List String) : Json → Option (List (Option Json))
  | .record fs => if keysFit names fs then some (names.map (lookup fs)) else none
  | .list vs =>
    if vs.length ≤ names.length then
      some (vs.map some ++ List.replicate (names.length - vs.length) none)
    else none
  | _ => none

def required {α : Type} [Readable α] (v : Option Json) : Option α := v.bind ofJson?

/-- a field with a default -/
def optional {α : Type} [Readable α] (default : α) : Option Json → Option α
  | none => some default
  | some v => ofJson? v

end Json

end EffectFusion
