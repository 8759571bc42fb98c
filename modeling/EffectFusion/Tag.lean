/-!
# Closed sets of names

A tag is one of finitely many named values.  `TagSet` is a set of tags; it lists its members in
the order in which the tags are declared, so two equal sets are the same value.
-/

namespace EffectFusion

/-- finitely many values with names, in the order of their declaration -/
class Tag (α : Type) where
  all : List α
  name : α → String
  decEq : DecidableEq α

instance (priority := low) {α : Type} [Tag α] : DecidableEq α := Tag.decEq

/-- the tag of a name -/
def Tag.ofName? {α : Type} [Tag α] (s : String) : Option α :=
  (Tag.all : List α).find? (fun t => Tag.name t = s)

structure TagSet (α : Type) [Tag α] where
  members : List α
  inOrder : members.Sublist Tag.all

namespace TagSet

variable {α : Type} [Tag α]

theorem ext {a b : TagSet α} (h : a.members = b.members) : a = b := by
  cases a; cases b; cases h; rfl

instance : DecidableEq (TagSet α) := fun a b =>
  if h : a.members = b.members then isTrue (ext h) else isFalse (fun e => h (e ▸ rfl))

def filter (p : α → Bool) : TagSet α := ⟨Tag.all.filter p, List.filter_sublist⟩

/-- the tags of a list, in any order and number -/
def ofList (ts : List α) : TagSet α := filter (fun t => ts.contains t)

theorem mem_filter (p : α → Bool) (t : α) :
    t ∈ (filter p).members ↔ t ∈ (Tag.all : List α) ∧ p t = true := by
  simp [filter]

def size (s : TagSet α) : Nat := s.members.length

def isEmpty (s : TagSet α) : Bool := s.members.isEmpty

end TagSet

end EffectFusion
