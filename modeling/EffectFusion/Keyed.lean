/-!
# Finite maps from names, in the order of the names

A map is the list of its entries with strictly ascending keys, so two maps with the same entries
are the same value, and walking a map needs no choice of order.  Names compare by code points,
which is the order of their UTF-8 bytes.
-/

namespace EffectFusion

/-- puts an entry where its key belongs, in place of an entry with the same key -/
def insertEntry {V : Type} (k : String) (v : V) : List (String × V) → List (String × V)
  | [] => [(k, v)]
  | e :: rest =>
    if k < e.1 then (k, v) :: e :: rest
    else if k = e.1 then (k, v) :: rest
    else e :: insertEntry k v rest

def Ascending {V : Type} (es : List (String × V)) : Prop :=
  es.Pairwise (fun a b => a.1 < b.1)

theorem mem_insertEntry {V : Type} {k : String} {v : V} {es : List (String × V)} {x : String × V}
    (h : x ∈ insertEntry k v es) : x = (k, v) ∨ x ∈ es := by
  induction es with
  | nil => simpa [insertEntry] using h
  | cons e rest ih =>
    unfold insertEntry at h
    split at h
    · simpa using h
    · split at h
      · rcases List.mem_cons.1 h with h | h
        · exact Or.inl h
        · exact Or.inr (List.mem_cons_of_mem _ h)
      · rcases List.mem_cons.1 h with h | h
        · exact Or.inr (h ▸ List.mem_cons_self)
        · rcases ih h with h | h
          · exact Or.inl h
          · exact Or.inr (List.mem_cons_of_mem _ h)

theorem name_lt_of_not {a b : String} (h1 : ¬ a < b) (h2 : ¬ a = b) : b < a := by
  have hle : b ≤ a := String.not_lt.1 h1
  by_cases h : b < a
  · exact h
  · exact absurd (String.le_antisymm (String.not_lt.1 h) hle) h2

theorem ascending_insertEntry {V : Type} (k : String) (v : V) {es : List (String × V)}
    (h : Ascending es) : Ascending (insertEntry k v es) := by
  induction es with
  | nil => simp [insertEntry, Ascending]
  | cons e rest ih =>
    obtain ⟨he, hr⟩ := List.pairwise_cons.1 h
    unfold insertEntry
    split
    case isTrue hk =>
      refine List.pairwise_cons.2 ⟨fun x hx => ?_, h⟩
      rcases List.mem_cons.1 hx with hx | hx
      · exact hx ▸ hk
      · exact String.lt_trans hk (he x hx)
    case isFalse hk =>
      split
      case isTrue hk2 =>
        exact List.pairwise_cons.2 ⟨fun x hx => hk2 ▸ he x hx, hr⟩
      case isFalse hk2 =>
        refine List.pairwise_cons.2 ⟨fun x hx => ?_, ih hr⟩
        rcases mem_insertEntry hx with hx | hx
        · exact hx ▸ name_lt_of_not hk hk2
        · exact he x hx

/-- a finite map from names -/
structure Keyed (V : Type) where
  entries : List (String × V)
  ascending : Ascending entries

namespace Keyed

variable {V W : Type}

theorem ext {a b : Keyed V} (h : a.entries = b.entries) : a = b := by
  cases a; cases b; cases h; rfl

instance [DecidableEq V] : DecidableEq (Keyed V) := fun a b =>
  if h : a.entries = b.entries then isTrue (ext h) else isFalse (fun e => h (e ▸ rfl))

def empty : Keyed V := ⟨[], List.Pairwise.nil⟩

/-- the map in which `k` has the value `v` and all else is as before -/
def insert (m : Keyed V) (k : String) (v : V) : Keyed V :=
  ⟨insertEntry k v m.entries, ascending_insertEntry k v m.ascending⟩

/-- the map of a list of entries; of two entries with one key the later counts -/
def ofList (es : List (String × V)) : Keyed V :=
  es.foldl (fun m e => m.insert e.1 e.2) empty

def get? (m : Keyed V) (k : String) : Option V := (m.entries.find? (fun e => e.1 = k)).map (·.2)

def contains (m : Keyed V) (k : String) : Bool := m.entries.any (fun e => e.1 = k)

/-- the keys in ascending order -/
def keys (m : Keyed V) : List String := m.entries.map (·.1)

def values (m : Keyed V) : List V := m.entries.map (·.2)

def size (m : Keyed V) : Nat := m.entries.length

/-- every value replaced, no key touched -/
def map (f : V → W) (m : Keyed V) : Keyed W :=
  ⟨m.entries.map (fun e => (e.1, f e.2)), by
    have h := m.ascending
    unfold Ascending at h ⊢
    rw [List.pairwise_map]
    exact h⟩

theorem entries_insert (m : Keyed V) (k : String) (v : V) :
    (m.insert k v).entries = insertEntry k v m.entries := rfl

end Keyed

end EffectFusion
