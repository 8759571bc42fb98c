import EffectFusion.Report

/-!
# The history of fusions

Records by the id of their fusion, with the ids in ascending order.  A record is stored whole, an
id that is taken is refused, and nothing is ever taken out.  The history also numbers fusions, so
that all who share it draw from one sequence.
-/

namespace EffectFusion

structure Artifact where
  id : String
  code : List Char
  report : Report
  summary : Summary
  deriving DecidableEq

/-- a finished fusion as it is kept -/
structure Record where
  blueprint : Blueprint Float
  artifact : Artifact
  deriving DecidableEq

/-- records by id, and how many ids of the sequence have been drawn -/
structure History where
  records : Keyed Record
  drawn : Nat
  deriving DecidableEq

def numberedId (n : Nat) : String := "fusion-" ++ toString n

namespace History

def empty : History := ⟨Keyed.empty, 0⟩

/-- draws the next id of the sequence, which starts at one -/
def nextId (h : History) : String × History :=
  (numberedId (h.drawn + 1), { h with drawn := h.drawn + 1 })

/-- stores a record under an id that is not taken -/
def insert (h : History) (id : String) (r : Record) : Except FusionError History :=
  if h.records.contains id then .error (.duplicateId id)
  else .ok { h with records := h.records.insert id r }

def get? (h : History) (id : String) : Option Record := h.records.get? id

def size (h : History) : Nat := h.records.size

def isEmpty (h : History) : Bool := h.size = 0

def ids (h : History) : List String := h.records.keys

section

variable {h : History} {id : String}

theorem insert_taken (taken : h.records.contains id = true) (r : Record) :
    h.insert id r = .error (.duplicateId id) := by
  simp [insert, taken]

theorem insert_free (free : h.records.contains id = false) (r : Record) :
    h.insert id r = .ok { h with records := h.records.insert id r } := by
  simp [insert, free]

end

end History

end EffectFusion
