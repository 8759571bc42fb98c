import EffectFusion.Identifier
import Mathlib

/-!
# Random ids and numbered ids

A random id has the form of a UUID of version 4, whichever bits it is made of: its five groups are
found again between the hyphens, since no digit is one.  An id of a sequence has one hyphen.  So
studios with random ids and studios with ids from the history can share a history.

* `isHexText_hexDigits`    a group of digits;
* `isUuid_uuidText`        random ids;
* `uuids_apart_numbered`   no random id is an id of a sequence.
-/

namespace EffectFusion.IdGenerator

theorem length_hexDigits (count n : Nat) : (hexDigits count n).length = count := by
  induction count generalizing n with
  | zero => rfl
  | succ k ih => rw [hexDigits, List.length_append, ih, List.length_singleton]

theorem isHexText_hexDigits (count n : Nat) : isHexText count (hexDigits count n) = true := by
  have hdigit : ∀ d < 16, (('0' ≤ Nat.digitChar d && Nat.digitChar d ≤ '9') ||
      ('a' ≤ Nat.digitChar d && Nat.digitChar d ≤ 'f')) = true := by decide
  have hall : ∀ n, (hexDigits count n).all
      (fun c => ('0' ≤ c && c ≤ '9') || ('a' ≤ c && c ≤ 'f')) = true := by
    induction count with
    | zero => exact fun _ => rfl
    | succ k ih =>
      intro n
      rw [hexDigits, List.all_append, ih, List.all_cons, hdigit _ (Nat.mod_lt n (by decide))]
      rfl
  rw [isHexText, length_hexDigits, hall]
  simp

theorem not_mem_of_isHexText {count : Nat} {s : List Char} (h : isHexText count s = true) :
    '-' ∉ s := by
  intro hmem
  have hall := (Bool.and_eq_true_iff.1 h).2
  exact absurd (List.all_eq_true.1 hall '-' hmem) (by decide)

theorem splitOn_groups {a b c d e : List Char} (ha : '-' ∉ a) (hb : '-' ∉ b) (hc : '-' ∉ c)
    (hd : '-' ∉ d) (he : '-' ∉ e) :
    (a ++ '-' :: (b ++ '-' :: (c ++ '-' :: (d ++ '-' :: e)))).splitOn '-' = [a, b, c, d, e] := by
  rw [List.splitOn_append_cons_self_of_not_mem ha, List.splitOn_append_cons_self_of_not_mem hb,
    List.splitOn_append_cons_self_of_not_mem hc, List.splitOn_append_cons_self_of_not_mem hd,
    List.splitOn_eq_singleton he]

/-- the two fixed bits of the variant leave four first digits -/
theorem head_variant (n : Nat) :
    "89ab".toList.contains ((hexDigits 4 (0x8000 + n % 0x4000)).headD '0') = true := by
  have hdigit : ∀ d, 8 ≤ d → d < 12 → "89ab".toList.contains (Nat.digitChar d) = true := by
    intro d hlow hhigh
    interval_cases d <;> decide
  show "89ab".toList.contains (Nat.digitChar ((0x8000 + n % 0x4000) / 16 / 16 / 16 % 16)) = true
  exact hdigit _ (by omega) (by omega)

theorem isUuid_uuidText (bits : Nat) : isUuid (uuidText bits) = true := by
  have hversion : isHexText 4 ('4' :: hexDigits 3 (bits >>> 48)) = true := by
    have h := isHexText_hexDigits 3 (bits >>> 48)
    simp only [isHexText, List.length_cons, List.all_cons] at h ⊢
    simpa using h
  have hgroup := fun count n => not_mem_of_isHexText (isHexText_hexDigits count n)
  have hsplit := splitOn_groups (hgroup 8 bits) (hgroup 4 (bits >>> 32))
    (not_mem_of_isHexText hversion) (hgroup 4 (0x8000 + (bits >>> 60) % 0x4000))
    (hgroup 12 (bits >>> 74))
  have htext : (uuidText bits).toList = hexDigits 8 bits ++ '-' :: (hexDigits 4 (bits >>> 32)
      ++ '-' :: ('4' :: hexDigits 3 (bits >>> 48) ++ '-' ::
        (hexDigits 4 (0x8000 + (bits >>> 60) % 0x4000) ++ '-' :: hexDigits 12 (bits >>> 74)))) := by
    rw [uuidText, String.toList_ofList]
    simp only [List.append_assoc, List.cons_append]
  rw [isUuid, htext, hsplit]
  simp only [isHexText_hexDigits, hversion, head_variant, List.head?_cons, decide_true,
    Bool.and_self]

theorem isUuid_numberedId (n : Nat) : isUuid (numberedId n) = false := by
  have hdigits : '-' ∉ (toString n).toList := by
    rw [Nat.toString_eq_repr, Nat.toList_repr]
    exact fun h => absurd (Nat.isDigit_of_mem_toDigits (by decide) (by decide) h) (by decide)
  have htext : (numberedId n).toList = "fusion".toList ++ '-' :: (toString n).toList := by
    rw [numberedId, String.toList_append]
    rfl
  rw [isUuid, htext, List.splitOn_append_cons_self_of_not_mem (by decide),
    List.splitOn_eq_singleton hdigits]

/-- a random id is never one that a history draws -/
theorem uuids_apart_numbered (random : Nat → Nat) (k n : Nat) :
    (uuids random).ids k ≠ numberedId n := by
  intro h
  have hrandom : isUuid ((uuids random).ids k) = true := isUuid_uuidText (random k)
  rw [h, isUuid_numberedId] at hrandom
  cases hrandom

end EffectFusion.IdGenerator
