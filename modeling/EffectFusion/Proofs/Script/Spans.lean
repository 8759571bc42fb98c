import EffectFusion.Proofs.Text.Characters
import EffectFusion.Script.Lexer
import Mathlib

/-!
# How far a token looks ahead

A span function cuts a text where its token ends.  Here it is shown that the cut hangs on the
first character behind it only: what follows that character may change, or all of it may go.
For operators this rests on the table: all but `...` have an operator as every shorter start
of at least two characters.

* `spanOperator_eq_iff`   the operator taken is the longest that fits;
* `spanOperator_change`   the rest behind the next character may change;
* `spanQuoted_change`, `spanBlock_change`   a closed literal or comment bears any text behind it;
* `firstSpan_eq`          kind and cut as two functions, the kind of the next character alone.
-/

namespace EffectFusion.Script

open Text

/-! ### Runs of characters -/

theorem spanWhile_eq_iff (p : Char → Bool) (u rest : List Char) :
    spanWhile p (u ++ rest) = (u, rest) ↔ (∀ c ∈ u, p c = true) ∧ ∀ d ∈ rest.head?, p d = false := by
  induction u with
  | nil =>
    cases rest with
    | nil => simp [spanWhile]
    | cons d x => by_cases h : p d = true <;> simp [spanWhile, h]
  | cons c u ih =>
    have hc : spanWhile p (c :: u ++ rest) = (c :: u, rest) ↔
        p c = true ∧ spanWhile p (u ++ rest) = (u, rest) := by
      by_cases h : p c = true
      · simp [spanWhile, h]
      · simp [spanWhile, h]
    rw [hc, ih, List.forall_mem_cons, and_assoc]

/-- the last character of a number so far, `before` when there is none yet -/
def lastOf (before : Char) (u : List Char) : Char := u.getLast?.getD before

theorem lastOf_cons (before c : Char) (u : List Char) : lastOf before (c :: u) = lastOf c u := by
  cases u with
  | nil => rfl
  | cons d u => simp [lastOf, List.getLast?_cons]

theorem spanNumber_eq_iff (before : Char) (u rest : List Char) :
    spanNumber before (u ++ rest) = (u, rest) ↔
      spanNumber before u = (u, []) ∧ ∀ d ∈ rest.head?, isNumberPart (lastOf before u) d = false := by
  induction u generalizing before with
  | nil =>
    cases rest with
    | nil => simp [spanNumber]
    | cons d x => by_cases h : isNumberPart before d = true <;> simp [spanNumber, lastOf, h]
  | cons c u ih =>
    by_cases h : isNumberPart before c = true
    · have hi := ih c
      rw [List.cons_append, spanNumber, if_pos h, spanNumber, if_pos h, lastOf_cons]
      simp only [Prod.mk.injEq, List.cons.injEq, true_and]
      simpa only [Prod.ext_iff] using hi
    · rw [List.cons_append, spanNumber, if_neg h, spanNumber, if_neg h]
      simp

/-! ### Literals and block comments -/

theorem spanQuoted_change {quote : Char} {escaped : Bool} {u x : List Char} (hx : x ≠ [])
    (h : spanQuoted quote escaped (u ++ x) = (u, x)) (z : List Char) :
    spanQuoted quote escaped (u ++ z) = (u, z) := by
  induction u generalizing escaped with
  | nil =>
    obtain ⟨d, x, rfl⟩ := List.exists_cons_of_ne_nil hx
    cases escaped with
    | true => simp [spanQuoted] at h
    | false =>
      rw [List.nil_append, spanQuoted] at h
      split at h
      · simp at h
      · split at h <;> simp at h
  | cons c u ih =>
    have hpair : ∀ e : Bool, ((c :: (spanQuoted quote e (u ++ x)).1, (spanQuoted quote e (u ++ x)).2)
        = (c :: u, x)) → spanQuoted quote e (u ++ z) = (u, z) := fun e he =>
      ih (by simpa [Prod.ext_iff] using he)
    cases escaped with
    | true =>
      rw [List.cons_append, spanQuoted] at h
      rw [List.cons_append, spanQuoted, hpair _ h]
    | false =>
      rw [List.cons_append, spanQuoted] at h
      rw [List.cons_append, spanQuoted]
      by_cases hb : c = '\\'
      · rw [if_pos hb] at h
        rw [if_pos hb, hpair _ h]
      · rw [if_neg hb] at h
        rw [if_neg hb]
        by_cases hq : c = quote
        · rw [if_pos hq] at h
          have hu : u = [] := by
            have e := (Prod.mk.inj h).1
            simpa using e.symm
          rw [if_pos hq, hu, List.nil_append]
        · rw [if_neg hq] at h
          rw [if_neg hq, hpair _ h]

theorem spanBlock_cons (c : Char) (s : List Char) (h : ¬ (c = '*' ∧ s.head? = some '/')) :
    spanBlock (c :: s) = (c :: (spanBlock s).1, (spanBlock s).2) := by
  rw [spanBlock.eq_def]
  split
  · simp_all
  · rename_i he
    obtain ⟨rfl, rfl⟩ := List.cons.inj he
    simp at h
  · rename_i he
    obtain ⟨rfl, rfl⟩ := List.cons.inj he
    rfl

theorem spanBlock_close (s : List Char) : spanBlock ('*' :: '/' :: s) = (['*', '/'], s) := by
  rw [spanBlock]

/-- a comment that takes anything takes at least its first character -/
theorem spanBlock_ne_nil {x : List Char} (hx : x ≠ []) : spanBlock x ≠ ([], x) := by
  obtain ⟨d, x, rfl⟩ := List.exists_cons_of_ne_nil hx
  intro h
  by_cases hc : d = '*' ∧ x.head? = some '/'
  · obtain ⟨rfl, h2⟩ := hc
    obtain ⟨y, rfl⟩ := List.head?_eq_some_iff.1 h2
    rw [spanBlock_close] at h
    cases h
  · rw [spanBlock_cons _ _ hc] at h
    cases h

theorem spanBlock_change {u x : List Char} (hx : x ≠ []) (h : spanBlock (u ++ x) = (u, x))
    (z : List Char) : spanBlock (u ++ z) = (u, z) := by
  induction u with
  | nil => exact absurd h (spanBlock_ne_nil hx)
  | cons c u ih =>
    by_cases hc : c = '*' ∧ (u ++ x).head? = some '/'
    · obtain ⟨rfl, h2⟩ := hc
      cases u with
      | nil =>
        obtain ⟨y, rfl⟩ := List.head?_eq_some_iff.1 h2
        rw [List.cons_append, List.nil_append, spanBlock_close] at h
        simp at h
      | cons d u =>
        have hd : d = '/' := by simpa using h2
        rw [hd, List.cons_append, List.cons_append, spanBlock_close] at h
        have hu : u = [] := by
          have e := (Prod.mk.inj h).1
          simpa using e.symm
        rw [hd, hu, List.cons_append, List.cons_append, spanBlock_close, List.nil_append]
    · rw [List.cons_append, spanBlock_cons _ _ hc] at h
      have hs : spanBlock (u ++ x) = (u, x) := by simpa [Prod.ext_iff] using h
      have hz : ¬ (c = '*' ∧ (u ++ z).head? = some '/') := by
        cases u with
        -- the comment ends with its two closing characters, so something follows `c` in it
        | nil => exact absurd hs (spanBlock_ne_nil hx)
        | cons d u => simpa using hc
      rw [List.cons_append, spanBlock_cons _ _ hz, ih hs]

/-! ### Operators -/

def isOperator (s : List Char) : Bool := operators.any (fun op => op.toList = s)

theorem isOperator_iff (s : List Char) : isOperator s = true ↔ ∃ op ∈ operators, op.toList = s := by
  simp [isOperator]

theorem operators_sorted :
    operators.Pairwise (fun a b => b.toList.length ≤ a.toList.length) := by decide

theorem two_le_of_isOperator {s : List Char} (h : isOperator s = true) : 2 ≤ s.length := by
  obtain ⟨op, hop, rfl⟩ := (isOperator_iff s).1 h
  have hall : ∀ op ∈ operators, 2 ≤ op.toList.length := by decide
  exact hall op hop

/-- the table is closed under starts of at least two characters, but for the three points -/
theorem isOperator_of_longer {a w : List Char} {d : Char} (ha : a ≠ [])
    (h : isOperator (a ++ d :: w) = true) (hdots : ¬ (a = ['.'] ∧ d = '.')) :
    isOperator (a ++ [d]) = true := by
  have hclosed : ∀ op ∈ operators, op.toList.take 2 ≠ ['.', '.'] →
      ∀ n < op.toList.length, 2 ≤ n → isOperator (op.toList.take n) = true := by decide
  have hthree : ∀ op ∈ operators, op.toList.take 2 = ['.', '.'] → op.toList.length = 3 := by decide
  obtain ⟨op, hop, he⟩ := (isOperator_iff _).1 h
  have hlen : op.toList.length = a.length + 1 + w.length := by
    rw [he, List.length_append, List.length_cons]
    omega
  have htake : op.toList.take (a.length + 1) = a ++ [d] := by
    rw [he, List.append_cons]
    exact List.take_left' (by simp)
  have hpos : 0 < a.length := List.length_pos_iff.2 ha
  cases w with
  | nil => exact h
  | cons e w =>
    have hlen2 : (e :: w).length = w.length + 1 := rfl
    by_cases hp : op.toList.take 2 = ['.', '.']
    · have h3 := hthree op hop hp
      obtain ⟨x, rfl⟩ := List.length_eq_one_iff.1 (show a.length = 1 by omega)
      rw [he] at hp
      have hxd : x = '.' ∧ d = '.' := by simpa using hp
      exact absurd ⟨by rw [hxd.1], hxd.2⟩ hdots
    · rw [← htake]
      exact hclosed op hop hp _ (by omega) (by omega)

theorem not_prefix_of_find?_none {s : List Char}
    (h : operators.find? (fun op => op.toList.isPrefixOf s) = none) {t : List Char}
    (ht : isOperator t = true) : ¬ t <+: s := by
  obtain ⟨op, hop, rfl⟩ := (isOperator_iff t).1 ht
  exact fun hp => List.find?_eq_none.1 h op hop (List.isPrefixOf_iff_prefix.2 hp)

/-- longer operators come first, so the first one that fits is the longest -/
theorem longest_of_find? {s : List Char} {op : String}
    (h : operators.find? (fun op => op.toList.isPrefixOf s) = some op) :
    isOperator op.toList = true ∧ op.toList <+: s ∧
      ∀ t, isOperator t = true → t <+: s → t.length ≤ op.toList.length := by
  obtain ⟨hp, before, after, hl, hbefore⟩ := List.find?_eq_some_iff_append.1 h
  refine ⟨(isOperator_iff _).2 ⟨op, by rw [hl]; simp, rfl⟩, List.isPrefixOf_iff_prefix.1 hp,
    fun t ht htp => ?_⟩
  obtain ⟨op', hop', rfl⟩ := (isOperator_iff t).1 ht
  have hsorted := operators_sorted
  rw [hl] at hop' hsorted
  rcases List.mem_append.1 hop' with hb | hb
  · have hno := hbefore op' hb
    rw [List.isPrefixOf_iff_prefix.2 htp] at hno
    cases hno
  · rcases List.mem_cons.1 hb with rfl | hb
    · exact Nat.le_refl _
    · exact (List.pairwise_cons.1 (List.pairwise_append.1 hsorted).2.1).1 op' hb

/-- `u` is what an operator that starts with `c` takes of `u ++ rest` -/
theorem spanOperator_eq_iff (c : Char) (u rest : List Char) :
    spanOperator c (u ++ rest) = (u, rest) ↔
      (u = [] ∨ isOperator (c :: u) = true) ∧
        ∀ s, isOperator s = true → s <+: c :: (u ++ rest) → s.length ≤ u.length + 1 := by
  have hfits : c :: u <+: c :: (u ++ rest) := List.prefix_append (c :: u) rest
  unfold spanOperator
  cases hf : operators.find? (fun op => op.toList.isPrefixOf (c :: (u ++ rest))) with
  | none =>
    constructor
    · intro h
      have hu : u = [] := ((Prod.mk.inj h).1).symm
      exact ⟨Or.inl hu, fun s hs hp => absurd hp (not_prefix_of_find?_none hf hs)⟩
    · rintro ⟨hu | hu, -⟩
      · rw [hu, List.nil_append]
      · exact absurd hfits (not_prefix_of_find?_none hf hu)
  | some op =>
    obtain ⟨hop, ⟨tail, ht⟩, hlongest⟩ := longest_of_find? hf
    have htwo := two_le_of_isOperator hop
    obtain ⟨v, hv⟩ : ∃ v, op.toList = c :: v := by
      cases hx : op.toList with
      | nil => rw [hx] at htwo; cases htwo
      | cons x v => rw [hx, List.cons_append] at ht; exact ⟨v, by rw [(List.cons.inj ht).1]⟩
    rw [hv] at hop ht hlongest htwo
    have hsplit : v ++ tail = u ++ rest := (List.cons.inj ht).2
    show (List.take (op.toList.length - 1) (u ++ rest), List.drop (op.toList.length - 1) (u ++ rest))
        = (u, rest) ↔ _
    rw [hv, List.length_cons, Nat.add_sub_cancel]
    constructor
    · intro h
      obtain ⟨hu, -⟩ := Prod.mk.inj h
      rw [← hsplit, List.take_left] at hu
      subst hu
      exact ⟨Or.inr hop, fun s hs hp => by simpa using hlongest s hs hp⟩
    · rintro ⟨hu, hmax⟩
      have hle := hmax _ hop ⟨tail, ht⟩
      have hge : u.length + 1 ≤ (c :: v).length := by
        rcases hu with rfl | hu
        · exact Nat.le_of_succ_le htwo
        · exact hlongest _ hu hfits
      rw [List.length_cons] at hle hge
      obtain ⟨rfl, rfl⟩ := List.append_inj hsplit (by omega)
      rw [List.take_left, List.drop_left]

theorem spanOperator_shorten {c : Char} {u x y : List Char}
    (h : spanOperator c (u ++ (x ++ y)) = (u, x ++ y)) : spanOperator c (u ++ x) = (u, x) := by
  obtain ⟨h1, h2⟩ := (spanOperator_eq_iff c u (x ++ y)).1 h
  refine (spanOperator_eq_iff c u x).2 ⟨h1, fun s hs hp => h2 s hs ?_⟩
  rw [← List.append_assoc, ← List.cons_append]
  exact hp.trans (List.prefix_append _ _)

theorem spanOperator_change {c d : Char} {u x : List Char}
    (h : spanOperator c (u ++ d :: x) = (u, d :: x)) (hdots : ¬ (c = '.' ∧ u = [] ∧ d = '.'))
    (z : List Char) : spanOperator c (u ++ d :: z) = (u, d :: z) := by
  obtain ⟨h1, h2⟩ := (spanOperator_eq_iff c u (d :: x)).1 h
  refine (spanOperator_eq_iff c u (d :: z)).2 ⟨h1, fun s hs hp => ?_⟩
  by_contra hlong
  -- a longer operator has one more character, which fits the old text as well
  obtain ⟨w, hw⟩ : ∃ w, s = c :: u ++ d :: w := by
    have hcu : c :: u <+: s := by
      have hstart : c :: u <+: c :: (u ++ d :: z) := List.prefix_append (c :: u) (d :: z)
      exact List.prefix_of_prefix_length_le hstart hp (by simp; omega)
    obtain ⟨v, rfl⟩ := hcu
    rw [← List.cons_append, List.prefix_append_right_inj] at hp
    cases v with
    | nil => simp at hlong
    | cons e v => exact ⟨v, by rw [(List.cons_prefix_cons.1 hp).1]⟩
  have hop : isOperator (c :: u ++ [d]) = true := by
    refine isOperator_of_longer (List.cons_ne_nil c u) (hw ▸ hs) ?_
    rintro ⟨he, hd⟩
    exact hdots ⟨(List.cons.inj he).1, (List.cons.inj he).2, hd⟩
  have hle := h2 _ hop (by rw [List.cons_append]; simp)
  rw [List.length_append, List.length_cons, List.length_singleton] at hle
  omega

/-! ### Kind and cut -/

/-- the kind of the token that starts with `c` before `next` -/
def kindAt (c : Char) (next : Option Char) : Kind :=
  if isBlank c then .whitespace
  else if c = '/' ∧ next = some '/' then .lineComment
  else if c = '/' ∧ next = some '*' then .blockComment
  else if isQuote c then if c = '\x60' then .templateLiteral else .stringLiteral
  else if isDigit c ∨ (c = '.' ∧ (next.map isDigit).getD false = true) then .number
  else if isWordStart c then .word
  else .punctuation

/-- where the token of a kind that starts with `c` is cut off -/
def spanAt (k : Kind) (c : Char) (rest : List Char) : List Char × List Char :=
  match k with
  | .whitespace => spanWhile isBlank rest
  | .lineComment => spanWhile (· ≠ '\n') rest
  | .blockComment => ('*' :: (spanBlock rest.tail).1, (spanBlock rest.tail).2)
  | .stringLiteral | .templateLiteral => spanQuoted c false rest
  | .word => spanWhile isWordPart rest
  | .number => spanNumber c rest
  | .punctuation => spanOperator c rest

theorem firstSpan_eq (c : Char) (rest : List Char) :
    firstSpan c rest = (kindAt c rest.head?, spanAt (kindAt c rest.head?) c rest) := by
  unfold firstSpan kindAt startsNumber
  simp only [Bool.or_eq_true, Bool.and_eq_true, decide_eq_true_eq]
  split_ifs <;> rfl

end EffectFusion.Script
