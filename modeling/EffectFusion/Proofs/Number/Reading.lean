import EffectFusion.Number.Scaled
import EffectFusion.Proofs.Script.Numerals

/-!
# Reading numerals

A numeral of a data file is read up to the first character that cannot belong to it, so what
follows has no part in its value.  Digits by themselves are read as the whole number they spell as
long as it stays below `2^64`.

* `readStrict_append`       what follows a numeral has no part in it;
* `readUnsigned_digitsOf`   digits are a whole number.
-/

namespace EffectFusion.Number

open Text Script

/-! ### Digits -/

/-- a text starts with none of these -/
def NotBefore (p : Char → Bool) (s : List Char) : Prop := ∀ c ∈ s.head?, p c = false

theorem spanDigits_append {ds r : List Char} (hds : ∀ c ∈ ds, isDigit c = true)
    (hr : NotBefore isDigit r) : spanDigits (ds ++ r) = (ds, r) := by
  have h := (spanWhile_eq_iff isDigit ds r).2 ⟨hds, hr⟩
  exact h

theorem spanDigits_split (s : List Char) :
    s = (spanDigits s).1 ++ (spanDigits s).2 ∧ (∀ c ∈ (spanDigits s).1, isDigit c = true) ∧
      NotBefore isDigit (spanDigits s).2 := by
  have happ : (spanDigits s).1 ++ (spanDigits s).2 = s := spanWhile_append isDigit s
  have h := (spanWhile_eq_iff isDigit (spanDigits s).1 (spanDigits s).2).1 (by rw [happ]; rfl)
  exact ⟨happ.symm, h.1, h.2⟩

theorem notBefore_append {p : Char → Bool} {u v : List Char} (hu : NotBefore p u)
    (hv : NotBefore p v) : NotBefore p (u ++ v) := by
  cases u with
  | nil => exact hv
  | cons c u => exact hu

theorem notBefore_imp {p q : Char → Bool} {s : List Char} (h : ∀ c, p c = true → q c = true)
    (hs : NotBefore q s) : NotBefore p s := by
  intro c hc
  by_contra hp
  have hq := h c (by simpa using hp)
  rw [hs c hc] at hq
  cases hq

/-! ### Parts of a numeral -/

theorem readWholePart_append {s ds r : List Char} (h : readWholePart s = some (ds, r)) :
    s = ds ++ r ∧ ∀ rest, NotBefore isDigit rest → readWholePart (ds ++ rest) = some (ds, rest) := by
  unfold readWholePart at h
  split at h
  · obtain ⟨rfl, rfl⟩ := Prod.mk.inj (Option.some.inj h)
    exact ⟨rfl, fun rest _ => rfl⟩
  · rename_i hzero
    obtain ⟨happ, hdigits, -⟩ := spanDigits_split s
    simp only at h
    split at h
    · cases h
    · rename_i hne
      obtain ⟨rfl, rfl⟩ := Prod.mk.inj (Option.some.inj h)
      refine ⟨happ, fun rest hrest => ?_⟩
      obtain ⟨d, ds, hd⟩ := List.exists_cons_of_ne_nil hne
      have hspan := spanDigits_append hdigits hrest
      rw [hd] at hspan hdigits happ ⊢
      have hd0 : d ≠ '0' := by
        rintro rfl
        exact hzero _ happ
      unfold readWholePart
      split
      · rename_i he
        exact absurd (List.cons.inj he).1 hd0
      · simp only [hspan]
        rfl

theorem readFraction_append {s r : List Char} {f : Option (List Char)}
    (h : readFraction s = some (f, r)) :
    ∃ u, s = u ++ r ∧ (∀ c ∈ u.head?, c = '.') ∧
      ∀ rest, NotBefore isPlainPart rest → readFraction (u ++ rest) = some (f, rest) := by
  unfold readFraction at h
  split at h
  · rename_i s'
    obtain ⟨happ, hdigits, -⟩ := spanDigits_split s'
    simp only at h
    split at h
    · cases h
    · rename_i hne
      obtain ⟨rfl, rfl⟩ := Prod.mk.inj (Option.some.inj h)
      refine ⟨'.' :: (spanDigits s').1, congrArg (List.cons '.') happ, by simp, ?_⟩
      intro rest hrest
      have hspan := spanDigits_append hdigits (notBefore_imp (fun c hc => by simp [isPlainPart, hc]) hrest)
      rw [List.cons_append, readFraction]
      simp only [hspan, if_neg hne]
  · obtain ⟨rfl, rfl⟩ := Prod.mk.inj (Option.some.inj h)
    refine ⟨[], rfl, by simp, ?_⟩
    intro rest hrest
    rw [List.nil_append]
    unfold readFraction
    split
    · exact absurd (hrest '.' rfl) (by decide)
    · rfl

/-- an exponent after its sign -/
def readDigits (sign : Int) (s : List Char) : Option (Int × List Char) :=
  if (spanDigits s).1 = [] then none
  else some (sign * ofDigits (spanDigits s).1, (spanDigits s).2)

theorem readDigits_append {sign e : Int} {s r : List Char} (h : readDigits sign s = some (e, r)) :
    ∃ d ds, s = d :: ds ++ r ∧ isDigit d = true ∧
      ∀ rest, NotBefore isDigit rest → readDigits sign (d :: ds ++ rest) = some (e, rest) := by
  obtain ⟨happ, hdigits, -⟩ := spanDigits_split s
  unfold readDigits at h
  split at h
  · cases h
  · rename_i hne
    obtain ⟨rfl, rfl⟩ := Prod.mk.inj (Option.some.inj h)
    obtain ⟨d, ds, hd⟩ := List.exists_cons_of_ne_nil hne
    rw [hd] at happ hdigits hne ⊢
    refine ⟨d, ds, happ, hdigits d List.mem_cons_self, ?_⟩
    intro rest hrest
    have hspan := spanDigits_append hdigits hrest
    rw [readDigits, hspan, if_neg hne]

theorem readExponent_append {s r : List Char} {e : Int} (h : readExponent s = some (e, r)) :
    ∃ u, s = u ++ r ∧
      ∀ rest, NotBefore isDigit rest → readExponent (u ++ rest) = some (e, rest) := by
  have hsigns : ∀ d, isDigit d = true → d ≠ '+' ∧ d ≠ '-' := by
    intro d hd
    constructor <;> (rintro rfl; exact absurd hd (by decide))
  have hplain : ∀ d t, isDigit d = true → readExponent (d :: t) = readDigits 1 (d :: t) := by
    intro d t hd
    obtain ⟨h1, h2⟩ := hsigns d hd
    unfold readExponent
    split
    · rename_i he
      split at he
      · rename_i heq
        exact absurd (List.cons.inj heq).1 h1
      · rename_i heq
        exact absurd (List.cons.inj heq).1 h2
      · obtain ⟨rfl, rfl⟩ := Prod.mk.inj he
        rfl
  have hcases : (∃ t, s = '+' :: t ∧ readDigits 1 t = some (e, r)) ∨
      (∃ t, s = '-' :: t ∧ readDigits (-1) t = some (e, r)) ∨ readDigits 1 s = some (e, r) := by
    unfold readExponent at h
    split at h
    rename_i he
    split at he
    · obtain ⟨rfl, rfl⟩ := Prod.mk.inj he
      exact Or.inl ⟨_, rfl, h⟩
    · obtain ⟨rfl, rfl⟩ := Prod.mk.inj he
      exact Or.inr (Or.inl ⟨_, rfl, h⟩)
    · obtain ⟨rfl, rfl⟩ := Prod.mk.inj he
      exact Or.inr (Or.inr h)
  rcases hcases with ⟨t, rfl, ht⟩ | ⟨t, rfl, ht⟩ | ht
  · obtain ⟨d, ds, rfl, -, hread⟩ := readDigits_append ht
    exact ⟨'+' :: d :: ds, rfl, fun rest hrest => hread rest hrest⟩
  · obtain ⟨d, ds, rfl, -, hread⟩ := readDigits_append ht
    exact ⟨'-' :: d :: ds, rfl, fun rest hrest => hread rest hrest⟩
  · obtain ⟨d, ds, rfl, hd, hread⟩ := readDigits_append ht
    exact ⟨d :: ds, rfl, fun rest hrest => (hplain d _ hd).trans (hread rest hrest)⟩

/-- digits, a point and the mark of an exponent -/
def goesOn (c : Char) : Bool := isPlainPart c || c = 'e' || c = 'E'

theorem readMarkedExponent_append {s r : List Char} {e : Option Int}
    (h : readMarkedExponent s = some (e, r)) :
    ∃ u, s = u ++ r ∧ (∀ c ∈ u.head?, c = 'e' ∨ c = 'E') ∧
      ∀ rest, NotBefore goesOn rest → readMarkedExponent (u ++ rest) = some (e, rest) := by
  have hdigit : ∀ {rest}, NotBefore goesOn rest → NotBefore isDigit rest :=
    fun hrest => notBefore_imp (fun c hc => by simp [goesOn, isPlainPart, hc]) hrest
  unfold readMarkedExponent at h
  split at h
  · obtain ⟨⟨k, r'⟩, hk, he⟩ := Option.map_eq_some_iff.1 h
    obtain ⟨rfl, rfl⟩ := Prod.mk.inj he
    obtain ⟨u, rfl, hread⟩ := readExponent_append hk
    refine ⟨'e' :: u, rfl, by simp, ?_⟩
    intro rest hrest
    rw [List.cons_append, readMarkedExponent, hread rest (hdigit hrest)]
    rfl
  · obtain ⟨⟨k, r'⟩, hk, he⟩ := Option.map_eq_some_iff.1 h
    obtain ⟨rfl, rfl⟩ := Prod.mk.inj he
    obtain ⟨u, rfl, hread⟩ := readExponent_append hk
    refine ⟨'E' :: u, rfl, by simp, ?_⟩
    intro rest hrest
    rw [List.cons_append, readMarkedExponent, hread rest (hdigit hrest)]
    rfl
  · obtain ⟨rfl, rfl⟩ := Prod.mk.inj (Option.some.inj h)
    refine ⟨[], rfl, by simp, ?_⟩
    intro rest hrest
    rw [List.nil_append]
    unfold readMarkedExponent
    split
    · exact absurd (hrest 'e' rfl) (by decide)
    · exact absurd (hrest 'E' rfl) (by decide)
    · rfl

/-! ### Numerals -/

def readUnsigned (negative : Bool) (s : List Char) : Option (Scaled × List Char) := do
  let (ds, r1) ← readWholePart s
  let (fraction, r2) ← readFraction r1
  let (exponent, r3) ← readMarkedExponent r2
  let behind := fraction.getD []
  let (whole, above) := gather 0 ds
  let (significand, ignored) := gather whole behind
  pure (⟨negative, significand,
    exponent.getD 0 + above - (behind.length - ignored : Nat),
    fraction.isNone && exponent.isNone && above = 0⟩, r3)

theorem readStrict_minus (s : List Char) : readStrict ('-' :: s) = readUnsigned true s := rfl

theorem readStrict_plain {c : Char} (h : c ≠ '-') (s : List Char) :
    readStrict (c :: s) = readUnsigned false (c :: s) := by
  unfold readStrict
  split
  rename_i he
  split at he
  · rename_i heq
    exact absurd (List.cons.inj heq).1 h
  · obtain ⟨rfl, rfl⟩ := Prod.mk.inj he
    rfl

theorem readUnsigned_append {s r : List Char} {negative : Bool} {n : Scaled}
    (h : readUnsigned negative s = some (n, r)) :
    ∃ u, s = u ++ r ∧
      ∀ rest, NotBefore goesOn rest → readUnsigned negative (u ++ rest) = some (n, rest) := by
  simp only [readUnsigned, Option.bind_eq_bind, Option.bind_eq_some_iff] at h
  obtain ⟨⟨ds, r1⟩, h1, ⟨f, r2⟩, h2, ⟨e, r3⟩, h3, hn⟩ := h
  dsimp only at h2 h3 hn
  obtain ⟨hs, hread1⟩ := readWholePart_append h1
  obtain ⟨u2, hr1, hpoint, hread2⟩ := readFraction_append h2
  obtain ⟨u3, hr2, hmark, hread3⟩ := readMarkedExponent_append h3
  obtain ⟨hvalue, rfl⟩ := Prod.mk.inj (Option.some.inj hn)
  refine ⟨ds ++ (u2 ++ u3), by rw [hs, hr1, hr2]; simp, ?_⟩
  intro rest hrest
  -- what follows each part does not belong to it
  have hexponent : NotBefore isPlainPart (u3 ++ rest) := by
    refine notBefore_append ?_ (notBefore_imp (fun c hc => by simp [goesOn, hc]) hrest)
    intro c hc
    rcases hmark c hc with rfl | rfl <;> decide
  have hfraction : NotBefore isDigit (u2 ++ (u3 ++ rest)) := by
    refine notBefore_append ?_ (notBefore_imp (fun c hc => by simp [isPlainPart, hc]) hexponent)
    intro c hc
    rw [hpoint c hc]
    decide
  simp only [readUnsigned, List.append_assoc, hread1 _ hfraction, hread2 _ hexponent,
    hread3 _ hrest, Option.bind_eq_bind, Option.bind_some]
  exact congrArg (fun m => some (m, rest)) hvalue

/-- **Locality.**  What follows a numeral has no part in it. -/
theorem readStrict_append {s r : List Char} {n : Scaled} (h : readStrict s = some (n, r)) :
    ∃ u, s = u ++ r ∧
      ∀ rest, NotBefore goesOn rest → readStrict (u ++ rest) = some (n, rest) := by
  cases s with
  | nil => cases h
  | cons c s =>
    by_cases hc : c = '-'
    · subst c
      rw [readStrict_minus] at h
      obtain ⟨u, rfl, hread⟩ := readUnsigned_append h
      exact ⟨'-' :: u, rfl, fun rest hrest => (readStrict_minus _).trans (hread rest hrest)⟩
    · rw [readStrict_plain hc] at h
      obtain ⟨u, hs, hread⟩ := readUnsigned_append h
      refine ⟨u, hs, fun rest hrest => ?_⟩
      cases u with
      | nil =>
        -- nothing is no numeral
        have hnil := hread [] (fun c hc => by cases hc)
        cases hnil
      | cons d u =>
        obtain ⟨rfl, -⟩ := List.cons.inj hs
        exact (readStrict_plain hc _).trans (hread rest hrest)

/-! ### Whole numbers -/

theorem ofDigits_digitsOf (n : Nat) : ofDigits (digitsOf n) = n :=
  Nat.ofDigitChars_ten_toDigits

theorem le_ofDigitChars (ds : List Char) (k : Nat) : k ≤ Nat.ofDigitChars 10 ds k := by
  induction ds generalizing k with
  | nil => exact Nat.le_refl k
  | cons c ds ih =>
    rw [Nat.ofDigitChars_cons]
    have h := ih (10 * k + (c.toNat - '0'.toNat))
    omega

/-- as long as the number stays small all of its digits are gathered -/
theorem gather_eq {ds : List Char} {k : Nat} (h : Nat.ofDigitChars 10 ds k < twoTo 64) :
    gather k ds = (Nat.ofDigitChars 10 ds k, 0) := by
  induction ds generalizing k with
  | nil => rfl
  | cons c ds ih =>
    have hvalue : digitValue c = c.toNat - '0'.toNat := rfl
    rw [Nat.ofDigitChars_cons] at h ⊢
    have hle := le_ofDigitChars ds (10 * k + (c.toNat - '0'.toNat))
    rw [gather, hvalue, if_pos (Nat.lt_of_le_of_lt hle h), ih h]

theorem head?_digitsOf {n : Nat} (h : 0 < n) : (digitsOf n).head? ≠ some '0' := by
  have hdigit : ∀ d < 10, 0 < d → Nat.digitChar d ≠ '0' := by decide
  induction n using Nat.strong_induction_on with
  | _ n ih =>
    unfold digitsOf at ih ⊢
    by_cases hn : n < 10
    · rw [Nat.toDigits_of_lt_base hn]
      intro he
      exact hdigit n hn h (Option.some.inj he)
    · rw [Nat.toDigits_of_base_le (by decide) (by omega)]
      have hrest := ih (n / 10) (by omega) (by omega)
      rwa [List.head?_append_of_ne_nil _ Nat.toDigits_ne_nil]

theorem readWholePart_digitsOf (n : Nat) {rest : List Char} (hrest : NotBefore isDigit rest) :
    readWholePart (digitsOf n ++ rest) = some (digitsOf n, rest) := by
  by_cases hn : n = 0
  · subst n
    rfl
  · have hspan := spanDigits_append (isDigit_digitsOf n) hrest
    have hhead := head?_digitsOf (Nat.pos_of_ne_zero hn)
    obtain ⟨d, ds, hd⟩ := List.exists_cons_of_ne_nil (digitsOf_ne_nil n)
    rw [hd] at hspan hhead ⊢
    unfold readWholePart
    split
    · rename_i he
      exact absurd (congrArg some (List.cons.inj he).1) hhead
    · simp only [hspan]
      rfl

theorem readUnsigned_digitsOf {n : Nat} (h : n < twoTo 64) (negative : Bool) {rest : List Char}
    (hrest : NotBefore goesOn rest) :
    readUnsigned negative (digitsOf n ++ rest) = some (⟨negative, n, 0, true⟩, rest) := by
  have hplain : NotBefore isPlainPart rest := notBefore_imp (fun c hc => by simp [goesOn, hc]) hrest
  have hdigit : NotBefore isDigit rest := notBefore_imp (fun c hc => by simp [isPlainPart, hc]) hplain
  have hfraction : readFraction rest = some (none, rest) := by
    unfold readFraction
    split
    · exact absurd (hplain '.' rfl) (by decide)
    · rfl
  have hexponent : readMarkedExponent rest = some (none, rest) := by
    unfold readMarkedExponent
    split
    · exact absurd (hrest 'e' rfl) (by decide)
    · exact absurd (hrest 'E' rfl) (by decide)
    · rfl
  have hgather : gather 0 (digitsOf n) = (n, 0) := by
    have hn : Nat.ofDigitChars 10 (digitsOf n) 0 = n := ofDigits_digitsOf n
    rw [gather_eq (by rwa [hn]), hn]
  simp only [readUnsigned, readWholePart_digitsOf n hdigit, hfraction, hexponent,
    Option.bind_eq_bind, Option.bind_some, hgather]
  rfl

end EffectFusion.Number
