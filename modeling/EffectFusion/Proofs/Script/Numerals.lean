import EffectFusion.Number.Notation
import EffectFusion.Json.Value
import EffectFusion.Proofs.Script.Gluing

/-!
# Numbers in scripts

The text of a number that is no negative number is one token of a script; a minus sign before it
is another one.

* `realText_cases`   a real number of data is such a text, with a sign or none, or `null`;
* `plain_cases`      a number of a script is one, or the name of what is not finite.
-/

namespace EffectFusion.Script

open Text Number

/-! ### Texts of numbers -/

/-- the text is a number as a whole, digit first -/
def NumberText (s : List Char) : Prop :=
  ∃ c u, s = c :: u ∧ isDigit c = true ∧ spanNumber c u = (u, [])

theorem stands_number {s : List Char} (h : NumberText s) : Stands ⟨.number, s⟩ [] := by
  obtain ⟨c, u, rfl, hc, hu⟩ := h
  have hkind : ∀ c, isDigit c = true → isBlank c = false ∧ isQuote c = false ∧ c ≠ '/' := by
    intro c hc
    refine ⟨?_, ?_, ?_⟩
    · by_contra hb
      have hall : ∀ c ∈ blanks, isDigit c = false := by decide
      rw [hall c (mem_blanks (by simpa using hb))] at hc
      cases hc
    · by_contra hq
      have hq : isQuote c = true := by simpa using hq
      simp only [isQuote, Bool.or_eq_true, decide_eq_true_eq] at hq
      rcases hq with (rfl | rfl) | rfl <;> exact absurd hc (by decide)
    · rintro rfl
      exact absurd hc (by decide)
  obtain ⟨h1, h2, h3⟩ := hkind c hc
  refine (stands_iff .number c u []).2 ⟨?_, ?_⟩
  · simp [kindAt, h1, h2, h3, hc]
  · rw [List.append_nil]
    exact hu

/-- digits and points belong to any number -/
def isPlainPart (c : Char) : Bool := isDigit c || c = '.'

theorem spanNumber_of_plain {u : List Char} (h : ∀ c ∈ u, isPlainPart c = true) (before : Char) :
    spanNumber before u = (u, []) := by
  induction u generalizing before with
  | nil => rfl
  | cons c u ih =>
    have hc : isNumberPart before c = true := by
      have hp := h c List.mem_cons_self
      simp only [isPlainPart, Bool.or_eq_true, decide_eq_true_eq] at hp
      rcases hp with hp | rfl
      · simp [isNumberPart, isAlnum, hp]
      · simp [isNumberPart]
    rw [spanNumber, if_pos hc, ih (fun d hd => h d (List.mem_cons_of_mem c hd))]

theorem spanNumber_append_of_span {before : Char} {u v : List Char}
    (hu : spanNumber before u = (u, [])) (hv : spanNumber (lastOf before u) v = (v, [])) :
    spanNumber before (u ++ v) = (u ++ v, []) := by
  induction u generalizing before with
  | nil => exact hv
  | cons c u ih =>
    rw [spanNumber] at hu
    split at hu
    · rename_i hc
      rw [lastOf_cons] at hv
      have hu : spanNumber c u = (u, []) := by simpa [Prod.ext_iff] using hu
      rw [List.cons_append, spanNumber, if_pos hc, ih hu hv]
    · cases hu

theorem numberText_of_plain {s : List Char} (h : ∀ c ∈ s, isPlainPart c = true)
    (hd : ∃ c ∈ s.head?, isDigit c = true) : NumberText s := by
  obtain ⟨c, hc, hd⟩ := hd
  obtain ⟨u, rfl⟩ := List.head?_eq_some_iff.1 hc
  exact ⟨c, u, rfl, hd, spanNumber_of_plain (fun d hm => h d (List.mem_cons_of_mem c hm)) c⟩

/-! ### Digits -/

theorem isDigit_digitsOf (n : Nat) : ∀ c ∈ digitsOf n, isDigit c = true := by
  intro c hc
  have hdigit : c.isDigit = true := Nat.isDigit_of_mem_toDigits (by decide) (by decide) hc
  simp only [Char.isDigit, Bool.and_eq_true, decide_eq_true_eq] at hdigit
  simp only [isDigit, Bool.and_eq_true, decide_eq_true_eq]
  exact hdigit

theorem digitsOf_ne_nil (n : Nat) : digitsOf n ≠ [] := Nat.toDigits_ne_nil

theorem numberText_digits {ds : List Char} (h : ∀ c ∈ ds, isDigit c = true) (hne : ds ≠ []) :
    NumberText ds := by
  refine numberText_of_plain (fun c hc => by simp [isPlainPart, h c hc]) ?_
  obtain ⟨d, ds, rfl⟩ := List.exists_cons_of_ne_nil hne
  exact ⟨d, rfl, h d List.mem_cons_self⟩

/-! ### The notations -/

theorem isPlainPart_zeros (k : Nat) : ∀ c ∈ zeros k, isPlainPart c = true := by
  intro c hc
  rw [(List.mem_replicate.1 hc).2]
  decide

theorem numberText_positional {ds tail : List Char} (h : ∀ c ∈ ds, isDigit c = true)
    (hne : ds ≠ []) (htail : ∀ c ∈ tail, isPlainPart c = true) (place : Int) :
    NumberText (positional ds place tail) := by
  have hds : ∀ c ∈ ds, isPlainPart c = true := fun c hc => by simp [isPlainPart, h c hc]
  obtain ⟨d, ds, rfl⟩ := List.exists_cons_of_ne_nil hne
  have hd := h d List.mem_cons_self
  unfold positional
  split
  · refine numberText_of_plain (fun c hc => ?_) ⟨'0', rfl, by decide⟩
    rcases List.mem_append.1 hc with hc | hc
    · rcases List.mem_append.1 hc with hc | hc
      · have hzero : ∀ c ∈ ['0', '.'], isPlainPart c = true := by decide
        exact hzero c hc
      · exact isPlainPart_zeros _ c hc
    · exact hds c hc
  · rename_i hplace
    simp only
    split
    · refine numberText_of_plain (fun c hc => ?_) ⟨d, rfl, hd⟩
      rcases List.mem_append.1 hc with hc | hc
      · rcases List.mem_append.1 hc with hc | hc
        · exact hds c hc
        · exact isPlainPart_zeros _ c hc
      · exact htail c hc
    · obtain ⟨p, hp⟩ : ∃ p, place.toNat = p + 1 := ⟨place.toNat - 1, by omega⟩
      rw [hp]
      refine numberText_of_plain (fun c hc => ?_) ⟨d, rfl, hd⟩
      rcases List.mem_append.1 hc with hc | hc
      · rcases List.mem_append.1 hc with hc | hc
        · exact hds c (List.mem_of_mem_take hc)
        · rw [List.mem_singleton.1 hc]
          decide
      · exact hds c (List.mem_of_mem_drop hc)

theorem numberText_scientific {ds : List Char} (h : ∀ c ∈ ds, isDigit c = true)
    (hne : ds ≠ []) (place : Int) : NumberText (scientific ds place) := by
  obtain ⟨d, ds, rfl⟩ := List.exists_cons_of_ne_nil hne
  have hd := h d List.mem_cons_self
  have hrest : ∀ c ∈ ds, isPlainPart c = true :=
    fun c hc => by simp [isPlainPart, h c (List.mem_cons_of_mem d hc)]
  -- the mantissa, the mark of the exponent with its sign, and the digits of the exponent
  obtain ⟨u, hu, hplain⟩ : ∃ u, scientific (d :: ds) place =
      d :: (u ++ ['e', if place - 1 < 0 then '-' else '+'] ++ digitsOf (place - 1).natAbs) ∧
        ∀ c ∈ u, isPlainPart c = true := by
    cases ds with
    | nil => exact ⟨[], rfl, fun c hc => by cases hc⟩
    | cons e ds =>
      refine ⟨'.' :: e :: ds, rfl, fun c hc => ?_⟩
      rcases List.mem_cons.1 hc with rfl | hc
      · decide
      · exact hrest c hc
  obtain ⟨sign, hs, hsign⟩ : ∃ sign, (if place - 1 < 0 then '-' else '+') = sign ∧
      (sign = '-' ∨ sign = '+') := by
    split
    · exact ⟨_, rfl, Or.inl rfl⟩
    · exact ⟨_, rfl, Or.inr rfl⟩
  rw [hs] at hu
  rw [hu]
  refine ⟨d, _, rfl, hd, ?_⟩
  have hmark : spanNumber (lastOf d u) ['e', sign] = (['e', sign], []) := by
    have he : ∀ b, isNumberPart b 'e' = true := fun b => by simp [isNumberPart, isAlnum]
    have hsign : isNumberPart 'e' sign = true := by rcases hsign with rfl | rfl <;> decide
    simp [spanNumber, he, hsign]
  have hdigits : ∀ c ∈ digitsOf (place - 1).natAbs, isPlainPart c = true :=
    fun c hc => by simp [isPlainPart, isDigit_digitsOf _ c hc]
  exact spanNumber_append_of_span
    (spanNumber_append_of_span (spanNumber_of_plain hplain d) hmark) (spanNumber_of_plain hdigits _)

theorem precise_cases (b : Binary) : ∃ u, NumberText u ∧ (precise b).toList = signed b.negative u := by
  have hdigits := isDigit_digitsOf (shortest .toEven b).significand
  have hne := digitsOf_ne_nil (shortest .toEven b).significand
  have htail : ∀ c ∈ ['.', '0'], isPlainPart c = true := by decide
  have hall : ∀ place : Int, NumberText
      (if -5 < place ∧ place ≤ 16 then
        positional (digitsOf (shortest .toEven b).significand) place ['.', '0']
      else scientific (digitsOf (shortest .toEven b).significand) place) := by
    intro place
    split
    · exact numberText_positional hdigits hne htail place
    · exact numberText_scientific hdigits hne place
  unfold precise
  simp only [String.toList_ofList]
  exact ⟨_, hall _, rfl⟩

theorem realText_cases (x : Float) :
    Json.realText x = ['n', 'u', 'l', 'l'] ∨
      ∃ b u, NumberText u ∧ Json.realText x = signed b u := by
  unfold Json.realText
  split
  · rename_i b _
    obtain ⟨u, hu, he⟩ := precise_cases b
    exact Or.inr ⟨b.negative, u, hu, he⟩
  · exact Or.inl rfl

theorem wholeText_cases (n : Int) : ∃ b u, NumberText u ∧ Json.wholeText n = signed b u := by
  have h := numberText_digits (isDigit_digitsOf n.natAbs) (digitsOf_ne_nil _)
  unfold Json.wholeText
  split
  · exact ⟨true, _, h, rfl⟩
  · exact ⟨false, _, h, rfl⟩

theorem plain_cases (x : Float) :
    (plain x).toList ∈ [['N', 'a', 'N'], ['-', 'i', 'n', 'f'], ['i', 'n', 'f']] ∨
      ∃ b u, NumberText u ∧ (plain x).toList = signed b u := by
  unfold plain
  split
  · left
    unfold unbounded
    split
    · decide
    · split <;> decide
  · rename_i b _
    right
    simp only [String.toList_ofList]
    exact ⟨b.negative, _, numberText_positional (isDigit_digitsOf _) (digitsOf_ne_nil _)
      (fun c hc => by cases hc) _, rfl⟩

end EffectFusion.Script
