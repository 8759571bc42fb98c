import EffectFusion.Proofs.Json.Codecs
import EffectFusion.Proofs.Json.Tokens
import EffectFusion.Proofs.Script.Members

/-!
# Structured data in compressed scripts

Compression changes no token of structured data but the words for truth values, and it leaves no
white space between them.  With those words put back the tokens are the text of the value again.

* `joined_written`    no white space is kept;
* `restored_tokens`   the tokens of a value;
* `decoded_tokens`    the value.
-/

namespace EffectFusion.Json

open Script

/-! ### Tokens of data -/

theorem occurs_name {s : String} (h : Occurs (.name s)) : s ∈ ["null", "true", "false"] := by
  rcases h with h | ⟨m, -, hm⟩
  · generalize ht : Token.name s = t at h
    cases h with
    | text u => cases congrArg Token.kind ht
    | number hu => cases congrArg Token.kind ht
    | word hw => rwa [String.toList_inj.1 (congrArg Token.text ht)]
  · cases congrArg Token.kind hm

theorem occurs_mark_inv {s : String} (h : Occurs (.mark s)) : s ∈ valueMarks := by
  rcases h with h | ⟨m, hm, he⟩
  · generalize ht : Token.mark s = t at h
    cases h with
    | text u => cases congrArg Token.kind ht
    | number hu => cases congrArg Token.kind ht
    | word hw => cases congrArg Token.kind ht
  · rwa [String.toList_inj.1 (congrArg Token.text he)]

theorem not_semicolon {t : Token} (h : Occurs t) : t.isMark ";" = false := by
  by_contra hmark
  have hmark : t = .mark ";" := (Token.isMark_iff t ";").1 (by simpa using hmark)
  rw [hmark] at h
  exact absurd (occurs_mark_inv h) (by decide)

/-- the only words that are replaced in data are those of truth values -/
theorem written_occurs {t : Token} (h : Occurs t) :
    (∃ b, t = truthWord b) ∨ written t = [t] ∧ t ≠ .mark "!" := by
  rcases written_cases t with ⟨b, hb, -⟩ | hw
  · exact Or.inl ⟨b, hb⟩
  · refine Or.inr ⟨?_, ?_⟩
    · rcases renamed_cases t with hr | ⟨a, ha, rfl, -⟩
      · rw [hw, hr]
      · have hlong : ∀ a ∈ abbreviations, a.1 ∉ ["null", "true", "false"] := by decide
        exact absurd (occurs_name h) (hlong a ha)
    · rintro rfl
      exact absurd (occurs_mark_inv h) (by decide)

/-- the tokens of a value with the words for truth values put back -/
theorem restored_tokens (v : Json) : restored ((tokens v).flatMap written) = tokens v :=
  restored_written (fun t ht => written_occurs (occurs_tokens v t ht))

theorem mem_written {t u : Token} (h : Occurs t) (hu : u ∈ written t) :
    u.isMark ";" = false ∧ ∀ m, m ≠ "null" → u ≠ .name m := by
  have hmarks : ∀ b, ∀ u ∈ truthMarks b, u.isMark ";" = false ∧ u.kind ≠ .word := by decide
  by_cases htruth : ∃ b, t = truthWord b
  · obtain ⟨b, rfl⟩ := htruth
    rw [written_truthWord] at hu
    obtain ⟨hsemicolon, hkind⟩ := hmarks b u hu
    refine ⟨hsemicolon, fun m _ he => hkind ?_⟩
    rw [he]
    rfl
  · have hsame := ((written_occurs h).resolve_left htruth).1
    rw [hsame] at hu
    obtain rfl := List.mem_singleton.1 hu
    refine ⟨not_semicolon h, ?_⟩
    rintro m hm rfl
    have hword := occurs_name h
    simp only [List.mem_cons, List.not_mem_nil, or_false] at hword
    rcases hword with rfl | rfl | rfl
    · exact hm rfl
    · exact htruth ⟨true, rfl⟩
    · exact htruth ⟨false, rfl⟩

/-! ### White space -/

section

variable {t u : Token} {ts : List Token}

/-- between what is written for two tokens of data no white space is kept -/
theorem not_kept_written (h : Solid t u) (ht : (∃ b, t = truthWord b) ∨ written t = [t])
    (hu : (∃ b, u = truthWord b) ∨ written u = [u]) {x y : Token}
    (hx : (written t).getLast? = some x) (hy : (written u).head? = some y) : ¬ Kept x y := by
  have hbefore : ∀ s ∈ truthPreceders, ¬ Kept (.mark s) (.mark "!") := by decide +kernel
  have hafter : ∀ b, ∀ s ∈ truthFollowers, ¬ Kept (truthDigit b) (.mark s) := by decide +kernel
  have hmark : ∀ s ∈ truthFollowers, written (.mark s) = [.mark s] := by decide
  rcases ht with ⟨b, rfl⟩ | ht
  · obtain ⟨s, hs, rfl⟩ := mem_of_isMarkOf (h.orderly.afterTruth (isTruthWord_truthWord b))
    rw [written_truthWord] at hx
    rw [hmark s hs] at hy
    obtain rfl : truthDigit b = x := Option.some.inj hx
    obtain rfl : Token.mark s = y := Option.some.inj hy
    exact hafter b s hs
  rw [ht] at hx
  obtain rfl : t = x := Option.some.inj hx
  rcases hu with ⟨b, rfl⟩ | hu
  · obtain ⟨s, hs, rfl⟩ := mem_of_isMarkOf (h.orderly.truth (isTruthWord_truthWord b))
    rw [written_truthWord] at hy
    obtain rfl : Token.mark "!" = y := Option.some.inj hy
    exact hbefore s hs
  · rw [hu] at hy
    obtain rfl : u = y := Option.some.inj hy
    rintro (hparts | hglue)
    · rw [h.joined] at hparts
      cases hparts
    · rw [h.glued] at hglue
      cases hglue

theorem joined_written (h : ts.IsChain Solid)
    (hwords : ∀ t ∈ ts, (∃ b, t = truthWord b) ∨ written t = [t]) :
    (ts.flatMap written).IsChain (fun a b => ¬ Kept a b) := by
  have hwithin : ∀ b, ¬ Kept (.mark "!") (truthDigit b) := by decide +kernel
  induction ts with
  | nil => exact List.IsChain.nil
  | cons t ts ih =>
    have hone : (written t).IsChain (fun a b => ¬ Kept a b) := by
      rcases hwords t List.mem_cons_self with ⟨b, rfl⟩ | hw
      · rw [written_truthWord]
        exact List.isChain_pair.2 (hwithin b)
      · rw [hw]
        exact List.isChain_singleton t
    rw [List.flatMap_cons]
    refine hone.append (ih h.tail (fun u hu => hwords u (List.mem_cons_of_mem t hu))) ?_
    intro x hx y hy
    cases ts with
    | nil => cases hy
    | cons u us =>
      have hu := hwords u (by simp)
      have hne : written u ≠ [] := by
        rcases hu with ⟨b, rfl⟩ | hw
        · rw [written_truthWord]
          exact List.cons_ne_nil _ _
        · rw [hw]
          exact List.cons_ne_nil _ _
      rw [List.flatMap_cons, List.head?_append_of_ne_nil _ hne] at hy
      exact not_kept_written (List.isChain_cons_cons.1 h).1 (hwords t List.mem_cons_self) hu hx hy

end

/-! ### Values -/

/-- the value of compressed tokens, `!0` and `!1` read as truth values -/
def decoded {α : Type} [Readable α] (ts : List Token) : Option α :=
  (read? (String.ofList (Script.render (restored ts)))).bind ofJson?

/-- **The value comes back.** -/
theorem decoded_tokens {α : Type} [Written α] [Readable α] {a : α} (h : Travels a) :
    decoded ((tokens (toJson a)).flatMap written) = some a := by
  rw [decoded, restored_tokens, render_tokens]
  exact h.text

end EffectFusion.Json
