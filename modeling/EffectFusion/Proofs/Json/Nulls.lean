import EffectFusion.Json.Codec
import EffectFusion.Proofs.Json.Tokens
import EffectFusion.Proofs.Number.Order

/-!
# Texts without `null`

A number that is not finite is written as `null`.  Whether a text holds one is asked of its tokens,
so a string with these four letters in it does not count.  A list is free of it when its items are,
a record when its values are, and a number when it is finite; so what the text of a value is free of
is decided at its leaves.

* `nullFree_real`                      numbers;
* `nullFree_list`, `nullFree_fields`   lists and records;
* `nullFree_keyed`                     maps.
-/

namespace EffectFusion.Json

open Number Script

/-- the text holds no `null` outside of its strings -/
def NullFree (v : Json) : Prop := Token.name "null" ∉ lex v.render.toList

theorem nullFree_iff (v : Json) : NullFree v ↔ Token.name "null" ∉ tokens v := by
  rw [NullFree, lex_render]

/-! ### Leaves -/

theorem ofFloat?_eq_none_iff {x : Float} : Binary.ofFloat? x = none ↔ ¬ x.isFinite = true := by
  rw [isFinite_iff, not_not]
  unfold Binary.ofFloat?
  simp only
  split
  · rename_i h
    exact iff_of_true rfl h
  · rename_i h
    split <;> exact iff_of_false nofun h

/-- a finite number is written with a digit or a sign in front -/
theorem realText_eq_null_iff {x : Float} :
    realText x = ['n', 'u', 'l', 'l'] ↔ ¬ x.isFinite = true := by
  rw [← ofFloat?_eq_none_iff]
  unfold realText
  split
  · rename_i b hb
    rw [hb]
    refine iff_of_false (fun h => ?_) nofun
    obtain ⟨u, ⟨d, v, rfl, hd, -⟩, hu⟩ := precise_cases b
    rw [hu] at h
    cases hsign : b.negative with
    | true =>
      rw [hsign] at h
      exact absurd (List.cons.inj h).1 (by decide)
    | false =>
      rw [hsign] at h
      have hhead : d = 'n' := (List.cons.inj h).1
      rw [hhead] at hd
      exact absurd hd (by decide)
  · rename_i hb
    exact iff_of_true rfl hb

theorem null_not_mem_numeral (u : List Char) : Token.name "null" ∉ numeralTokens u := by
  unfold numeralTokens
  split <;> simp [Token.name, Token.mark]

theorem nullFree_real (x : Float) : NullFree (.real x) ↔ x.isFinite = true := by
  rw [nullFree_iff, tokens]
  split
  · rename_i h
    exact iff_of_false (fun hnot => hnot List.mem_cons_self) (realText_eq_null_iff.1 h)
  · rename_i h
    rw [realText_eq_null_iff, not_not] at h
    exact iff_of_true (null_not_mem_numeral _) h

theorem nullFree_whole (n : Int) : NullFree (.whole n) := by
  rw [nullFree_iff, tokens]
  exact null_not_mem_numeral _

theorem nullFree_bool (b : Bool) : NullFree (.bool b) := by
  rw [nullFree_iff]
  cases b <;> decide

theorem null_ne_string (s : String) : Token.name "null" ≠ stringToken s := by
  intro h
  cases congrArg Token.kind h

theorem nullFree_text (s : String) : NullFree (.text s) := by
  rw [nullFree_iff, tokens, List.mem_singleton]
  exact null_ne_string s

/-! ### Lists and records -/

theorem null_mem_itemTokens (vs : List Json) :
    Token.name "null" ∈ itemTokens vs ↔ ∃ v ∈ vs, Token.name "null" ∈ tokens v := by
  have hcomma : Token.name "null" ≠ .mark "," := by decide
  induction vs with
  | nil => simp [itemTokens]
  | cons v vs ih =>
    cases vs with
    | nil => simp [itemTokens]
    | cons w rest =>
      rw [itemTokens, List.mem_append, List.mem_cons, List.exists_mem_cons_iff _ v]
      simp only [ih, hcomma, false_or]

theorem null_mem_fieldTokens (fs : List (Option String × Json)) :
    Token.name "null" ∈ fieldTokens fs ↔ ∃ f ∈ fs, Token.name "null" ∈ tokens f.2 := by
  have hcolon : Token.name "null" ≠ .mark ":" := by decide
  have hcomma : Token.name "null" ≠ .mark "," := by decide
  have hkey : ∀ k, Token.name "null" ≠ keyToken k := by
    intro k
    obtain ⟨s, hs⟩ := keyToken_eq k
    rw [hs]
    exact null_ne_string s
  induction fs with
  | nil => simp [fieldTokens]
  | cons e fs ih =>
    obtain ⟨k, v⟩ := e
    cases fs with
    | nil => simp [fieldTokens, hcolon, hkey]
    | cons f rest =>
      rw [fieldTokens, List.mem_append, List.mem_cons, List.mem_cons, List.mem_cons,
        List.exists_mem_cons_iff _ (k, v)]
      simp only [ih, hcolon, hcomma, hkey, false_or]

theorem nullFree_list (vs : List Json) : NullFree (.list vs) ↔ ∀ v ∈ vs, NullFree v := by
  have hmarks : Token.name "null" ≠ .mark "[" ∧ Token.name "null" ≠ .mark "]" := by decide
  simp only [nullFree_iff, tokens, List.mem_append, List.mem_cons, List.not_mem_nil, hmarks.1,
    hmarks.2, false_or, or_false, null_mem_itemTokens, not_exists, not_and]

theorem nullFree_fields (fs : List (String × Json)) :
    NullFree (fields fs) ↔ ∀ f ∈ fs, NullFree f.2 := by
  have hmarks : Token.name "null" ≠ .mark "\x7b" ∧ Token.name "null" ≠ .mark "\x7d" := by decide
  simp only [nullFree_iff, fields, tokens, List.mem_append, List.mem_cons, List.not_mem_nil,
    hmarks.1, hmarks.2, false_or, or_false, null_mem_fieldTokens, List.mem_map, not_exists, not_and]
  constructor
  · exact fun h f hf => h _ ⟨f, hf, rfl⟩
  · rintro h _ ⟨f, hf, rfl⟩
    exact h f hf

/-! ### Values -/

section

variable {α : Type}

theorem nullFree_tag [Tag α] (t : α) : NullFree (toJson t) := nullFree_text _

theorem nullFree_tagSet [Tag α] (s : TagSet α) : NullFree (toJson s) := by
  refine (nullFree_list _).2 fun v hv => ?_
  obtain ⟨t, -, rfl⟩ := List.mem_map.1 hv
  exact nullFree_tag t

theorem nullFree_keyed [Written α] (m : Keyed α) :
    NullFree (toJson m) ↔ ∀ e ∈ m.entries, NullFree (toJson e.2) := by
  refine (nullFree_fields _).trans ⟨fun h e he => ?_, fun h f hf => ?_⟩
  · exact h (e.1, toJson e.2) (List.mem_map.2 ⟨e, he, rfl⟩)
  · obtain ⟨e, he, rfl⟩ := List.mem_map.1 hf
    exact h e he

end

end EffectFusion.Json
