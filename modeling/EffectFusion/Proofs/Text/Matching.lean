import EffectFusion.Text.Pattern
import Mathlib

/-!
# What a pattern matches

`Spans` says without a search when a pattern matches a stretch of text between what stands on its
left and on its right, and `occurs` finds a pattern exactly when some stretch is matched.  Only word
edges look at the surroundings, and of them at no more than whether a word character is next.  A
line break is none and neither is the end of a text, so a pattern that occurs in a text occurs in
every text with these lines in it.

* `matchesAt_iff`    the search with a continuation;
* `occurs_iff`       what it finds;
* `Spans.of_sides`   surroundings that change nothing;
* `occurs_between`   more lines above and below.
-/

namespace EffectFusion.Text.Pattern

/-- the pattern matches `used` where `left` stands before it and `right` behind it -/
def Spans : Pattern → List Char → List Char → List Char → Prop
  | .never, _, _, _ => False
  | .each classes, _, used, _ => List.Forall₂ (fun p c => p c = true) classes used
  | .run member least most, _, used, _ =>
    (∀ c ∈ used, member c = true) ∧ least ≤ used.length ∧ ∀ n ∈ most, used.length ≤ n
  | .edge, left, used, right =>
    used = [] ∧ isWordSide left.getLast? ≠ isWordSide right.head?
  | .both p q, left, used, right =>
    ∃ u v, used = u ++ v ∧ p.Spans left u (v ++ right) ∧ q.Spans (left ++ u) v right
  | .either p q, left, used, right => p.Spans left used right ∨ q.Spans left used right

/-! ### The search -/

theorem stripEach?_eq_some_iff {classes : List (Char → Bool)} {left text rest : List Char}
    {after : Option Char} :
    stripEach? classes left.getLast? text = some (after, rest) ↔
      ∃ used, text = used ++ rest ∧ List.Forall₂ (fun p c => p c = true) classes used ∧
        after = (left ++ used).getLast? := by
  induction classes generalizing left text with
  | nil =>
    rw [stripEach?, Option.some_inj, Prod.mk.injEq]
    constructor
    · rintro ⟨rfl, rfl⟩
      exact ⟨[], rfl, .nil, by rw [List.append_nil]⟩
    · rintro ⟨used, rfl, hused, rfl⟩
      cases hused
      exact ⟨by rw [List.append_nil], rfl⟩
  | cons p classes ih =>
    cases text with
    | nil =>
      rw [stripEach?]
      refine iff_of_false nofun ?_
      rintro ⟨used, htext, hused, -⟩
      cases hused
      cases htext
    | cons c text =>
      have hlast : some c = (left ++ [c]).getLast? := by rw [List.getLast?_concat]
      rw [stripEach?]
      split
      · rename_i hc
        rw [hlast, ih]
        constructor
        · rintro ⟨used, rfl, hused, rfl⟩
          exact ⟨c :: used, rfl, .cons hc hused, by rw [List.append_assoc]; rfl⟩
        · rintro ⟨used, htext, hused, rfl⟩
          cases hused with
          | cons hd hused =>
            obtain ⟨rfl, rfl⟩ := List.cons.inj htext
            exact ⟨_, rfl, hused, by rw [List.append_assoc]; rfl⟩
      · rename_i hc
        refine iff_of_false nofun ?_
        rintro ⟨used, htext, hused, -⟩
        cases hused with
        | cons hd hused => exact hc ((List.cons.inj htext).1 ▸ hd)

theorem runAt_iff {member : Char → Bool} {least : Nat} {most : Option Nat} {left text : List Char}
    {k : Option Char → List Char → Bool} :
    runAt member least most left.getLast? text k = true ↔
      ∃ used rest, text = used ++ rest ∧ (Pattern.run member least most).Spans left used rest ∧
        k (left ++ used).getLast? rest = true := by
  induction text generalizing least most left with
  | nil =>
    simp only [runAt, Spans, Bool.and_eq_true, decide_eq_true_eq]
    constructor
    · rintro ⟨rfl, hk⟩
      exact ⟨[], [], rfl, ⟨by simp, le_refl 0, by simp⟩, by rwa [List.append_nil]⟩
    · rintro ⟨used, rest, htext, ⟨-, hleast, -⟩, hk⟩
      obtain ⟨rfl, rfl⟩ := List.append_eq_nil_iff.1 htext.symm
      exact ⟨Nat.le_zero.1 hleast, by rwa [List.append_nil] at hk⟩
  | cons c text ih =>
    have hlast : some c = (left ++ [c]).getLast? := by rw [List.getLast?_concat]
    rw [runAt, Bool.or_eq_true, Bool.and_eq_true, Bool.and_eq_true, Bool.and_eq_true,
      decide_eq_true_eq, decide_eq_true_eq, hlast, ih]
    constructor
    · rintro (⟨rfl, hk⟩ | ⟨⟨hmost, hc⟩, used, rest, rfl, ⟨hall, hleast, hlimit⟩, hk⟩)
      · exact ⟨[], c :: text, rfl, ⟨by simp, le_refl 0, by simp⟩, by rwa [List.append_nil]⟩
      · refine ⟨c :: used, rest, rfl, ⟨?_, ?_, ?_⟩, by rwa [List.append_assoc] at hk⟩
        · exact List.forall_mem_cons.2 ⟨hc, hall⟩
        · rw [List.length_cons]
          omega
        · intro n hn
          have hne : n ≠ 0 := fun h => hmost (h ▸ hn)
          have hle := hlimit (n - 1) (Option.mem_map_of_mem (· - 1) hn)
          rw [List.length_cons]
          omega
    · rintro ⟨used, rest, htext, ⟨hall, hleast, hlimit⟩, hk⟩
      cases used with
      | nil =>
        obtain rfl : c :: text = rest := htext
        exact Or.inl ⟨Nat.le_zero.1 hleast, by rwa [List.append_nil] at hk⟩
      | cons d used =>
        obtain ⟨rfl, rfl⟩ := List.cons.inj htext
        obtain ⟨hc, hall⟩ := List.forall_mem_cons.1 hall
        rw [List.length_cons] at hleast
        refine Or.inr ⟨⟨?_, hc⟩, used, rest, rfl, ⟨hall, by omega, ?_⟩, by rwa [List.append_assoc]⟩
        · rintro rfl
          exact absurd (hlimit 0 rfl) (by simp)
        · intro n hn
          obtain ⟨m, hm, rfl⟩ := Option.mem_map.1 hn
          have hle := hlimit m hm
          rw [List.length_cons] at hle
          omega

theorem matchesAt_each_iff {classes : List (Char → Bool)} {left text : List Char}
    {k : Option Char → List Char → Bool} :
    (Pattern.each classes).matchesAt left.getLast? text k = true ↔
      ∃ used rest, text = used ++ rest ∧ (Pattern.each classes).Spans left used rest ∧
        k (left ++ used).getLast? rest = true := by
  rw [matchesAt]
  split
  · rename_i after rest hstrip
    constructor
    · intro hk
      obtain ⟨used, rfl, hused, rfl⟩ := stripEach?_eq_some_iff.1 hstrip
      exact ⟨used, rest, rfl, hused, hk⟩
    · rintro ⟨used, rest', htext, hused, hk⟩
      rw [stripEach?_eq_some_iff.2 ⟨used, htext, hused, rfl⟩] at hstrip
      obtain ⟨rfl, rfl⟩ := Prod.mk.inj (Option.some.inj hstrip)
      exact hk
  · rename_i hstrip
    refine iff_of_false Bool.false_ne_true ?_
    rintro ⟨used, rest, htext, hused, -⟩
    rw [stripEach?_eq_some_iff.2 ⟨used, htext, hused, rfl⟩] at hstrip
    cases hstrip

/-- the search accepts when it can match a stretch whose rest the continuation accepts -/
theorem matchesAt_iff {p : Pattern} {left text : List Char} {k : Option Char → List Char → Bool} :
    p.matchesAt left.getLast? text k = true ↔
      ∃ used rest, text = used ++ rest ∧ p.Spans left used rest ∧
        k (left ++ used).getLast? rest = true := by
  induction p generalizing left text k with
  | never =>
    refine iff_of_false Bool.false_ne_true ?_
    rintro ⟨_, _, _, h, _⟩
    exact h
  | each classes => exact matchesAt_each_iff
  | run member least most => exact runAt_iff
  | edge =>
    rw [matchesAt, Bool.and_eq_true, bne_iff_ne]
    constructor
    · rintro ⟨hside, hk⟩
      exact ⟨[], text, rfl, ⟨rfl, hside⟩, by rwa [List.append_nil]⟩
    · rintro ⟨used, rest, rfl, ⟨rfl, hside⟩, hk⟩
      exact ⟨hside, by rwa [List.append_nil] at hk⟩
  | both p q ihp ihq =>
    rw [matchesAt_both, ihp]
    constructor
    · rintro ⟨u, rest, rfl, hp, hrest⟩
      obtain ⟨v, rest, rfl, hq, hk⟩ := ihq.1 hrest
      refine ⟨u ++ v, rest, by rw [List.append_assoc], ⟨u, v, rfl, hp, hq⟩, ?_⟩
      rwa [List.append_assoc] at hk
    · rintro ⟨used, rest, rfl, ⟨u, v, rfl, hp, hq⟩, hk⟩
      refine ⟨u, v ++ rest, by rw [List.append_assoc], hp, ihq.2 ⟨v, rest, rfl, hq, ?_⟩⟩
      rwa [List.append_assoc]
  | either p q ihp ihq =>
    rw [matchesAt_either, Bool.or_eq_true, ihp, ihq]
    constructor
    · rintro (⟨used, rest, htext, h, hk⟩ | ⟨used, rest, htext, h, hk⟩)
      · exact ⟨used, rest, htext, Or.inl h, hk⟩
      · exact ⟨used, rest, htext, Or.inr h, hk⟩
    · rintro ⟨used, rest, htext, h | h, hk⟩
      · exact Or.inl ⟨used, rest, htext, h, hk⟩
      · exact Or.inr ⟨used, rest, htext, h, hk⟩

theorem occursFrom_iff {p : Pattern} {left text : List Char} :
    p.occursFrom left.getLast? text = true ↔
      ∃ skipped used rest, text = skipped ++ (used ++ rest) ∧
        p.Spans (left ++ skipped) used rest := by
  induction text generalizing left with
  | nil =>
    rw [occursFrom, Bool.or_false, matchesAt_iff]
    constructor
    · rintro ⟨used, rest, htext, h, -⟩
      exact ⟨[], used, rest, htext, by rwa [List.append_nil]⟩
    · rintro ⟨skipped, used, rest, htext, h⟩
      obtain ⟨rfl, hrest⟩ := List.append_eq_nil_iff.1 htext.symm
      exact ⟨used, rest, hrest.symm, by rwa [List.append_nil] at h, rfl⟩
  | cons c text ih =>
    have hlast : some c = (left ++ [c]).getLast? := by rw [List.getLast?_concat]
    rw [occursFrom, Bool.or_eq_true, matchesAt_iff, hlast, ih]
    constructor
    · rintro (⟨used, rest, htext, h, -⟩ | ⟨skipped, used, rest, rfl, h⟩)
      · exact ⟨[], used, rest, htext, by rwa [List.append_nil]⟩
      · exact ⟨c :: skipped, used, rest, rfl, by rwa [List.append_assoc] at h⟩
    · rintro ⟨skipped, used, rest, htext, h⟩
      cases skipped with
      | nil => exact Or.inl ⟨used, rest, htext, by rwa [List.append_nil] at h, rfl⟩
      | cons d skipped =>
        obtain ⟨rfl, rfl⟩ := List.cons.inj htext
        exact Or.inr ⟨skipped, used, rest, rfl, by rwa [List.append_assoc]⟩

/-- **What occurs** is what is matched between two parts of the text. -/
theorem occurs_iff {p : Pattern} {text : List Char} :
    p.occurs text = true ↔
      ∃ left used right, text = left ++ (used ++ right) ∧ p.Spans left used right :=
  @occursFrom_iff p [] text

/-! ### Surroundings -/

/-- a match asks of its surroundings only whether a word character is next to it -/
theorem Spans.of_sides {p : Pattern} {left left' used right right' : List Char}
    (h : p.Spans left used right) (hleft : isWordSide left'.getLast? = isWordSide left.getLast?)
    (hright : isWordSide right'.head? = isWordSide right.head?) : p.Spans left' used right' := by
  induction p generalizing left left' used right right' with
  | never => exact h
  | each classes => exact h
  | run member least most => exact h
  | edge => exact ⟨h.1, by rw [hleft, hright]; exact h.2⟩
  | both p q ihp ihq =>
    obtain ⟨u, v, rfl, hp, hq⟩ := h
    have hmiddle : isWordSide (v ++ right').head? = isWordSide (v ++ right).head? := by
      cases v with
      | nil => exact hright
      | cons c v => rfl
    have hnext : isWordSide (left' ++ u).getLast? = isWordSide (left ++ u).getLast? := by
      rw [List.getLast?_append, List.getLast?_append]
      cases u.getLast? with
      | none => exact hleft
      | some c => rfl
    exact ⟨u, v, rfl, ihp hp hleft hmiddle, ihq hq hnext hright⟩
  | either p q ihp ihq =>
    exact h.imp (fun h => ihp h hleft hright) (fun h => ihq h hleft hright)

/-- **More lines.**  What occurs in a text occurs where other lines are put above and below. -/
theorem occurs_between {p : Pattern} {text : List Char} (h : p.occurs text = true)
    (above below : List Char) :
    p.occurs (above ++ '\n' :: (text ++ '\n' :: below)) = true := by
  obtain ⟨left, used, right, rfl, hspans⟩ := occurs_iff.1 h
  have hbreak : isWordSide (some '\n') = isWordSide none := by decide
  have hleft : isWordSide (above ++ '\n' :: left).getLast? = isWordSide left.getLast? := by
    cases left with
    | nil => rw [List.getLast?_concat, hbreak]; rfl
    | cons c left => rw [List.getLast?_append, List.getLast?_cons_cons]; rfl
  have hright : isWordSide (right ++ '\n' :: below).head? = isWordSide right.head? := by
    cases right with
    | nil => exact hbreak
    | cons c right => rfl
  refine occurs_iff.2 ⟨above ++ '\n' :: left, used, right ++ '\n' :: below, ?_,
    hspans.of_sides hleft hright⟩
  simp

end EffectFusion.Text.Pattern
