import EffectFusion.Proofs.Template.Nesting

/-!
# Objects in generated scripts

The data of a fused essence stands in a script as objects.  The keys of an object are the strings
before a colon that no bracket but its own is around; what nested values hold goes by, since the
scan comes back to its depth after nested brackets.

* `keysFrom_nested`   nested brackets inside of an object;
* `objectKeys_keyed`  the keys of a map.
-/

namespace EffectFusion

open Text Number Script

namespace Script

/-! ### Keys -/

/-- the text of a string, its escapes read -/
def stringOf? (t : Token) : Option String :=
  match t.kind, t.text with
  | .stringLiteral, '"' :: u =>
    match Json.readString [] true none u with
    | some (some s, []) => some s
    | _ => none
  | _, _ => none

/-- the strings before a colon that one bracket is around; `depth` brackets are open -/
def keysFrom : Nat → List Token → List String
  | _, [] => []
  | depth, t :: ts =>
    if bracketPairs.any (fun p => p.1 = t) then keysFrom (depth + 1) ts
    else if t.isBracket then keysFrom (depth - 1) ts
    else if depth = 1 ∧ ts.head? = some (.mark ":") then (stringOf? t).toList ++ keysFrom depth ts
    else keysFrom depth ts

/-- the keys of an object, none of what is no object -/
def objectKeys : List Token → List String
  | [] => []
  | t :: ts => if t = .mark "\x7b" then keysFrom 1 ts else []

section

variable {t : Token} {p : Token × Token} {ts us : List Token} {depth : Nat}

theorem keysFrom_opening (hp : p ∈ bracketPairs) :
    keysFrom depth (p.1 :: ts) = keysFrom (depth + 1) ts := by
  have hopens : ∀ p ∈ bracketPairs, bracketPairs.any (fun q => q.1 = p.1) = true := by decide
  rw [keysFrom, if_pos (hopens p hp)]

theorem keysFrom_closing (hp : p ∈ bracketPairs) :
    keysFrom depth (p.2 :: ts) = keysFrom (depth - 1) ts := by
  have hcloses : ∀ p ∈ bracketPairs, ¬ bracketPairs.any (fun q => q.1 = p.2) = true ∧
      p.2.isBracket = true := by decide
  rw [keysFrom, if_neg (hcloses p hp).1, if_pos (hcloses p hp).2]

theorem keysFrom_plain (h : t.isBracket = false) :
    keysFrom depth (t :: ts) = if depth = 1 ∧ ts.head? = some (.mark ":") then
      (stringOf? t).toList ++ keysFrom depth ts else keysFrom depth ts := by
  have hopens : ¬ bracketPairs.any (fun p => p.1 = t) = true := by
    intro hany
    obtain ⟨p, hp, hpt⟩ := List.any_eq_true.1 hany
    have hbracket : t.isBracket = true := List.any_eq_true.2 ⟨p, hp, by simp_all⟩
    rw [h] at hbracket
    cases hbracket
  rw [keysFrom, if_neg hopens, h, if_neg Bool.false_ne_true]

theorem keysFrom_skip (h : t.isBracket = false)
    (hkey : depth ≠ 1 ∨ ts.head? ≠ some (.mark ":") ∨ stringOf? t = none) :
    keysFrom depth (t :: ts) = keysFrom depth ts := by
  rw [keysFrom_plain h]
  split
  · rename_i hboth
    rcases hkey with hdepth | hcolon | hnone
    · exact absurd hboth.1 hdepth
    · exact absurd hboth.2 hcolon
    · rw [hnone]
      rfl
  · rfl

/-- nested brackets bring the scan back to its depth, and what they hold is no key of the object
around them -/
theorem keysFrom_nested (h : Nested ts) (hdepth : 2 ≤ depth) :
    keysFrom depth (ts ++ us) = keysFrom depth us := by
  induction h generalizing depth us with
  | nil => rfl
  | skip ht _ ih =>
    rw [List.cons_append, keysFrom_skip ht (.inl (by omega)), ih hdepth]
  | group hp _ _ ih ih' =>
    rw [List.append_assoc, List.cons_append, keysFrom_opening hp, ih (by omega), List.cons_append,
      keysFrom_closing hp, Nat.add_sub_cancel, ih' hdepth]

end

end Script

/-! ### The keys of a map -/

namespace Json

theorem stringOf?_stringToken (s : String) : stringOf? (stringToken s) = some s := by
  have hread := readString_stringText s []
  rw [stringOf?, stringToken]
  simp only [stringText, List.cons_append]
  rw [hread]

section

variable {us : List Token}

theorem keysFrom_string (s : String) (h : us.head? ≠ some (.mark ":")) :
    keysFrom 1 (stringToken s :: us) = keysFrom 1 us :=
  keysFrom_skip (isBracket_stringToken s) (.inr (.inl h))

theorem keysFrom_numeral (u : List Char) : keysFrom 1 (numeralTokens u ++ us) = keysFrom 1 us := by
  have hnumber : ∀ v, keysFrom 1 (⟨.number, v⟩ :: us) = keysFrom 1 us :=
    fun v => keysFrom_skip (isBracket_of_kind nofun) (.inr (.inr rfl))
  unfold numeralTokens
  split
  · have hsign : (Token.mark "-").isBracket = false ∧ stringOf? (.mark "-") = none := by decide
    rw [List.cons_append, keysFrom_skip hsign.1 (.inr (.inr hsign.2))]
    exact hnumber _
  · exact hnumber _

theorem keysFrom_tokens (v : Json) (h : us.head? ≠ some (.mark ":")) :
    keysFrom 1 (tokens v ++ us) = keysFrom 1 us := by
  have hwords : ∀ w ∈ ["null", "true", "false"], keysFrom 1 (.name w :: us) = keysFrom 1 us :=
    fun w _ => keysFrom_skip (isBracket_of_kind nofun) (.inr (.inr rfl))
  cases v with
  | null => exact hwords "null" (by decide)
  | bool b =>
    cases b with
    | true => exact hwords "true" (by decide)
    | false => exact hwords "false" (by decide)
  | whole n => exact keysFrom_numeral _
  | real x =>
    rw [tokens]
    split
    · exact hwords "null" (by decide)
    · exact keysFrom_numeral _
  | beyond => exact hwords "null" (by decide)
  | text s => exact keysFrom_string s h
  | unpaired => exact keysFrom_string "" h
  | list items =>
    have hp : (Token.mark "[", Token.mark "]") ∈ bracketPairs := by decide
    rw [tokens, List.append_assoc, List.cons_append, keysFrom_opening hp,
      keysFrom_nested (nested_itemTokens items) (le_refl 2)]
    exact keysFrom_closing hp
  | record fields =>
    have hp : (Token.mark "\x7b", Token.mark "\x7d") ∈ bracketPairs := by decide
    rw [tokens, List.append_assoc, List.cons_append, keysFrom_opening hp,
      keysFrom_nested (nested_fieldTokens fields) (le_refl 2)]
    exact keysFrom_closing hp

theorem keysFrom_field (k : String) (v : Json) (h : us.head? ≠ some (.mark ":")) :
    keysFrom 1 (keyToken (some k) :: .mark ":" :: (tokens v ++ us)) = k :: keysFrom 1 us := by
  have hcolon : (Token.mark ":").isBracket = false ∧ stringOf? (.mark ":") = none := by decide
  rw [keyToken, keysFrom_plain (isBracket_stringToken k), if_pos ⟨rfl, rfl⟩, stringOf?_stringToken,
    keysFrom_skip hcolon.1 (.inr (.inr hcolon.2)), keysFrom_tokens v h]
  rfl

theorem keysFrom_fieldTokens : ∀ fs : List (String × Json),
    keysFrom 1 (fieldTokens (fs.map (fun f => (some f.1, f.2))) ++ [.mark "\x7d"]) = fs.map (·.1)
  | [] => by decide
  | [(k, v)] => by
    have hclose : keysFrom 1 [.mark "\x7d"] = [] := by decide
    rw [List.map_singleton, fieldTokens, List.cons_append, List.cons_append,
      keysFrom_field k v (by decide), hclose]
    rfl
  | (k, v) :: f :: rest => by
    have hcomma : (Token.mark ",").isBracket = false ∧ stringOf? (.mark ",") = none := by decide
    have hrest := keysFrom_fieldTokens (f :: rest)
    rw [List.map_cons] at hrest
    rw [List.map_cons, List.map_cons, fieldTokens, List.append_assoc, List.cons_append,
      List.cons_append, keysFrom_field k v (by simp [Token.mark]),
      List.cons_append, keysFrom_skip hcomma.1 (.inr (.inr hcomma.2)), hrest]
    rfl

end

/-- the keys of a map are those of its object, whatever stands in them -/
theorem objectKeys_keyed {α : Type} [Written α] (m : Keyed α) :
    objectKeys (tokens (toJson m)) = m.keys := by
  have hfields := keysFrom_fieldTokens (m.entries.map (fun e => (e.1, toJson e.2)))
  rw [show toJson m = fields (m.entries.map (fun e => (e.1, toJson e.2))) from rfl, fields, tokens,
    List.cons_append, objectKeys, if_pos rfl, hfields, List.map_map]
  rfl

end Json

end EffectFusion
