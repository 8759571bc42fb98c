import EffectFusion.Json.Reader

/-!
# White space between the parts of a value

The compact and the pretty text of a value differ in the white space before an item, before a
closing bracket and behind a colon, and in nothing else.  `Spacing` is what stands there, and
`spelled` is the text with that white space; what is shown of `spelled` holds of both forms.

* `spelled_tight`   without white space it is the compact form;
* `spelled_wide`    with line breaks it is the pretty form.
-/

namespace EffectFusion.Json

/-- the white space of a written form -/
structure Spacing where
  /-- before the items of a level and before the bracket that closes them -/
  gap : Nat → List Char
  /-- behind a colon -/
  behind : List Char
  blank_gap : ∀ level, ∀ c ∈ gap level, isSpace c = true
  blank_behind : ∀ c ∈ behind, isSpace c = true

namespace Spacing

/-- none -/
def tight : Spacing := ⟨fun _ => [], [], by simp, by simp⟩

/-- a line for each item -/
def wide : Spacing where
  gap := newLine
  behind := [' ']
  blank_gap level := by
    intro c hc
    rcases List.mem_cons.1 hc with rfl | hc
    · decide
    · rw [(List.mem_replicate.1 hc).2]
      decide
  blank_behind := by decide

end Spacing

mutual

/-- the text of a value with white space between its parts -/
def spelled (s : Spacing) (level : Nat) : Json → List Char
  | .list [] => ['[', ']']
  | .list (v :: rest) =>
    '[' :: spelledItems s (level + 1) (v :: rest) ++ (s.gap level ++ [']'])
  | .record [] => ['\x7b', '\x7d']
  | .record (f :: rest) =>
    '\x7b' :: spelledFields s (level + 1) (f :: rest) ++ (s.gap level ++ ['\x7d'])
  | .null => compact .null
  | .bool b => compact (.bool b)
  | .whole n => compact (.whole n)
  | .real x => compact (.real x)
  | .beyond => compact .beyond
  | .text t => compact (.text t)
  | .unpaired => compact .unpaired

def spelledItems (s : Spacing) (level : Nat) : List Json → List Char
  | [] => []
  | [v] => s.gap level ++ spelled s level v
  | v :: w :: rest => s.gap level ++ (spelled s level v ++ ',' :: spelledItems s level (w :: rest))

def spelledFields (s : Spacing) (level : Nat) : List (Option String × Json) → List Char
  | [] => []
  | [(k, v)] => s.gap level ++ (keyText k ++ ':' :: (s.behind ++ spelled s level v))
  | (k, v) :: f :: rest =>
    s.gap level ++ (keyText k ++ ':' :: (s.behind ++ (spelled s level v
      ++ ',' :: spelledFields s level (f :: rest))))

end

/-! ### The two forms -/

mutual

theorem spelled_tight : ∀ (level : Nat) (v : Json), spelled .tight level v = compact v
  | _, .null | _, .bool _ | _, .whole _ | _, .real _ | _, .beyond | _, .text _ | _, .unpaired => rfl
  | _, .list [] | _, .record [] => rfl
  | level, .list (v :: rest) => by
    rw [spelled, spelledItems_tight (level + 1) (v :: rest), compact]
    rfl
  | level, .record (f :: rest) => by
    rw [spelled, spelledFields_tight (level + 1) (f :: rest), compact]
    rfl

theorem spelledItems_tight : ∀ (level : Nat) (vs : List Json),
    spelledItems .tight level vs = compactItems vs
  | _, [] => rfl
  | level, [v] => by
    rw [spelledItems, spelled_tight level v, compactItems]
    rfl
  | level, v :: w :: rest => by
    rw [spelledItems, spelled_tight level v, spelledItems_tight level (w :: rest), compactItems]
    rfl

theorem spelledFields_tight : ∀ (level : Nat) (fs : List (Option String × Json)),
    spelledFields .tight level fs = compactFields fs
  | _, [] => rfl
  | level, [(k, v)] => by
    rw [spelledFields, spelled_tight level v, compactFields]
    rfl
  | level, (k, v) :: f :: rest => by
    rw [spelledFields, spelled_tight level v, spelledFields_tight level (f :: rest), compactFields,
      List.append_assoc]
    rfl

end

mutual

theorem spelled_wide : ∀ (level : Nat) (v : Json), spelled .wide level v = pretty level v
  | _, .null | _, .bool _ | _, .whole _ | _, .real _ | _, .beyond | _, .text _ | _, .unpaired => rfl
  | _, .list [] | _, .record [] => rfl
  | level, .list (v :: rest) => by
    rw [spelled, spelledItems_wide (level + 1) (v :: rest), pretty, List.append_assoc]
    rfl
  | level, .record (f :: rest) => by
    rw [spelled, spelledFields_wide (level + 1) (f :: rest), pretty, List.append_assoc]
    rfl

theorem spelledItems_wide : ∀ (level : Nat) (vs : List Json),
    spelledItems .wide level vs = prettyItems level vs
  | _, [] => rfl
  | level, [v] => by
    rw [spelledItems, spelled_wide level v, prettyItems]
    rfl
  | level, v :: w :: rest => by
    rw [spelledItems, spelled_wide level v, spelledItems_wide level (w :: rest), prettyItems,
      List.append_assoc]
    rfl

theorem spelledFields_wide : ∀ (level : Nat) (fs : List (Option String × Json)),
    spelledFields .wide level fs = prettyFields level fs
  | _, [] => rfl
  | level, [(k, v)] => by
    rw [spelledFields, spelled_wide level v, prettyFields, List.append_assoc]
    rfl
  | level, (k, v) :: f :: rest => by
    rw [spelledFields, spelled_wide level v, spelledFields_wide level (f :: rest), prettyFields,
      List.append_assoc, List.append_assoc]
    rfl

end

end EffectFusion.Json
