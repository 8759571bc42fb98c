import EffectFusion.Proofs.Json.Spacing
import EffectFusion.Proofs.Number.Reading

/-!
# Reading what was written

The text of a value is read as that value, whatever white space is between its parts.  That needs
every string to have a text, every whole number to fit 64 bits and every other number to read back
by itself.

* `readString_stringText`   strings, whatever is in them;
* `readValue_spelled`       values, whatever follows them;
* `read?_render`            a compact text that holds nothing but the value;
* `read?_renderPretty`      the same for a pretty text.
-/

namespace EffectFusion.Json

open Text Number Script

/-! ### Strings -/

theorem hexValue?_hexDigit : ∀ n < 16, hexValue? (hexDigit n) = some n := by decide

theorem readString_letter {c e : Char} (hc : c ≠ 'u') (he : shortEscape? c = some e)
    (done rest : List Char) :
    readString done true none ('\\' :: c :: rest) = readString (e :: done) true none rest := by
  rw [readString.eq_def]
  split
  · rename_i h
    cases h
  · rename_i h
    exact absurd (List.cons.inj h).1 (by decide)
  · rename_i h
    exact absurd (List.cons.inj (List.cons.inj h).2).1 hc
  · rename_i h
    obtain ⟨rfl, rfl⟩ := List.cons.inj (List.cons.inj h).2
    rw [he]
  · rename_i hother h
    obtain ⟨rfl, rfl⟩ := List.cons.inj h
    exact absurd rfl (hother c rest rfl)

theorem readString_plain {c : Char} (h1 : c ≠ '"') (h2 : c ≠ '\\') (h3 : ¬ c.toNat < 32)
    (done rest : List Char) :
    readString done true none (c :: rest) = readString (c :: done) true none rest := by
  rw [readString.eq_def]
  split
  · rename_i h
    cases h
  · rename_i h
    exact absurd (List.cons.inj h).1 h1
  · rename_i h
    exact absurd (List.cons.inj h).1 h2
  · rename_i h
    exact absurd (List.cons.inj h).1 h2
  · rename_i h
    obtain ⟨rfl, rfl⟩ := List.cons.inj h
    rw [if_neg (fun h => h.elim h3 h2)]

theorem readString_control {c : Char} (hc : c.toNat < 32) (done rest : List Char) :
    readString done true none
        ('\\' :: 'u' :: '0' :: '0' :: hexDigit (c.toNat / 16) :: hexDigit (c.toNat % 16) :: rest) =
      readString (c :: done) true none rest := by
  have h1 := hexValue?_hexDigit (c.toNat / 16) (by omega)
  have h2 := hexValue?_hexDigit (c.toNat % 16) (by omega)
  have h0 : hexValue? '0' = some 0 := by decide
  have hunit : unit? '0' '0' (hexDigit (c.toNat / 16)) (hexDigit (c.toNat % 16)) = some c.toNat := by
    simp only [unit?, h0, h1, h2, Option.bind_eq_bind, Option.bind_some, Option.pure_def]
    congr 1
    omega
  have hhigh : isHighHalf c.toNat = false := by
    simp only [isHighHalf, Bool.and_eq_false_iff, decide_eq_false_iff_not]
    omega
  have hlow : isLowHalf c.toNat = false := by
    simp only [isLowHalf, Bool.and_eq_false_iff, decide_eq_false_iff_not]
    omega
  rw [readString, hunit]
  simp only [hhigh, hlow, Char.ofNat_toNat, Bool.false_eq_true, if_false]

/-- a letter behind a backslash, the number of a control character, or the character itself -/
theorem escape_cases (c : Char) :
    (∃ d, shortEscape? d = some c ∧ d ≠ 'u' ∧ escape c = ['\\', d]) ∨
      (c.toNat < 32 ∧ escape c =
        ['\\', 'u', '0', '0', hexDigit (c.toNat / 16), hexDigit (c.toNat % 16)]) ∨
      (c ≠ '"' ∧ c ≠ '\\' ∧ ¬ c.toNat < 32) ∧ escape c = [c] := by
  by_cases hletter : c ∈ ['"', '\\', '\n', '\r', '\t', '\x08', '\x0c']
  · simp only [List.mem_cons, List.not_mem_nil, or_false] at hletter
    left
    rcases hletter with rfl | rfl | rfl | rfl | rfl | rfl | rfl
    · exact ⟨'"', rfl, by decide, rfl⟩
    · exact ⟨'\\', rfl, by decide, rfl⟩
    · exact ⟨'n', rfl, by decide, rfl⟩
    · exact ⟨'r', rfl, by decide, rfl⟩
    · exact ⟨'t', rfl, by decide, rfl⟩
    · exact ⟨'b', rfl, by decide, rfl⟩
    · exact ⟨'f', rfl, by decide, rfl⟩
  · simp only [List.mem_cons, List.not_mem_nil, or_false, not_or] at hletter
    obtain ⟨hquote, hslash, hn, hr, ht, hb, hf⟩ := hletter
    by_cases hsmall : c.toNat < 32
    · exact Or.inr (Or.inl ⟨hsmall, by simp [escape, hquote, hslash, hn, hr, ht, hb, hf, hsmall]⟩)
    · exact Or.inr (Or.inr ⟨⟨hquote, hslash, hsmall⟩,
        by simp [escape, hquote, hslash, hn, hr, ht, hb, hf, hsmall]⟩)

theorem readString_escape (c : Char) (done rest : List Char) :
    readString done true none (escape c ++ rest) = readString (c :: done) true none rest := by
  rcases escape_cases c with ⟨d, hd, hu, he⟩ | ⟨hsmall, he⟩ | ⟨⟨hquote, hslash, hlarge⟩, he⟩
  · rw [he]
    exact readString_letter hu hd done rest
  · rw [he]
    exact readString_control hsmall done rest
  · rw [he]
    exact readString_plain hquote hslash hlarge done rest

theorem readString_stringText (s : String) (rest : List Char) :
    readString [] true none (s.toList.flatMap escape ++ '"' :: rest) = some (some s, rest) := by
  have hall : ∀ cs done, readString done true none (cs.flatMap escape ++ '"' :: rest) =
      some (some (String.ofList (done.reverse ++ cs)), rest) := by
    intro cs
    induction cs with
    | nil =>
      intro done
      rw [List.flatMap_nil, List.nil_append, readString, if_pos rfl, List.append_nil]
    | cons c cs ih =>
      intro done
      rw [List.flatMap_cons, List.append_assoc, readString_escape, ih]
      simp
  rw [hall, List.reverse_nil, List.nil_append, String.ofList_toList]

/-! ### Numbers -/

/-- the text of the number is read as that number -/
def ReadsBack (x : Float) : Prop := read? (Json.render (.real x)) = some (.real x)

theorem not_space_signed {b : Bool} {u : List Char} (h : NumberText u) :
    ∀ c ∈ signed b u, isSpace c = false := by
  have hpart : ∀ c before, isNumberPart before c = true → isSpace c = false := by
    intro c before hc
    by_contra hs
    simp only [isSpace, Bool.not_eq_false, Bool.or_eq_true, decide_eq_true_eq] at hs
    have hspaces : ∀ c ∈ [' ', '\n', '\t', '\r'],
        isAlnum c = false ∧ c ≠ '.' ∧ c ≠ '_' ∧ c ≠ '+' ∧ c ≠ '-' := by decide
    have hmem : c ∈ [' ', '\n', '\t', '\r'] := by
      simp only [List.mem_cons, List.not_mem_nil, or_false]
      rcases hs with ((hs | hs) | hs) | hs <;> simp [hs]
    rw [not_numberPart (hspaces c hmem) before] at hc
    cases hc
  obtain ⟨d, v, rfl, hd, hv⟩ := h
  have hu : ∀ c ∈ d :: v, isSpace c = false := by
    intro c hc
    rcases List.mem_cons.1 hc with rfl | hc
    · exact hpart c c (by simp [isNumberPart, isAlnum, hd])
    · obtain ⟨before, hb⟩ := numberPart_of_spanNumber hv c hc
      exact hpart c before hb
  intro c hc
  cases b with
  | false => exact hu c hc
  | true =>
    rcases List.mem_cons.1 hc with rfl | hc
    · decide
    · exact hu c hc

/-- a number starts with a minus sign or a digit -/
theorem head_signed {b : Bool} {u : List Char} (h : NumberText u) :
    ∃ c v, signed b u = c :: v ∧ (c = '-' ∨ isDigit c = true) := by
  obtain ⟨d, v, rfl, hd, -⟩ := h
  cases b with
  | false => exact ⟨d, v, rfl, Or.inr hd⟩
  | true => exact ⟨'-', d :: v, rfl, Or.inl rfl⟩

/-- the first character tells a number from any other value -/
theorem readValue_numeral {c : Char} (hc : c = '-' ∨ isDigit c = true) (fuel : Nat)
    (s : List Char) :
    readValue (fuel + 1) (c :: s) =
      (readStrict (c :: s)).map (fun p => (ofScaled p.1, p.2)) := by
  have hne : ∀ d ∈ ['"', '[', '\x7b', 'n', 't', 'f'], c ≠ d := by
    have hall : ∀ d ∈ ['"', '[', '\x7b', 'n', 't', 'f'], d ≠ '-' ∧ isDigit d = false := by decide
    rintro d hd rfl
    obtain ⟨h1, h2⟩ := hall c hd
    rw [h2] at hc
    exact hc.elim h1 (by simp)
  simp only [List.mem_cons, List.not_mem_nil, or_false, forall_eq_or_imp, forall_eq] at hne
  obtain ⟨h1, h2, h3, h4, h5, h6⟩ := hne
  rw [readValue]
  · unfold readPlain
    split
    · rename_i he
      exact absurd (List.cons.inj he).1 h4
    · rename_i he
      exact absurd (List.cons.inj he).1 h5
    · rename_i he
      exact absurd (List.cons.inj he).1 h6
    · rfl
  · intro rest he
    exact h1 (List.cons.inj he).1
  · intro rest he
    exact h2 (List.cons.inj he).1
  · intro rest he
    exact h3 (List.cons.inj he).1

theorem skipSpace_of_head {c : Char} (h : isSpace c = false) (s : List Char) :
    skipSpace (c :: s) = c :: s := by
  rw [skipSpace, List.dropWhile_cons, if_neg (by simp [h])]

theorem readValue_real {x : Float} (h : ReadsBack x) (fuel : Nat) {rest : List Char}
    (hrest : NotBefore goesOn rest) :
    readValue (fuel + 1) (realText x ++ rest) = some (.real x, rest) := by
  have hread : read? (String.ofList (realText x)) = some (.real x) := h
  rcases realText_cases x with hnull | ⟨b, u, hu, he⟩
  · rw [hnull] at hread
    have hother : read? (String.ofList ['n', 'u', 'l', 'l']) = some .null := rfl
    rw [hother] at hread
    cases hread
  · have hspace := not_space_signed (b := b) hu
    obtain ⟨c, v, hc, hnumeral⟩ := head_signed (b := b) hu
    rw [he, hc] at hread ⊢
    rw [hc] at hspace
    rw [read?, String.toList_ofList, skipSpace_of_head (hspace c List.mem_cons_self),
      readValue_numeral hnumeral] at hread
    rw [List.cons_append, readValue_numeral hnumeral]
    cases hs : readStrict (c :: v) with
    | none =>
      rw [hs] at hread
      cases hread
    | some p =>
      obtain ⟨n, r⟩ := p
      rw [hs] at hread
      obtain ⟨w, hw, hlocal⟩ := readStrict_append hs
      simp only [Option.map_some] at hread
      split at hread
      · rename_i hr
        -- the rest has no white space in it, so it is empty
        have hnil : r = [] := by
          cases r with
          | nil => rfl
          | cons d r =>
            have hd := hspace d (by rw [hw]; simp)
            rw [skipSpace_of_head hd] at hr
            cases hr
        rw [hnil, List.append_nil] at hw
        rw [← List.cons_append, hw, hlocal rest hrest, Option.map_some, Option.some.inj hread]
      · cases hread

theorem readValue_whole {n : Int} (h : n.natAbs < twoTo 64) (fuel : Nat) {rest : List Char}
    (hrest : NotBefore goesOn rest) :
    readValue (fuel + 1) (wholeText n ++ rest) = some (.whole n, rest) := by
  obtain ⟨d, ds, hd⟩ := List.exists_cons_of_ne_nil (digitsOf_ne_nil n.natAbs)
  have hdigit : isDigit d = true := isDigit_digitsOf n.natAbs d (by rw [hd]; exact List.mem_cons_self)
  unfold wholeText
  split
  · rename_i hneg
    have hne : n.natAbs ≠ 0 := by omega
    have hvalue : ofScaled ⟨true, n.natAbs, 0, true⟩ = .whole n := by
      have hn : -((n.natAbs : Nat) : Int) = n := by omega
      rw [ofScaled, if_pos ⟨rfl, Or.inr hne⟩, if_pos rfl, hn]
    rw [List.cons_append, readValue_numeral (Or.inl rfl), readStrict_minus,
      readUnsigned_digitsOf h true hrest, Option.map_some, hvalue]
  · rename_i hpos
    have hvalue : ofScaled ⟨false, n.natAbs, 0, true⟩ = .whole n := by
      have hn : ((n.natAbs : Nat) : Int) = n := by omega
      rw [ofScaled, if_pos ⟨rfl, Or.inl rfl⟩, if_neg Bool.false_ne_true, hn]
    have hminus : d ≠ '-' := by
      rintro rfl
      exact absurd hdigit (by decide)
    have hread := readUnsigned_digitsOf h false hrest
    rw [hd, List.cons_append] at hread ⊢
    rw [readValue_numeral (Or.inr hdigit), readStrict_plain hminus, hread, Option.map_some, hvalue]

/-! ### Values -/

mutual

/-- a value that can be read from its text -/
def Faithful : Json → Prop
  | .whole n => n.natAbs < twoTo 64
  | .real x => ReadsBack x
  | .list items => FaithfulItems items
  | .record fields => FaithfulFields fields
  | .beyond | .unpaired => False
  | .null | .bool _ | .text _ => True

def FaithfulItems : List Json → Prop
  | [] => True
  | v :: rest => Faithful v ∧ FaithfulItems rest

def FaithfulFields : List (Option String × Json) → Prop
  | [] => True
  | (k, v) :: rest => k.isSome = true ∧ Faithful v ∧ FaithfulFields rest

end

/-- what may follow a value -/
def afterValue (c : Char) : Bool := isSpace c || c = ',' || c = ']' || c = '\x7d'

/-- nothing follows, or what may follow a value -/
def EndsValue (s : List Char) : Prop := ∀ c ∈ s.head?, afterValue c = true

theorem not_goesOn_of_endsValue {s : List Char} (h : EndsValue s) : NotBefore goesOn s := by
  intro c hc
  have hall : ∀ d ∈ [' ', '\n', '\t', '\r', ',', ']', '\x7d'], goesOn d = false := by decide
  have hend := h c hc
  simp only [afterValue, isSpace, Bool.or_eq_true, decide_eq_true_eq] at hend
  apply hall
  simp only [List.mem_cons, List.not_mem_nil, or_false]
  tauto

theorem endsValue_blank {u s : List Char} (hu : ∀ c ∈ u, isSpace c = true) (h : EndsValue s) :
    EndsValue (u ++ s) := by
  cases u with
  | nil => exact h
  | cons d u =>
    intro c hc
    cases hc
    rw [afterValue, hu d List.mem_cons_self]
    rfl

theorem skipSpace_append {u : List Char} (hu : ∀ c ∈ u, isSpace c = true) (s : List Char) :
    skipSpace (u ++ s) = skipSpace s := by
  rw [skipSpace, List.dropWhile_append_of_pos hu]
  rfl

theorem skipSpace_blank {u : List Char} (hu : ∀ c ∈ u, isSpace c = true) {c : Char}
    (hc : isSpace c = false) (s : List Char) : skipSpace (u ++ c :: s) = c :: s := by
  rw [skipSpace_append hu, skipSpace_of_head hc]

/-- a value starts with no white space and no closing bracket -/
theorem head_spelled (s : Spacing) (level : Nat) (v : Json) (h : Faithful v) :
    ∃ c t, spelled s level v = c :: t ∧ isSpace c = false ∧ c ≠ ']' := by
  have hnumber : ∀ b u, NumberText u →
      ∃ c t, signed b u = c :: t ∧ isSpace c = false ∧ c ≠ ']' := by
    intro b u hu
    obtain ⟨c, t, hs, hc⟩ := head_signed (b := b) hu
    refine ⟨c, t, hs, not_space_signed hu c (by rw [hs]; exact List.mem_cons_self), ?_⟩
    rintro rfl
    exact absurd hc (by decide)
  cases v with
  | null => exact ⟨'n', _, rfl, by decide, by decide⟩
  | bool b =>
    cases b with
    | true => exact ⟨'t', _, rfl, by decide, by decide⟩
    | false => exact ⟨'f', _, rfl, by decide, by decide⟩
  | whole n =>
    obtain ⟨b, u, hu, he⟩ := wholeText_cases n
    rw [spelled, compact, he]
    exact hnumber b u hu
  | real x =>
    rcases realText_cases x with hnull | ⟨b, u, hu, he⟩
    · exact ⟨'n', _, hnull, by decide, by decide⟩
    · rw [spelled, compact, he]
      exact hnumber b u hu
  | beyond => exact absurd h id
  | text t => exact ⟨'"', _, rfl, by decide, by decide⟩
  | unpaired => exact absurd h id
  | list items => cases items <;> exact ⟨'[', _, rfl, by decide, by decide⟩
  | record fields => cases fields <;> exact ⟨'\x7b', _, rfl, by decide, by decide⟩

theorem skipSpace_spelled {u : List Char} (hu : ∀ c ∈ u, isSpace c = true) (s : Spacing)
    (level : Nat) {v : Json} (h : Faithful v) (t : List Char) :
    skipSpace (u ++ (spelled s level v ++ t)) = spelled s level v ++ t := by
  obtain ⟨c, w, hc, hspace, -⟩ := head_spelled s level v h
  rw [hc]
  exact skipSpace_blank hu hspace _

theorem spelledItems_cons (s : Spacing) (level : Nat) (v : Json) (vs : List Json) :
    ∃ t, spelledItems s level (v :: vs) = s.gap level ++ (spelled s level v ++ t) := by
  cases vs with
  | nil => exact ⟨[], by rw [spelledItems, List.append_nil]⟩
  | cons w vs => exact ⟨_, rfl⟩

theorem spelledFields_cons (s : Spacing) (level : Nat) (f : Option String × Json)
    (fs : List (Option String × Json)) :
    ∃ t, spelledFields s level (f :: fs) = s.gap level ++ '"' :: t := by
  obtain ⟨k, v⟩ := f
  cases k <;> cases fs <;> exact ⟨_, rfl⟩

theorem readFields_key (k : String) (fuel : Nat) (s : List Char) :
    readFields (fuel + 1) (stringText k ++ ':' :: s) =
      match readValue fuel (skipSpace s) with
      | none => none
      | some (v, r) =>
        match skipSpace r with
        | '\x7d' :: r => some ([(some k, v)], r)
        | ',' :: r => (readFields fuel (skipSpace r)).map (fun p => ((some k, v) :: p.1, p.2))
        | _ => none := by
  have hkey := readString_stringText k (':' :: s)
  have hcolon : skipSpace (':' :: s) = ':' :: s := skipSpace_of_head (by decide) s
  rw [stringText, List.append_assoc, List.cons_append, readFields, List.singleton_append, hkey]
  exact hcolon ▸ rfl

theorem skipSpace_key {u : List Char} (hu : ∀ c ∈ u, isSpace c = true) (k : String)
    (t : List Char) : skipSpace (u ++ (stringText k ++ t)) = stringText k ++ t := by
  rw [stringText, List.cons_append, List.cons_append]
  exact skipSpace_blank hu (by decide) _

theorem readValue_list {fuel : Nat} {s rest : List Char} {items : List Json}
    (hopen : (skipSpace s).head? ≠ some ']') (h : readItems fuel (skipSpace s) = some (items, rest)) :
    readValue (fuel + 1) ('[' :: s) = some (.list items, rest) := by
  rw [readValue]
  split
  · rename_i he
    exact absurd (congrArg List.head? he) hopen
  · rw [h]
    rfl

theorem readValue_record {fuel : Nat} {s rest : List Char} {fields : List (Option String × Json)}
    (hopen : (skipSpace s).head? ≠ some '\x7d')
    (h : readFields fuel (skipSpace s) = some (fields, rest)) :
    readValue (fuel + 1) ('\x7b' :: s) = some (.record fields, rest) := by
  rw [readValue]
  split
  · rename_i he
    exact absurd (congrArg List.head? he) hopen
  · rw [h]
    rfl

-- A value takes one step of fuel and so does each item or field, so two steps for each character
-- are enough.  White space before an item is skipped by whoever asks for the item.
mutual

/-- **Values are read as they were written**, whatever follows them. -/
theorem readValue_spelled (s : Spacing) : ∀ (level : Nat) (v : Json), Faithful v → ∀ fuel,
    2 * (spelled s level v).length ≤ fuel → ∀ rest, EndsValue rest →
      readValue fuel (spelled s level v ++ rest) = some (v, rest)
  | level, v, h, 0, hfuel, rest, _ => by
    obtain ⟨c, t, hc, -⟩ := head_spelled s level v h
    rw [hc, List.length_cons] at hfuel
    omega
  | _, .null, _, fuel + 1, _, rest, _ => rfl
  | _, .bool true, _, fuel + 1, _, rest, _ => rfl
  | _, .bool false, _, fuel + 1, _, rest, _ => rfl
  | _, .whole n, h, fuel + 1, _, rest, hrest =>
    readValue_whole h fuel (not_goesOn_of_endsValue hrest)
  | _, .real x, h, fuel + 1, _, rest, hrest =>
    readValue_real h fuel (not_goesOn_of_endsValue hrest)
  | _, .text t, _, fuel + 1, _, rest, _ => by
    have hread := readString_stringText t rest
    rw [spelled, compact, stringText, List.append_assoc, List.cons_append, readValue]
    simp only [List.singleton_append, hread]
  | _, .list [], _, fuel + 1, _, rest, _ => rfl
  | level, .list (v :: vs), h, fuel + 1, hfuel, rest, _ => by
    have hread := readItems_spelled s (level + 1) (v :: vs) (by simp) h fuel
      (by rw [spelled] at hfuel; simp at hfuel; omega) (s.blank_gap level) rest
    obtain ⟨t, ht⟩ := spelledItems_cons s (level + 1) v vs
    obtain ⟨c, w, hc, -, hbracket⟩ := head_spelled s (level + 1) v h.1
    rw [spelled, List.append_assoc, List.cons_append, List.append_assoc, List.singleton_append]
    refine readValue_list ?_ hread
    rw [ht, List.append_assoc, List.append_assoc,
      skipSpace_spelled (s.blank_gap (level + 1)) s (level + 1) h.1, hc]
    exact fun he => hbracket (Option.some.inj he)
  | _, .record [], _, fuel + 1, _, rest, _ => rfl
  | level, .record (f :: fs), h, fuel + 1, hfuel, rest, _ => by
    have hread := readFields_spelled s (level + 1) (f :: fs) (by simp) h fuel
      (by rw [spelled] at hfuel; simp at hfuel; omega) (s.blank_gap level) rest
    obtain ⟨t, ht⟩ := spelledFields_cons s (level + 1) f fs
    rw [spelled, List.append_assoc, List.cons_append, List.append_assoc, List.singleton_append]
    refine readValue_record ?_ hread
    rw [ht, List.append_assoc, List.cons_append,
      skipSpace_blank (s.blank_gap (level + 1)) (by decide)]
    exact fun he => by cases Option.some.inj he

theorem readItems_spelled (s : Spacing) : ∀ (level : Nat) (vs : List Json), vs ≠ [] →
    FaithfulItems vs → ∀ fuel, 2 * (spelledItems s level vs).length + 1 ≤ fuel →
      ∀ {u : List Char}, (∀ c ∈ u, isSpace c = true) → ∀ rest,
        readItems fuel (skipSpace (spelledItems s level vs ++ (u ++ ']' :: rest))) =
          some (vs, rest)
  | _, _, _, _, 0, hfuel, _, _, _ => by omega
  | _, [], hne, _, _ + 1, _, _, _, _ => absurd rfl hne
  | level, [v], _, h, fuel + 1, hfuel, u, hu, rest => by
    have hread := readValue_spelled s level v h.1 fuel
      (by rw [spelledItems, List.length_append] at hfuel; omega) (u ++ ']' :: rest)
      (endsValue_blank hu (fun c hc => by cases hc; decide))
    rw [spelledItems, List.append_assoc, skipSpace_spelled (s.blank_gap level) s level h.1,
      readItems, hread]
    simp only [skipSpace_blank hu (c := ']') (by decide)]
  | level, v :: w :: vs, _, h, fuel + 1, hfuel, u, hu, rest => by
    have hlength : (spelledItems s level (v :: w :: vs)).length = (s.gap level).length +
        ((spelled s level v).length + ((spelledItems s level (w :: vs)).length + 1)) := by
      rw [spelledItems, List.length_append, List.length_append, List.length_cons]
    have hread := readValue_spelled s level v h.1 fuel (by omega)
      (',' :: (spelledItems s level (w :: vs) ++ (u ++ ']' :: rest)))
      (fun c hc => by cases hc; decide)
    have hrest := readItems_spelled s level (w :: vs) (by simp) h.2 fuel (by omega) hu rest
    rw [spelledItems, List.append_assoc, List.append_assoc, List.cons_append,
      skipSpace_spelled (s.blank_gap level) s level h.1, readItems, hread]
    simp only [skipSpace_of_head (c := ',') (by decide), hrest, Option.map_some]

theorem readFields_spelled (s : Spacing) : ∀ (level : Nat) (fs : List (Option String × Json)),
    fs ≠ [] → FaithfulFields fs → ∀ fuel, 2 * (spelledFields s level fs).length + 1 ≤ fuel →
      ∀ {u : List Char}, (∀ c ∈ u, isSpace c = true) → ∀ rest,
        readFields fuel (skipSpace (spelledFields s level fs ++ (u ++ '\x7d' :: rest))) =
          some (fs, rest)
  | _, _, _, _, 0, hfuel, _, _, _ => by omega
  | _, [], hne, _, _ + 1, _, _, _, _ => absurd rfl hne
  | _, [(none, v)], _, h, _ + 1, _, _, _, _ => absurd h.1 Bool.false_ne_true
  | _, (none, v) :: f :: fs, _, h, _ + 1, _, _, _, _ => absurd h.1 Bool.false_ne_true
  | level, [(some k, v)], _, h, fuel + 1, hfuel, u, hu, rest => by
    have hlength : (spelledFields s level [(some k, v)]).length = (s.gap level).length +
        ((stringText k).length + (s.behind.length + (spelled s level v).length + 1)) := by
      rw [spelledFields, keyText, List.length_append, List.length_append, List.length_cons,
        List.length_append]
    have hread := readValue_spelled s level v h.2.1 fuel (by omega) (u ++ '\x7d' :: rest)
      (endsValue_blank hu (fun c hc => by cases hc; decide))
    rw [spelledFields, keyText, List.append_assoc, List.append_assoc, List.cons_append,
      List.append_assoc, skipSpace_key (s.blank_gap level), readFields_key,
      skipSpace_spelled s.blank_behind s level h.2.1, hread]
    simp only [skipSpace_blank hu (c := '\x7d') (by decide)]
  | level, (some k, v) :: f :: fs, _, h, fuel + 1, hfuel, u, hu, rest => by
    have hlength : (spelledFields s level ((some k, v) :: f :: fs)).length = (s.gap level).length +
        ((stringText k).length + (s.behind.length + ((spelled s level v).length +
          ((spelledFields s level (f :: fs)).length + 1)) + 1)) := by
      rw [spelledFields, keyText, List.length_append, List.length_append, List.length_cons,
        List.length_append, List.length_append, List.length_cons]
    have hread := readValue_spelled s level v h.2.1 fuel (by omega)
      (',' :: (spelledFields s level (f :: fs) ++ (u ++ '\x7d' :: rest)))
      (fun c hc => by cases hc; decide)
    have hrest := readFields_spelled s level (f :: fs) (by simp) h.2.2 fuel (by omega) hu rest
    rw [spelledFields, keyText, List.append_assoc, List.append_assoc, List.cons_append,
      List.append_assoc, List.append_assoc, List.cons_append, skipSpace_key (s.blank_gap level),
      readFields_key, skipSpace_spelled s.blank_behind s level h.2.1, hread]
    simp only [skipSpace_of_head (c := ',') (by decide), hrest, Option.map_some]

end

theorem read?_spelled (s : Spacing) {v : Json} (h : Faithful v) :
    read? (String.ofList (spelled s 0 v)) = some v := by
  have hspace := skipSpace_spelled (u := []) (by simp) s 0 h []
  have hread := readValue_spelled s 0 v h (2 * (spelled s 0 v).length + 2) (by omega) []
    (fun c hc => by cases hc)
  rw [List.nil_append, List.append_nil] at hspace
  rw [List.append_nil] at hread
  rw [read?, String.toList_ofList, hspace, hread]
  rfl

/-- **Reading what was written** in the compact form. -/
theorem read?_render {v : Json} (h : Faithful v) : read? (Json.render v) = some v := by
  rw [Json.render, ← spelled_tight 0 v]
  exact read?_spelled .tight h

/-- **Reading what was written** in the pretty form. -/
theorem read?_renderPretty {v : Json} (h : Faithful v) : read? (Json.renderPretty v) = some v := by
  rw [Json.renderPretty, ← spelled_wide 0 v]
  exact read?_spelled .wide h

end EffectFusion.Json
