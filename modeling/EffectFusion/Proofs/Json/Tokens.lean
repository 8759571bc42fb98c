import EffectFusion.Proofs.Json.Reading
import EffectFusion.Proofs.Script.Refinement

/-!
# Structured data as tokens of a script

The compact text of a value is part of a script, so it is read as tokens there.  A string is one
token whatever is in it: its escapes leave no quote but the closing one where the scanner of
literals would stop.

* `render_tokens`   the tokens of a value make up its text;
* `solid_tokens`    neighbours among them glue, and no statement ends between them;
* `lex_render`      so the text is read as these tokens.
-/

namespace EffectFusion.Json

open Text Number Script

/-! ### Strings -/

theorem closesQuote_escape (c : Char) (rest : List Char) :
    closesQuote '"' false (escape c ++ rest) = closesQuote '"' false rest := by
  have hplain : ∀ c, c ≠ '\\' → c ≠ '"' → ∀ rest,
      closesQuote '"' false (c :: rest) = closesQuote '"' false rest := by
    intro c h1 h2 rest
    rw [closesQuote, if_neg h1, if_neg h2]
  have hescaped : ∀ d rest, closesQuote '"' false ('\\' :: d :: rest) = closesQuote '"' false rest := by
    intro d rest
    rw [closesQuote, if_pos rfl, closesQuote]
  rcases escape_cases c with ⟨d, -, -, he⟩ | ⟨hsmall, he⟩ | ⟨⟨hquote, hslash, -⟩, he⟩
  · rw [he]
    exact hescaped d rest
  · have hhex : ∀ n < 16, hexDigit n ≠ '\\' ∧ hexDigit n ≠ '"' := by decide
    have h1 := hhex (c.toNat / 16) (by omega)
    have h2 := hhex (c.toNat % 16) (by omega)
    simp only [he, List.cons_append, List.nil_append]
    rw [hescaped, hplain '0' (by decide) (by decide), hplain '0' (by decide) (by decide),
      hplain _ h1.1 h1.2, hplain _ h2.1 h2.2]
  · rw [he]
    exact hplain c hslash hquote rest

theorem closesQuote_stringText (s : String) :
    closesQuote '"' false (s.toList.flatMap escape ++ ['"']) = true := by
  induction s.toList with
  | nil => rfl
  | cons c cs ih => rw [List.flatMap_cons, List.append_assoc, closesQuote_escape, ih]

def stringToken (s : String) : Token := ⟨.stringLiteral, stringText s⟩

theorem clean_stringToken (s : String) : Clean (stringToken s) := by
  have hclosed := closesQuote_stringText s
  refine ⟨?_, hclosed, rfl⟩
  refine (stands_iff .stringLiteral '"' (s.toList.flatMap escape ++ ['"']) []).2 ⟨?_, ?_⟩
  · have hkind : ∀ next, kindAt '"' next = .stringLiteral := by
      intro next
      have h : isBlank '"' = false ∧ isQuote '"' = true := by decide
      simp [kindAt, h]
    exact hkind _
  · exact spanQuoted_of_closes hclosed []

/-! ### Tokens of values -/

/-- a number with its sign as tokens -/
def numeralTokens : List Char → List Token
  | '-' :: u => [.mark "-", ⟨.number, u⟩]
  | u => [⟨.number, u⟩]

def keyToken : Option String → Token
  | some k => stringToken k
  | none => stringToken ""

mutual

/-- the tokens of the compact text -/
def tokens : Json → List Token
  | .null => [.name "null"]
  | .bool b => [truthWord b]
  | .whole n => numeralTokens (wholeText n)
  | .real x => if realText x = ['n', 'u', 'l', 'l'] then [.name "null"] else numeralTokens (realText x)
  | .beyond => [.name "null"]
  | .text s => [stringToken s]
  | .unpaired => [stringToken ""]
  | .list items => .mark "[" :: itemTokens items ++ [.mark "]"]
  | .record fields => .mark "\x7b" :: fieldTokens fields ++ [.mark "\x7d"]

def itemTokens : List Json → List Token
  | [] => []
  | [v] => tokens v
  | v :: w :: rest => tokens v ++ .mark "," :: itemTokens (w :: rest)

def fieldTokens : List (Option String × Json) → List Token
  | [] => []
  | [(k, v)] => keyToken k :: .mark ":" :: tokens v
  | (k, v) :: f :: rest => keyToken k :: .mark ":" :: tokens v ++ .mark "," :: fieldTokens (f :: rest)

end

theorem render_numeralTokens (u : List Char) : Script.render (numeralTokens u) = u := by
  unfold numeralTokens
  split
  · simp [Script.render, Token.mark]
  · simp [Script.render]

theorem mark_numeralTokens (u : List Char) :
    ∀ t ∈ numeralTokens u, t.kind = .punctuation → t = .mark "-" := by
  intro t ht hk
  unfold numeralTokens at ht
  split at ht
  · rcases List.mem_cons.1 ht with rfl | ht
    · rfl
    · rw [List.mem_singleton.1 ht] at hk
      cases hk
  · rw [List.mem_singleton.1 ht] at hk
    cases hk

theorem text_keyToken (k : Option String) : (keyToken k).text = keyText k := by
  cases k <;> rfl

mutual

theorem render_tokens : ∀ v : Json, Script.render (tokens v) = compact v
  | .null => rfl
  | .bool true => rfl
  | .bool false => rfl
  | .whole n => render_numeralTokens _
  | .real x => by
    rw [tokens, compact]
    split
    · rename_i h
      rw [h]
      rfl
    · exact render_numeralTokens _
  | .beyond => rfl
  | .text s => by simp [tokens, compact, Script.render, stringToken]
  | .unpaired => by simp [tokens, compact, Script.render, stringToken]
  | .list items => by
    rw [tokens, compact, render_append, render_cons, render_itemTokens items]
    rfl
  | .record fields => by
    rw [tokens, compact, render_append, render_cons, render_fieldTokens fields]
    rfl

theorem render_itemTokens : ∀ vs : List Json, Script.render (itemTokens vs) = compactItems vs
  | [] => rfl
  | [v] => render_tokens v
  | v :: w :: rest => by
    rw [itemTokens, compactItems, render_append, render_cons, render_tokens v,
      render_itemTokens (w :: rest)]
    rfl

theorem render_fieldTokens : ∀ fs : List (Option String × Json),
    Script.render (fieldTokens fs) = compactFields fs
  | [] => rfl
  | [(k, v)] => by
    rw [fieldTokens, compactFields, render_cons, render_cons, render_tokens v, text_keyToken]
    rfl
  | (k, v) :: f :: rest => by
    rw [fieldTokens, compactFields, render_append, render_cons, render_cons, render_cons,
      render_tokens v, render_fieldTokens (f :: rest), text_keyToken]
    simp [Token.mark]

end

theorem render_tokens_toList (v : Json) : Script.render (tokens v) = v.render.toList := by
  rw [render_tokens, render, String.toList_ofList]

/-! ### Neighbours -/

/-- the two glue cleanly, in order, and no statement ends between them -/
structure Solid (a b : Token) : Prop where
  orderly : Orderly a b
  glued : gluesCleanly a b = true
  joined : parts a b = false

instance (a b : Token) : Decidable (Solid a b) :=
  decidable_of_iff ((orderly a b && gluesCleanly a b && !parts a b) = true) (by
    simp only [Bool.and_eq_true, orderly_iff, Bool.not_eq_true']
    exact ⟨fun h => ⟨h.1.1, h.1.2, h.2⟩, fun h => ⟨⟨h.orderly, h.glued⟩, h.joined⟩⟩)

theorem fits_of_solid {a b : Token} (ha : Stands a []) (hb : Stands b []) (h : Solid a b) :
    Fits a b :=
  ⟨((gluesCleanly_iff a b).1 h.glued).1, noPoints_of_orderly ha hb h.orderly⟩

/-- a token that is a value by itself -/
inductive Atom : Token → Prop
  | text (s : String) : Atom (stringToken s)
  | number {u : List Char} (h : NumberText u) : Atom ⟨.number, u⟩
  | word {w : String} (h : w ∈ ["null", "true", "false"]) : Atom (.name w)

/-- a value may start with the token -/
def Opens (t : Token) : Prop := Atom t ∨ ∃ m ∈ ["-", "[", "\x7b"], t = .mark m

/-- a value may end with the token -/
def Closes (t : Token) : Prop := Atom t ∨ ∃ m ∈ ["]", "\x7d"], t = .mark m

theorem opens_mark {m : String} (h : m ∈ ["-", "[", "\x7b"]) : Opens (.mark m) := Or.inr ⟨m, h, rfl⟩

theorem closes_mark {m : String} (h : m ∈ ["]", "\x7d"]) : Closes (.mark m) := Or.inr ⟨m, h, rfl⟩

/-- marks before a value -/
def valuePreceders : List String := ["=", ":", ",", "["]

/-- marks after a value -/
def valueFollowers : List String := [";", ",", "]", "\x7d"]

/-- an operand of its own kind after a mark -/
theorem solid_mark_left {m : String} {t : Token} (hends : endsOperand (.mark m) = false)
    (hp : m ≠ ".") (hstands : Stands (.mark m) t.text) (ht : Stands t []) (hword : t.kind ≠ .word) :
    Solid (.mark m) t := by
  have hglued : gluesCleanly (.mark m) t = true := (gluesCleanly_iff _ _).2 ⟨hstands, ht⟩
  have hpoint : (Token.mark m).text ≠ ['.'] := fun he => hp (String.toList_inj.1 he)
  refine ⟨orderly_mark hpoint hglued (isNameOf_of_not_word hword _), hglued, ?_⟩
  simp [parts, isNameOf_mark, hends]

theorem isDigit_cases {c : Char} (h : isDigit c = true) :
    c ∈ ['0', '1', '2', '3', '4', '5', '6', '7', '8', '9'] := by
  simp only [isDigit, Bool.and_eq_true, decide_eq_true_eq, Char.le_def, UInt32.le_iff_toNat_le] at h
  have hc : c = Char.ofNat c.toNat := (Char.ofNat_toNat c).symm
  have h1 : 48 ≤ c.toNat := h.1
  have h2 : c.toNat ≤ 57 := h.2
  generalize c.toNat = n at hc h1 h2
  subst hc
  have hall : ∀ n < 58, 48 ≤ n → Char.ofNat n ∈ ['0', '1', '2', '3', '4', '5', '6', '7', '8', '9'] := by
    decide
  exact hall n (by omega) h1

theorem stands_mark_quote {m : String} (hm : m ∈ "\x7b" :: valuePreceders) (s : String) :
    Stands (.mark m) (stringToken s).text := by
  have hall : ∀ m ∈ "\x7b" :: valuePreceders, lex (Token.mark m).text = [.mark m] ∧
      (Token.mark m).text ≠ ['.'] ∧ (Token.mark m).stopsBefore '"' = true := by decide +kernel
  obtain ⟨h1, h2, h3⟩ := hall m hm
  exact (stands_cons_iff ((stands_nil_iff _).2 h1) (fun h => h2 h.1)).2 h3

theorem stands_mark_number {m : String} (hm : m ∈ "-" :: valuePreceders) {u : List Char}
    (hu : NumberText u) : Stands (.mark m) u := by
  have hall : ∀ m ∈ "-" :: valuePreceders, lex (Token.mark m).text = [.mark m] ∧
      (Token.mark m).text ≠ ['.'] ∧
      ∀ c ∈ ['0', '1', '2', '3', '4', '5', '6', '7', '8', '9'],
        (Token.mark m).stopsBefore c = true := by decide +kernel
  obtain ⟨h1, h2, h3⟩ := hall m hm
  obtain ⟨c, v, rfl, hc, -⟩ := hu
  exact (stands_cons_iff ((stands_nil_iff _).2 h1) (fun h => h2 h.1)).2 (h3 c (isDigit_cases hc))

theorem solid_opens {m : String} (hm : m ∈ valuePreceders) {t : Token} (ht : Opens t) :
    Solid (.mark m) t := by
  have hends : ∀ m ∈ valuePreceders, endsOperand (.mark m) = false ∧ m ≠ "." := by decide
  obtain ⟨h1, h2⟩ := hends m hm
  rcases ht with ht | ⟨o, ho, rfl⟩
  · cases ht with
    | text s =>
      exact solid_mark_left h1 h2 (stands_mark_quote (List.mem_cons_of_mem _ hm) s)
        (clean_stringToken s).stands (by simp [stringToken])
    | number hu =>
      exact solid_mark_left h1 h2 (stands_mark_number (List.mem_cons_of_mem _ hm) hu)
        (stands_number hu) (by simp)
    | word hw =>
      rename_i w
      have hall : ∀ m ∈ valuePreceders, ∀ w ∈ ["null", "true", "false"],
          Solid (.mark m) (.name w) := by decide +kernel
      exact hall m hm w hw
  · have hall : ∀ m ∈ valuePreceders, ∀ o ∈ ["-", "[", "\x7b"], Solid (.mark m) (.mark o) := by
      decide +kernel
    exact hall m hm o ho

/-- a mark after an operand of its own kind -/
theorem solid_mark_right {m : String} {t : Token} (hstart : startsOperand (.mark m) = false)
    (hm : Stands (.mark m) []) (hstands : Stands t (Token.mark m).text) (hword : t.kind ≠ .word)
    (hmark : t.kind ≠ .punctuation) : Solid t (.mark m) := by
  have hglued : gluesCleanly t (.mark m) = true := (gluesCleanly_iff _ _).2 ⟨hstands, hm⟩
  have hname := isNameOf_of_not_word hword
  refine ⟨⟨Or.inl hglued, fun h => ?_, fun h => ?_, fun h => ?_, fun h => ?_⟩, hglued, ?_⟩
  · rw [hname] at h
    cases h
  · rw [isMark_of_not_mark hmark] at h
    cases h
  · rw [Token.isTruthWord, isNameOf_mark] at h
    cases h
  · rw [Token.isTruthWord, hname] at h
    cases h
  · simp [parts, hname, hstart]

theorem solid_closes {m : String} (hm : m ∈ valueFollowers) {t : Token} (ht : Closes t) :
    Solid t (.mark m) := by
  have hmarks : ∀ m ∈ valueFollowers, startsOperand (.mark m) = false ∧
      lex (Token.mark m).text = [.mark m] ∧ m.toList.length = 1 ∧
        ∀ c ∈ m.toList, isAlnum c = false ∧ c ≠ '.' ∧ c ≠ '_' ∧ c ≠ '+' ∧ c ≠ '-' := by
    decide +kernel
  obtain ⟨h1, h2, hone, h3⟩ := hmarks m hm
  obtain ⟨c, hc⟩ := List.length_eq_one_iff.1 hone
  have h3 : ∀ b, isNumberPart b c = false := not_numberPart (h3 c (by simp [hc]))
  have hstands : Stands (.mark m) [] := (stands_nil_iff _).2 h2
  rcases ht with ht | ⟨o, ho, rfl⟩
  · cases ht with
    | text s =>
      refine solid_mark_right h1 hstands ?_ (by simp [stringToken]) (by simp [stringToken])
      exact stands_literal (clean_stringToken s) rfl _
    | number hu =>
      refine solid_mark_right h1 hstands ?_ (by simp) (by simp)
      obtain ⟨d, v, rfl, hd, -⟩ := id hu
      have htext : (Token.mark m).text = [c] := hc
      have hne : d ≠ '.' ∧ d ≠ '/' := by
        constructor <;> rintro rfl <;> exact absurd hd (by decide)
      rw [htext]
      refine (stands_cons_iff (stands_number hu) (fun h => hne.1 (List.cons.inj h.1).1)).2 ?_
      simp [Token.stopsBefore, Token.cutBefore, Token.changesKind, h3, hne]
    | word hw =>
      rename_i w
      have hall : ∀ m ∈ valueFollowers, ∀ w ∈ ["null", "true", "false"],
          Solid (.name w) (.mark m) := by decide +kernel
      exact hall m hm w hw
  · have hall : ∀ m ∈ valueFollowers, ∀ o ∈ ["]", "\x7d"], Solid (.mark o) (.mark m) := by
      decide +kernel
    exact hall m hm o ho

/-! ### Values -/

/-- tokens that stand together as those of a value do -/
structure Whole (ts : List Token) : Prop where
  opens : ∃ t, ts.head? = some t ∧ Opens t
  closes : ∃ t, ts.getLast? = some t ∧ Closes t
  solid : ts.IsChain Solid

theorem whole_atom {t : Token} (h : Atom t) : Whole [t] :=
  ⟨⟨t, rfl, Or.inl h⟩, ⟨t, rfl, Or.inl h⟩, List.isChain_singleton t⟩

theorem Whole.joined {ts us : List Token} {m : String} (h : Whole ts)
    (hleft : ∀ t ∈ ts.getLast?, Solid t (.mark m)) (hm : m ∈ valuePreceders) (h' : Whole us) :
    Whole (ts ++ .mark m :: us) := by
  obtain ⟨a, ha, hopens⟩ := h.opens
  obtain ⟨b, hb, hb'⟩ := h'.opens
  obtain ⟨c, hc, hcloses⟩ := h'.closes
  refine ⟨⟨a, ?_, hopens⟩, ⟨c, ?_, hcloses⟩, ?_⟩
  · rw [List.head?_append, ha]
    rfl
  · rw [List.getLast?_append, List.getLast?_cons, hc]
    rfl
  · refine h.solid.append (h'.solid.cons (fun u hu => ?_)) (fun t ht u hu => ?_)
    · rw [Option.mem_def.1 hu] at hb
      rw [Option.some.inj hb]
      exact solid_opens hm hb'
    · obtain rfl := Option.some.inj hu
      exact hleft t ht

theorem Whole.bracketed {ts : List Token} {o c : String} (h : Whole ts)
    (hleft : ∀ t ∈ ts.head?, Solid (.mark o) t) (ho : Opens (.mark o)) (hc : c ∈ valueFollowers)
    (hcloses : Closes (.mark c)) : Whole (.mark o :: ts ++ [.mark c]) := by
  obtain ⟨b, hb, hb'⟩ := h.closes
  refine ⟨⟨_, rfl, ho⟩, ⟨_, List.getLast?_concat, hcloses⟩, ?_⟩
  refine (h.solid.cons hleft).append (List.isChain_singleton _) (fun t ht u hu => ?_)
  obtain rfl : .mark c = u := Option.some.inj hu
  rw [List.getLast?_cons, hb] at ht
  obtain rfl : b = t := Option.some.inj ht
  exact solid_closes hc hb'

theorem numeralTokens_signed {b : Bool} {u : List Char} (h : NumberText u) :
    numeralTokens (signed b u) = (if b then [.mark "-"] else []) ++ [⟨.number, u⟩] := by
  cases b with
  | true => rfl
  | false =>
    obtain ⟨d, v, rfl, hd, -⟩ := h
    have hne : d ≠ '-' := by
      rintro rfl
      exact absurd hd (by decide)
    show numeralTokens (d :: v) = [⟨.number, d :: v⟩]
    unfold numeralTokens
    split
    · rename_i he
      exact absurd (List.cons.inj he).1 hne
    · rfl

theorem whole_numeral {b : Bool} {u : List Char} (h : NumberText u) :
    Whole (numeralTokens (signed b u)) := by
  rw [numeralTokens_signed h]
  cases b with
  | false => exact whole_atom (.number h)
  | true =>
    have hends : endsOperand (.mark "-") = false := by decide
    refine ⟨⟨_, rfl, opens_mark (by decide)⟩, ⟨_, rfl, Or.inl (.number h)⟩, ?_⟩
    refine List.isChain_cons_cons.2 ⟨?_, List.isChain_singleton _⟩
    exact solid_mark_left hends (by decide) (stands_mark_number List.mem_cons_self h)
      (stands_number h) (by simp)

theorem whole_empty {o c : String} (ho : o ∈ ["-", "[", "\x7b"]) (hc : c ∈ ["]", "\x7d"])
    (h : Solid (.mark o) (.mark c)) : Whole [.mark o, .mark c] :=
  ⟨⟨_, rfl, opens_mark ho⟩, ⟨_, rfl, closes_mark hc⟩,
    List.isChain_cons_cons.2 ⟨h, List.isChain_singleton _⟩⟩

theorem keyToken_eq (k : Option String) : ∃ s, keyToken k = stringToken s := by
  cases k with
  | none => exact ⟨"", rfl⟩
  | some s => exact ⟨s, rfl⟩

theorem solid_key_colon (s : String) : Solid (stringToken s) (.mark ":") := by
  have hcolon : startsOperand (.mark ":") = false ∧ lex (Token.mark ":").text = [.mark ":"] := by
    decide +kernel
  exact solid_mark_right hcolon.1 ((stands_nil_iff _).2 hcolon.2)
    (stands_literal (clean_stringToken s) rfl _) (by simp [stringToken]) (by simp [stringToken])

theorem Whole.keyed {ts : List Token} (h : Whole ts) (s : String) :
    Whole (stringToken s :: .mark ":" :: ts) := by
  refine (whole_atom (.text s)).joined (fun t ht => ?_) (by decide) h
  obtain rfl := Option.some.inj ht
  exact solid_key_colon s

theorem Whole.separated {ts us : List Token} (h : Whole ts) (h' : Whole us) :
    Whole (ts ++ .mark "," :: us) := by
  refine h.joined (fun t ht => ?_) (by decide) h'
  obtain ⟨c, hc, hcloses⟩ := h.closes
  rw [Option.mem_def.1 ht] at hc
  rw [Option.some.inj hc]
  exact solid_closes (by decide) hcloses

theorem head?_fieldTokens (f : Option String × Json) (fs : List (Option String × Json)) :
    (fieldTokens (f :: fs)).head? = some (keyToken f.1) := by
  cases fs <;> rfl

mutual

theorem solid_tokens : ∀ v : Json, Whole (tokens v)
  | .null => whole_atom (.word (by decide))
  | .bool true => whole_atom (.word (by decide))
  | .bool false => whole_atom (.word (by decide))
  | .whole n => by
    obtain ⟨b, u, hu, he⟩ := wholeText_cases n
    rw [tokens, he]
    exact whole_numeral hu
  | .real x => by
    rw [tokens]
    split
    · exact whole_atom (.word (by decide))
    · rename_i hnull
      obtain ⟨b, u, hu, he⟩ := (realText_cases x).resolve_left hnull
      rw [he]
      exact whole_numeral hu
  | .beyond => whole_atom (.word (by decide))
  | .text s => whole_atom (.text s)
  | .unpaired => whole_atom (.text "")
  | .list [] => whole_empty (by decide) (by decide) (by decide +kernel)
  | .list (v :: vs) => by
    have hitems := solid_itemTokens (v :: vs) (by simp)
    obtain ⟨a, ha, ha'⟩ := hitems.opens
    rw [tokens]
    refine hitems.bracketed (fun t ht => ?_) (opens_mark (by decide)) (by decide)
      (closes_mark (by decide))
    rw [Option.mem_def.1 ht] at ha
    rw [Option.some.inj ha]
    exact solid_opens (by decide) ha'
  | .record [] => whole_empty (by decide) (by decide) (by decide +kernel)
  | .record (f :: fs) => by
    have hends : endsOperand (.mark "\x7b") = false := by decide
    obtain ⟨s, hs⟩ := keyToken_eq f.1
    rw [tokens]
    refine (solid_fieldTokens (f :: fs) (by simp)).bracketed (fun t ht => ?_)
      (opens_mark (by decide)) (by decide) (closes_mark (by decide))
    rw [head?_fieldTokens, hs] at ht
    obtain rfl := Option.some.inj ht
    exact solid_mark_left hends (by decide) (stands_mark_quote List.mem_cons_self s)
      (clean_stringToken s).stands (by simp [stringToken])

theorem solid_itemTokens : ∀ vs : List Json, vs ≠ [] → Whole (itemTokens vs)
  | [], hne => absurd rfl hne
  | [v], _ => solid_tokens v
  | v :: w :: rest, _ => by
    rw [itemTokens]
    exact (solid_tokens v).separated (solid_itemTokens (w :: rest) (by simp))

theorem solid_fieldTokens : ∀ fs : List (Option String × Json), fs ≠ [] → Whole (fieldTokens fs)
  | [], hne => absurd rfl hne
  | [(k, v)], _ => by
    obtain ⟨s, hs⟩ := keyToken_eq k
    rw [fieldTokens, hs]
    exact (solid_tokens v).keyed s
  | (k, v) :: f :: rest, _ => by
    obtain ⟨s, hs⟩ := keyToken_eq k
    rw [fieldTokens, hs]
    exact ((solid_tokens v).keyed s).separated (solid_fieldTokens (f :: rest) (by simp))

end

/-- marks of values -/
def valueMarks : List String := ["-", "[", "]", "\x7b", "\x7d", ":", ","]

/-- a token that occurs in values -/
def Occurs (t : Token) : Prop := Atom t ∨ ∃ m ∈ valueMarks, t = .mark m

theorem clean_occurs {t : Token} (h : Occurs t) : Clean t := by
  have hwords : ∀ w ∈ ["null", "true", "false"], lex (Token.name w).text = [.name w] := by
    decide +kernel
  have hmarks : ∀ m ∈ valueMarks, lex (Token.mark m).text = [.mark m] := by decide +kernel
  rcases h with h | ⟨m, hm, rfl⟩
  · cases h with
    | text s => exact clean_stringToken s
    | number hu => exact clean_of_stands (stands_number hu) rfl rfl
    | word hw => exact clean_of_stands ((stands_nil_iff _).2 (hwords _ hw)) rfl rfl
  · exact clean_of_stands ((stands_nil_iff _).2 (hmarks m hm)) rfl rfl

theorem occurs_mark {m : String} (h : m ∈ valueMarks) : Occurs (.mark m) := Or.inr ⟨m, h, rfl⟩

theorem occurs_key (k : Option String) : Occurs (keyToken k) := by
  obtain ⟨s, hs⟩ := keyToken_eq k
  rw [hs]
  exact Or.inl (.text s)

theorem occurs_atom {t : Token} (h : Atom t) : ∀ u ∈ [t], Occurs u :=
  List.forall_mem_singleton.2 (Or.inl h)

theorem occurs_numeral {b : Bool} {u : List Char} (h : NumberText u) :
    ∀ t ∈ numeralTokens (signed b u), Occurs t := by
  rw [numeralTokens_signed h]
  refine List.forall_mem_append.2 ⟨?_, occurs_atom (.number h)⟩
  cases b with
  | true => exact List.forall_mem_singleton.2 (occurs_mark (by decide))
  | false => exact List.forall_mem_nil _

section Occurs

variable {ts us : List Token} (h : ∀ t ∈ ts, Occurs t)

include h

theorem occurs_bracketed {o c : String} (ho : o ∈ valueMarks) (hc : c ∈ valueMarks) :
    ∀ t ∈ .mark o :: ts ++ [.mark c], Occurs t :=
  List.forall_mem_append.2 ⟨List.forall_mem_cons.2 ⟨occurs_mark ho, h⟩,
    List.forall_mem_singleton.2 (occurs_mark hc)⟩

theorem occurs_separated (h' : ∀ t ∈ us, Occurs t) : ∀ t ∈ ts ++ .mark "," :: us, Occurs t :=
  List.forall_mem_append.2 ⟨h, List.forall_mem_cons.2 ⟨occurs_mark (by decide), h'⟩⟩

theorem occurs_keyed (k : Option String) : ∀ t ∈ keyToken k :: .mark ":" :: ts, Occurs t :=
  List.forall_mem_cons.2 ⟨occurs_key k, List.forall_mem_cons.2 ⟨occurs_mark (by decide), h⟩⟩

end Occurs

mutual

theorem occurs_tokens : ∀ v : Json, ∀ t ∈ tokens v, Occurs t
  | .null => occurs_atom (.word (by decide))
  | .bool true => occurs_atom (.word (by decide))
  | .bool false => occurs_atom (.word (by decide))
  | .whole n => by
    obtain ⟨b, u, hu, he⟩ := wholeText_cases n
    rw [tokens, he]
    exact occurs_numeral hu
  | .real x => by
    rw [tokens]
    split
    · exact occurs_atom (.word (by decide))
    · rename_i hnull
      obtain ⟨b, u, hu, he⟩ := (realText_cases x).resolve_left hnull
      rw [he]
      exact occurs_numeral hu
  | .beyond => occurs_atom (.word (by decide))
  | .text s => occurs_atom (.text s)
  | .unpaired => occurs_atom (.text "")
  | .list items => by
    rw [tokens]
    exact occurs_bracketed (occurs_itemTokens items) (by decide) (by decide)
  | .record fields => by
    rw [tokens]
    exact occurs_bracketed (occurs_fieldTokens fields) (by decide) (by decide)

theorem occurs_itemTokens : ∀ vs : List Json, ∀ t ∈ itemTokens vs, Occurs t
  | [] => List.forall_mem_nil _
  | [v] => occurs_tokens v
  | v :: w :: rest => by
    rw [itemTokens]
    exact occurs_separated (occurs_tokens v) (occurs_itemTokens (w :: rest))

theorem occurs_fieldTokens : ∀ fs : List (Option String × Json), ∀ t ∈ fieldTokens fs, Occurs t
  | [] => List.forall_mem_nil _
  | [(k, v)] => by
    rw [fieldTokens]
    exact occurs_keyed (occurs_tokens v) k
  | (k, v) :: f :: rest => by
    rw [fieldTokens]
    exact occurs_separated (occurs_keyed (occurs_tokens v) k) (occurs_fieldTokens (f :: rest))

end

/-- the compact text is read as the tokens of the value -/
theorem lex_render (v : Json) : lex v.render.toList = tokens v := by
  have hstands : ∀ t ∈ tokens v, Stands t [] := fun t ht =>
    (clean_occurs (occurs_tokens v t ht)).stands
  have hfits : (tokens v).IsChain Fits := (solid_tokens v).solid.imp_of_mem_imp
    fun a b ha hb hab => fits_of_solid (hstands a ha) (hstands b hb) hab
  rw [← render_tokens_toList]
  exact lex_render_of_fits hstands hfits

end EffectFusion.Json
