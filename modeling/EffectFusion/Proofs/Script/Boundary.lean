import EffectFusion.Proofs.Script.Spans

/-!
# Where a token ends

`Stands t rest` says that `t` is read off the front of its text followed by `rest`.  Whether it
is hangs on the next character alone (`stands_cons_iff`), with one exception: a point before a
point may be the start of `...`.

* `Stands.shorten`    a token also stands before less text;
* `Stands.change`     and before any other text that starts with the same character;
* `lex_induction`     a property of scripts, token by token;
* `lex_middle`        neighbouring tokens of a script are read again when they stand alone;
* `gluesCleanly_iff`  two tokens glue when the first stands before the second.
-/

namespace EffectFusion.Script

open Text

/-! ### Closed tokens -/

/-- ends with the first quote that no backslash takes -/
def closesQuote (quote : Char) : Bool → List Char → Bool
  | _, [] => false
  | true, _ :: rest => closesQuote quote false rest
  | false, c :: rest =>
    if c = '\\' then closesQuote quote true rest
    else if c = quote then rest.isEmpty
    else closesQuote quote false rest

/-- ends with the first star before a slash -/
def closesBlock : List Char → Bool
  | [] => false
  | c :: rest => if c = '*' ∧ rest.head? = some '/' then rest.tail.isEmpty else closesBlock rest

/-- a string or a template -/
def Token.isLiteral (t : Token) : Bool := t.kind = .stringLiteral || t.kind = .templateLiteral

/-- a literal with its closing quote, a block comment with its closing mark; any other token -/
def Token.isClosed (t : Token) : Bool :=
  match t.kind with
  | .stringLiteral | .templateLiteral => closesQuote (t.text.head?.getD '"') false t.text.tail
  | .blockComment => closesBlock (t.text.drop 2)
  | _ => true

theorem spanQuoted_of_closes {quote : Char} {escaped : Bool} {u : List Char}
    (h : closesQuote quote escaped u = true) (x : List Char) :
    spanQuoted quote escaped (u ++ x) = (u, x) := by
  induction u generalizing escaped with
  | nil => simp [closesQuote] at h
  | cons c u ih =>
    cases escaped with
    | true =>
      rw [closesQuote] at h
      rw [List.cons_append, spanQuoted, ih h]
    | false =>
      rw [closesQuote] at h
      rw [List.cons_append, spanQuoted]
      by_cases hb : c = '\\'
      · rw [if_pos hb] at h
        rw [if_pos hb, ih h]
      · rw [if_neg hb] at h
        rw [if_neg hb]
        by_cases hq : c = quote
        · rw [if_pos hq, List.isEmpty_iff] at h
          rw [if_pos hq, h, List.nil_append]
        · rw [if_neg hq] at h
          rw [if_neg hq, ih h]

theorem closes_of_spanQuoted {quote : Char} {escaped : Bool} {u x : List Char} (hx : x ≠ [])
    (h : spanQuoted quote escaped (u ++ x) = (u, x)) : closesQuote quote escaped u = true := by
  -- a literal that bears any text behind it has read its closing quote
  have hnil := spanQuoted_change hx h ['\\', 'a']
  induction u generalizing escaped with
  | nil => cases escaped <;> simp [spanQuoted] at hnil
  | cons c u ih =>
    have hrest : ∀ e : Bool, ((c :: (spanQuoted quote e (u ++ x)).1,
        (spanQuoted quote e (u ++ x)).2) = (c :: u, x)) → closesQuote quote e u = true := by
      intro e he
      have he' : spanQuoted quote e (u ++ x) = (u, x) := by simpa [Prod.ext_iff] using he
      exact ih he' (spanQuoted_change hx he' _)
    cases escaped with
    | true =>
      rw [List.cons_append, spanQuoted] at h
      rw [closesQuote, hrest _ h]
    | false =>
      rw [List.cons_append, spanQuoted] at h
      rw [closesQuote]
      by_cases hb : c = '\\'
      · rw [if_pos hb] at h
        rw [if_pos hb, hrest _ h]
      · rw [if_neg hb] at h
        rw [if_neg hb]
        by_cases hq : c = quote
        · rw [if_pos hq] at h
          rw [if_pos hq, List.isEmpty_iff]
          simpa using (Prod.mk.inj h).1.symm
        · rw [if_neg hq] at h
          rw [if_neg hq, hrest _ h]

theorem spanBlock_of_closes {u : List Char} (h : closesBlock u = true) (x : List Char) :
    spanBlock (u ++ x) = (u, x) := by
  induction u with
  | nil => simp [closesBlock] at h
  | cons c u ih =>
    rw [closesBlock] at h
    by_cases hc : c = '*' ∧ u.head? = some '/'
    · obtain ⟨rfl, hd⟩ := hc
      obtain ⟨v, rfl⟩ := List.head?_eq_some_iff.1 hd
      have hv : v = [] := by simpa using h
      rw [hv, List.cons_append, List.cons_append, spanBlock_close, List.nil_append]
    · rw [if_neg hc] at h
      have hne : u ≠ [] := by rintro rfl; simp [closesBlock] at h
      have hc' : ¬ (c = '*' ∧ (u ++ x).head? = some '/') := by
        rwa [List.head?_append_of_ne_nil _ hne]
      rw [List.cons_append, spanBlock_cons _ _ hc', ih h]

theorem closes_of_spanBlock {u x : List Char} (hx : x ≠ []) (h : spanBlock (u ++ x) = (u, x)) :
    closesBlock u = true := by
  induction u with
  | nil =>
    have := spanBlock_change hx h ['a']
    simp [spanBlock] at this
  | cons c u ih =>
    rw [closesBlock]
    by_cases hc : c = '*' ∧ u.head? = some '/'
    · rw [if_pos hc]
      obtain ⟨rfl, hd⟩ := hc
      obtain ⟨v, rfl⟩ := List.head?_eq_some_iff.1 hd
      rw [List.cons_append, List.cons_append, spanBlock_close] at h
      simpa using (Prod.mk.inj h).1.symm
    · rw [if_neg hc]
      have hc' : ¬ (c = '*' ∧ (u ++ x).head? = some '/') := by
        cases u with
        | nil =>
          intro hs
          obtain ⟨rfl, hs⟩ := hs
          obtain ⟨y, rfl⟩ := List.head?_eq_some_iff.1 hs
          rw [List.cons_append, List.nil_append, spanBlock_close] at h
          simp at h
        | cons d u => simpa using hc
      rw [List.cons_append, spanBlock_cons _ _ hc'] at h
      exact ih (by simpa [Prod.ext_iff] using h)

/-! ### Standing before a text -/

/-- `t` is read off the front of its text followed by `rest` -/
def Stands (t : Token) (rest : List Char) : Prop := lex (t.text ++ rest) = t :: lex rest

instance (t : Token) (rest : List Char) : Decidable (Stands t rest) :=
  inferInstanceAs (Decidable (_ = _))

theorem stands_iff (k : Kind) (c : Char) (u rest : List Char) :
    Stands ⟨k, c :: u⟩ rest ↔
      kindAt c (u ++ rest).head? = k ∧ spanAt k c (u ++ rest) = (u, rest) := by
  have happ := firstSpan_append c (u ++ rest)
  unfold Stands
  show lex (c :: (u ++ rest)) = _ ↔ _
  rw [lex_cons, firstToken]
  rw [firstSpan_eq] at happ ⊢
  constructor
  · intro h
    obtain ⟨ht, -⟩ := List.cons.inj h
    obtain ⟨hk, hu⟩ := Token.mk.inj ht
    have hu : (spanAt (kindAt c (u ++ rest).head?) c (u ++ rest)).1 = u := (List.cons.inj hu).2
    have hk : kindAt c (u ++ rest).head? = k := hk
    refine ⟨hk, ?_⟩
    rw [hk] at hu happ
    have hrest : u ++ (spanAt k c (u ++ rest)).2 = u ++ rest := by rw [← hu]; simpa [hu] using happ
    exact Prod.ext hu (List.append_cancel_left hrest)
  · rintro ⟨hk, hs⟩
    rw [hk, hs]

theorem Stands.text_ne_nil {t : Token} {rest : List Char} (h : Stands t rest) : t.text ≠ [] := by
  intro he
  unfold Stands at h
  rw [he, List.nil_append] at h
  simp at h

theorem Stands.exists_cons {t : Token} {rest : List Char} (h : Stands t rest) :
    ∃ k c u, t = ⟨k, c :: u⟩ := by
  obtain ⟨k, text⟩ := t
  obtain ⟨c, u, hc⟩ := List.exists_cons_of_ne_nil h.text_ne_nil
  have hc : text = c :: u := hc
  exact ⟨k, c, u, by rw [hc]⟩

/-! ### The next character -/

/-- the text of `t` is cut off before the character `d` -/
def Token.cutBefore (t : Token) (d : Char) : Bool :=
  match t.kind with
  | .whitespace => !isBlank d
  | .lineComment => d = '\n'
  | .stringLiteral | .templateLiteral | .blockComment => t.isClosed
  | .word => !isWordPart d
  | .number => !isNumberPart (lastOf '.' t.text) d
  | .punctuation => !isOperator (t.text ++ [d])

/-- before `d` the text of `t` starts a comment or a number -/
def Token.changesKind (t : Token) (d : Char) : Bool :=
  (t.text = ['/'] && (d = '/' || d = '*')) || (t.text = ['.'] && isDigit d)

/-- `t` ends before `d` -/
def Token.stopsBefore (t : Token) (d : Char) : Bool := t.cutBefore d && !t.changesKind d

theorem kindAt_some_of_none {c d : Char} (hs : ¬ (c = '/' ∧ (d = '/' ∨ d = '*')))
    (hp : ¬ (c = '.' ∧ isDigit d = true)) : kindAt c (some d) = kindAt c none := by
  have h1 : ¬ (c = '/' ∧ d = '/') := fun h => hs ⟨h.1, Or.inl h.2⟩
  have h2 : ¬ (c = '/' ∧ d = '*') := fun h => hs ⟨h.1, Or.inr h.2⟩
  simp [kindAt, h1, h2, hp]

theorem kindAt_slash_none : kindAt '/' none = .punctuation := by decide

theorem kindAt_slash_slash : kindAt '/' (some '/') = .lineComment := by decide

theorem kindAt_slash_star : kindAt '/' (some '*') = .blockComment := by decide

theorem kindAt_point_none : kindAt '.' none = .punctuation := by decide

theorem kindAt_point_digit {d : Char} (h : isDigit d = true) : kindAt '.' (some d) = .number := by
  have hp : isBlank '.' = false ∧ isQuote '.' = false := by decide
  simp [kindAt, hp.1, hp.2, h]

/-- a token of a single character has the same kind before `d` or nothing before `d` is read -/
theorem kindAt_some_iff {c d : Char} :
    kindAt c (some d) = kindAt c none ↔
      ¬ (c = '/' ∧ (d = '/' ∨ d = '*')) ∧ ¬ (c = '.' ∧ isDigit d = true) := by
  constructor
  · intro h
    constructor
    · rintro ⟨rfl, rfl | rfl⟩
      · rw [kindAt_slash_slash, kindAt_slash_none] at h
        cases h
      · rw [kindAt_slash_star, kindAt_slash_none] at h
        cases h
    · rintro ⟨rfl, hd⟩
      rw [kindAt_point_digit hd, kindAt_point_none] at h
      cases h
  · exact fun h => kindAt_some_of_none h.1 h.2

theorem spanQuoted_cons_iff (c d : Char) (u z : List Char) :
    spanQuoted c false (u ++ d :: z) = (u, d :: z) ↔ closesQuote c false u = true :=
  ⟨closes_of_spanQuoted (List.cons_ne_nil d z), fun h => spanQuoted_of_closes h _⟩

theorem spanBlock_cons_iff (d : Char) (u z : List Char) :
    spanBlock (u ++ d :: z) = (u, d :: z) ↔ closesBlock u = true :=
  ⟨closes_of_spanBlock (List.cons_ne_nil d z), fun h => spanBlock_of_closes h _⟩

theorem spanOperator_cons_iff {c d : Char} {u z : List Char} (h : spanOperator c u = (u, []))
    (hdots : ¬ (c = '.' ∧ u = [] ∧ d = '.')) :
    spanOperator c (u ++ d :: z) = (u, d :: z) ↔ isOperator (c :: (u ++ [d])) = false := by
  constructor
  · intro hs
    by_contra hop
    have h1 := ((spanOperator_eq_iff c u (d :: z)).1 hs).2 _ (by simpa using hop) (by simp)
    rw [List.length_cons, List.length_append, List.length_singleton] at h1
    omega
  · intro hop
    rw [← List.append_nil u] at h
    have h1 := ((spanOperator_eq_iff c u []).1 (by simpa using h))
    have hone : spanOperator c (u ++ [d]) = (u, [d]) := by
      refine (spanOperator_eq_iff c u [d]).2 ⟨h1.1, fun s hs hp => ?_⟩
      rcases List.prefix_concat_iff.1 (show s <+: (c :: u) ++ [d] from hp) with rfl | hp
      · rw [List.cons_append] at hs
        rw [hs] at hop
        cases hop
      · exact h1.2 s hs (by simpa using hp)
    exact spanOperator_change hone hdots z

/-- a token that is cut off at the end of the text is cut off before `d` as well, or it is not -/
theorem spanAt_cons_iff {k : Kind} {c d : Char} {u z : List Char} (hs : spanAt k c u = (u, []))
    (hdots : ¬ (c = '.' ∧ u = [] ∧ d = '.')) :
    spanAt k c (u ++ d :: z) = (u, d :: z) ↔ (Token.mk k (c :: u)).cutBefore d = true := by
  have hrun : ∀ p : Char → Bool, spanWhile p u = (u, []) →
      (spanWhile p (u ++ d :: z) = (u, d :: z) ↔ p d = false) := by
    intro p hp
    have h1 := (spanWhile_eq_iff p u []).1 (by simpa using hp)
    rw [spanWhile_eq_iff]
    exact ⟨fun h => h.2 d rfl, fun h => ⟨h1.1, by simpa using h⟩⟩
  cases k with
  | whitespace =>
    show spanWhile isBlank (u ++ d :: z) = (u, d :: z) ↔ (!isBlank d) = true
    rw [hrun _ hs, Bool.not_eq_true']
  | lineComment =>
    show spanWhile (· ≠ '\n') (u ++ d :: z) = (u, d :: z) ↔ decide (d = '\n') = true
    rw [hrun _ hs]
    simp
  | stringLiteral => exact spanQuoted_cons_iff c d u z
  | templateLiteral => exact spanQuoted_cons_iff c d u z
  | blockComment =>
    obtain ⟨v, rfl⟩ : ∃ v, u = '*' :: v := ⟨(spanBlock u.tail).1, ((Prod.mk.inj hs).1).symm⟩
    show ('*' :: (spanBlock (v ++ d :: z)).1, (spanBlock (v ++ d :: z)).2) = ('*' :: v, d :: z) ↔
      closesBlock v = true
    rw [← spanBlock_cons_iff d v z]
    simp [Prod.ext_iff]
  | word =>
    show spanWhile isWordPart (u ++ d :: z) = (u, d :: z) ↔ (!isWordPart d) = true
    rw [hrun _ hs, Bool.not_eq_true']
  | number =>
    have hs : spanNumber c u = (u, []) := hs
    have hl : lastOf '.' (c :: u) = lastOf c u := lastOf_cons '.' c u
    show spanNumber c (u ++ d :: z) = (u, d :: z) ↔ _
    rw [spanNumber_eq_iff]
    simp [hs, Token.cutBefore, hl]
  | punctuation =>
    have hs : spanOperator c u = (u, []) := hs
    show spanOperator c (u ++ d :: z) = (u, d :: z) ↔ (!isOperator (c :: u ++ [d])) = true
    rw [spanOperator_cons_iff hs hdots, Bool.not_eq_true', List.cons_append]

/-- a token that is read on its own is read before `d` and any further text if it ends there -/
theorem stands_cons_iff {t : Token} {d : Char} {z : List Char} (ht : Stands t [])
    (hdots : ¬ (t.text = ['.'] ∧ d = '.')) : Stands t (d :: z) ↔ t.stopsBefore d = true := by
  obtain ⟨k, c, u, rfl⟩ := ht.exists_cons
  obtain ⟨hk, hs⟩ := (stands_iff k c u []).1 ht
  rw [List.append_nil] at hk hs
  have hdots' : ¬ (c = '.' ∧ u = [] ∧ d = '.') := by
    rintro ⟨rfl, rfl, rfl⟩
    exact hdots ⟨rfl, rfl⟩
  have hkind : kindAt c (u ++ d :: z).head? = k ↔ (Token.mk k (c :: u)).changesKind d = false := by
    cases u with
    | nil =>
      have hk : kindAt c none = k := hk
      rw [← hk]
      simpa [Token.changesKind] using kindAt_some_iff
    | cons e u => simpa [Token.changesKind] using hk
  rw [stands_iff, spanAt_cons_iff hs hdots', hkind, Token.stopsBefore, Bool.and_eq_true,
    Bool.not_eq_true', and_comm]

/-! ### Less text and other text -/

theorem spanAt_alone {k : Kind} {c : Char} {u y : List Char}
    (h : spanAt k c (u ++ y) = (u, y)) : spanAt k c u = (u, []) := by
  have hrun : ∀ p : Char → Bool, spanWhile p (u ++ y) = (u, y) → spanWhile p u = (u, []) := by
    intro p hp
    have h1 := (spanWhile_eq_iff p u []).2 ⟨((spanWhile_eq_iff p u y).1 hp).1, by simp⟩
    rwa [List.append_nil] at h1
  cases y with
  | nil => simpa using h
  | cons d z =>
    cases k with
    | whitespace => exact hrun _ h
    | lineComment => exact hrun _ h
    | stringLiteral | templateLiteral =>
      have h1 := spanQuoted_change (List.cons_ne_nil d z) h []
      rwa [List.append_nil] at h1
    | blockComment =>
      have h1 : '*' :: (spanBlock (u ++ d :: z).tail).1 = u := (Prod.mk.inj h).1
      obtain ⟨v, rfl⟩ : ∃ v, u = '*' :: v := ⟨_, h1.symm⟩
      have h2 : spanBlock (v ++ d :: z) = (v, d :: z) := by simpa [spanAt, Prod.ext_iff] using h
      have h3 := spanBlock_change (List.cons_ne_nil d z) h2 []
      rw [List.append_nil] at h3
      show ('*' :: (spanBlock v).1, (spanBlock v).2) = ('*' :: v, [])
      rw [h3]
    | word => exact hrun _ h
    | number => exact ((spanNumber_eq_iff c u (d :: z)).1 h).1
    | punctuation =>
      have h1 : spanOperator c (u ++ ([] ++ d :: z)) = (u, [] ++ d :: z) := h
      simpa [spanAt] using spanOperator_shorten h1

theorem Stands.alone {t : Token} {y : List Char} (h : Stands t y) : Stands t [] := by
  obtain ⟨k, c, u, rfl⟩ := h.exists_cons
  obtain ⟨hk, hs⟩ := (stands_iff k c u y).1 h
  refine (stands_iff k c u []).2 ?_
  rw [List.append_nil]
  refine ⟨?_, spanAt_alone hs⟩
  cases u with
  | cons e u => simpa using hk
  | nil =>
    cases y with
    | nil => exact hk
    | cons d z =>
      have hk : kindAt c (some d) = k := hk
      refine Eq.trans (kindAt_some_of_none ?_ ?_).symm hk
      · -- a comment or number takes the character that makes it one
        rintro ⟨rfl, rfl | rfl⟩
        · rw [kindAt_slash_slash] at hk
          subst hk
          simp [spanAt, spanWhile] at hs
        · rw [kindAt_slash_star] at hk
          subst hk
          simp [spanAt] at hs
      · rintro ⟨rfl, hd⟩
        rw [kindAt_point_digit hd] at hk
        subst hk
        simp [spanAt, spanNumber, isNumberPart, isAlnum, hd] at hs

theorem kind_of_stands_point {k : Kind} (h : Stands ⟨k, ['.']⟩ []) : k = .punctuation := by
  have hk : kindAt '.' none = k := ((stands_iff k '.' [] []).1 h).1
  rw [← hk, kindAt_point_none]

theorem isClosed_of_stands_cons {t : Token} {d : Char} {x : List Char} (h : Stands t (d :: x)) :
    t.isClosed = true := by
  by_cases hpoint : t.text = ['.'] ∧ d = '.'
  · obtain ⟨k, text⟩ := t
    obtain rfl : text = ['.'] := hpoint.1
    rw [kind_of_stands_point h.alone]
    rfl
  · have hstops := (stands_cons_iff h.alone hpoint).1 h
    rw [Token.stopsBefore, Bool.and_eq_true] at hstops
    have hcut := hstops.1
    unfold Token.cutBefore at hcut
    cases hk : t.kind with
    | stringLiteral | templateLiteral | blockComment => rwa [hk] at hcut
    | whitespace | lineComment | word | number | punctuation => simp [Token.isClosed, hk]

theorem Stands.shorten {t : Token} {x y : List Char} (h : Stands t (x ++ y)) : Stands t x := by
  have ha := h.alone
  cases x with
  | nil => exact ha
  | cons d x =>
    by_cases hdots : t.text = ['.'] ∧ d = '.'
    · obtain ⟨k, text⟩ := t
      obtain ⟨ht, rfl⟩ := hdots
      have ht : text = ['.'] := ht
      subst ht
      obtain rfl := kind_of_stands_point ha
      obtain ⟨hk, hs⟩ := (stands_iff .punctuation '.' [] ('.' :: x ++ y)).1 h
      refine (stands_iff .punctuation '.' [] ('.' :: x)).2 ⟨hk, ?_⟩
      exact spanOperator_shorten (y := y) hs
    · exact (stands_cons_iff ha hdots).2 ((stands_cons_iff ha hdots).1 h)

/-- what follows the next character may change, unless two points stand side by side -/
theorem Stands.change {t : Token} {d : Char} {x : List Char} (h : Stands t (d :: x))
    (hdots : ¬ (t.text = ['.'] ∧ d = '.')) (z : List Char) : Stands t (d :: z) :=
  (stands_cons_iff h.alone hdots).2 ((stands_cons_iff h.alone hdots).1 h)

/-! ### Tokens of a script -/

theorem stands_of_lex {s : List Char} {t : Token} {ts : List Token} (h : lex s = t :: ts) :
    Stands t (render ts) ∧ lex (render ts) = ts := by
  cases s with
  | nil => rw [lex_nil] at h; cases h
  | cons c rest =>
    have hr := render_lex (c :: rest)
    rw [h, render_cons] at hr
    have hs := h
    rw [lex_cons] at hs
    obtain ⟨h1, h2⟩ := List.cons.inj hs
    have hlex : lex (render ts) = ts := by rw [← h2, render_lex]
    refine ⟨?_, hlex⟩
    unfold Stands
    rw [hr, hlex, h]

/-- **Token by token.**  A script that is not empty is its first token, which stands before the rest,
and the rest is read as before. -/
theorem lex_induction {motive : List Char → List Token → Prop} (nil : motive [] [])
    (cons : ∀ t ts, Stands t (render ts) → lex (render ts) = ts → motive (render ts) ts →
      motive (t.text ++ render ts) (t :: ts)) (s : List Char) : motive s (lex s) := by
  have hlist : ∀ ts s, lex s = ts → motive s ts := by
    intro ts
    induction ts with
    | nil =>
      intro s h
      rw [← render_lex s, h]
      exact nil
    | cons t ts ih =>
      intro s h
      obtain ⟨hstands, hrest⟩ := stands_of_lex h
      rw [← render_lex s, h]
      exact cons t ts hstands hrest (ih _ hrest)
  exact hlist _ s rfl

theorem stands_nil_iff (t : Token) : Stands t [] ↔ lex t.text = [t] := by
  unfold Stands
  rw [List.append_nil, lex_nil]

theorem lex_suffix {s : List Char} {ts us : List Token} (h : lex s = ts ++ us) :
    lex (render us) = us := by
  induction ts generalizing s with
  | nil =>
    have h : lex s = us := h
    rw [← h, render_lex]
  | cons t ts ih =>
    have h : lex s = t :: (ts ++ us) := h
    exact ih (stands_of_lex h).2

theorem lex_prefix {s : List Char} {ts us : List Token} (h : lex s = ts ++ us) :
    lex (render ts) = ts := by
  induction ts generalizing s with
  | nil => rw [render_nil, lex_nil]
  | cons t ts ih =>
    have h : lex s = t :: (ts ++ us) := h
    obtain ⟨hs, hl⟩ := stands_of_lex h
    rw [render_append] at hs
    rw [render_cons, hs.shorten, ih hl]

theorem lex_middle {s : List Char} {ts us vs : List Token} (h : lex s = ts ++ us ++ vs) :
    lex (render us) = us := by
  have h1 := lex_prefix h
  exact lex_suffix h1

theorem stands_of_mem_lex {s : List Char} {t : Token} (h : t ∈ lex s) : Stands t [] := by
  obtain ⟨ts, us, he⟩ := List.append_of_mem h
  rw [← List.singleton_append, ← List.append_assoc] at he
  have h1 := lex_middle he
  rw [stands_nil_iff]
  simpa [render] using h1

theorem isChain_lex (s : List Char) : (lex s).IsChain (fun a b => Stands a b.text) := by
  rw [List.isChain_iff_forall_rel_of_append_cons_cons]
  intro a b ts us h
  have h1 : lex s = ts ++ [a, b] ++ us := by rw [h]; simp
  have h2 := (stands_of_lex (lex_middle h1)).1
  simpa [render] using h2

theorem gluesCleanly_iff (a b : Token) :
    gluesCleanly a b = true ↔ Stands a b.text ∧ Stands b [] := by
  rw [gluesCleanly, decide_eq_true_eq, stands_nil_iff]
  constructor
  · intro h
    obtain ⟨h1, h2⟩ := stands_of_lex h
    rw [render_cons, render_nil, List.append_nil] at h1 h2
    exact ⟨h1, h2⟩
  · rintro ⟨h1, h2⟩
    rw [h1, h2]

/-! ### What tokens are made of -/

theorem wordPart_of_word {c : Char} {u : List Char} (h : Stands ⟨.word, c :: u⟩ []) :
    ∀ d ∈ u, isWordPart d = true :=
  ((spanWhile_eq_iff isWordPart u []).1 ((stands_iff .word c u []).1 h).2).1

/-- neither a sign nor anything else that a number is made of -/
theorem not_numberPart {c : Char}
    (h : isAlnum c = false ∧ c ≠ '.' ∧ c ≠ '_' ∧ c ≠ '+' ∧ c ≠ '-') (before : Char) :
    isNumberPart before c = false := by
  obtain ⟨h1, h2, h3, h4, h5⟩ := h
  simp [isNumberPart, h1, h2, h3, h4, h5]

theorem numberPart_of_spanNumber {before : Char} {u : List Char}
    (h : spanNumber before u = (u, [])) : ∀ d ∈ u, ∃ b, isNumberPart b d = true := by
  induction u generalizing before with
  | nil => intro d hd; cases hd
  | cons c u ih =>
    rw [spanNumber] at h
    split at h
    · rename_i hc
      intro d hd
      rcases List.mem_cons.1 hd with rfl | hd
      · exact ⟨before, hc⟩
      · exact ih (by simpa [Prod.ext_iff] using h) d hd
    · cases h

theorem numberPart_of_number {c : Char} {u : List Char} (h : Stands ⟨.number, c :: u⟩ []) :
    ∀ d ∈ u, ∃ b, isNumberPart b d = true := by
  have h1 : spanAt .number c (u ++ []) = (u, []) := ((stands_iff .number c u []).1 h).2
  rw [List.append_nil] at h1
  exact numberPart_of_spanNumber h1

theorem isOperator_of_punctuation {c : Char} {u : List Char}
    (h : Stands ⟨.punctuation, c :: u⟩ []) : u = [] ∨ isOperator (c :: u) = true :=
  ((spanOperator_eq_iff c u []).1 ((stands_iff .punctuation c u []).1 h).2).1

theorem getLast?_of_closesQuote {quote : Char} {escaped : Bool} {u : List Char}
    (h : closesQuote quote escaped u = true) : u.getLast? = some quote := by
  induction u generalizing escaped with
  | nil => simp [closesQuote] at h
  | cons c u ih =>
    have hlast : ∀ e, closesQuote quote e u = true → (c :: u).getLast? = some quote := by
      intro e he
      rw [List.getLast?_cons, ih he]
      rfl
    cases escaped with
    | true => exact hlast _ (by rwa [closesQuote] at h)
    | false =>
      rw [closesQuote] at h
      split at h
      · exact hlast _ h
      · split at h
        · rename_i hq
          rw [List.isEmpty_iff.1 h, hq]
          rfl
        · exact hlast _ h

/-! ### Points -/

/-- a point before a point stays a point unless a third one follows -/
theorem stands_point_iff (x : List Char) :
    Stands ⟨.punctuation, ['.']⟩ ('.' :: x) ↔ x.head? ≠ some '.' := by
  have hops : ∀ op ∈ operators, op.toList.take 2 = ['.', '.'] → op.toList = ['.', '.', '.'] := by
    decide
  have hdots : isOperator ['.', '.', '.'] = true := by decide
  have hkind : kindAt '.' (some '.') = .punctuation := by decide
  rw [stands_iff]
  show kindAt '.' (some '.') = _ ∧ spanOperator '.' ([] ++ '.' :: x) = ([], '.' :: x) ↔ _
  rw [spanOperator_eq_iff]
  simp only [hkind, true_and, true_or, List.nil_append, List.length_nil]
  constructor
  · intro h hx
    obtain ⟨y, rfl⟩ := List.head?_eq_some_iff.1 hx
    have := h _ hdots (by simp)
    simp at this
  · intro hx s hs hp
    by_contra hlong
    obtain ⟨op, hop, rfl⟩ := (isOperator_iff s).1 hs
    have htwo : op.toList.take 2 = ['.', '.'] := by
      have h2 := two_le_of_isOperator hs
      rw [List.prefix_iff_eq_take] at hp
      rw [hp, List.take_take, Nat.min_eq_left h2]
      rfl
    rw [hops op hop htwo] at hp
    obtain ⟨y, hy⟩ := hp
    have hy : '.' :: y = x := by simpa using hy
    rw [← hy] at hx
    exact hx rfl

/-- a token also stands before more text, unless two points stand side by side -/
theorem Stands.extend {t : Token} {x : List Char} (h : Stands t x) (hx : x ≠ [])
    (hdots : ¬ (t.text = ['.'] ∧ x = ['.'])) (z : List Char) : Stands t (x ++ z) := by
  obtain ⟨d, x, rfl⟩ := List.exists_cons_of_ne_nil hx
  by_cases hd : t.text = ['.'] ∧ d = '.'
  · obtain ⟨ht, rfl⟩ := hd
    obtain ⟨k, text⟩ := t
    have ht : text = ['.'] := ht
    subst ht
    obtain rfl := kind_of_stands_point h.alone
    rw [List.cons_append, stands_point_iff]
    cases x with
    | nil => exact absurd ⟨rfl, rfl⟩ hdots
    | cons e x => simpa using (stands_point_iff _).1 h
  · exact h.change hd _

end EffectFusion.Script
