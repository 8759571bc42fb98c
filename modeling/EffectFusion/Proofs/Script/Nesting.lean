import EffectFusion.Proofs.Script.Preserved

/-!
# Nested brackets

In a list of tokens brackets are nested when each one has its partner and what stands between the
two is nested in itself.  A scan with the stack of the brackets that are waited for decides it.  The
scan comes back to its stack after nested tokens, so these may be put in anywhere, and it does not
see what is no bracket, so the brackets of a script may be looked for among its landmarks.

A script is well formed when its brackets are nested and nothing in it is open: no string, no
template and no comment.  Compression keeps scripts well formed.

* `nested_iff_scan`        the scan decides;
* `nested_insert_iff`      nested tokens in the middle of others;
* `nested_filter_iff`      tokens that are no brackets;
* `WellFormed.compress`    well-formed scripts have well-formed compressed scripts.
-/

namespace EffectFusion.Script

/-! ### Brackets -/

/-- opening brackets, each with its partner -/
def bracketPairs : List (Token × Token) :=
  [(.mark "(", .mark ")"), (.mark "[", .mark "]"), (.mark "\x7b", .mark "\x7d")]

def Token.isBracket (t : Token) : Bool := bracketPairs.any fun p => t = p.1 || t = p.2

/-- every bracket has its partner, and what is between them is nested in itself -/
inductive Nested : List Token → Prop
  | nil : Nested []
  | skip {t : Token} {ts : List Token} : t.isBracket = false → Nested ts → Nested (t :: ts)
  | group {p : Token × Token} {us ts : List Token} : p ∈ bracketPairs → Nested us → Nested ts →
      Nested (p.1 :: us ++ p.2 :: ts)

/-- the brackets that are waited for, the next one first, and what closes them all -/
def closesAll (awaited : List Token) : List Token → Bool
  | [] => awaited.isEmpty
  | t :: ts =>
    match bracketPairs.find? (fun p => p.1 = t) with
    | some p => closesAll (p.2 :: awaited) ts
    | none =>
      if t.isBracket then awaited.head? = some t && closesAll awaited.tail ts
      else closesAll awaited ts

section

variable {t : Token} {p : Token × Token} {ts us vs ws awaited : List Token}

theorem bracket_cases (t : Token) :
    t.isBracket = false ∨ ∃ p ∈ bracketPairs, t = p.1 ∨ t = p.2 := by
  cases h : t.isBracket with
  | false => exact Or.inl rfl
  | true =>
    obtain ⟨p, hp, ht⟩ := List.any_eq_true.1 h
    exact Or.inr ⟨p, hp, by simpa using ht⟩

theorem isBracket_of_kind (h : t.kind ≠ .punctuation) : t.isBracket = false := by
  have hkinds : ∀ p ∈ bracketPairs, p.1.kind = .punctuation ∧ p.2.kind = .punctuation := by decide
  rcases bracket_cases t with ht | ⟨p, hp, rfl | rfl⟩
  · exact ht
  · exact absurd (hkinds p hp).1 h
  · exact absurd (hkinds p hp).2 h

theorem closesAll_opening (hp : p ∈ bracketPairs) :
    closesAll awaited (p.1 :: ts) = closesAll (p.2 :: awaited) ts := by
  have hfind : ∀ p ∈ bracketPairs, bracketPairs.find? (fun q => q.1 = p.1) = some p := by decide
  rw [closesAll, hfind p hp]

theorem closesAll_closing (hp : p ∈ bracketPairs) :
    closesAll awaited (p.2 :: ts) = (decide (awaited.head? = some p.2) && closesAll awaited.tail ts) := by
  have hfind : ∀ p ∈ bracketPairs, bracketPairs.find? (fun q => q.1 = p.2) = none ∧
      p.2.isBracket = true := by decide
  obtain ⟨h1, h2⟩ := hfind p hp
  rw [closesAll, h1, h2]
  rfl

theorem closesAll_skip (h : t.isBracket = false) :
    closesAll awaited (t :: ts) = closesAll awaited ts := by
  have hfind : bracketPairs.find? (fun q => q.1 = t) = none := by
    rw [List.find?_eq_none]
    intro p hp hpt
    have hbracket : t.isBracket = true := List.any_eq_true.2 ⟨p, hp, by simp_all⟩
    rw [h] at hbracket
    cases hbracket
  rw [closesAll, hfind, h]
  rfl

/-- nested tokens bring the scan back to what it waited for -/
theorem Nested.closesAll_append (h : Nested ts) (awaited us : List Token) :
    closesAll awaited (ts ++ us) = closesAll awaited us := by
  induction h generalizing awaited us with
  | nil => rfl
  | skip ht _ ih => rw [List.cons_append, closesAll_skip ht, ih]
  | group hp _ _ ih ih' =>
    rw [List.append_assoc, List.cons_append, closesAll_opening hp, ih, List.cons_append,
      closesAll_closing hp, ih']
    simp

/-- the tokens consist of nested parts with the awaited brackets between them -/
def Fills : List Token → List Token → Prop
  | [], ts => Nested ts
  | c :: awaited, ts => ∃ us vs, ts = us ++ c :: vs ∧ Nested us ∧ Fills awaited vs

theorem Fills.prepend (h : Fills awaited ts) (ws : List Token)
    (hws : ∀ ts, Nested ts → Nested (ws ++ ts)) : Fills awaited (ws ++ ts) := by
  cases awaited with
  | nil => exact hws ts h
  | cons c awaited =>
    obtain ⟨us, vs, rfl, hus, hvs⟩ := h
    exact ⟨ws ++ us, vs, (List.append_assoc _ _ _).symm, hws us hus, hvs⟩

theorem fills_of_closesAll (h : closesAll awaited ts = true) : Fills awaited ts := by
  induction ts generalizing awaited with
  | nil =>
    obtain rfl := List.isEmpty_iff.1 h
    exact .nil
  | cons t ts ih =>
    rcases bracket_cases t with ht | ⟨p, hp, rfl | rfl⟩
    · rw [closesAll_skip ht] at h
      exact (ih h).prepend [t] fun us hus => .skip ht hus
    · -- the partner is waited for, so it comes
      rw [closesAll_opening hp] at h
      obtain ⟨us, vs, rfl, hus, hvs⟩ := ih h
      have hgroup : p.1 :: (us ++ p.2 :: vs) = (p.1 :: us ++ [p.2]) ++ vs := by simp
      rw [hgroup]
      refine hvs.prepend _ fun vs' hvs' => ?_
      have hgroup : (p.1 :: us ++ [p.2]) ++ vs' = p.1 :: us ++ p.2 :: vs' := by simp
      rw [hgroup]
      exact .group hp hus hvs'
    · rw [closesAll_closing hp, Bool.and_eq_true, decide_eq_true_eq] at h
      obtain ⟨rest, rfl⟩ := List.head?_eq_some_iff.1 h.1
      exact ⟨[], ts, rfl, .nil, ih h.2⟩

/-- **The scan decides** whether brackets are nested. -/
theorem nested_iff_scan : Nested ts ↔ closesAll [] ts = true := by
  refine ⟨fun h => ?_, fills_of_closesAll⟩
  have hscan := h.closesAll_append [] []
  rwa [List.append_nil] at hscan

instance (ts : List Token) : Decidable (Nested ts) := decidable_of_iff _ nested_iff_scan.symm

/-! ### Putting tokens together -/

theorem Nested.append (h : Nested ts) (h' : Nested us) : Nested (ts ++ us) := by
  rw [nested_iff_scan, h.closesAll_append, ← nested_iff_scan]
  exact h'

theorem nested_of_plain (h : ∀ t ∈ ts, t.isBracket = false) : Nested ts := by
  induction ts with
  | nil => exact .nil
  | cons t ts ih =>
    exact .skip (h t List.mem_cons_self) (ih fun u hu => h u (List.mem_cons_of_mem t hu))

theorem closesAll_insert (h : Nested ws) :
    closesAll awaited (us ++ (ws ++ vs)) = closesAll awaited (us ++ vs) := by
  induction us generalizing awaited with
  | nil => exact h.closesAll_append awaited vs
  | cons t us ih =>
    rw [List.cons_append, List.cons_append]
    rcases bracket_cases t with ht | ⟨p, hp, rfl | rfl⟩
    · rw [closesAll_skip ht, closesAll_skip ht, ih]
    · rw [closesAll_opening hp, closesAll_opening hp, ih]
    · rw [closesAll_closing hp, closesAll_closing hp, ih]

theorem nested_insert_iff (h : Nested ws) : Nested (us ++ (ws ++ vs)) ↔ Nested (us ++ vs) := by
  rw [nested_iff_scan, nested_iff_scan, closesAll_insert h]

theorem closesAll_filter {q : Token → Bool}
    (hq : ∀ p ∈ bracketPairs, q p.1 = true ∧ q p.2 = true) :
    closesAll awaited (ts.filter q) = closesAll awaited ts := by
  induction ts generalizing awaited with
  | nil => rfl
  | cons t ts ih =>
    rcases bracket_cases t with ht | ⟨p, hp, rfl | rfl⟩
    · rw [closesAll_skip ht, List.filter_cons]
      split
      · rw [closesAll_skip ht, ih]
      · exact ih
    · rw [List.filter_cons_of_pos (hq p hp).1, closesAll_opening hp, closesAll_opening hp, ih]
    · rw [List.filter_cons_of_pos (hq p hp).2, closesAll_closing hp, closesAll_closing hp, ih]

theorem nested_filter_iff {q : Token → Bool}
    (hq : ∀ p ∈ bracketPairs, q p.1 = true ∧ q p.2 = true) : Nested (ts.filter q) ↔ Nested ts := by
  rw [nested_iff_scan, nested_iff_scan, closesAll_filter hq]

end

/-! ### Well-formed scripts -/

/-- nothing is open at the end of the script: literals and comments have their ends, a comment to
the end of a line the line break, and brackets are nested -/
structure WellFormed (s : List Char) : Prop where
  closed : ∀ t ∈ lex s, t.isClosed = true
  lineComments : ∀ ts t us, lex s = ts ++ t :: us → t.kind = .lineComment →
    (render us).head? = some '\n'
  nested : Nested (lex s)

section

variable {s : List Char} {t : Token} {ts us : List Token}

theorem stands_of_lex_split (h : lex s = ts ++ t :: us) : Stands t (render us) :=
  (stands_of_lex (lex_suffix h)).1

theorem lineBreak_of_stands {d : Char} {x : List Char} (h : Stands t (d :: x))
    (hk : t.kind = .lineComment) : d = '\n' := by
  obtain ⟨k, c, u, rfl⟩ := h.exists_cons
  obtain rfl : k = .lineComment := hk
  have hspan := ((stands_iff .lineComment c u (d :: x)).1 h).2
  have hstop := ((spanWhile_eq_iff (· ≠ '\n') u (d :: x)).1 hspan).2 d rfl
  simpa using hstop

/-- a token is white space or has a character behind it when the last one is white space -/
theorem whitespace_or_followed (hlast : ∀ t ∈ (lex s).getLast?, t.isWhitespace = true)
    (h : lex s = ts ++ t :: us) :
    t.kind = .whitespace ∨ ∃ d x, render us = d :: x ∧ Stands t (d :: x) := by
  have hstands := stands_of_lex_split h
  cases us with
  | nil =>
    have hspace := hlast t (by rw [h]; simp)
    exact Or.inl (by simpa [Token.isWhitespace] using hspace)
  | cons u us =>
    have hu : Stands u [] := stands_of_mem_lex (s := s) (by rw [h]; simp)
    obtain ⟨d, x, hd⟩ := List.exists_cons_of_ne_nil hu.text_ne_nil
    have hrender : render (u :: us) = d :: (x ++ render us) := by
      rw [render_cons, hd, List.cons_append]
    rw [hrender] at hstands
    exact Or.inr ⟨d, _, hrender, hstands⟩

theorem wellFormed_of_getLast? (hlast : ∀ t ∈ (lex s).getLast?, t.isWhitespace = true)
    (hnested : Nested (lex s)) : WellFormed s := by
  refine ⟨fun t ht => ?_, fun ts t us h hk => ?_, hnested⟩
  · obtain ⟨ts, us, h⟩ := List.append_of_mem ht
    rcases whitespace_or_followed hlast h with hk | ⟨d, x, -, hstands⟩
    · simp [Token.isClosed, hk]
    · exact isClosed_of_stands_cons hstands
  · rcases whitespace_or_followed hlast h with hspace | ⟨d, x, hrender, hstands⟩
    · rw [hk] at hspace
      cases hspace
    · rw [hrender, lineBreak_of_stands hstands hk]
      rfl

theorem nested_landmarks_iff : Nested (landmarks s) ↔ Nested (lex s) :=
  nested_filter_iff (by decide)

theorem wellFormed_of_clean (h : CleanScript s) (hnested : Nested (lex s)) : WellFormed s := by
  refine ⟨fun t ht => (h t ht).closed, fun ts t us hs hk => ?_, hnested⟩
  have hcomment := (h t (by rw [hs]; simp)).noComment
  simp [Token.isComment, hk] at hcomment

/-- **Compression of well-formed scripts.** -/
theorem WellFormed.compress (h : WellFormed s) :
    ∃ code stats, compress s = .ok (code, stats) ∧ WellFormed code := by
  obtain ⟨hclean, hsame⟩ := keepsLandmarks_stripComments fun t ht _ => h.closed t ht
  obtain ⟨hcode, hlandmarks⟩ :=
    keepsLandmarks_throughAll (fun _ hp => List.mem_of_mem_tail hp) hclean
  refine ⟨_, _, compress_eq_ok s, wellFormed_of_clean hcode ?_⟩
  rw [← nested_landmarks_iff]
  show Nested (landmarks (throughAll passes.tail (stripComments s)))
  rw [hlandmarks, hsame, nested_landmarks_iff]
  exact h.nested

end

end EffectFusion.Script
