import EffectFusion.Proofs.Script.Gluing

/-!
# White space in pieces

A pass may print white space beside white space; the pieces are read as one (`merged`).  A list is
`Legible` when each of its tokens stands before all that follows it, pieces of white space on their
own.  Points need no exception here, because all that follows is looked at: what was legible stays
so while white space is changed, as long as it is neither put between two tokens nor taken from
between them.

* `lex_render_of_legible`      a legible list is read back, its white space joined;
* `legible_withoutComments`    without its comments a legible list is legible;
* `legible_map_collapsed`      and so it is with single characters for its white space.
-/

namespace EffectFusion.Script

open Text

/-! ### Joined white space -/

/-- `t` in front of a list; white space in front of white space becomes one token -/
def prepended (t : Token) : List Token → List Token
  | [] => [t]
  | u :: more =>
    if t.isWhitespace && u.isWhitespace then ⟨.whitespace, t.text ++ u.text⟩ :: more
    else t :: u :: more

/-- the list with its white space joined -/
def merged (ts : List Token) : List Token := ts.foldr prepended []

theorem merged_nil : merged [] = [] := rfl

theorem merged_cons (t : Token) (ts : List Token) : merged (t :: ts) = prepended t (merged ts) := rfl

theorem prepended_token {t : Token} (h : t.isWhitespace = false) (ts : List Token) :
    prepended t ts = t :: ts := by
  cases ts <;> simp [prepended, h]

theorem merged_token {t : Token} (h : t.isWhitespace = false) (ts : List Token) :
    merged (t :: ts) = t :: merged ts := prepended_token h _

theorem merged_append_token {t : Token} (h : t.isWhitespace = false) (us ts : List Token) :
    merged (us ++ t :: ts) = merged us ++ t :: merged ts := by
  induction us with
  | nil => exact merged_token h ts
  | cons u us ih =>
    rw [List.cons_append, merged_cons, ih, merged_cons]
    cases merged us with
    | nil => simp [prepended, h]
    | cons v vs =>
      rw [List.cons_append, prepended, prepended]
      split <;> rfl

theorem merged_of_whitespace {ts : List Token} (h : ∀ t ∈ ts, t.isWhitespace = true) (hne : ts ≠ []) :
    merged ts = [⟨.whitespace, render ts⟩] := by
  induction ts with
  | nil => exact absurd rfl hne
  | cons t ts ih =>
    have ht := h t List.mem_cons_self
    cases ts with
    | nil =>
      obtain ⟨k, text⟩ := t
      obtain rfl : k = .whitespace := by simpa [Token.isWhitespace] using ht
      rw [render_cons, render_nil, List.append_nil]
      rfl
    | cons u us =>
      have hu := ih (fun v hv => h v (List.mem_cons_of_mem t hv)) (List.cons_ne_nil u us)
      rw [merged_cons, hu, prepended, ht, render_cons t]
      rfl

theorem merged_of_chain {ts : List Token}
    (h : ts.IsChain (fun a b => ¬ (a.isWhitespace = true ∧ b.isWhitespace = true))) :
    merged ts = ts := by
  induction ts with
  | nil => rfl
  | cons t ts ih =>
    rw [merged_cons, ih h.tail]
    cases ts with
    | nil => rfl
    | cons u us =>
      have hno := (List.isChain_cons_cons.1 h).1
      rw [prepended, if_neg (by simpa using hno)]

theorem mem_merged {ts : List Token} {t : Token} (h : t ∈ merged ts) :
    t ∈ ts ∨ t.isWhitespace = true := by
  induction ts with
  | nil => cases h
  | cons u us ih =>
    have hrest : t ∈ merged us → t ∈ u :: us ∨ t.isWhitespace = true :=
      fun ht => (ih ht).imp_left (List.mem_cons_of_mem u)
    rw [merged_cons] at h
    cases hm : merged us with
    | nil =>
      rw [hm, prepended, List.mem_singleton] at h
      exact Or.inl (h ▸ List.mem_cons_self)
    | cons v vs =>
      rw [hm] at h hrest
      rw [prepended] at h
      split at h
      · rcases List.mem_cons.1 h with rfl | ht
        · exact Or.inr rfl
        · exact hrest (List.mem_cons_of_mem v ht)
      · rcases List.mem_cons.1 h with rfl | ht
        · exact Or.inl List.mem_cons_self
        · exact hrest ht

theorem filter_merged {p : Token → Bool} (hp : ∀ t : Token, t.isTrivia = true → p t = false)
    (ts : List Token) : (merged ts).filter p = ts.filter p := by
  have hwhite : ∀ t : Token, t.isWhitespace = true → p t = false :=
    fun t ht => hp t (isTrivia_of_isWhitespace ht)
  induction ts with
  | nil => rfl
  | cons t ts ih =>
    rw [merged_cons, List.filter_cons, ← ih]
    cases merged ts with
    | nil => rw [prepended, List.filter_cons]
    | cons v vs =>
      rw [prepended]
      split
      · rename_i hboth
        rw [Bool.and_eq_true] at hboth
        have hjoined : p ⟨.whitespace, t.text ++ v.text⟩ = false := hwhite _ rfl
        simp [hjoined, hwhite t hboth.1, hwhite v hboth.2]
      · rw [List.filter_cons]

/-! ### Legible lists -/

/-- each token stands before all that follows; a piece of white space stands on its own -/
def Legible : List Token → Prop
  | [] => True
  | t :: ts => Stands t (if t.isWhitespace then [] else render ts) ∧ Legible ts

theorem legible_lex (s : List Char) : Legible (lex s) := by
  refine lex_induction (motive := fun _ ts => Legible ts) trivial
    (fun t ts hstands _ ih => ⟨?_, ih⟩) s
  split
  · exact hstands.alone
  · exact hstands

theorem text_ne_nil_of_legible {t : Token} {ts : List Token} (h : Legible (t :: ts)) : t.text ≠ [] :=
  h.1.text_ne_nil

theorem lex_blanks {b : List Char} (hne : b ≠ []) (h : ∀ c ∈ b, isBlank c = true) (x : List Char) :
    lex (b ++ x) = ⟨.whitespace, b ++ x.takeWhile isBlank⟩ :: lex (x.dropWhile isBlank) := by
  obtain ⟨c, b, rfl⟩ := List.exists_cons_of_ne_nil hne
  have hb := fun d hd => h d (List.mem_cons_of_mem c hd)
  rw [List.cons_append, lex_of_blank (h c List.mem_cons_self), dropWhile_blank_append hb,
    List.takeWhile_append_of_pos hb, List.cons_append]

/-- **Pieces are read as one.**  What is legible is read back, its white space joined. -/
theorem lex_render_of_legible {ts : List Token} (h : Legible ts) : lex (render ts) = merged ts := by
  induction ts with
  | nil => rw [render_nil, lex_nil, merged_nil]
  | cons t ts ih =>
    obtain ⟨hstands, hrest⟩ := h
    have ih := ih hrest
    rw [render_cons]
    cases hw : t.isWhitespace with
    | false =>
      rw [hw, if_neg Bool.false_ne_true] at hstands
      rw [hstands, ih, merged_token hw]
    | true =>
      rw [hw, if_pos rfl] at hstands
      have hkind : t = ⟨.whitespace, t.text⟩ := by
        obtain ⟨k, text⟩ := t
        obtain rfl : k = .whitespace := by simpa [Token.isWhitespace] using hw
        rfl
      rw [lex_blanks hstands.text_ne_nil (isBlank_of_whitespace hstands hw), merged_cons, ← ih]
      cases render ts with
      | nil => rw [lex_nil, List.dropWhile_nil, lex_nil, List.takeWhile_nil, List.append_nil, ← hkind]; rfl
      | cons d y =>
        cases hd : isBlank d with
        | true =>
          rw [lex_of_blank hd, List.takeWhile_cons_of_pos hd, List.dropWhile_cons_of_pos hd, prepended, hw]
          rfl
        | false =>
          have hhead : (firstToken d y).isWhitespace = false := by
            by_contra hf
            have hmem : firstToken d y ∈ lex (d :: y) := by
              rw [lex_cons]
              exact List.mem_cons_self
            have hb := isBlank_of_whitespace (stands_of_mem_lex hmem) (by simpa using hf) d
              List.mem_cons_self
            rw [hd] at hb
            cases hb
          rw [lex_cons, prepended, hhead, List.takeWhile_cons_of_neg (by simp [hd]),
            List.dropWhile_cons_of_neg (by simp [hd]), Bool.and_false, if_neg Bool.false_ne_true,
            lex_cons, List.append_nil, ← hkind]

/-! ### What may follow instead -/

/-- of the text behind the next character it matters only whether it goes on with a point -/
theorem stands_of_points {t : Token} {v x z : List Char} (h : Stands t (v ++ x)) (hv : v ≠ [])
    (hz : z.head? = some '.' → x.head? = some '.') : Stands t (v ++ z) := by
  obtain ⟨d, v, rfl⟩ := List.exists_cons_of_ne_nil hv
  by_cases hdots : t.text = ['.'] ∧ d = '.'
  · obtain ⟨ht, rfl⟩ := hdots
    obtain ⟨k, text⟩ := t
    obtain rfl : text = ['.'] := ht
    obtain rfl := kind_of_stands_point h.alone
    rw [List.cons_append, stands_point_iff] at h ⊢
    cases v with
    | nil => exact fun hp => h (hz hp)
    | cons e v => exact h
  · exact h.change hdots _

theorem clean_of_stands_cons {t : Token} {d : Char} {x : List Char} (h : Stands t (d :: x))
    (hc : t.isComment = false) : Clean t :=
  ⟨h.alone, isClosed_of_stands_cons h, hc⟩

/-- the list starts with white space, or with `n` of which the same is true in another list -/
def StartsAs (us ts : List Token) : Prop :=
  ∀ n rest, us = n :: rest →
    (n.isWhitespace = true ∧ Stands n []) ∨
      n.text ≠ [] ∧ ∃ more, ts = n :: more ∧
        ((render rest).head? = some '.' → (render more).head? = some '.')

/-- a token that stands before one list stands before another that starts alike -/
theorem stands_relaid {t : Token} {ts us : List Token} (ht : t.isTrivia = false)
    (h : Stands t (render ts)) (hne : render ts = [] → us = []) (hus : StartsAs us ts) :
    Stands t (render us) := by
  cases us with
  | nil => exact h.alone
  | cons n rest =>
    rw [render_cons]
    rcases hus n rest rfl with ⟨hw, hs⟩ | ⟨hn, more, rfl, hpoint⟩
    · obtain ⟨d, x, hx⟩ := List.exists_cons_of_ne_nil (fun he => List.cons_ne_nil n rest (hne he))
      rw [hx] at h
      simp only [Token.isTrivia, Bool.or_eq_false_iff] at ht
      exact stands_whitespace (clean_of_stands_cons h ht.2) ht.1 hs hw _
    · rw [render_cons] at h
      exact stands_of_points h hn hpoint

theorem ne_point_of_blank {c : Char} (h : isBlank c = true) : c ≠ '.' := by
  rintro rfl
  exact absurd h (by decide)

theorem StartsAs.point {us ts : List Token} (h : StartsAs us ts)
    (hp : (render us).head? = some '.') : (render ts).head? = some '.' := by
  cases us with
  | nil => cases hp
  | cons n rest =>
    rw [render_cons] at hp
    rcases h n rest rfl with ⟨hw, hs⟩ | ⟨hn, more, rfl, -⟩
    · obtain ⟨c, v, hc, hb⟩ := isBlank_head hs hw
      rw [hc] at hp
      exact absurd (Option.some.inj hp) (ne_point_of_blank hb)
    · rw [List.head?_append_of_ne_nil _ hn] at hp
      rw [render_cons, List.head?_append_of_ne_nil _ hn]
      exact hp

theorem eq_nil_of_render {ts : List Token} (h : Legible ts) (hr : render ts = []) : ts = [] := by
  cases ts with
  | nil => rfl
  | cons t ts =>
    rw [render_cons, List.append_eq_nil_iff] at hr
    exact absurd hr.1 (text_ne_nil_of_legible h)

theorem stands_of_legible {w : Token} {ts : List Token} (h : Legible (w :: ts)) : Stands w [] :=
  h.1.alone

/-! ### Without comments -/

/-- right behind a token white space is left where a comment was -/
theorem startsAs_withoutComments {ts : List Token} (h : Legible ts) :
    StartsAs (withoutComments false ts) ts := by
  induction ts with
  | nil => intro n rest he; cases he
  | cons m ts ih =>
    intro n rest he
    cases hc : m.isComment with
    | false =>
      rw [withoutComments_token hc] at he
      obtain ⟨rfl, rfl⟩ := List.cons.inj he
      cases hw : m.isWhitespace with
      | true => exact Or.inl ⟨rfl, stands_of_legible h⟩
      | false => exact Or.inr ⟨text_ne_nil_of_legible h, ts, rfl, (ih h.2).point⟩
    | true =>
      rcases withoutComments_comment hc false ts with ⟨w, hw, -, hprint⟩ | ⟨-, hblank, hprint⟩
      · rw [hprint] at he
        obtain ⟨rfl, -⟩ := List.cons.inj he
        exact Or.inl ⟨isWhitespace_of_single hw, (clean_of_single hw).stands⟩
      · -- no white space was printed, so it comes next
        rw [hprint] at he
        cases ts with
        | nil => cases he
        | cons w ts =>
          have hw : w.isWhitespace = true := hblank.resolve_left Bool.false_ne_true
          rw [withoutComments_token (isComment_of_isWhitespace hw)] at he
          obtain ⟨rfl, -⟩ := List.cons.inj he
          exact Or.inl ⟨hw, stands_of_legible h.2⟩

theorem legible_withoutComments {ts : List Token} (h : Legible ts) (b : Bool) :
    Legible (withoutComments b ts) := by
  induction ts generalizing b with
  | nil => trivial
  | cons t ts ih =>
    have ih := ih h.2
    cases hc : t.isComment with
    | false =>
      rw [withoutComments_token hc]
      refine ⟨?_, ih _⟩
      cases hw : t.isWhitespace with
      | true => exact stands_of_legible h
      | false =>
        have hstands := h.1
        rw [hw] at hstands
        refine stands_relaid (by rw [Token.isTrivia, hw, hc]; rfl) hstands (fun hr => ?_)
          (startsAs_withoutComments h.2)
        rw [eq_nil_of_render h.2 hr, withoutComments]
    | true =>
      rcases withoutComments_comment hc b ts with ⟨w, hw, -, he⟩ | ⟨-, -, he⟩
      · rw [he]
        refine ⟨?_, ih true⟩
        rw [isWhitespace_of_single hw]
        exact (clean_of_single hw).stands
      · rw [he]
        exact ih b

/-! ### Single characters for white space -/

theorem startsAs_map_collapsed {ts : List Token} (h : Legible ts) :
    StartsAs (ts.map collapsed) ts := by
  induction ts with
  | nil => intro n rest he; cases he
  | cons m ts ih =>
    intro n rest he
    obtain ⟨rfl, rfl⟩ := List.cons.inj he
    cases hw : m.isWhitespace with
    | true =>
      exact Or.inl ⟨by rw [isWhitespace_collapsed, hw], stands_collapsed_left (stands_of_legible h)⟩
    | false =>
      rw [collapsed_of_not_whitespace hw]
      exact Or.inr ⟨text_ne_nil_of_legible h, ts, rfl, (ih h.2).point⟩

theorem legible_map_collapsed {ts : List Token} (h : Legible ts)
    (hc : ∀ t ∈ ts, t.isComment = false) : Legible (ts.map collapsed) := by
  induction ts with
  | nil => trivial
  | cons t ts ih =>
    refine ⟨?_, ih h.2 (fun u hu => hc u (List.mem_cons_of_mem t hu))⟩
    rw [isWhitespace_collapsed]
    cases hw : t.isWhitespace with
    | true => exact stands_collapsed_left (stands_of_legible h)
    | false =>
      have hstands := h.1
      rw [hw] at hstands
      have htrivia : t.isTrivia = false := by
        rw [isTrivia_eq_isWhitespace (hc t List.mem_cons_self), hw]
      rw [collapsed_of_not_whitespace hw]
      refine stands_relaid htrivia hstands (fun hr => ?_) (startsAs_map_collapsed h.2)
      rw [eq_nil_of_render h.2 hr, List.map_nil]

end EffectFusion.Script
