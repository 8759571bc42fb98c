import EffectFusion.Proofs.Script.Gluing
import EffectFusion.Proofs.Script.Preserved

/-!
# Where white space is left

After the first three passes white space stands only where a statement may end (`parts`), in single
pieces and never at the ends of the script.  `Laid` says where it may stand: `Q` holds between the
tokens on both sides.  That holds for scripts whose neighbours are `orderly`: two tokens glue
cleanly or part, and truth values, points and words that end a statement have only such neighbours
as the passes leave alone.

* `laid_tightened`      white space is left where something asks for it;
* `laid_and`            what holds of all neighbours holds of those with white space between them;
* `laid_shortenedAll`   shorter words part as the words did.
-/

namespace EffectFusion.Script

open Text

/-! ### Layout -/

/-- white space stands in single pieces, each between two tokens of which `Q` holds; `p` is the
token before the list that is no white space -/
def Laid (Q : Token → Token → Prop) : Option Token → List Token → Prop
  | _, [] => True
  | p, t :: rest =>
    if t.isWhitespace then
      (∃ q n, p = some q ∧ rest.head? = some n ∧ n.isWhitespace = false ∧ Q q n) ∧ Laid Q p rest
    else Laid Q (some t) rest

section Laid

variable {Q R : Token → Token → Prop} {p : Option Token} {t : Token} {ts : List Token}

theorem laid_token (h : t.isWhitespace = false) : Laid Q p (t :: ts) ↔ Laid Q (some t) ts := by
  rw [Laid, h, if_neg Bool.false_ne_true]

theorem laid_gap (h : t.isWhitespace = true) :
    Laid Q p (t :: ts) ↔
      (∃ q n, p = some q ∧ ts.head? = some n ∧ n.isWhitespace = false ∧ Q q n) ∧ Laid Q p ts := by
  rw [Laid, if_pos h]

theorem Laid.imp (hQ : ∀ a b, Q a b → R a b) (h : Laid Q p ts) : Laid R p ts := by
  induction ts generalizing p with
  | nil => trivial
  | cons t ts ih =>
    cases hw : t.isWhitespace with
    | false => exact (laid_token hw).2 (ih ((laid_token hw).1 h))
    | true =>
      obtain ⟨⟨q, n, hp, hn, hnw, hqn⟩, hrest⟩ := (laid_gap hw).1 h
      exact (laid_gap hw).2 ⟨⟨q, n, hp, hn, hnw, hQ q n hqn⟩, ih hrest⟩

/-- a chain of all that matters holds across white space as well -/
theorem laid_and (h : Laid Q p ts) (hcomment : ∀ t ∈ ts, t.isComment = false)
    (hc : (p.toList ++ significant ts).IsChain R) : Laid (fun a b => Q a b ∧ R a b) p ts := by
  induction ts generalizing p with
  | nil => trivial
  | cons t ts ih =>
    have ih := fun (p : Option Token) h => @ih p h (fun u hu => hcomment u (List.mem_cons_of_mem t hu))
    have htrivia := isTrivia_eq_isWhitespace (hcomment t List.mem_cons_self)
    rw [significant_cons, htrivia] at hc
    cases hw : t.isWhitespace with
    | false =>
      rw [hw, if_neg Bool.false_ne_true] at hc
      refine (laid_token hw).2 (ih _ ((laid_token hw).1 h) ?_)
      exact (List.isChain_append.1 hc).2.1
    | true =>
      rw [hw, if_pos rfl] at hc
      obtain ⟨⟨q, n, rfl, hn, hnw, hqn⟩, hrest⟩ := (laid_gap hw).1 h
      obtain ⟨us, rfl⟩ := List.head?_eq_some_iff.1 hn
      have hntrivia := isTrivia_eq_isWhitespace (hcomment n (by simp))
      have hR : R q n := by
        rw [significant_cons, hntrivia, hnw, if_neg Bool.false_ne_true] at hc
        exact (List.isChain_cons_cons.1 hc).1
      exact (laid_gap hw).2 ⟨⟨q, n, rfl, rfl, hnw, hqn, hR⟩, ih _ hrest hc⟩

theorem laid_withoutSpaces (h : Laid Q p ts) : Laid Q p (withoutSpaces ts) := by
  induction ts generalizing p with
  | nil => trivial
  | cons t ts ih =>
    rw [withoutSpaces_cons]
    cases hw : t.isWhitespace with
    | false =>
      rw [if_pos (Or.inl rfl)]
      exact (laid_token hw).2 (ih ((laid_token hw).1 h))
    | true =>
      obtain ⟨⟨q, n, hp, hn, hnw, hqn⟩, hrest⟩ := (laid_gap hw).1 h
      split
      · refine (laid_gap hw).2 ⟨⟨q, n, hp, ?_, hnw, hqn⟩, ih hrest⟩
        obtain ⟨us, rfl⟩ := List.head?_eq_some_iff.1 hn
        rw [withoutSpaces_cons, if_pos (Or.inl hnw)]
        rfl
      · exact ih hrest

/-- between two pieces of white space there is a token -/
theorem Laid.isChain (h : Laid Q p ts) :
    ts.IsChain (fun a b => ¬ (a.isWhitespace = true ∧ b.isWhitespace = true)) := by
  induction ts generalizing p with
  | nil => exact List.IsChain.nil
  | cons t ts ih =>
    cases hw : t.isWhitespace with
    | false =>
      refine (ih ((laid_token hw).1 h)).cons (fun u _ hu => ?_)
      rw [hw] at hu
      cases hu.1
    | true =>
      obtain ⟨⟨q, n, -, hn, hnw, -⟩, hrest⟩ := (laid_gap hw).1 h
      refine (ih hrest).cons (fun u hu hboth => ?_)
      rw [Option.mem_def.1 hu] at hn
      rw [Option.some.inj hn, hnw] at hboth
      cases hboth.2

end Laid

/-! ### After the first three passes -/

/-- something asks for white space between the two -/
def Asked (a b : Token) : Prop := ∃ w gap, separator? a w b = some gap

theorem laid_tightened {ts : List Token}
    (h : ts.IsChain (fun a b => ¬ (a.isWhitespace = true ∧ b.isWhitespace = true)))
    (before : Option Token) : Laid Asked before (tightened before ts) := by
  induction ts generalizing before with
  | nil => trivial
  | cons t ts ih =>
    have ih := ih h.tail
    cases hw : t.isWhitespace with
    | false =>
      rw [tightened_token hw]
      exact (laid_token hw).2 (ih (some t))
    | true =>
      cases before with
      | none =>
        rw [tightened_start hw]
        exact ih none
      | some q =>
        cases ts with
        | nil =>
          rw [tightened_end hw]
          trivial
        | cons n ts =>
          have hn : n.isWhitespace = false := by
            by_contra hn
            exact (List.isChain_cons_cons.1 h).1 ⟨hw, by simpa using hn⟩
          have ih := ih (some q)
          rw [tightened_gap hw]
          rw [tightened_token hn] at ih
          cases hs : separator? q t n with
          | none => rwa [tightened_token hn]
          | some gap =>
            have hgap := isWhitespace_separator hw hs
            show Laid Asked (some q) (gap :: tightened (some gap) (n :: ts))
            rw [tightened_token hn]
            exact (laid_gap hgap).2 ⟨⟨q, n, rfl, rfl, hn, t, gap, hs⟩, ih⟩

/-! ### Neighbours that part -/

/-- a statement may end between the two, and the first is not a word that needs what follows -/
def parts (a b : Token) : Bool :=
  if a.isNameOf restrictedWords then b.isMarkOf [";", "\x7b"] else endsOperand a && startsOperand b

/-- a word for a truth value -/
def Token.isTruthWord (t : Token) : Bool := t.isNameOf ["true", "false"]

/-- marks before a truth value that are neither a point nor an end of an operand -/
def truthPreceders : List String := ["=", "===", ":", ",", "["]

def truthFollowers : List String := [";", ")", ",", "\x7d", "]"]

/-- a word that ends a statement does so, or opens a block; a point is followed by a word; and a
truth value is neither a key nor a member -/
def mannered (a b : Token) : Bool :=
  (!a.isNameOf restrictedWords || b.isMarkOf [";", "\x7b"])
    && (!a.isMark "." || (b.kind = .word && !b.isTruthWord))
    && (!b.isTruthWord || a.isMarkOf truthPreceders)
    && (!a.isTruthWord || b.isMarkOf truthFollowers)

/-- the two glue cleanly or part, and keep their manners -/
def orderly (a b : Token) : Bool := (gluesCleanly a b || endsStatement a b) && mannered a b

/-- the parts of `orderly` -/
structure Orderly (a b : Token) : Prop where
  glued : gluesCleanly a b = true ∨ endsStatement a b = true
  restricted : a.isNameOf restrictedWords = true → b.isMarkOf [";", "\x7b"] = true
  point : a.isMark "." = true → b.kind = .word ∧ b.isTruthWord = false
  truth : b.isTruthWord = true → a.isMarkOf truthPreceders = true
  afterTruth : a.isTruthWord = true → b.isMarkOf truthFollowers = true

theorem orderly_iff (a b : Token) : orderly a b = true ↔ Orderly a b := by
  simp only [orderly, mannered, Bool.and_eq_true, Bool.or_eq_true, Bool.not_eq_true',
    decide_eq_true_eq]
  constructor
  · rintro ⟨h1, ⟨⟨h2, h3⟩, h4⟩, h5⟩
    refine ⟨h1, fun h => ?_, fun h => ?_, fun h => ?_, fun h => ?_⟩
    · exact h2.resolve_left (by simp [h])
    · exact h3.resolve_left (by simp [h])
    · exact h4.resolve_left (by simp [h])
    · exact h5.resolve_left (by simp [h])
  · rintro ⟨h1, h2, h3, h4, h5⟩
    refine ⟨h1, ⟨⟨?_, ?_⟩, ?_⟩, ?_⟩
    · cases h : a.isNameOf restrictedWords <;> simp_all
    · cases h : a.isMark "." <;> simp_all
    · cases h : b.isTruthWord <;> simp_all
    · cases h : a.isTruthWord <;> simp_all

instance (a b : Token) : Decidable (Orderly a b) := decidable_of_iff _ (orderly_iff a b)

theorem parts_of_asked {a b : Token} (h : Asked a b) (ho : Orderly a b) : parts a b = true := by
  obtain ⟨w, gap, hs⟩ := h
  have hends : endsStatement a b = true := by
    unfold separator? at hs
    split at hs
    · rename_i hneed
      simp only [Bool.or_eq_true, Bool.and_eq_true, Bool.not_eq_true'] at hneed
      rcases hneed with hneed | hneed
      · exact hneed.2
      · exact ho.glued.resolve_left (by simp [hneed])
    · cases hs
  unfold parts
  split
  · rename_i hr
    exact ho.restricted hr
  · rename_i hr
    have hr : a.isNameOf restrictedWords = false := by simpa using hr
    rwa [endsStatement, hr, Bool.false_or] at hends

/-! ### Shorter words part as the words did -/

theorem mem_of_isMarkOf {t : Token} {texts : List String} (h : t.isMarkOf texts = true) :
    ∃ s ∈ texts, t = .mark s := by
  obtain ⟨s, hs, ht⟩ := List.any_eq_true.1 h
  exact ⟨s, hs, (Token.isMark_iff t s).1 ht⟩

theorem mem_of_isNameOf {t : Token} {texts : List String} (h : t.isNameOf texts = true) :
    ∃ s ∈ texts, t = .name s := by
  obtain ⟨s, hs, ht⟩ := List.any_eq_true.1 h
  exact ⟨s, hs, (Token.isName_iff t s).1 ht⟩

theorem isNameOf_of_not_word {t : Token} (h : t.kind ≠ .word) (texts : List String) :
    t.isNameOf texts = false := by
  by_contra hn
  obtain ⟨s, -, rfl⟩ := mem_of_isNameOf (by simpa using hn)
  exact h rfl

theorem isNameOf_mark (m : String) (texts : List String) : (Token.mark m).isNameOf texts = false :=
  isNameOf_of_not_word (by simp [Token.mark]) texts

/-- a mark that is no point has no manners to keep but those of what follows it -/
theorem orderly_mark {m : String} {t : Token} (hm : (Token.mark m).text ≠ ['.'])
    (h : gluesCleanly (.mark m) t = true) (ht : t.isTruthWord = false) : Orderly (.mark m) t := by
  have hname := isNameOf_mark m
  refine ⟨Or.inl h, fun hr => ?_, fun hp => ?_, fun hb => ?_, fun ha => ?_⟩
  · rw [hname] at hr
    cases hr
  · exact absurd (congrArg Token.text ((Token.isMark_iff _ _).1 hp)) hm
  · rw [ht] at hb
    cases hb
  · rw [Token.isTruthWord, hname] at ha
    cases ha

theorem isTruthWord_truthWord (b : Bool) : (truthWord b).isTruthWord = true := by
  cases b <;> decide

theorem not_parts_truthWord {a : Token} {b : Bool} (ho : Orderly a (truthWord b)) :
    parts a (truthWord b) = false := by
  have hall : ∀ s ∈ truthPreceders, ∀ b, parts (.mark s) (truthWord b) = false := by decide
  obtain ⟨s, hs, rfl⟩ := mem_of_isMarkOf (ho.truth (isTruthWord_truthWord b))
  exact hall s hs b

theorem startsOperand_name (s : String) : startsOperand (.name s) = true := rfl

theorem endsOperand_name (s : String) : endsOperand (.name s) = true := rfl

theorem parts_shortened {a b a' b' : Token} {p q n m : Option Token} (hp : parts a b = true)
    (ho : Orderly a b) (ha : (shortened p a n).getLast? = some a')
    (hb : (shortened q b m).head? = some b') : parts a' b' = true := by
  have hshort : ∀ x ∈ abbreviations, (Token.name x.1).isNameOf restrictedWords = false ∧
      (Token.name x.2).isNameOf restrictedWords = false := by decide
  have htruth : ∀ v, (truthWord v).isNameOf restrictedWords = false := by decide
  have hdigit : ∀ v, endsOperand (truthDigit v) = true ∧
      (truthDigit v).isNameOf restrictedWords = false := by decide
  -- the right one is unchanged or a name for a name
  have hright : b' = b ∨ ∃ x ∈ abbreviations, b = .name x.1 ∧ b' = .name x.2 := by
    rcases shortened_head hb with he | hx | ⟨v, rfl, -⟩
    · exact Or.inl he
    · exact Or.inr hx
    · rw [not_parts_truthWord ho] at hp
      cases hp
  have hstarts : startsOperand b = true → startsOperand b' = true := by
    rcases hright with rfl | ⟨x, -, -, rfl⟩
    · exact id
    · exact fun _ => startsOperand_name x.2
  unfold parts at hp ⊢
  -- the left one is unchanged, or it ends an operand as before
  rcases shortened_last ha with rfl | ⟨x, hx, rfl, rfl⟩ | ⟨v, rfl, rfl⟩
  · split at hp
    · rename_i hr
      rw [if_pos hr]
      rcases hright with rfl | ⟨x, -, rfl, -⟩
      · exact hp
      · obtain ⟨s, -, hs⟩ := mem_of_isMarkOf hp
        cases congrArg Token.kind hs
    · rename_i hr
      rw [if_neg hr]
      rw [Bool.and_eq_true] at hp ⊢
      exact ⟨hp.1, hstarts hp.2⟩
  · rw [(hshort x hx).1, if_neg Bool.false_ne_true, Bool.and_eq_true] at hp
    rw [(hshort x hx).2, if_neg Bool.false_ne_true, Bool.and_eq_true]
    exact ⟨endsOperand_name x.2, hstarts hp.2⟩
  · rw [htruth v, if_neg Bool.false_ne_true, Bool.and_eq_true] at hp
    rw [(hdigit v).2, if_neg Bool.false_ne_true, Bool.and_eq_true]
    exact ⟨(hdigit v).1, hstarts hp.2⟩

theorem shortened_of_isTrivia {t : Token} (h : t.isTrivia = true) (p n : Option Token) :
    shortened p t n = [t] := by
  have hk : t.kind ≠ .word := by
    intro hk
    simp [Token.isTrivia, Token.isWhitespace, Token.isComment, hk] at h
  rw [shortened, if_pos hk]

theorem isTrivia_shortened {t u : Token} {p n : Option Token} (h : t.isTrivia = false)
    (hu : u ∈ shortened p t n) : u.isTrivia = false := by
  have hmarks : ∀ b, ∀ v ∈ truthMarks b, v.isTrivia = false := by decide
  rcases mem_shortened hu with rfl | ⟨x, -, rfl⟩ | ⟨b, hb⟩
  · exact h
  · rfl
  · exact hmarks b u hb

theorem laid_tokens {Q : Token → Token → Prop} {us : List Token} (hne : us ≠ [])
    (h : ∀ u ∈ us, u.isWhitespace = false) {p : Option Token} {ts : List Token} :
    Laid Q p (us ++ ts) ↔ Laid Q us.getLast? ts := by
  induction us generalizing p with
  | nil => exact absurd rfl hne
  | cons u us ih =>
    rw [List.cons_append, laid_token (h u List.mem_cons_self)]
    cases us with
    | nil => rfl
    | cons v us =>
      rw [List.getLast?_cons_cons]
      exact ih (List.cons_ne_nil v us) (fun w hw => h w (List.mem_cons_of_mem u hw))

theorem head?_shortenedAll (before : Option Token) (n : Token) (us : List Token) :
    (shortenedAll before (n :: us)).head? = (shortened before n (significant? us)).head? := by
  rw [shortenedAll, List.head?_append_of_ne_nil _ (shortened_ne_nil before n _)]

/-- `p'` is what the last token before the list was shortened to -/
theorem laid_shortenedAll {Q : Token → Token → Prop}
    (hQ : ∀ a b, Q a b → parts a b = true ∧ Orderly a b) {ts : List Token}
    (hcomment : ∀ t ∈ ts, t.isComment = false) {p p' before : Option Token} (h : Laid Q p ts)
    (hp : ∀ a ∈ p, ∃ q n a', (shortened q a n).getLast? = some a' ∧ p' = some a') :
    Laid (fun a b => parts a b = true) p' (shortenedAll before ts) := by
  induction ts generalizing p p' before with
  | nil => trivial
  | cons t ts ih =>
    have ih := fun (p p' before : Option Token) => @ih (fun u hu => hcomment u (List.mem_cons_of_mem t hu))
      p p' before
    have htrivia := isTrivia_eq_isWhitespace (hcomment t List.mem_cons_self)
    rw [shortenedAll]
    cases hw : t.isWhitespace with
    | false =>
      rw [hw] at htrivia
      have hne := shortened_ne_nil before t (significant? ts)
      have hall : ∀ u ∈ shortened before t (significant? ts), u.isWhitespace = false :=
        fun u hu => isWhitespace_of_not_trivia (isTrivia_shortened htrivia hu)
      rw [laid_tokens hne hall]
      refine ih (some t) _ _ ((laid_token hw).1 h) (fun a ha => ?_)
      obtain rfl := Option.some.inj ha
      obtain ⟨a', ha'⟩ := Option.ne_none_iff_exists'.1 (mt List.getLast?_eq_none_iff.1 hne)
      exact ⟨before, significant? ts, a', ha', ha'⟩
    | true =>
      rw [hw] at htrivia
      obtain ⟨⟨q, n, hpq, hn, hnw, hqn⟩, hrest⟩ := (laid_gap hw).1 h
      rw [shortened_of_isTrivia htrivia, List.singleton_append, laid_gap hw]
      refine ⟨?_, ih p p' _ hrest hp⟩
      -- the tokens on both sides of the white space, as they were shortened
      obtain ⟨q', n', a', ha', rfl⟩ := hp q hpq
      obtain ⟨us, rfl⟩ := List.head?_eq_some_iff.1 hn
      obtain ⟨b', hb'⟩ := Option.ne_none_iff_exists'.1
        (mt List.head?_eq_none_iff.1 (shortened_ne_nil (if t.isTrivia then before else some t) n
          (significant? us)))
      have hntrivia : n.isTrivia = false := by
        rw [isTrivia_eq_isWhitespace (hcomment n (by simp)), hnw]
      have hbw := isWhitespace_of_not_trivia (isTrivia_shortened hntrivia (List.mem_of_head? hb'))
      obtain ⟨h1, h2⟩ := hQ q n hqn
      exact ⟨a', b', rfl, (head?_shortenedAll _ n us).trans hb', hbw, parts_shortened h1 h2 ha' hb'⟩

/-! ### What the words become without their layout -/

theorem significant?_significant (ts : List Token) :
    significant? (significant ts) = significant? ts := by
  induction ts with
  | nil => rfl
  | cons t ts ih =>
    rw [significant_cons]
    cases ht : t.isTrivia with
    | true =>
      rw [if_pos rfl, ih]
      simp [significant?, ht]
    | false =>
      rw [if_neg Bool.false_ne_true]
      simp [significant?, ht]

theorem significant_of_forall {ts : List Token} (h : ∀ t ∈ ts, t.isTrivia = false) :
    significant ts = ts := by
  refine List.filter_eq_self.2 (fun t ht => ?_)
  simp [Token.isSignificant, h t ht]

/-- words are shortened alike whatever trivia is between them -/
theorem significant_shortenedAll (before : Option Token) (ts : List Token) :
    significant (shortenedAll before ts) = shortenedAll before (significant ts) := by
  induction ts generalizing before with
  | nil => rfl
  | cons t ts ih =>
    rw [shortenedAll, significant_append, ih, significant_cons]
    cases ht : t.isTrivia with
    | true =>
      rw [shortened_of_isTrivia ht, significant_cons, if_pos ht]
      rfl
    | false =>
      rw [if_neg Bool.false_ne_true, if_neg Bool.false_ne_true, shortenedAll,
        significant?_significant, ht, if_neg Bool.false_ne_true,
        significant_of_forall (fun u hu => isTrivia_shortened ht hu)]

end EffectFusion.Script
