import EffectFusion.Proofs.Script.Edits

/-!
# What a script assigns to a member

The tokens of a statement that assigns to a member stay together in a compressed script when no
white space has to be kept between them.  So what is assigned can be looked up in the code.

* `valuesOf`        what stands between `this.m=` and the semicolon after it;
* `valuesOf_between`   one statement of a script without trivia;
* `valuesOf_laid`   one statement of a compressed script;
* `restored`        the words for truth values put back.
-/

namespace EffectFusion.Script

open Text

/-! ### Statements that assign -/

/-- the tokens of `this.m=` -/
def assigning (m : String) : List Token := [.name "this", .mark ".", .name m, .mark "="]

/-- the tokens before the first semicolon, none without one -/
def untilSemicolon? : List Token → Option (List Token)
  | [] => none
  | t :: rest => if t.isMark ";" then some [] else (untilSemicolon? rest).map (t :: ·)

/-- what stands between `this.m=` and the semicolon after it, wherever that is in a script -/
def valuesOf (m : String) : List Token → List (List Token)
  | [] => []
  | t :: rest =>
    if (assigning m).isPrefixOf (t :: rest) then
      (untilSemicolon? (rest.drop 3)).toList ++ valuesOf m rest
    else valuesOf m rest

/-- no assignment to a member `m` goes through the two neighbours -/
def Silent (m : String) (a b : Token) : Prop := ¬ (a = .name m ∧ b = .mark "=")

instance (m : String) (a b : Token) : Decidable (Silent m a b) := inferInstanceAs (Decidable (¬ _))

/-- before the statement nothing is found; three of its tokens decide what starts there -/
theorem valuesOf_append {m : String} {ts us : List Token}
    (h : (ts ++ us.take 3).IsChain (Silent m)) : valuesOf m (ts ++ us) = valuesOf m us := by
  induction ts with
  | nil => rfl
  | cons t ts ih =>
    have hno : (assigning m).isPrefixOf (t :: ts ++ us) = false := by
      by_contra hyes
      have hyes : assigning m <+: t :: ts ++ us := List.isPrefixOf_iff_prefix.1 (by simpa using hyes)
      have htake : assigning m <+: t :: ts ++ us.take 3 := by
        have hsame : t :: ts ++ us.take 3 = (t :: ts ++ us).take ((t :: ts).length + 3) := by
          rw [List.take_length_add_append]
        rw [hsame, List.prefix_take_iff]
        refine ⟨hyes, ?_⟩
        simp only [assigning, List.length_cons, List.length_nil]
        omega
      obtain ⟨rest, hrest⟩ := htake
      rw [← hrest] at h
      exact List.isChain_iff_forall_rel_of_append_cons_cons.1 h
        (by rfl : _ = [Token.name "this", .mark "."] ++ _ :: _ :: rest) ⟨rfl, rfl⟩
    rw [List.cons_append] at hno ⊢
    rw [valuesOf, hno, if_neg Bool.false_ne_true, ih h.tail]

theorem valuesOf_silent {m : String} {ts : List Token} (h : ts.IsChain (Silent m)) :
    valuesOf m ts = [] := by
  have happend := @valuesOf_append m ts []
  rw [List.take_nil, List.append_nil] at happend
  exact happend h

theorem untilSemicolon?_append {value rest : List Token} (h : ∀ t ∈ value, t.isMark ";" = false) :
    untilSemicolon? (value ++ .mark ";" :: rest) = some value := by
  induction value with
  | nil => rfl
  | cons t value ih =>
    rw [List.cons_append, untilSemicolon?, h t List.mem_cons_self, if_neg Bool.false_ne_true,
      ih (fun u hu => h u (List.mem_cons_of_mem t hu))]
    rfl

theorem valuesOf_skip {m : String} {t : Token} {ts : List Token} (h : t ≠ .name "this") :
    valuesOf m (t :: ts) = valuesOf m ts := by
  have hno : (assigning m).isPrefixOf (t :: ts) = false := by
    simp only [assigning, List.isPrefixOf, Bool.and_eq_false_iff, beq_eq_false_iff_ne]
    exact Or.inl (Ne.symm h)
  rw [valuesOf, hno, if_neg Bool.false_ne_true]

theorem valuesOf_statement {m : String} {before value after : List Token} (hm : m ≠ "this")
    (hbefore : (before ++ [Token.name "this", .mark ".", .name m]).IsChain (Silent m))
    (hvalue : ∀ t ∈ value, t.isMark ";" = false)
    (hafter : (value ++ .mark ";" :: after).IsChain (Silent m)) :
    valuesOf m (before ++ (assigning m ++ (value ++ .mark ";" :: after))) = [value] := by
  have hname : Token.name m ≠ .name "this" := by
    intro h
    exact hm (String.toList_inj.1 (congrArg Token.text h))
  rw [valuesOf_append hbefore]
  rw [assigning, List.cons_append, valuesOf, if_pos]
  · rw [List.cons_append, List.cons_append, List.cons_append, List.nil_append,
      valuesOf_skip (by decide), valuesOf_skip hname, valuesOf_skip (by decide),
      valuesOf_silent hafter, List.append_nil]
    show (untilSemicolon? (value ++ .mark ";" :: after)).toList = [value]
    rw [untilSemicolon?_append hvalue]
    rfl
  · exact List.isPrefixOf_iff_prefix.2 (List.prefix_append _ _)

/-- trivia between the tokens changes nothing -/
theorem silent_of_significant {m : String} {ts : List Token}
    (h : (significant ts).IsChain (Silent m)) : ts.IsChain (Silent m) := by
  refine List.isChain_iff_forall_rel_of_append_cons_cons.2 (fun a b before after he hab => ?_)
  obtain ⟨rfl, rfl⟩ := hab
  have hsame : significant ts = significant before ++ .name m :: .mark "=" :: significant after := by
    rw [he, significant_append]
    rfl
  rw [hsame] at h
  exact List.isChain_iff_forall_rel_of_append_cons_cons.1 h rfl ⟨rfl, rfl⟩

/-! ### Tokens that assign to other members -/

/-- no assignment to `m` goes through the tokens, nor into their first one -/
structure Without (m : String) (ts : List Token) : Prop where
  silent : ts.IsChain (Silent m)
  first : ts.head? ≠ some (.mark "=")

instance (m : String) (ts : List Token) : Decidable (Without m ts) :=
  decidable_of_iff (ts.IsChain (Silent m) ∧ ts.head? ≠ some (.mark "="))
    ⟨fun h => ⟨h.1, h.2⟩, fun h => ⟨h.silent, h.first⟩⟩

theorem Without.append {m : String} {ts us : List Token} (h : Without m ts) (h' : Without m us) :
    Without m (ts ++ us) := by
  refine ⟨h.silent.append h'.silent (fun t _ u hu hboth => ?_), ?_⟩
  · rw [hboth.2] at hu
    exact h'.first hu
  · cases ts with
    | nil => exact h'.first
    | cons t ts => exact h.first

theorem Without.left {m : String} {ts us : List Token} (h : Without m (ts ++ us)) : Without m ts := by
  refine ⟨(List.isChain_append.1 h.silent).1, ?_⟩
  cases ts with
  | nil => simp
  | cons t ts => exact h.first

theorem silent_of_ne {m : String} {a b : Token} (h : b ≠ .mark "=") : Silent m a b :=
  fun hboth => h hboth.2

theorem silent_of_not_mem {m : String} {ts : List Token} (h : ∀ t ∈ ts, t ≠ .name m) :
    ts.IsChain (Silent m) := by
  refine List.isChain_iff_forall_rel_of_append_cons_cons.2 (fun a b before after he hab => ?_)
  exact h a (by simp [he]) hab.1

theorem without_of_not_mem {m : String} {ts : List Token} (h : ∀ t ∈ ts, t ≠ .name m)
    (hfirst : ts.head? ≠ some (.mark "=")) : Without m ts :=
  ⟨silent_of_not_mem h, hfirst⟩

theorem Without.flatMap {α : Type} {m : String} {g : α → List Token} {xs : List α}
    (h : ∀ x ∈ xs, Without m (g x)) : Without m (xs.flatMap g) := by
  induction xs with
  | nil => exact ⟨List.IsChain.nil, by simp⟩
  | cons x xs ih =>
    rw [List.flatMap_cons]
    exact (h x List.mem_cons_self).append (ih fun y hy => h y (List.mem_cons_of_mem x hy))

theorem without_assigning {m n : String} {value : List Token} (hm : m ≠ "this") (hne : n ≠ m)
    (hvalue : ∀ t ∈ value, t ≠ .name m) : Without m (assigning n ++ value ++ [.mark ";"]) := by
  have hname : ∀ s, s ≠ m → Token.name s ≠ .name m :=
    fun s hs he => hs (String.toList_inj.1 (congrArg Token.text he))
  have hmark : ∀ s, Token.mark s ≠ .name m := fun s he => by cases congrArg Token.kind he
  refine without_of_not_mem (fun t ht => ?_) (by simp [assigning, Token.name, Token.mark])
  simp only [assigning, List.mem_append, List.mem_cons, List.not_mem_nil, or_false] at ht
  rcases ht with ((rfl | rfl | rfl | rfl) | ht) | rfl
  · exact hname "this" (Ne.symm hm)
  · exact hmark "."
  · exact hname n hne
  · exact hmark "="
  · exact hvalue t ht
  · exact hmark ";"

theorem Without.assigning_after {m : String} {before : List Token} (h : Without m before) :
    (before ++ [Token.name "this", .mark ".", .name m]).IsChain (Silent m) := by
  have hname : ∀ s, Token.name s ≠ .mark "=" := fun s he => by cases congrArg Token.kind he
  have hpoint : Token.mark "." ≠ .mark "=" := by decide
  refine h.silent.append ?_ (fun t _ u hu => ?_)
  · exact List.isChain_cons_cons.2 ⟨silent_of_ne hpoint, List.isChain_pair.2 (silent_of_ne (hname m))⟩
  · obtain rfl : Token.name "this" = u := Option.some.inj hu
    exact silent_of_ne (hname "this")

theorem Without.value_before {m : String} {value after : List Token} (h : Without m after)
    (hvalue : ∀ t ∈ value, t ≠ .name m) : (value ++ .mark ";" :: after).IsChain (Silent m) := by
  have hsemicolon : Token.mark ";" ≠ .mark "=" := by decide
  refine (silent_of_not_mem hvalue).append (h.silent.cons ?_) ?_
  · intro u _ hboth
    cases congrArg Token.kind hboth.1
  · intro t _ u hu
    obtain rfl : Token.mark ";" = u := Option.some.inj hu
    exact silent_of_ne hsemicolon

/-- one statement between tokens that do not assign to `m` -/
theorem valuesOf_between {m : String} {before value after : List Token} (hm : m ≠ "this")
    (hbefore : Without m before) (hvalue : ∀ t ∈ value, t.isMark ";" = false ∧ t ≠ .name m)
    (hafter : Without m after) :
    valuesOf m (before ++ (assigning m ++ (value ++ .mark ";" :: after))) = [value] :=
  valuesOf_statement hm hbefore.assigning_after (fun t ht => (hvalue t ht).1)
    (hafter.value_before fun t ht => (hvalue t ht).2)

/-! ### Tokens that stay together -/

section

variable {L before middle after : List Token}

/-- no white space is left between tokens that do not keep it -/
theorem contiguous_tail {t : Token} (hlaid : Laid Kept (some t) L)
    (hcomment : ∀ u ∈ L, u.isComment = false)
    (hjoined : (t :: middle).IsChain (fun a b => ¬ Kept a b))
    (h : significant L = middle ++ after) :
    ∃ rest, L = middle ++ rest ∧ significant rest = after := by
  induction middle generalizing t L with
  | nil => exact ⟨L, rfl, h⟩
  | cons m middle ih =>
    cases L with
    | nil => cases h
    | cons u L =>
      have htrivia := isTrivia_eq_isWhitespace (hcomment u List.mem_cons_self)
      have hrest : ∀ v ∈ L, v.isComment = false := fun v hv => hcomment v (List.mem_cons_of_mem u hv)
      obtain ⟨hpair, hchain⟩ := List.isChain_cons_cons.1 hjoined
      rw [significant_cons, htrivia] at h
      cases hu : u.isWhitespace with
      | false =>
        rw [hu, if_neg Bool.false_ne_true] at h
        obtain ⟨rfl, htail⟩ := List.cons.inj h
        obtain ⟨rest, rfl, hsame⟩ := ih ((laid_token hu).1 hlaid) hrest hchain htail
        exact ⟨rest, rfl, hsame⟩
      | true =>
        -- the token after the white space is the next one that matters
        obtain ⟨⟨q, n, hq, hn, hnw, hkept⟩, -⟩ := (laid_gap hu).1 hlaid
        obtain ⟨us, rfl⟩ := List.head?_eq_some_iff.1 hn
        rw [hu, if_pos rfl, significant_cons,
          isTrivia_eq_isWhitespace (hrest n List.mem_cons_self), hnw, if_neg Bool.false_ne_true] at h
        obtain rfl := Option.some.inj hq
        rw [(List.cons.inj h).1] at hkept
        exact absurd hkept hpair

theorem contiguous {m : Token} (hlaid : Laid Kept none L) (hcomment : ∀ t ∈ L, t.isComment = false)
    (hjoined : (m :: middle).IsChain (fun a b => ¬ Kept a b))
    (h : significant L = before ++ (m :: middle ++ after)) :
    ∃ left right, L = left ++ (m :: middle ++ right) ∧
      significant left = before ∧ significant right = after := by
  obtain ⟨left, rest, rfl, hleft, hrest⟩ := List.filter_eq_append_iff.1 h
  obtain ⟨gap, rest, rfl, hgap, hm, hrest⟩ := List.filter_eq_cons_iff.1 hrest
  have hmw : m.isWhitespace = false := by
    refine isWhitespace_of_not_trivia ?_
    simpa [Token.isSignificant] using hm
  rw [← List.append_assoc] at hlaid
  have hlaid := ((laid_append hmw).1 hlaid).2
  have hrestc : ∀ t ∈ rest, t.isComment = false := by
    intro t ht
    exact hcomment t (by simp [ht])
  obtain ⟨right, rfl, hright⟩ := contiguous_tail hlaid hrestc hjoined hrest
  refine ⟨left ++ gap, right, ?_, ?_, hright⟩
  · simp
  · have hnone : significant gap = [] := List.filter_eq_nil_iff.2 hgap
    rw [significant_append, hnone, List.append_nil]
    exact hleft

end

/-- **One statement of a script** that keeps little white space. -/
theorem valuesOf_laid {m : String} {L before value after : List Token} (hm : m ≠ "this")
    (hlaid : Laid Kept none L) (hcomment : ∀ t ∈ L, t.isComment = false)
    (hjoined : (assigning m ++ value ++ [Token.mark ";"]).IsChain (fun a b => ¬ Kept a b))
    (hbefore : Without m before) (hvalue : ∀ t ∈ value, t.isMark ";" = false ∧ t ≠ .name m)
    (hafter : Without m after)
    (h : significant L = before ++ (assigning m ++ value ++ [.mark ";"] ++ after)) :
    valuesOf m L = [value] := by
  obtain ⟨left, right, hL, hleft, hright⟩ := contiguous hlaid hcomment hjoined h
  have hbefore : (left ++ [Token.name "this", .mark ".", .name m]).IsChain (Silent m) := by
    refine silent_of_significant ?_
    rw [significant_append, hleft]
    exact hbefore.assigning_after
  have hafter : (value ++ .mark ";" :: right).IsChain (Silent m) := by
    have htrivia : significant value = value := by
      refine significant_of_forall (fun t ht => ?_)
      have ht : t ∈ significant L := by
        rw [h]
        simp [ht]
      exact (mem_significant.1 ht).2
    have hsemicolon : significant (.mark ";" :: right) = .mark ";" :: after := by
      rw [significant_cons, hright]
      rfl
    refine silent_of_significant ?_
    rw [significant_append, htrivia, hsemicolon]
    exact hafter.value_before fun t ht => (hvalue t ht).2
  have hvalues := valuesOf_statement hm hbefore (fun t ht => (hvalue t ht).1) hafter
  have hsame : L = left ++ (assigning m ++ (value ++ .mark ";" :: right)) := by
    rw [hL]
    simp [assigning]
  rwa [hsame]

/-! ### Truth values -/

/-- `!0` and `!1` read as truth values -/
def restored : List Token → List Token
  | [] => []
  | [t] => [t]
  | t :: u :: rest =>
    if t = .mark "!" ∧ u = truthDigit true then truthWord true :: restored rest
    else if t = .mark "!" ∧ u = truthDigit false then truthWord false :: restored rest
    else t :: restored (u :: rest)

theorem restored_truthMarks (b : Bool) (ts : List Token) :
    restored (truthMarks b ++ ts) = truthWord b :: restored ts := by
  cases b with
  | true => rw [truthMarks, List.cons_append, List.singleton_append, restored, if_pos ⟨rfl, rfl⟩]
  | false =>
    have hdiffer : truthDigit false ≠ truthDigit true := by decide
    rw [truthMarks, List.cons_append, List.singleton_append, restored, if_neg (fun h => hdiffer h.2),
      if_pos ⟨rfl, rfl⟩]

theorem restored_cons {t : Token} (h : t ≠ .mark "!") (ts : List Token) :
    restored (t :: ts) = t :: restored ts := by
  cases ts with
  | nil => rfl
  | cons u ts => rw [restored, if_neg (fun he => h he.1), if_neg (fun he => h he.1)]

theorem restored_written {ts : List Token}
    (h : ∀ t ∈ ts, (∃ b, t = truthWord b) ∨ written t = [t] ∧ t ≠ .mark "!") :
    restored (ts.flatMap written) = ts := by
  induction ts with
  | nil => rfl
  | cons t ts ih =>
    have ih := ih (fun u hu => h u (List.mem_cons_of_mem t hu))
    rw [List.flatMap_cons]
    rcases h t List.mem_cons_self with ⟨b, rfl⟩ | ⟨hw, hmark⟩
    · rw [written_truthWord, restored_truthMarks, ih]
    · rw [hw, List.singleton_append, restored_cons hmark, ih]

end EffectFusion.Script
