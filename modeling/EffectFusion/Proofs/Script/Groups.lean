import EffectFusion.Proofs.Script.Arrows

/-!
# Groups in brackets

Where a group in brackets ends hangs on the brackets only.  Tokens that are no brackets may be
swapped for others in the middle of a list: the group ends at the same token, before the swapped
part or behind it.  With that a function expression that could not become an arrow function before
something near it was rewritten cannot become one afterwards (`Convertible.swap`).

* `bracketGroup?_eq_some_iff` a group ends where as many brackets are closed as were opened;
* `spanGroup?_swap`           and it ends there after a swap as well;
* `arrow?_isSome_iff`         what has to be around the word for a function expression;
* `Convertible.swap`          what follows it before a swap if it follows it afterwards.
-/

namespace EffectFusion.Script

/-! ### Where a group ends -/

section Groups

variable {opening closing : String} {depth : Nat} {us vs mid mid' ts group rest : List Token}

/-- with `depth` brackets open before it the list closes them all with its last token and not
before -/
structure ClosesAt (opening closing : String) (depth : Nat) (group : List Token) : Prop where
  balanced : group.countP (·.isMark closing) = group.countP (·.isMark opening) + depth
  inside : ∀ us, us <+: group → us ≠ group →
    us.countP (·.isMark closing) < us.countP (·.isMark opening) + depth

theorem closesAt_zero : ClosesAt opening closing 0 group ↔ group = [] := by
  constructor
  · intro h
    by_contra hne
    have hnil := h.inside [] List.nil_prefix (Ne.symm hne)
    exact Nat.lt_irrefl _ hnil
  · rintro rfl
    exact ⟨rfl, fun us hus hne => absurd (List.prefix_nil.1 hus) hne⟩

/-- the same of the rest behind a first token, with `d` brackets open before it -/
theorem closesAt_cons {t : Token} {d : Nat}
    (hcount : (if t.isMark closing then 1 else 0) + d = (if t.isMark opening then 1 else 0) + depth)
    (hpos : 0 < depth) :
    ClosesAt opening closing depth (t :: group) ↔ ClosesAt opening closing d group := by
  have hall : ∀ us : List Token, (t :: us).countP (·.isMark closing) <
      (t :: us).countP (·.isMark opening) + depth ↔
        us.countP (·.isMark closing) < us.countP (·.isMark opening) + d := by
    intro us
    rw [List.countP_cons, List.countP_cons]
    omega
  constructor
  · intro h
    have hbalanced := h.balanced
    rw [List.countP_cons, List.countP_cons] at hbalanced
    exact ⟨by omega, fun us hus hne => (hall us).1 (h.inside (t :: us)
      (List.cons_prefix_cons.2 ⟨rfl, hus⟩) (fun he => hne (List.cons.inj he).2))⟩
  · intro h
    refine ⟨?_, fun us hus hne => ?_⟩
    · rw [List.countP_cons, List.countP_cons, h.balanced]
      omega
    · rcases List.prefix_cons_iff.1 hus with rfl | ⟨us, rfl, hrest⟩
      · simpa using hpos
      · exact (hall us).2 (h.inside us hrest (fun he => hne (by rw [he])))

theorem not_closing_of_opening {t : Token} (hne : opening ≠ closing) (h : t.isMark opening = true) :
    t.isMark closing = false := by
  by_contra hc
  rw [(Token.isMark_iff t opening).1 h] at hc
  exact hne (by simpa [Token.isMark, Token.mark, String.toList_inj] using hc)

theorem ClosesAt.ne_nil (h : ClosesAt opening closing depth group) (hpos : 0 < depth) : group ≠ [] := by
  rintro rfl
  have hbalanced := h.balanced
  rw [List.countP_nil, List.countP_nil, Nat.zero_add] at hbalanced
  exact hpos.ne hbalanced

/-- with `depth` brackets open, `ts` is split behind the token that closes them all -/
def SplitsAtClose (opening closing : String) (depth : Nat) (ts : List Token)
    (r : Option (List Token × List Token)) : Prop :=
  ∀ group rest, r = some (group, rest) ↔ ClosesAt opening closing depth group ∧ ts = group ++ rest

/-- a first token is put before what is split off behind it, with `d` brackets open there -/
theorem SplitsAtClose.cons {t : Token} {d : Nat} {r : Option (List Token × List Token)}
    (hcount : (if t.isMark closing then 1 else 0) + d = (if t.isMark opening then 1 else 0) + depth)
    (hpos : 0 < depth) (h : SplitsAtClose opening closing d ts r) :
    SplitsAtClose opening closing depth (t :: ts) (r.map (fun p => (t :: p.1, p.2))) := by
  intro group rest
  constructor
  · intro hr
    obtain ⟨⟨g, tail⟩, hs, he⟩ := Option.map_eq_some_iff.1 hr
    obtain ⟨rfl, rfl⟩ := Prod.mk.inj he
    obtain ⟨hcloses, rfl⟩ := (h g tail).1 hs
    exact ⟨(closesAt_cons hcount hpos).2 hcloses, rfl⟩
  · rintro ⟨hcloses, hsplit⟩
    obtain ⟨u, group, rfl⟩ := List.exists_cons_of_ne_nil (hcloses.ne_nil hpos)
    obtain ⟨rfl, hrest⟩ := List.cons.inj hsplit
    rw [(h group rest).2 ⟨(closesAt_cons hcount hpos).1 hcloses, hrest⟩]
    rfl

theorem splitsAtClose_zero : SplitsAtClose opening closing 0 ts (some ([], ts)) := by
  intro group rest
  rw [closesAt_zero]
  constructor
  · intro h
    obtain ⟨rfl, rfl⟩ := Prod.mk.inj (Option.some.inj h)
    exact ⟨rfl, rfl⟩
  · rintro ⟨rfl, rfl⟩
    rfl

theorem splitsAtClose_spanGroup? (hne : opening ≠ closing) (hpos : 0 < depth) :
    SplitsAtClose opening closing depth ts (spanGroup? opening closing depth ts) := by
  induction ts generalizing depth with
  | nil =>
    refine fun group rest => ⟨(fun h => by cases h), fun ⟨hcloses, hsplit⟩ => ?_⟩
    exact absurd (List.append_eq_nil_iff.1 hsplit.symm).1 (hcloses.ne_nil hpos)
  | cons t ts ih =>
    rw [spanGroup?]
    cases ho : t.isMark opening with
    | true =>
      have hc := not_closing_of_opening hne ho
      rw [if_pos rfl]
      exact (ih (Nat.succ_pos depth)).cons (by simp [hc, ho, Nat.add_comm]) hpos
    | false =>
      rw [if_neg Bool.false_ne_true]
      cases hc : t.isMark closing with
      | false =>
        rw [if_neg Bool.false_ne_true]
        exact (ih hpos).cons (by rw [hc, ho]) hpos
      | true =>
        rw [if_pos rfl]
        split
        · -- the last bracket that was open
          exact splitsAtClose_zero.cons (by simp [hc, ho]; omega) hpos
        · exact (ih (by omega)).cons (by simp [hc, ho]; omega) hpos

/-- with a bracket open, the group that is split off closes it and ends there -/
theorem spanGroup?_eq_some_iff (hne : opening ≠ closing) (hpos : 0 < depth) :
    spanGroup? opening closing depth ts = some (group, rest) ↔
      ClosesAt opening closing depth group ∧ ts = group ++ rest :=
  splitsAtClose_spanGroup? hne hpos group rest

theorem spanGroup?_over (hmid : ∀ t ∈ mid, t.isMark opening = false ∧ t.isMark closing = false) :
    spanGroup? opening closing depth (mid ++ vs) =
      (spanGroup? opening closing depth vs).map (fun p => (mid ++ p.1, p.2)) := by
  induction mid with
  | nil => simp
  | cons t mid ih =>
    obtain ⟨ho, hc⟩ := hmid t List.mem_cons_self
    rw [List.cons_append, spanGroup?, ho, hc, if_neg Bool.false_ne_true, if_neg Bool.false_ne_true,
      ih (fun u hu => hmid u (List.mem_cons_of_mem t hu)), Option.map_map]
    rfl

/-- a group of the new list ends before the part that was swapped, or it holds all of it and ends at
the same token behind it; either way the old list has the same group but for that part -/
def SwapsBack (mid mid' vs : List Token) (old new : Option (List Token × List Token)) : Prop :=
  ∀ group rest, new = some (group, rest) →
    (∃ rest', rest = rest' ++ (mid' ++ vs) ∧ old = some (group, rest' ++ (mid ++ vs))) ∨
      ∃ left right, group = left ++ (mid' ++ right) ∧ old = some (left ++ (mid ++ right), rest)

theorem SwapsBack.cons {old new : Option (List Token × List Token)} (h : SwapsBack mid mid' vs old new)
    (t : Token) : SwapsBack mid mid' vs (old.map (fun p => (t :: p.1, p.2)))
      (new.map (fun p => (t :: p.1, p.2))) := by
  intro group rest hnew
  obtain ⟨⟨g, r⟩, hs, he⟩ := Option.map_eq_some_iff.1 hnew
  obtain ⟨rfl, rfl⟩ := Prod.mk.inj he
  rcases h g r hs with ⟨rest', hrest, hold⟩ | ⟨left, right, rfl, hold⟩
  · exact Or.inl ⟨rest', hrest, by rw [hold]; rfl⟩
  · exact Or.inr ⟨t :: left, right, rfl, by rw [hold]; rfl⟩

/-- **Swaps.**  Which tokens that are no brackets stand in a list does not change its groups. -/
theorem spanGroup?_swap (hmid : ∀ t ∈ mid, t.isMark opening = false ∧ t.isMark closing = false)
    (hmid' : ∀ t ∈ mid', t.isMark opening = false ∧ t.isMark closing = false) :
    SwapsBack mid mid' vs (spanGroup? opening closing depth (us ++ (mid ++ vs)))
      (spanGroup? opening closing depth (us ++ (mid' ++ vs))) := by
  induction us generalizing depth with
  | nil =>
    intro group rest h
    rw [List.nil_append, spanGroup?_over hmid'] at h
    obtain ⟨⟨g, r⟩, hs, he⟩ := Option.map_eq_some_iff.1 h
    obtain ⟨rfl, rfl⟩ := Prod.mk.inj he
    exact Or.inr ⟨[], g, rfl, by rw [List.nil_append, spanGroup?_over hmid, hs]; rfl⟩
  | cons t us ih =>
    rw [List.cons_append, List.cons_append, spanGroup?, spanGroup?]
    split
    · exact ih.cons t
    · split
      · split
        · intro group rest h
          obtain ⟨rfl, rfl⟩ := Prod.mk.inj (Option.some.inj h)
          exact Or.inl ⟨us, rfl, rfl⟩
        · exact ih.cons t
      · exact ih.cons t

/-! ### Groups behind trivia -/

theorem significant?_append (ts us : List Token) :
    significant? (ts ++ us) = (significant? ts).or (significant? us) := List.find?_append ..

theorem significant?_of_isSome (h : (significant? ts).isSome = true) (us : List Token) :
    significant? (ts ++ us) = significant? ts := by
  obtain ⟨t, ht⟩ := Option.isSome_iff_exists.1 h
  rw [significant?_append, ht, Option.some_or]

theorem bracketGroup?_eq_none (h : significant? ts ≠ some (.mark opening)) :
    bracketGroup? opening closing ts = none := by
  unfold bracketGroup?
  simp only
  rw [head?_dropWhile, if_neg]
  intro ho
  cases hs : significant? ts with
  | none =>
    rw [hs] at ho
    cases ho
  | some t =>
    rw [hs] at ho h
    exact h (congrArg some ((Token.isMark_iff t opening).1 ho))

/-- the group that is looked for starts in the first part of a list -/
theorem bracketGroup?_append (hus : (significant? us).isSome = true) :
    bracketGroup? opening closing (us ++ vs) =
      if holds (·.isMark opening) (significant? us)
      then spanGroup? opening closing 0 (us.dropWhile Token.isTrivia ++ vs) else none := by
  have hne : us.dropWhile Token.isTrivia ≠ [] := by
    intro hnil
    rw [← head?_dropWhile, hnil] at hus
    cases hus
  have hdrop : (us ++ vs).dropWhile Token.isTrivia = us.dropWhile Token.isTrivia ++ vs := by
    rw [List.dropWhile_append, if_neg (by simpa using hne)]
  unfold bracketGroup?
  simp only
  rw [hdrop, List.head?_append_of_ne_nil _ hne, head?_dropWhile]

theorem bracketGroup?_swap (hus : (significant? us).isSome = true)
    (hmid : ∀ t ∈ mid, t.isMark opening = false ∧ t.isMark closing = false)
    (hmid' : ∀ t ∈ mid', t.isMark opening = false ∧ t.isMark closing = false) :
    SwapsBack mid mid' vs (bracketGroup? opening closing (us ++ (mid ++ vs)))
      (bracketGroup? opening closing (us ++ (mid' ++ vs))) := by
  rw [bracketGroup?_append hus, bracketGroup?_append hus]
  split
  · exact spanGroup?_swap hmid hmid'
  · intro group rest h
    cases h

/-- from a bracket to the one that closes it -/
def Group (opening closing : String) (group : List Token) : Prop :=
  ∃ inner, group = .mark opening :: inner ∧ ClosesAt opening closing 1 inner

theorem bracketGroup?_open {gap : List Token} (hgap : ∀ t ∈ gap, t.isTrivia = true) :
    bracketGroup? opening closing (gap ++ .mark opening :: ts) =
      (spanGroup? opening closing 1 ts).map (fun p => (.mark opening :: p.1, p.2)) := by
  have hdrop : (gap ++ .mark opening :: ts).dropWhile Token.isTrivia = .mark opening :: ts := by
    rw [List.dropWhile_append_of_pos hgap, List.dropWhile_cons_of_neg (by simp [Token.isTrivia,
      Token.isWhitespace, Token.isComment, Token.mark])]
  have hhead : holds (·.isMark opening) (some (.mark opening)) = true := Token.isMark_mark opening
  unfold bracketGroup?
  simp only
  rw [hdrop, List.head?_cons, if_pos hhead, spanGroup?, if_pos (Token.isMark_mark opening)]

/-- **Groups.**  Behind trivia the group that is found is the one from a bracket to the one that
closes it. -/
theorem bracketGroup?_eq_some_iff (hne : opening ≠ closing) :
    bracketGroup? opening closing ts = some (group, rest) ↔
      ∃ gap, (∀ t ∈ gap, t.isTrivia = true) ∧ Group opening closing group ∧
        ts = gap ++ (group ++ rest) := by
  constructor
  · intro h
    obtain ⟨⟨gap, hgap, rfl⟩, hhead, -⟩ := bracketGroup?_eq_some h
    obtain ⟨inner, rfl⟩ := List.head?_eq_some_iff.1 hhead
    refine ⟨gap, hgap, ⟨inner, rfl, ?_⟩, rfl⟩
    rw [List.cons_append, bracketGroup?_open hgap] at h
    obtain ⟨⟨g, r⟩, hs, he⟩ := Option.map_eq_some_iff.1 h
    obtain ⟨hg, rfl⟩ := Prod.mk.inj he
    obtain rfl := (List.cons.inj hg).2
    exact ((spanGroup?_eq_some_iff hne Nat.one_pos).1 hs).1
  · rintro ⟨gap, hgap, ⟨inner, rfl, hcloses⟩, rfl⟩
    rw [List.cons_append, bracketGroup?_open hgap,
      (spanGroup?_eq_some_iff hne Nat.one_pos).2 ⟨hcloses, rfl⟩]
    rfl

end Groups

/-! ### What follows the word for a function expression -/

/-- with this behind its word a function expression can become an arrow function -/
def Convertible (rest : List Token) : Prop :=
  ∃ parameters between body tail, bracketGroup? "(" ")" rest = some (parameters, between) ∧
    bracketGroup? "\x7b" "\x7d" between = some (body, tail) ∧
    (parameters ++ body).any (·.isNameOf callWords) = false ∧
    mayFollowArrow (significant? tail) = true

theorem arrow?_isSome_iff {before : Option Token} {t : Token} {rest : List Token} :
    (arrow? before t rest).isSome = true ↔
      t = .name "function" ∧ mayPrecedeArrow before = true ∧ Convertible rest := by
  simp only [Option.isSome_iff_exists, arrow?_eq_some_iff]
  constructor
  · rintro ⟨out, hname, hbefore, parameters, between, body, tail, h1, h2, hcalls, hfollow, -⟩
    exact ⟨hname, hbefore, parameters, between, body, tail, h1, h2, hcalls, hfollow⟩
  · rintro ⟨hname, hbefore, parameters, between, body, tail, h1, h2, hcalls, hfollow⟩
    exact ⟨_, hname, hbefore, parameters, between, body, tail, h1, h2, hcalls, hfollow, rfl⟩

theorem not_bracket_of_not_fence (opening closing : String) {mid : List Token}
    (h : ∀ t ∈ mid, t.isFence = false) (ho : opening ∈ fences) (hc : closing ∈ fences) :
    ∀ t ∈ mid, t.isMark opening = false ∧ t.isMark closing = false := by
  intro t ht
  have hall := List.any_eq_false.1 (h t ht)
  exact ⟨by simpa using hall opening ho, by simpa using hall closing hc⟩

/-- **What cannot become an arrow function still cannot.**  In the middle of what follows its word,
behind some token that matters, tokens without brackets gave way to `mid'`, which lost no word
that forbids an arrow and put nothing in front of the rest that lets one through. -/
theorem Convertible.swap {us vs mid mid' : List Token} {z : Token} (hus : (significant? us).isSome = true)
    (hmid : ∀ t ∈ mid, t.isFence = false) (hmid' : ∀ t ∈ mid', t.isFence = false)
    (hcalls : mid'.any (·.isNameOf callWords) = false → mid.any (·.isNameOf callWords) = false)
    (hz : significant? (mid' ++ vs) = some z) (hbody : z ≠ .mark "\x7b")
    (hfollow : z.isMarkOf arrowFollowers = false) (h : Convertible (us ++ (mid' ++ vs))) :
    Convertible (us ++ (mid ++ vs)) := by
  obtain ⟨parameters, between, body, tail, h1, h2, hwords, htail⟩ := h
  have hround := not_bracket_of_not_fence "(" ")" hmid (by decide) (by decide)
  have hround' := not_bracket_of_not_fence "(" ")" hmid' (by decide) (by decide)
  have hcurly := not_bracket_of_not_fence "\x7b" "\x7d" hmid (by decide) (by decide)
  have hcurly' := not_bracket_of_not_fence "\x7b" "\x7d" hmid' (by decide) (by decide)
  -- words in a group that holds the swapped part
  have hany : ∀ left right : List Token, (left ++ (mid' ++ right)).any (·.isNameOf callWords) = false →
      (left ++ (mid ++ right)).any (·.isNameOf callWords) = false := by
    intro left right hno
    simp only [List.any_append, Bool.or_eq_false_iff] at hno ⊢
    exact ⟨hno.1, hcalls hno.2.1, hno.2.2⟩
  rw [List.any_append, Bool.or_eq_false_iff] at hwords
  rcases bracketGroup?_swap hus hround hround' _ _ h1 with ⟨between', rfl, h1'⟩ | ⟨left, right, rfl, h1'⟩
  · cases hb : (significant? between').isSome with
    | false =>
      -- then the body would start with the swapped part or with what follows it
      have hnone : significant? (between' ++ (mid' ++ vs)) = some z := by
        rw [significant?_append, Option.isSome_eq_false_iff.1 hb |> Option.isNone_iff_eq_none.1, hz]
        rfl
      rw [bracketGroup?_eq_none (by rw [hnone]; exact fun he => hbody (Option.some.inj he))] at h2
      cases h2
    | true =>
      rcases bracketGroup?_swap hb hcurly hcurly' _ _ h2 with ⟨tail', rfl, h2'⟩ | ⟨left, right, rfl, h2'⟩
      · refine ⟨parameters, _, body, _, h1', h2', by rw [List.any_append, hwords.1, hwords.2]; rfl, ?_⟩
        cases ht : (significant? tail').isSome with
        | true => rwa [significant?_of_isSome ht] at htail ⊢
        | false =>
          rw [significant?_append, Option.isSome_eq_false_iff.1 ht |> Option.isNone_iff_eq_none.1,
            hz] at htail
          exact absurd (hfollow.symm.trans htail) Bool.false_ne_true
      · exact ⟨parameters, _, _, tail, h1', h2',
          by rw [List.any_append, hwords.1, hany left right hwords.2]; rfl, htail⟩
  · exact ⟨_, between, body, tail, h1', h2,
      by rw [List.any_append, hany left right hwords.1, hwords.2]; rfl, htail⟩

end EffectFusion.Script
