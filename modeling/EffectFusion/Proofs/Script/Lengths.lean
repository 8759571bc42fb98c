import EffectFusion.Proofs.Script.Blanks
import EffectFusion.Proofs.Script.Rewrites
import EffectFusion.Script.Compression

/-!
# No pass makes a script longer

The first four passes put shorter text in place of a token, or nothing.  The last one removes
spaces first and puts some back, so it is measured by `spacedLength`, the length of a list with
the spaces that it needs:

* `spacedLength_withoutSpaces_le`   neighbours of a script that nothing keeps apart need no space,
                                    so each space that comes back has been removed before;
* `spacedLength_arrow_le`           a new arrow and its spaces are no longer than `function`;
* `spacedLength_elision_le`         a comparison pays for a negation and its spaces;
* `compress_never_grows`            every script can be compressed, and the notes fit together.
-/

namespace EffectFusion.Script

open Text

/-! ### Bytes -/

theorem byteLength_cons (c : Char) (s : List Char) :
    byteLength (c :: s) = c.utf8Size + byteLength s := rfl

theorem byteLength_pos {s : List Char} (h : s ≠ []) : 0 < byteLength s := by
  obtain ⟨c, s, rfl⟩ := List.exists_cons_of_ne_nil h
  have := Char.utf8Size_pos c
  rw [byteLength_cons]
  omega

theorem byteLength_eq_utf8ByteSize (s : List Char) : byteLength s = (String.ofList s).utf8ByteSize := by
  induction s with
  | nil => rfl
  | cons c s ih =>
    rw [byteLength_cons, ih, ← List.singleton_append, String.ofList_append,
      String.utf8ByteSize_append, ← String.singleton_eq_ofList, String.utf8ByteSize_singleton]

def textLength (ts : List Token) : Nat := byteLength (render ts)

theorem textLength_nil : textLength [] = 0 := rfl

theorem textLength_cons (t : Token) (ts : List Token) :
    textLength (t :: ts) = byteLength t.text + textLength ts := by
  rw [textLength, render_cons, byteLength_append, textLength]

theorem textLength_append (ts us : List Token) :
    textLength (ts ++ us) = textLength ts + textLength us := by
  rw [textLength, render_append, byteLength_append, textLength, textLength]

theorem textLength_lex (s : List Char) : textLength (lex s) = byteLength s := by
  rw [textLength, render_lex]

/-! ### The first four passes -/

theorem textLength_withoutComments_le (ts : List Token) (h : ∀ t ∈ ts, t.text ≠ []) (b : Bool) :
    textLength (withoutComments b ts) ≤ textLength ts := by
  induction ts generalizing b with
  | nil => exact Nat.le_refl _
  | cons t ts ih =>
    have ih := fun b => ih (fun u hu => h u (List.mem_cons_of_mem _ hu)) b
    have hpos : 1 ≤ byteLength t.text := byteLength_pos (h t List.mem_cons_self)
    rw [textLength_cons]
    cases hc : t.isComment with
    | false =>
      rw [withoutComments_token hc, textLength_cons]
      exact Nat.add_le_add_left (ih _) _
    | true =>
      rcases withoutComments_comment hc b ts with ⟨w, hw, -, he⟩ | ⟨-, -, he⟩
      · have hone : byteLength w.text = 1 := by rcases hw with rfl | rfl <;> decide
        rw [he, textLength_cons, hone]
        exact Nat.add_le_add hpos (ih true)
      · rw [he]
        exact (ih b).trans (Nat.le_add_left _ _)

theorem text_ne_nil_of_mem_lex {s : List Char} {t : Token} (h : t ∈ lex s) : t.text ≠ [] :=
  (stands_of_mem_lex h).text_ne_nil

theorem byteLength_stripComments_le (s : List Char) : byteLength (stripComments s) ≤ byteLength s := by
  have h := textLength_withoutComments_le (lex s) (fun t ht => text_ne_nil_of_mem_lex ht) true
  rwa [textLength_lex] at h

theorem byteLength_dropWhile_le (p : Char → Bool) (s : List Char) :
    byteLength (s.dropWhile p) ≤ byteLength s := by
  have h := congrArg byteLength (List.takeWhile_append_dropWhile (p := p) (l := s))
  rw [byteLength_append] at h
  omega

theorem byteLength_reverse (s : List Char) : byteLength s.reverse = byteLength s := by
  induction s with
  | nil => rfl
  | cons c s ih =>
    rw [List.reverse_cons, byteLength_append, ih, byteLength_cons, byteLength_cons]
    exact Nat.add_comm _ _

theorem byteLength_trim_le (s : List Char) : byteLength (trim s) ≤ byteLength s := by
  have h1 : byteLength (trimStart s) ≤ byteLength s := byteLength_dropWhile_le isBlank s
  have h2 : byteLength (trimStart (trimStart s).reverse) ≤ byteLength (trimStart s).reverse :=
    byteLength_dropWhile_le isBlank _
  rw [byteLength_reverse] at h2
  show byteLength (trimStart (trimStart s).reverse).reverse ≤ _
  rw [byteLength_reverse]
  omega

theorem byteLength_collapsed_le (t : Token) (h : t.text ≠ []) :
    byteLength (collapsed t).text ≤ byteLength t.text := by
  have hpos := byteLength_pos h
  unfold collapsed
  split
  · split
    · exact hpos
    · exact hpos
  · exact Nat.le_refl _

theorem byteLength_collapseWhitespace_le (s : List Char) :
    byteLength (collapseWhitespace s) ≤ byteLength s := by
  have hmap : ∀ ts : List Token, (∀ t ∈ ts, t.text ≠ []) →
      textLength (ts.map collapsed) ≤ textLength ts := by
    intro ts
    induction ts with
    | nil => intro _; exact Nat.le_refl _
    | cons t ts ih =>
      intro h
      have h1 := byteLength_collapsed_le t (h t List.mem_cons_self)
      have h2 := ih (fun u hu => h u (List.mem_cons_of_mem _ hu))
      rw [List.map_cons, textLength_cons, textLength_cons]
      omega
  have h1 := hmap (lex (trim s)) (fun t ht => text_ne_nil_of_mem_lex ht)
  have h2 := byteLength_trim_le s
  rw [textLength_lex] at h1
  exact Nat.le_trans h1 h2

theorem textLength_tightened_le (ts : List Token) (h : ∀ t ∈ ts, t.text ≠ [])
    (before : Option Token) : textLength (tightened before ts) ≤ textLength ts := by
  induction ts generalizing before with
  | nil => exact Nat.le_refl _
  | cons t ts ih =>
    have ih := ih (fun u hu => h u (List.mem_cons_of_mem _ hu))
    rw [textLength_cons]
    cases hw : t.isWhitespace with
    | false =>
      have h1 := ih (some t)
      rw [tightened_token hw, textLength_cons]
      omega
    | true =>
      cases before with
      | none =>
        have h1 := ih none
        rw [tightened_start hw]
        omega
      | some p =>
        cases ts with
        | nil =>
          rw [tightened_end hw]
          exact Nat.zero_le _
        | cons n ts =>
          rw [tightened_gap hw]
          cases hs : separator? p t n with
          | none => exact Nat.le_trans (ih (some p)) (Nat.le_add_left _ _)
          | some gap =>
            have h1 := byteLength_collapsed_le t (h t List.mem_cons_self)
            rw [← eq_collapsed_of_separator hs] at h1
            show textLength (gap :: tightened (some gap) (n :: ts)) ≤ _
            rw [textLength_cons]
            exact Nat.add_le_add h1 (ih (some gap))

theorem byteLength_normalizePunctuation_le (s : List Char) :
    byteLength (normalizePunctuation s) ≤ byteLength s := by
  have h := textLength_tightened_le (lex s) (fun t ht => text_ne_nil_of_mem_lex ht) none
  rwa [textLength_lex] at h

theorem textLength_shortened_le (before : Option Token) (t : Token) (after : Option Token) :
    textLength (shortened before t after) ≤ byteLength t.text := by
  have hshort : ∀ a ∈ abbreviations, textLength [.name a.2] ≤ byteLength a.1.toList := by decide
  have htruth : ∀ b, textLength (truthMarks b) ≤ byteLength (truthWord b).text := by decide
  rcases shortened_cases before t after with he | ⟨a, ha, rfl, he⟩ | ⟨b, rfl, he⟩
  · rw [he, textLength_cons, textLength_nil, Nat.add_zero]
  · rw [he]
    exact hshort a ha
  · rw [he]
    exact htruth b

theorem byteLength_abbreviateTokens_le (s : List Char) :
    byteLength (abbreviateTokens s) ≤ byteLength s := by
  have hall : ∀ (ts : List Token) (before : Option Token),
      textLength (shortenedAll before ts) ≤ textLength ts := by
    intro ts
    induction ts with
    | nil => intro before; exact Nat.le_refl _
    | cons t ts ih =>
      intro before
      have h1 := textLength_shortened_le before t (significant? ts)
      have h2 := ih (if t.isTrivia then before else some t)
      rw [shortenedAll, textLength_append, textLength_cons]
      omega
  have h := hall (lex s) none
  rwa [textLength_lex] at h

/-! ### A list with the spaces that it needs -/

def gapLength (t u : Token) : Nat :=
  if !t.isWhitespace && !u.isWhitespace && !gluesCleanly t u then 1 else 0

/-- length of a list with a space between neighbours that would not stay apart -/
def spacedLength (ts : List Token) : Nat := textLength (respaced ts)

theorem gapLength_le_one (t u : Token) : gapLength t u ≤ 1 := by
  unfold gapLength
  split <;> decide

theorem gapLength_of_whitespace {t : Token} (h : t.isWhitespace = true) (u : Token) :
    gapLength t u = 0 ∧ gapLength u t = 0 := by
  simp [gapLength, h]

theorem gapLength_of_stands {t u : Token} (h : Stands t u.text) (hu : Stands u []) :
    gapLength t u = 0 := by
  simp [gapLength, (gluesCleanly_iff t u).2 ⟨h, hu⟩]

theorem spacedLength_nil : spacedLength [] = 0 := rfl

theorem spacedLength_singleton (t : Token) : spacedLength [t] = byteLength t.text := by
  show textLength [t] = _
  rw [textLength_cons, textLength_nil, Nat.add_zero]

theorem spacedLength_cons_cons (t u : Token) (rest : List Token) :
    spacedLength (t :: u :: rest) = byteLength t.text + gapLength t u + spacedLength (u :: rest) := by
  have hspace : byteLength Token.space.text = 1 := by decide
  unfold spacedLength gapLength
  rw [respaced]
  split
  · rw [textLength_cons, textLength_cons, hspace, Nat.add_assoc]
  · rw [textLength_cons, Nat.add_zero]

/-- putting two lists side by side takes one space at most -/
theorem spacedLength_append_le (ts us : List Token) :
    spacedLength (ts ++ us) ≤ spacedLength ts + spacedLength us + 1 := by
  induction ts with
  | nil =>
    rw [List.nil_append, spacedLength_nil]
    omega
  | cons t ts ih =>
    cases ts with
    | nil =>
      cases us with
      | nil =>
        rw [List.append_nil, spacedLength_nil]
        omega
      | cons u us =>
        have := gapLength_le_one t u
        rw [List.singleton_append, spacedLength_cons_cons, spacedLength_singleton]
        omega
    | cons v ts =>
      have ih : spacedLength (v :: (ts ++ us)) ≤ _ := ih
      rw [List.cons_append, List.cons_append, spacedLength_cons_cons, spacedLength_cons_cons]
      omega

/-- and saves none -/
theorem le_spacedLength_append (ts us : List Token) :
    spacedLength ts + spacedLength us ≤ spacedLength (ts ++ us) := by
  induction ts with
  | nil =>
    rw [List.nil_append, spacedLength_nil]
    omega
  | cons t ts ih =>
    cases ts with
    | nil =>
      cases us with
      | nil => exact Nat.le_refl _
      | cons u us =>
        rw [List.singleton_append, spacedLength_cons_cons, spacedLength_singleton]
        omega
    | cons v ts =>
      have ih : _ ≤ spacedLength (v :: (ts ++ us)) := ih
      rw [List.cons_append, List.cons_append, spacedLength_cons_cons, spacedLength_cons_cons]
      omega

/-! ### Spaces go and come back -/

theorem withoutSpaces_cons (t : Token) (ts : List Token) :
    withoutSpaces (t :: ts) =
      if t.isWhitespace = false ∨ t.breaksLine = true then t :: withoutSpaces ts
      else withoutSpaces ts := by
  cases h1 : t.isWhitespace <;> cases h2 : t.breaksLine <;> simp [withoutSpaces, h1, h2]

/-- between tokens that stand side by side no space comes back, between others at most the one
that went -/
theorem spacedLength_withoutSpaces_le (ts : List Token)
    (hchain : ts.IsChain (fun a b => gapLength a b = 0)) (hne : ∀ t ∈ ts, t.text ≠ []) (t : Token) :
    spacedLength (t :: withoutSpaces ts) ≤
      byteLength t.text + textLength ts + (ts.head?.map (gapLength t)).getD 0 := by
  induction ts generalizing t with
  | nil => exact Nat.le_of_eq (spacedLength_singleton t)
  | cons u us ih =>
    have hrest : us.IsChain (fun a b => gapLength a b = 0) := hchain.tail
    have ih := ih hrest (fun v hv => hne v (List.mem_cons_of_mem _ hv))
    have hpos : 1 ≤ byteLength u.text := byteLength_pos (hne u List.mem_cons_self)
    rw [withoutSpaces_cons, textLength_cons]
    show _ ≤ byteLength t.text + (byteLength u.text + textLength us) + gapLength t u
    split
    · have h1 := ih u
      have h2 : (us.head?.map (gapLength u)).getD 0 = 0 := by
        cases us with
        | nil => rfl
        | cons v us => exact (List.isChain_cons_cons.1 hchain).1
      rw [h2] at h1
      rw [spacedLength_cons_cons]
      omega
    · have h1 := ih t
      have h2 : (us.head?.map (gapLength t)).getD 0 ≤ 1 := by
        cases us with
        | nil => exact Nat.zero_le _
        | cons v us => exact gapLength_le_one t v
      omega

theorem isChain_gapLength_lex (s : List Char) :
    (lex s).IsChain (fun a b => gapLength a b = 0) := by
  refine List.IsChain.imp_of_mem_imp (fun a b _ hb hab => ?_) (isChain_lex s)
  exact gapLength_of_stands hab (stands_of_mem_lex hb)

theorem spacedLength_withoutSpaces_lex_le (s : List Char) :
    spacedLength (withoutSpaces (lex s)) ≤ byteLength s := by
  have hchain := isChain_gapLength_lex s
  have hne : ∀ t ∈ lex s, t.text ≠ [] := fun t ht => text_ne_nil_of_mem_lex ht
  -- a blank in front needs no space behind it
  have h := spacedLength_withoutSpaces_le (lex s) hchain hne .space
  have hzero : ((lex s).head?.map (gapLength .space)).getD 0 = 0 := by
    cases lex s with
    | nil => rfl
    | cons u us => exact (gapLength_of_whitespace rfl u).1
  have h1 := le_spacedLength_append [.space] (withoutSpaces (lex s))
  rw [List.singleton_append, spacedLength_singleton] at h1
  rw [hzero, textLength_lex] at h
  omega

/-! ### Rewrites -/

theorem spacedLength_middle_le (ts us vs : List Token) :
    spacedLength ts + spacedLength us + spacedLength vs ≤ spacedLength (ts ++ (us ++ vs)) := by
  have h1 := le_spacedLength_append ts (us ++ vs)
  have h2 := le_spacedLength_append us vs
  omega

theorem spacedLength_arrow_le {before : Option Token} {t : Token} {rest out : List Token}
    (h : arrow? before t rest = some out) (ts : List Token) :
    spacedLength (ts ++ out) ≤ spacedLength (ts ++ t :: rest) := by
  obtain ⟨rfl, -, gap, parameters, gap', body, tail, -, -, rfl, rfl, -⟩ := arrow?_eq_some h
  have hword : spacedLength [.name "function"] = 8 := by decide
  have harrow : spacedLength [.mark "=>"] = 2 := by decide
  have old : spacedLength ts + 8 + spacedLength parameters + spacedLength (body ++ tail) ≤
      spacedLength (ts ++ .name "function" :: (gap ++ (parameters ++ (gap' ++ (body ++ tail))))) := by
    have h1 := spacedLength_middle_le ts [.name "function"]
      (gap ++ (parameters ++ (gap' ++ (body ++ tail))))
    have h2 := spacedLength_middle_le gap parameters (gap' ++ (body ++ tail))
    have h3 := le_spacedLength_append gap' (body ++ tail)
    rw [List.singleton_append] at h1
    omega
  have new : spacedLength (ts ++ (parameters ++ .mark "=>" :: (body ++ tail))) ≤
      spacedLength ts + 1 + spacedLength parameters + 1 + 2 + 1 + spacedLength (body ++ tail) := by
    have h1 := spacedLength_append_le ts (parameters ++ .mark "=>" :: (body ++ tail))
    have h2 := spacedLength_append_le parameters (.mark "=>" :: (body ++ tail))
    have h3 := spacedLength_append_le [.mark "=>"] (body ++ tail)
    rw [List.singleton_append] at h3
    omega
  omega

theorem spacedLength_arrowed_le (before : Option Token) (us ts : List Token) :
    spacedLength (ts ++ arrowed before us) ≤ spacedLength (ts ++ us) := by
  fun_induction arrowed before us generalizing ts with
  | case1 => exact Nat.le_refl _
  | case2 before t rest u rest' h ih =>
    have h1 := ih (ts ++ [u])
    rw [List.append_assoc, List.append_assoc] at h1
    exact Nat.le_trans h1 (spacedLength_arrow_le h ts)
  | case3 before t rest h ih =>
    have h1 := ih (ts ++ [t])
    rwa [List.append_assoc, List.append_assoc] at h1

/-- a comparison is as long as a negation and three spaces -/
theorem spacedLength_elision_le {done done' : List Token} {t : Token} {rest rest' : List Token}
    (h : elision? done t rest = some (done', rest')) :
    spacedLength (done'.reverse ++ rest') ≤ spacedLength (done.reverse ++ t :: rest) := by
  obtain ⟨negated, value, chain, before, literal, hc, hl, rfl, rfl, -, -, -, rfl⟩ :=
    elision?_eq_some h
  have hop : 2 ≤ spacedLength [t] := by
    rcases comparison?_eq_some hc with rfl | rfl <;> cases negated <;> decide
  have hliteral : 2 ≤ spacedLength literal := by
    have hall : ∀ b : Bool, ∀ l ∈ spellings b, 2 ≤ spacedLength l := by decide +kernel
    exact hall value literal hl
  have old : spacedLength before.reverse + spacedLength chain.reverse + 4 + spacedLength rest' ≤
      spacedLength ((chain ++ before).reverse ++ t :: (literal ++ rest')) := by
    have h1 := spacedLength_middle_le before.reverse chain.reverse (t :: (literal ++ rest'))
    have h2 := spacedLength_middle_le [t] literal rest'
    rw [List.singleton_append] at h2
    rw [List.reverse_append, List.append_assoc]
    omega
  have hnot : spacedLength [.mark "!"] = 1 := by decide
  have hmember := spacedLength_append_le chain.reverse rest'
  refine Nat.le_trans ?_ old
  split
  · have h1 := spacedLength_append_le before.reverse ([.mark "!"] ++ (chain.reverse ++ rest'))
    have h2 := spacedLength_append_le [.mark "!"] (chain.reverse ++ rest')
    have he : (chain ++ ([Token.mark "!"] ++ before)).reverse ++ rest' =
        before.reverse ++ ([.mark "!"] ++ (chain.reverse ++ rest')) := by simp
    rw [he]
    omega
  · have h1 := spacedLength_append_le before.reverse (chain.reverse ++ rest')
    have he : (chain ++ ([] ++ before)).reverse ++ rest' =
        before.reverse ++ (chain.reverse ++ rest') := by simp
    rw [he]
    omega

theorem spacedLength_elided_le (done ts : List Token) :
    spacedLength (elided done ts) ≤ spacedLength (done.reverse ++ ts) := by
  fun_induction elided done ts with
  | case1 done => rw [List.append_nil]
  | case2 done t rest done' rest' h ih => exact Nat.le_trans ih (spacedLength_elision_le h)
  | case3 done t rest h ih =>
    rwa [List.reverse_cons, List.append_assoc, List.singleton_append] at ih

theorem byteLength_reformulate_le (s : List Char) : byteLength (reformulate s) ≤ byteLength s := by
  have h1 := spacedLength_elided_le [] (arrowed none (withoutSpaces (lex s)))
  have h2 := spacedLength_arrowed_le none (withoutSpaces (lex s)) []
  have h3 := spacedLength_withoutSpaces_lex_le s
  exact Nat.le_trans h1 (Nat.le_trans h2 h3)

/-! ### All passes -/

theorem byteLength_pass_le {p : Pass} (hp : p ∈ passes) (s : List Char) :
    byteLength (p.run s) ≤ byteLength s := by
  simp only [passes, List.mem_cons, List.not_mem_nil, or_false] at hp
  rcases hp with rfl | rfl | rfl | rfl | rfl
  · exact byteLength_stripComments_le s
  · exact byteLength_collapseWhitespace_le s
  · exact byteLength_normalizePunctuation_le s
  · exact byteLength_abbreviateTokens_le s
  · exact byteLength_reformulate_le s

/-- what the passes make of a script one after the other -/
def throughAll (ps : List Pass) (s : List Char) : List Char := ps.foldl (fun s p => p.run s) s

/-- what is noted of each pass -/
def notes : List Pass → List Char → List PassStat
  | [], _ => []
  | p :: ps, s => ⟨p.name, byteLength s, byteLength (p.run s)⟩ :: notes ps (p.run s)

theorem runPasses_eq_ok {ps : List Pass}
    (h : ∀ p ∈ ps, ∀ s, byteLength (p.run s) ≤ byteLength s) (s : List Char) :
    runPasses ps s = .ok (throughAll ps s, notes ps s) := by
  induction ps generalizing s with
  | nil => rfl
  | cons p ps ih =>
    have hp : ¬ byteLength s < byteLength (p.run s) := Nat.not_lt.2 (h p List.mem_cons_self s)
    rw [runPasses]
    simp only [hp, if_false]
    rw [ih (fun q hq => h q (List.mem_cons_of_mem _ hq)) (p.run s)]
    rfl

theorem byteLength_throughAll_le {ps : List Pass}
    (h : ∀ p ∈ ps, ∀ s, byteLength (p.run s) ≤ byteLength s) (s : List Char) :
    byteLength (throughAll ps s) ≤ byteLength s := by
  induction ps generalizing s with
  | nil => exact Nat.le_refl _
  | cons p ps ih =>
    calc byteLength (throughAll ps (p.run s))
        ≤ byteLength (p.run s) := ih (fun q hq => h q (List.mem_cons_of_mem _ hq)) (p.run s)
      _ ≤ byteLength s := h p List.mem_cons_self s

/-- every script can be compressed -/
theorem compress_eq_ok (s : List Char) :
    compress s = .ok (throughAll passes s, notes passes s) :=
  runPasses_eq_ok (fun _ hp => byteLength_pass_le hp) s

theorem map_pass_notes (ps : List Pass) (s : List Char) :
    (notes ps s).map (·.pass) = ps.map (·.name) := by
  induction ps generalizing s with
  | nil => rfl
  | cons p ps ih => rw [notes, List.map_cons, List.map_cons, ih]

theorem head?_notes {ps : List Pass} (h : ps ≠ []) (s : List Char) :
    (notes ps s).head?.map (·.before) = some (byteLength s) := by
  cases ps with
  | nil => exact absurd rfl h
  | cons p ps => rfl

theorem getLast?_notes {ps : List Pass} (h : ps ≠ []) (s : List Char) :
    (notes ps s).getLast?.map (·.after) = some (byteLength (throughAll ps s)) := by
  induction ps generalizing s with
  | nil => exact absurd rfl h
  | cons p ps ih =>
    cases ps with
    | nil => rfl
    | cons q ps =>
      rw [notes, List.getLast?_cons_of_ne_nil (by simp [notes])]
      exact ih (List.cons_ne_nil q ps) (p.run s)

theorem isChain_notes (ps : List Pass) (s : List Char) :
    (notes ps s).IsChain (fun a b => a.after = b.before) := by
  induction ps generalizing s with
  | nil => exact List.IsChain.nil
  | cons p ps ih =>
    refine (ih (p.run s)).cons (fun y hy => ?_)
    cases ps with
    | nil => cases hy
    | cons q ps =>
      obtain rfl := Option.some.inj hy
      rfl

/-- **Compression never fails.**  No pass makes any script longer, and the notes list the passes
in order, from the length of the script to that of the code, each going on where the one before
it ended. -/
theorem compress_never_grows (s : List Char) :
    (∀ p ∈ passes, ∀ u, byteLength (p.run u) ≤ byteLength u) ∧
      ∃ code stats, compress s = .ok (code, stats) ∧
        stats.map (·.pass) = ["strip_comments", "collapse_whitespace", "normalize_punctuation",
          "abbreviate_tokens", "reformulate"] ∧
        stats.head?.map (·.before) = some (byteLength s) ∧
        stats.IsChain (fun a b => a.after = b.before) ∧
        stats.getLast?.map (·.after) = some (byteLength code) := by
  have hne : passes ≠ [] := List.cons_ne_nil _ _
  refine ⟨fun p hp => byteLength_pass_le hp, _, _, compress_eq_ok s, ?_, head?_notes hne s,
    isChain_notes passes s, getLast?_notes hne s⟩
  rw [map_pass_notes]
  rfl

/-- a literal that is never closed and the pass that puts spaces back -/
theorem compress_never_grows_open :
    (⟨"reformulate", reformulate⟩ : Pass) ∈ passes ∧
      byteLength (reformulate "a + +'b".toList) ≤ 7 ∧
      ∃ code stats, compress "a + +'b".toList = .ok (code, stats) ∧
        stats.head?.map (·.before) = some 7 ∧
        stats.getLast?.map (·.after) = some (byteLength code) := by
  have hmem : (⟨"reformulate", reformulate⟩ : Pass) ∈ passes := by simp [passes]
  have hlength : byteLength "a + +'b".toList = 7 := by decide
  obtain ⟨h1, code, stats, h2, -, h3, -, h4⟩ := compress_never_grows "a + +'b".toList
  rw [hlength] at h3
  have h5 := h1 _ hmem "a + +'b".toList
  rw [hlength] at h5
  exact ⟨hmem, h5, code, stats, h2, h3, h4⟩

end EffectFusion.Script
