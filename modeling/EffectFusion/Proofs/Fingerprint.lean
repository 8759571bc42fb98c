import EffectFusion.Json.Reader
import EffectFusion.Proofs.Moderation
import EffectFusion.Report
import Mathlib

/-!
# Fingerprints tell texts apart that differ in one byte

A step of the digest is one to one in the byte that it takes, since exclusive or is, and one to one
in the digest before it, since the prime is odd and has an inverse among words of 64 bits.  So two
runs that are brought apart by one byte stay apart however many bytes follow them both.

* `step_byte_inj`, `step_inj`   one step, in the byte and in the digest before it;
* `foldl_step_inj`              a run over any bytes;
* `hex_inj`                     the sixteen digits say which digest it was;
* `substitutions_apart`         bytes, texts and the fingerprints in reports.
-/

namespace EffectFusion.Fingerprint

/-! ### One step -/

/-- the inverse of the prime among words of 64 bits -/
def primeInverse : UInt64 := 0xce965057aff6957b

theorem prime_mul_primeInverse : prime * primeInverse = 1 := by decide

theorem mul_prime_inj {h h' : UInt64} : h * prime = h' * prime ↔ h = h' := by
  refine ⟨fun he => ?_, congrArg (· * prime)⟩
  calc h = h * prime * primeInverse := by
        rw [UInt64.mul_assoc, prime_mul_primeInverse, UInt64.mul_one]
    _ = h' * prime * primeInverse := by rw [he]
    _ = h' := by rw [UInt64.mul_assoc, prime_mul_primeInverse, UInt64.mul_one]

theorem step_byte_inj {h : UInt64} {b c : UInt8} : step h b = step h c ↔ b = c := by
  rw [step, step, mul_prime_inj, UInt64.xor_right_inj, UInt8.toUInt64_inj]

theorem step_inj {h h' : UInt64} {b : UInt8} : step h b = step h' b ↔ h = h' := by
  rw [step, step, mul_prime_inj, UInt64.xor_left_inj]

/-! ### Runs -/

/-- the bytes that follow keep two digests as equal or as different as they were -/
theorem foldl_step_inj (q : List UInt8) {h h' : UInt64} :
    q.foldl step h = q.foldl step h' ↔ h = h' := by
  induction q generalizing h h' with
  | nil => exact Iff.rfl
  | cons b q ih => rw [List.foldl_cons, List.foldl_cons, ih, step_inj]

theorem ofBytes_append (p q : List UInt8) : ofBytes (p ++ q) = q.foldl step (ofBytes p) :=
  List.foldl_append

theorem ofBytes_append_inj {p p' : List UInt8} (q : List UInt8) :
    ofBytes (p ++ q) = ofBytes (p' ++ q) ↔ ofBytes p = ofBytes p' := by
  rw [ofBytes_append, ofBytes_append, foldl_step_inj]

theorem ofBytes_byte_inj (p q : List UInt8) {b c : UInt8} :
    ofBytes (p ++ [b] ++ q) = ofBytes (p ++ [c] ++ q) ↔ b = c := by
  rw [ofBytes_append_inj, ofBytes_snoc, ofBytes_snoc, step_byte_inj]

/-! ### One place -/

/-- as many bytes in the one as in the other, and all the same but in one place -/
def OneApart (xs ys : List UInt8) : Prop := xs.length = ys.length ∧ ∃! i : Nat, xs[i]? ≠ ys[i]?

theorem oneApart_substitution (p q : List UInt8) {b c : UInt8} (h : b ≠ c) :
    OneApart (p ++ [b] ++ q) (p ++ [c] ++ q) := by
  refine ⟨by simp, p.length, by simpa using h, fun j hj => ?_⟩
  by_contra hne
  refine hj ?_
  rw [List.append_assoc, List.append_assoc]
  rcases Nat.lt_or_ge j p.length with hlt | hge
  · rw [List.getElem?_append_left hlt, List.getElem?_append_left hlt]
  · obtain ⟨k, hk⟩ : ∃ k, j - p.length = k + 1 := ⟨j - p.length - 1, by omega⟩
    rw [List.getElem?_append_right hge, List.getElem?_append_right hge, hk]
    rfl

theorem OneApart.exists_substitution {xs ys : List UInt8} (h : OneApart xs ys) :
    ∃ p b c q, b ≠ c ∧ xs = p ++ [b] ++ q ∧ ys = p ++ [c] ++ q := by
  obtain ⟨hlen, i, hi, honly⟩ := h
  have hsame : ∀ j, j ≠ i → xs[j]? = ys[j]? := by
    intro j hj
    by_contra hne
    exact hj (honly j hne)
  have hx : i < xs.length := by
    by_contra hout
    exact hi (by rw [List.getElem?_eq_none (by omega), List.getElem?_eq_none (by omega)])
  have hy : i < ys.length := hlen ▸ hx
  have hbefore : xs.take i = ys.take i := by
    refine List.ext_getElem? (fun j => ?_)
    rw [List.getElem?_take, List.getElem?_take]
    split
    · exact hsame j (by omega)
    · rfl
  have hafter : xs.drop (i + 1) = ys.drop (i + 1) := by
    refine List.ext_getElem? (fun j => ?_)
    rw [List.getElem?_drop, List.getElem?_drop]
    exact hsame _ (by omega)
  have hcut : ∀ {zs : List UInt8} (hz : i < zs.length),
      zs = zs.take i ++ [zs[i]] ++ zs.drop (i + 1) := by
    intro zs hz
    rw [List.append_assoc, List.singleton_append, List.getElem_cons_drop, List.take_append_drop]
  refine ⟨xs.take i, xs[i], ys[i], xs.drop (i + 1), fun he => hi ?_, hcut hx, ?_⟩
  · rw [List.getElem?_eq_getElem hx, List.getElem?_eq_getElem hy, he]
  · rw [hbefore, hafter]
    exact hcut hy

theorem ofBytes_ne_of_oneApart {xs ys : List UInt8} (h : OneApart xs ys) :
    ofBytes xs ≠ ofBytes ys := by
  obtain ⟨p, b, c, q, hbc, rfl, rfl⟩ := h.exists_substitution
  exact fun he => hbc ((ofBytes_byte_inj p q).1 he)

/-! ### Sixteen digits -/

def ofHexDigits (ds : List Char) : Nat :=
  ds.foldl (fun n c => 16 * n + (Json.hexValue? c).getD 0) 0

theorem ofHexDigits_snoc (ds : List Char) (c : Char) :
    ofHexDigits (ds ++ [c]) = 16 * ofHexDigits ds + (Json.hexValue? c).getD 0 := by
  simp [ofHexDigits]

theorem ofHexDigits_zeros (k : Nat) (ds : List Char) :
    ofHexDigits (List.replicate k '0' ++ ds) = ofHexDigits ds := by
  induction k with
  | zero => rfl
  | succ k ih => exact ih

theorem ofHexDigits_toDigits (n : Nat) : ofHexDigits (Nat.toDigits 16 n) = n := by
  have hdigit : ∀ d < 16, (Json.hexValue? (Nat.digitChar d)).getD 0 = d := by decide
  induction n using Nat.strong_induction_on with
  | _ n ih =>
    by_cases hn : n < 16
    · rw [Nat.toDigits_of_lt_base hn]
      show 16 * 0 + _ = n
      rw [hdigit n hn]
      omega
    · rw [Nat.toDigits_of_base_le (by decide) (by omega), ofHexDigits_snoc, ih (n / 16) (by omega),
        hdigit (n % 16) (by omega)]
      omega

/-- the digits say which digest it was -/
theorem hex_inj {h h' : UInt64} : hex h = hex h' ↔ h = h' := by
  refine ⟨fun he => ?_, congrArg hex⟩
  have hvalue : ∀ g, ofHexDigits (hex g).toList = g.toNat := by
    intro g
    rw [hex, String.toList_ofList, ofHexDigits_zeros, ofHexDigits_toDigits]
  refine UInt64.toNat_inj.1 ?_
  rw [← hvalue h, ← hvalue h', he]

/-! ### Texts and reports -/

def bytesOf (s : String) : List UInt8 := s.toUTF8.data.toList

/-- **A changed byte shows.**  Another byte in one place gives another digest, whatever stands
before and behind it.  So two scripts whose bytes differ in one place only have different digests,
and their reports have different fingerprints. -/
theorem substitutions_apart :
    (∀ (p q : List UInt8) (b c : UInt8), b ≠ c → ofBytes (p ++ [b] ++ q) ≠ ofBytes (p ++ [c] ++ q)) ∧
      (∀ s t : String, OneApart (bytesOf s) (bytesOf t) → ofText s ≠ ofText t) ∧
      ∀ (plan plan' : Blueprint Float) (made made' : Reconstruction),
        OneApart (bytesOf (String.ofList made.code)) (bytesOf (String.ofList made'.code)) →
          (Report.metricsOf plan made).fingerprint ≠ (Report.metricsOf plan' made').fingerprint := by
  refine ⟨fun p q b c hbc he => hbc ((ofBytes_byte_inj p q).1 he),
    fun s t h => ofBytes_ne_of_oneApart h, fun plan plan' made made' h he => ?_⟩
  exact ofBytes_ne_of_oneApart h (hex_inj.1 he)

/-- two letters that share their first byte -/
def acute : String := "π=é;"

def grave : String := "π=è;"

theorem substitutions_apart_accents :
    (0xa9 : UInt8) ≠ 0xa8 ∧
      ofBytes ([0x3d, 0xc3] ++ [0xa9] ++ [0x3b]) ≠ ofBytes ([0x3d, 0xc3] ++ [0xa8] ++ [0x3b]) ∧
      OneApart (bytesOf acute) (bytesOf grave) ∧ ofText acute ≠ ofText grave ∧
      OneApart (bytesOf (String.ofList acute.toList)) (bytesOf (String.ofList grave.toList)) ∧
      (Report.metricsOf loneBlueprint ⟨[], acute.toList, []⟩).fingerprint ≠
        (Report.metricsOf loneBlueprint ⟨[], grave.toList, []⟩).fingerprint := by
  have hbytes : (0xa9 : UInt8) ≠ 0xa8 := by decide
  have hacute : bytesOf acute = [0xcf, 0x80, 0x3d, 0xc3] ++ [0xa9] ++ [0x3b] := by decide +kernel
  have hgrave : bytesOf grave = [0xcf, 0x80, 0x3d, 0xc3] ++ [0xa8] ++ [0x3b] := by decide +kernel
  have happart : OneApart (bytesOf acute) (bytesOf grave) := by
    rw [hacute, hgrave]
    exact oneApart_substitution _ _ hbytes
  have hcodes : OneApart (bytesOf (String.ofList acute.toList)) (bytesOf (String.ofList grave.toList)) := by
    rwa [String.ofList_toList, String.ofList_toList]
  obtain ⟨h1, h2, h3⟩ := substitutions_apart
  exact ⟨hbytes, h1 _ _ _ _ hbytes, happart, h2 _ _ happart, hcodes, h3 _ _ _ _ hcodes⟩

end EffectFusion.Fingerprint
