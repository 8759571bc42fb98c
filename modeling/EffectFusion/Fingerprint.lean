/-!
# Fingerprints

The FNV-1a digest of 64 bits over the UTF-8 bytes of a text, and its sixteen hexadecimal digits.
-/

namespace EffectFusion.Fingerprint

def offsetBasis : UInt64 := 0xcbf29ce484222325

def prime : UInt64 := 0x00000100000001b3

/-- one byte: exclusive or, then times the prime -/
def step (h : UInt64) (b : UInt8) : UInt64 := (h ^^^ b.toUInt64) * prime

def ofBytes (bytes : List UInt8) : UInt64 := bytes.foldl step offsetBasis

theorem ofBytes_snoc (bytes : List UInt8) (b : UInt8) :
    ofBytes (bytes ++ [b]) = step (ofBytes bytes) b := by
  simp [ofBytes]

def ofText (s : String) : UInt64 := ofBytes s.toUTF8.data.toList

example : ofText "" = 0xcbf29ce484222325 := by decide

example : ofText "a" = 0xaf63dc4c8601ec8c := by decide

/-- sixteen hexadecimal digits -/
def hex (h : UInt64) : String :=
  let ds := Nat.toDigits 16 h.toNat
  String.ofList (List.replicate (16 - ds.length) '0' ++ ds)

end EffectFusion.Fingerprint
