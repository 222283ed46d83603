import Tabular.Text.Utf8
import Mathlib.Data.List.Basic

/-! # Decoding what was encoded

The bytes of a text are read back as that text, and they begin with a byte order mark only if the
text begins with the character that such a mark stands for.
-/
namespace Tabular.Text.Utf8

variable {v i : Nat} {a b c d : UInt8} {r : List UInt8}

theorem toNat_ofNat_of_lt {n : Nat} (h : n < 256) : (UInt8.ofNat n).toNat = n := by
  rw [UInt8.toNat_ofNat']
  omega

/-! ## Sequences of bytes

The payload of a character is its number, cut into pieces of six bits from the right. The lead byte
tells how many of them there are, and a shorter sequence is looked for first. -/

theorem two?_eq (hlow : 127 < v) (hhigh : v ≤ 2047) (ha : a.toNat = v / 64 % 32 + 192)
    (hb : b.toNat = v % 64 + 128) : two? a b = some (Char.ofNat v) := by
  have hv : (v / 64 % 32 + 192) % 32 * 64 + (v % 64 + 128) % 64 = v := by omega
  rw [two?, if_pos, tailBits, ha, hb, hv]
  simp only [isTail, Bool.and_eq_true, decide_eq_true_eq, UInt8.le_iff_toNat_le,
    UInt8.reduceToNat, ha, hb]
  omega

theorem three?_eq (hlow : 2047 < v) (hhigh : v ≤ 65535) (hv : v < 0xD800 ∨ 0xDFFF < v)
    (ha : a.toNat = v / 4096 % 16 + 224) (hb : b.toNat = v / 64 % 64 + 128)
    (hc : c.toNat = v % 64 + 128) : three? a b c = some (Char.ofNat v) := by
  have hsum : ((v / 4096 % 16 + 224) % 16 * 64 + (v / 64 % 64 + 128) % 64) * 64 +
      (v % 64 + 128) % 64 = v := by omega
  rw [three?, if_pos, tailBits, tailBits, ha, hb, hc, hsum]
  simp only [isTail, beq_iff_eq, ← UInt8.toNat_inj, Bool.and_eq_true, decide_eq_true_eq,
    UInt8.le_iff_toNat_le, UInt8.reduceToNat, ha, hb, hc]
  refine ⟨?_,by omega⟩
  -- the least and the greatest second byte depend on the lead byte
  split
  · simp only [Bool.and_eq_true, decide_eq_true_eq]
    omega
  · split
    · simp only [Bool.and_eq_true, decide_eq_true_eq]
      omega
    · simp only [Bool.and_eq_true, decide_eq_true_eq]
      omega

theorem four?_eq (hlow : 65535 < v) (hhigh : v < 0x110000) (ha : a.toNat = v / 262144 % 8 + 240)
    (hb : b.toNat = v / 4096 % 64 + 128) (hc : c.toNat = v / 64 % 64 + 128)
    (hd : d.toNat = v % 64 + 128) : four? a b c d = some (Char.ofNat v) := by
  have hsum : (((v / 262144 % 8 + 240) % 8 * 64 + (v / 4096 % 64 + 128) % 64) * 64 +
      (v / 64 % 64 + 128) % 64) * 64 + (v % 64 + 128) % 64 = v := by omega
  rw [four?, if_pos, tailBits, tailBits, tailBits, ha, hb, hc, hd, hsum]
  simp only [isTail, beq_iff_eq, ← UInt8.toNat_inj, Bool.and_eq_true, decide_eq_true_eq,
    UInt8.le_iff_toNat_le, UInt8.reduceToNat, ha, hb, hc, hd]
  refine ⟨⟨?_,by omega⟩,by omega⟩
  split
  · simp only [Bool.and_eq_true, decide_eq_true_eq]
    omega
  · split
    · simp only [Bool.and_eq_true, decide_eq_true_eq]
      omega
    · simp only [Bool.and_eq_true, decide_eq_true_eq]
      omega

theorem two?_eq_none (ha : 223 < a.toNat) : two? a b = none := by
  rw [two?, if_neg]
  simp only [Bool.and_eq_true, decide_eq_true_eq, UInt8.le_iff_toNat_le, UInt8.reduceToNat]
  omega

theorem three?_eq_none (ha : 239 < a.toNat) : three? a b c = none := by
  have hne : ∀ n : UInt8, n.toNat ≤ 239 → (a == n) = false := by
    intro n hn
    rw [beq_eq_false_iff_ne]
    rintro rfl
    omega
  rw [three?, hne 0xE0 (by decide), hne 0xED (by decide), if_neg]
  simp only [Bool.false_eq_true, if_false, Bool.and_eq_true, decide_eq_true_eq,
    UInt8.le_iff_toNat_le, UInt8.reduceToNat]
  omega

/-! ## Characters -/

theorem decodeFrom_one (ha : a.toNat ≤ 127) :
    decodeFrom i (a :: r) = (decodeFrom (i + 1) r).map (Char.ofNat a.toNat :: ·) := by
  have hlt : a < 0x80 := by
    rw [UInt8.lt_iff_toNat_lt]
    exact Nat.lt_succ_of_le ha
  rw [decodeFrom.eq_def]
  simp only [hlt, if_true]

theorem not_ascii (ha : 127 < a.toNat) : ¬ a < 0x80 := by
  rw [UInt8.lt_iff_toNat_lt]
  exact Nat.not_lt.mpr ha

variable {x : Char}

theorem decodeFrom_two (ha : 127 < a.toNat) (h : two? a b = some x) :
    decodeFrom i (a :: b :: r) = (decodeFrom (i + 2) r).map (x :: ·) := by
  rw [decodeFrom.eq_def]
  simp only [not_ascii ha, if_false, h]

theorem decodeFrom_three (ha : 223 < a.toNat) (h : three? a b c = some x) :
    decodeFrom i (a :: b :: c :: r) = (decodeFrom (i + 3) r).map (x :: ·) := by
  rw [decodeFrom.eq_def]
  simp only [not_ascii (show 127 < a.toNat by omega), if_false, two?_eq_none ha, h]

theorem decodeFrom_four (ha : 239 < a.toNat) (h : four? a b c d = some x) :
    decodeFrom i (a :: b :: c :: d :: r) = (decodeFrom (i + 4) r).map (x :: ·) := by
  rw [decodeFrom.eq_def]
  simp only [not_ascii (show 127 < a.toNat by omega), if_false,
    two?_eq_none (show 223 < a.toNat by omega), three?_eq_none ha, h]

/-- The bytes of a character are read as that character, wherever they stand. -/
theorem decodeFrom_utf8EncodeChar (x : Char) (i : Nat) (r : List UInt8) :
    ∃ j, decodeFrom i (String.utf8EncodeChar x ++ r) = (decodeFrom j r).map (x :: ·) := by
  have hx : Char.ofNat x.val.toNat = x := Char.ofNat_toNat x
  have hvalid : x.val.toNat < 0xD800 ∨ 0xDFFF < x.val.toNat ∧ x.val.toNat < 0x110000 := x.valid
  generalize hv : x.val.toNat = v at hx hvalid
  simp only [String.utf8EncodeChar, hv]
  split
  · next h₁ =>
    have ha := toNat_ofNat_of_lt (show v < 256 by omega)
    refine ⟨i + 1,?_⟩
    rw [List.singleton_append, decodeFrom_one (by omega), ha, hx]
  · next h₁ =>
    split
    · next h₂ =>
      have ha := toNat_ofNat_of_lt (show v / 64 % 32 + 192 < 256 by omega)
      have hb := toNat_ofNat_of_lt (show v % 64 + 128 < 256 by omega)
      exact ⟨i + 2,hx ▸ decodeFrom_two (by omega) (two?_eq (by omega) h₂ ha hb)⟩
    · next h₂ =>
      split
      · next h₃ =>
        have ha := toNat_ofNat_of_lt (show v / 4096 % 16 + 224 < 256 by omega)
        have hb := toNat_ofNat_of_lt (show v / 64 % 64 + 128 < 256 by omega)
        have hc := toNat_ofNat_of_lt (show v % 64 + 128 < 256 by omega)
        have hthree := three?_eq (by omega) h₃ (hvalid.imp_right And.left) ha hb hc
        exact ⟨i + 3,hx ▸ decodeFrom_three (by omega) hthree⟩
      · next h₃ =>
        have ha := toNat_ofNat_of_lt (show v / 262144 % 8 + 240 < 256 by omega)
        have hb := toNat_ofNat_of_lt (show v / 4096 % 64 + 128 < 256 by omega)
        have hc := toNat_ofNat_of_lt (show v / 64 % 64 + 128 < 256 by omega)
        have hd := toNat_ofNat_of_lt (show v % 64 + 128 < 256 by omega)
        have hfour := four?_eq (by omega) (by omega) ha hb hc hd
        exact ⟨i + 4,hx ▸ decodeFrom_four (by omega) hfour⟩

theorem decodeFrom_flatMap (cs : List Char) (i : Nat) :
    decodeFrom i (cs.flatMap String.utf8EncodeChar) = .ok cs := by
  induction cs generalizing i with
  | nil => rfl
  | cons x cs ih =>
    obtain ⟨j,hj⟩ := decodeFrom_utf8EncodeChar x i (cs.flatMap String.utf8EncodeChar)
    rw [List.flatMap_cons, hj, ih]
    rfl

/-- The bytes of a text are read as that text. -/
theorem decode_encode (s : String) : decode (encode s) = .ok s := by
  rw [decode, encode, decodeFrom_flatMap, Except.map, String.ofList_toList]

/-- Bytes that begin with a character begin with a byte order mark only if it is the mark's. -/
theorem eq_of_mark {x : Char} {t r : List UInt8}
    (h : String.utf8EncodeChar x ++ t = 0xEF :: 0xBB :: 0xBF :: r) : x = '\uFEFF' := by
  have hx : Char.ofNat x.val.toNat = x := Char.ofNat_toNat x
  have hmark : ∀ {n : Nat} {b : UInt8}, n < 256 → UInt8.ofNat n = b → n = b.toNat := by
    intro n b hn hb
    rw [← hb, toNat_ofNat_of_lt hn]
  generalize hv : x.val.toNat = v at hx
  simp only [String.utf8EncodeChar, hv] at h
  split at h
  · have ha := hmark (by omega) (List.cons.inj h).1
    simp only [UInt8.reduceToNat] at ha
    omega
  · split at h
    · have ha := hmark (by omega) (List.cons.inj h).1
      simp only [UInt8.reduceToNat] at ha
      omega
    · split at h
      · simp only [List.cons_append, List.nil_append, List.cons.injEq] at h
        obtain ⟨ha,hb,hc,_⟩ := h
        have ha := hmark (by omega) ha
        have hb := hmark (by omega) hb
        have hc := hmark (by omega) hc
        simp only [UInt8.reduceToNat] at ha hb hc
        obtain rfl : v = 0xFEFF := by omega
        exact hx.symm
      · have ha := hmark (by omega) (List.cons.inj h).1
        simp only [UInt8.reduceToNat] at ha
        omega

end Tabular.Text.Utf8
