import Tabular.Number.Decimal
import Tabular.Text.Blank
import Mathlib.Data.List.Basic

/-! # Decimal texts of integers

The decimal text of a 64-bit integer is read as that integer, and there is nothing blank in it that
could be trimmed away first.
-/
namespace Tabular.Text

variable {s : String}

theorem strip_eq_self (h : ∀ c ∈ s.toList, isBlank c = false) : strip s = s := by
  have hdrop : ∀ cs : List Char, (∀ c ∈ cs, isBlank c = false) → cs.dropWhile isBlank = cs := by
    intro cs hcs
    cases cs with
    | nil => rfl
    | cons c cs => simp [hcs c List.mem_cons_self]
  have hback : ∀ c ∈ s.toList.reverse, isBlank c = false := fun c hc =>
    h c (List.mem_reverse.mp hc)
  rw [strip, trim, trimStart, hdrop _ h, trimEnd, hdrop _ hback, List.reverse_reverse,
    String.ofList_toList]

theorem allBlank_eq_false (hne : s.toList ≠ []) (h : ∀ c ∈ s.toList, isBlank c = false) :
    allBlank s = false := by
  obtain ⟨c,hc⟩ := List.exists_mem_of_ne_nil _ hne
  rw [allBlank, List.all_eq_false]
  exact ⟨c,hc,by simp [h c hc]⟩

end Tabular.Text

namespace Tabular.Number.Decimal

variable {n : Nat} {c : Char} {cs : List Char}

theorem toNat_digit (n : Nat) : (digit n).toNat = 48 + n % 10 := by
  have hvalid : (48 + n % 10).isValidChar := .inl (by omega)
  rw [digit, Char.ofNat, dif_pos hvalid]
  rfl

theorem isDigit_digit (n : Nat) : isDigit (digit n) = true := by
  have hn := toNat_digit n
  simp only [isDigit, Bool.and_eq_true, decide_eq_true_eq, Char.le_def, UInt32.le_iff_toNat_le]
  change 48 ≤ (digit n).toNat ∧ (digit n).toNat ≤ 57
  omega

theorem digitValue_digit (n : Nat) : digitValue (digit n) = n % 10 := by
  rw [digitValue, toNat_digit]
  omega

theorem all_isDigit_digits (n : Nat) : ∀ c ∈ digits n, isDigit c = true := by
  induction n using digits.induct with
  | case1 n h =>
    rw [digits, if_pos h]
    intro c hc
    rw [List.mem_singleton.mp hc]
    exact isDigit_digit n
  | case2 n h ih =>
    rw [digits, if_neg h]
    intro c hc
    rcases List.mem_append.mp hc with hc | hc
    · exact ih c hc
    · rw [List.mem_singleton.mp hc]
      exact isDigit_digit n

theorem digits_ne_nil (n : Nat) : digits n ≠ [] := by
  rw [digits]
  split <;> simp

theorem value_append_singleton (cs : List Char) (c : Char) :
    value (cs ++ [c]) = value cs * 10 + digitValue c := by
  simp [value]

theorem value_digits (n : Nat) : value (digits n) = n := by
  induction n using digits.induct with
  | case1 n h =>
    rw [digits, if_pos h]
    simp only [value, List.foldl_cons, List.foldl_nil, digitValue_digit]
    omega
  | case2 n h ih =>
    rw [digits, if_neg h, value_append_singleton, ih, digitValue_digit]
    omega

theorem nat?_digits (n : Nat) : nat? (digits n) = some n := by
  have hall : (digits n).all isDigit = true := List.all_eq_true.mpr (all_isDigit_digits n)
  rw [nat?, if_neg (by simpa using digits_ne_nil n), if_pos hall, value_digits]

theorem splitSign_of_isDigit (hc : ∀ c ∈ cs, isDigit c = true) : splitSign cs = (false, cs) := by
  unfold splitSign
  split
  · exact absurd (hc '-' List.mem_cons_self) (by decide)
  · exact absurd (hc '+' List.mem_cons_self) (by decide)
  · rfl

theorem toList_ofInt (i : Int) :
    (ofInt i).toList = if i < 0 then '-' :: digits i.natAbs else digits i.natAbs := by
  rw [ofInt]
  split <;> simp [ofNat]

theorem int64?_ofInt {i : Int} (h : inInt64 i = true) : int64? (ofInt i).toList = some i := by
  rw [toList_ofInt]
  by_cases hi : i < 0
  · have habs : -(i.natAbs : Int) = i := by omega
    rw [if_pos hi]
    simp only [int64?, splitSign, nat?_digits, if_true, habs, h]
  · have habs : (i.natAbs : Int) = i := by omega
    rw [if_neg hi]
    simp only [int64?, splitSign_of_isDigit (all_isDigit_digits _), nat?_digits,
      Bool.false_eq_true, if_false, habs, h, if_true]

theorem isBlank_of_isDigit (h : isDigit c = true) : Text.isBlank c = false := by
  simp only [isDigit, Bool.and_eq_true, decide_eq_true_eq, Char.le_def,
    UInt32.le_iff_toNat_le] at h
  have hlow : 48 ≤ c.toNat := h.1
  have hhigh : c.toNat ≤ 57 := h.2
  simp only [Text.isBlank, Bool.or_eq_false_iff, Bool.and_eq_false_iff, decide_eq_false_iff_not,
    beq_eq_false_iff_ne]
  omega

theorem isBlank_of_mem_ofInt {i : Int} (h : c ∈ (ofInt i).toList) : Text.isBlank c = false := by
  rw [toList_ofInt] at h
  split at h
  · rcases List.mem_cons.mp h with rfl | h
    · decide
    · exact isBlank_of_isDigit (all_isDigit_digits _ c h)
  · exact isBlank_of_isDigit (all_isDigit_digits _ c h)

theorem ofInt_ne_nil (i : Int) : (ofInt i).toList ≠ [] := by
  rw [toList_ofInt]
  split
  · exact List.cons_ne_nil _ _
  · exact digits_ne_nil _

theorem strip_ofInt (i : Int) : Text.strip (ofInt i) = ofInt i :=
  Text.strip_eq_self fun _ => isBlank_of_mem_ofInt

theorem allBlank_ofInt (i : Int) : Text.allBlank (ofInt i) = false :=
  Text.allBlank_eq_false (ofInt_ne_nil i) fun _ => isBlank_of_mem_ofInt

end Tabular.Number.Decimal
