import Tabular.Delimited.Typed
import Mathlib.Data.List.TakeWhile

/-! # Detected values can be read

A value can be read as the tag that is detected for it, and as every tag above that one. Integers
are the one kind of value that may end up under another reading than their own: a decimal integer
is a decimal, so it is a double too.
-/
namespace Tabular.Delimited
open Schema (Tag Field)

variable {o : Options} {raw value : String} {t u : Tag}

theorem takeWhile_of_all {cs : List Char} (h : cs.all Number.Decimal.isDigit = true) :
    cs.takeWhile Number.Decimal.isDigit = cs ∧ cs.dropWhile Number.Decimal.isDigit = [] := by
  have hall : ∀ c ∈ cs, Number.Decimal.isDigit c = true := List.all_eq_true.mp h
  exact ⟨List.takeWhile_eq_self_iff.mpr hall,List.dropWhile_eq_nil_iff.mpr hall⟩

/-- Digits alone are a decimal. -/
theorem isSome_decimal? (negative : Bool) {cs : List Char}
    (h : (Number.Decimal.nat? cs).isSome = true) :
    (Number.Binary64.decimal? negative cs).isSome = true := by
  unfold Number.Decimal.nat? at h
  split at h
  · cases h
  · next hne =>
    split at h
    · next hall =>
      obtain ⟨ht,hd⟩ := takeWhile_of_all hall
      unfold Number.Binary64.decimal?
      simp [ht, hd, hne]
    · cases h

/-- An integer is a double. -/
theorem isSome_float?_of_int? (h : (int? value).isSome = true) :
    (float? value).isSome = true := by
  unfold int? Number.Decimal.int64? at h
  unfold float? Number.Binary64.parse?
  rcases hs : Number.Decimal.splitSign value.toList with ⟨negative,ds⟩
  simp only [hs] at h ⊢
  have hn : (Number.Decimal.nat? ds).isSome = true := by
    cases hn : Number.Decimal.nat? ds with
    | none => rw [hn] at h; cases h
    | some n => rfl
  split
  · rfl
  · split
    · rfl
    · exact isSome_decimal? negative hn

/-- Whether a value can be read as a tag. Timestamps need a pattern. -/
def Readable (o : Options) (value : String) : Tag → Prop
  | .int64 => (int? value).isSome = true
  | .float64 => (float? value).isSome = true
  | .boolean => (bool? value).isSome = true
  | .timestamp => ∃ pattern, o.timestampFormat = some pattern ∧
      (Calendar.timestamp? pattern value).isSome = true
  | .string => True
  | .unset => False

theorem isNull_of_detect (h : detect o raw = none) : o.isNull raw = true := by
  unfold detect at h
  split at h
  · assumption
  · dsimp only at h
    split at h
    · cases h
    · split at h
      · cases h
      · split at h
        · cases h
        · split at h
          · split at h <;> cases h
          · cases h

theorem readable_of_detect (h : detect o raw = some t) :
    o.isNull raw = false ∧ Readable o (Text.strip raw) t := by
  unfold detect at h
  split at h
  · cases h
  · next hnull =>
    refine ⟨by simpa using hnull,?_⟩
    dsimp only at h
    split at h
    · next hint => cases h; exact hint
    · split at h
      · next hfloat => cases h; exact hfloat
      · split at h
        · next hbool => cases h; exact hbool
        · split at h
          · next pattern hpattern =>
            split at h
            · next htime => cases h; exact ⟨pattern,hpattern,htime⟩
            · cases h; trivial
          · cases h; trivial

/-- What can be read as a tag can be read as every tag above it. -/
theorem Readable.mono (h : Readable o value t) (hu : t.join u = u) : Readable o value u := by
  cases t <;> cases u <;> simp only [Tag.join, reduceCtorEq, if_false] at hu <;>
    first | exact h | exact h.elim | trivial | exact isSome_float?_of_int? h

/-- The cell that a raw value becomes in a column of a tag. -/
def ReadsAs (o : Options) (tag : Tag) (raw : String) (c : Cell) : Prop :=
  if o.isNull raw then c = .null
  else match tag with
    | .int64 => ∃ i, int? (Text.strip raw) = some i ∧ c = .int i
    | .float64 => ∃ x, float? (Text.strip raw) = some x ∧ c = .float x
    | .boolean => ∃ b, bool? (Text.strip raw) = some b ∧ c = .boolean b
    | .timestamp => ∃ pattern micros, o.timestampFormat = some pattern ∧
        Calendar.timestamp? pattern (Text.strip raw) = some micros ∧ c = .timestamp micros
    | .string => c = .text raw
    | .unset => False

theorem ReadsAs.isNull_iff {c : Cell} (h : ReadsAs o t raw c) :
    c.isNull = true ↔ o.isNull raw = true := by
  unfold ReadsAs at h
  split at h
  · next hnull =>
    subst h
    simp [Cell.isNull, hnull]
  · next hnull =>
    simp only [hnull]
    cases t with
    | unset => exact h.elim
    | string => subst h; simp [Cell.isNull]
    | int64 => obtain ⟨i,_,rfl⟩ := h; simp [Cell.isNull]
    | float64 => obtain ⟨x,_,rfl⟩ := h; simp [Cell.isNull]
    | boolean => obtain ⟨b,_,rfl⟩ := h; simp [Cell.isNull]
    | timestamp => obtain ⟨_,_,_,_,rfl⟩ := h; simp [Cell.isNull]

/-- A value that is null or can be read becomes its cell. -/
theorem cell_of_readable {f : Field} (h : o.isNull raw = true ∨ Readable o (Text.strip raw) f.tag) :
    ∃ c, cell o (o.timestampFormat.getD "") f raw = .ok c ∧ ReadsAs o f.tag raw c := by
  by_cases hnull : o.isNull raw = true
  · exact ⟨.null,by simp [cell, hnull],by simp [ReadsAs, hnull]⟩
  · have hr := h.resolve_left hnull
    cases ht : f.tag with
    | unset => rw [ht] at hr; exact hr.elim
    | string => exact ⟨.text raw,by simp [cell, hnull, ht],by simp [ReadsAs, hnull]⟩
    | int64 =>
      rw [ht] at hr
      obtain ⟨i,hi⟩ := Option.isSome_iff_exists.mp hr
      exact ⟨.int i,by simp [cell, hnull, ht, cell?, hi],by simp [ReadsAs, hnull, hi]⟩
    | float64 =>
      rw [ht] at hr
      obtain ⟨x,hx⟩ := Option.isSome_iff_exists.mp hr
      exact ⟨.float x,by simp [cell, hnull, ht, cell?, hx],by simp [ReadsAs, hnull, hx]⟩
    | boolean =>
      rw [ht] at hr
      obtain ⟨b,hb⟩ := Option.isSome_iff_exists.mp hr
      exact ⟨.boolean b,by simp [cell, hnull, ht, cell?, hb],by simp [ReadsAs, hnull, hb]⟩
    | timestamp =>
      rw [ht] at hr
      obtain ⟨pattern,hp,hm⟩ := hr
      obtain ⟨micros,hm⟩ := Option.isSome_iff_exists.mp hm
      exact ⟨.timestamp micros,by simp [cell, hnull, ht, cell?, hp, hm],
        by simp [ReadsAs, hnull, hp, hm]⟩

end Tabular.Delimited
