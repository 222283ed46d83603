import Tabular.Proofs.Delimited.Value
import Tabular.Proofs.Inference.Observation
import Tabular.Inference.Infer

/-! # What a column's state covers

A look at rows is a look at the values of each column for itself, one after the other. The state of
a column covers a value when it is nullable for a null, and has a tag at or above that of the value
otherwise. A look at a value makes the state cover it, no later look takes that away, and so after
all rows the field of a column can hold each of its values.
-/
namespace Tabular.Inference
open Delimited (detect Readable ReadsAs)
open Schema (ColumnState Field Tag)

def columnOf (rows : List Row) (j : Nat) : List String := rows.filterMap (·[j]?)

def observeAll (o : Options) (s : ColumnState) (raws : List String) : ColumnState :=
  raws.foldl (fun s raw => s.observe (detect o raw)) s

/-- What is known of columns when the values of each have been seen in some rows. -/
def columnStates (o : Options) (width : Nat) (rows : List Row) : List ColumnState :=
  (List.range width).map fun j => observeAll o {} (columnOf rows j)

/-- Whether a column's state takes account of a value. -/
def Covers (s : ColumnState) : Option Tag → Prop
  | none => s.nullable = true
  | some t => t ≠ .unset ∧ t.join s.tag = s.tag

variable {o : Options} {s : ColumnState} {d : Option Tag} {raw : String} {rows : List Row}
variable {states : List ColumnState} {j : Nat}

theorem detect_ne_unset : detect o raw ≠ some .unset := by
  intro h
  exact (Delimited.readable_of_detect h).2

theorem covers_observe_self (s : ColumnState) (h : d ≠ some .unset) : Covers (s.observe d) d := by
  cases d with
  | none => rfl
  | some t =>
    refine ⟨fun ht => h (by rw [ht]),?_⟩
    change t.join (s.tag.join t) = s.tag.join t
    rw [Tag.join_comm s.tag t, ← Tag.join_assoc, Tag.join_self]

theorem Covers.observe (h : Covers s d) (e : Option Tag) : Covers (s.observe e) d := by
  cases d with
  | none =>
    cases e with
    | none => rfl
    | some t => exact h
  | some t =>
    cases e with
    | none => exact h
    | some u =>
      refine ⟨h.1,?_⟩
      change t.join (s.tag.join u) = s.tag.join u
      rw [← Tag.join_assoc, h.2]

/-- A look at a row is a look at one value for each column that has one. -/
theorem getElem?_observeRow (o : Options) (states : List ColumnState) (row : Row) (j : Nat) :
    (observeRow o states row)[j]? = states[j]?.map fun s =>
      match row[j]? with
      | some raw => s.observe (detect o raw)
      | none => s := by
  induction states generalizing row j with
  | nil => simp [observeRow]
  | cons s states ih =>
    cases row with
    | nil => simp [observeRow]
    | cons raw row =>
      cases j with
      | zero => rfl
      | succ j => exact ih row j

/-- The state of a column after some rows is what the values in the column have shown. -/
theorem getElem?_observeRows (o : Options) (states : List ColumnState) (rows : List Row) (j : Nat) :
    (observeRows o states rows)[j]? = states[j]?.map (observeAll o · (columnOf rows j)) := by
  induction rows generalizing states with
  | nil => simp [observeRows, columnOf, observeAll]
  | cons row rows ih =>
    have hstep := ih (observeRow o states row)
    rw [getElem?_observeRow, Option.map_map] at hstep
    refine hstep.trans (congrArg (states[j]?.map ·) (funext fun s => ?_))
    cases hraw : row[j]? <;> simp [columnOf, observeAll, hraw]

theorem observeRows_blankStates (o : Options) (width : Nat) (rows : List Row) :
    observeRows o (blankStates width) rows = columnStates o width rows := by
  refine List.ext_getElem? fun j => ?_
  rw [getElem?_observeRows, columnStates, List.getElem?_map]
  by_cases hj : j < width
  · simp [blankStates, hj]
  · simp [blankStates, Nat.not_lt.mp hj]

theorem getElem?_observeRows_cons {row : Row} {s : ColumnState}
    (h : (observeRows o states (row :: rows))[j]? = some s) :
    ∃ s₁, (observeRow o states row)[j]? = some s₁ ∧
      (observeRows o (observeRow o states row) rows)[j]? = some s := by
  have hlt : j < (observeRows o states (row :: rows)).length := (List.getElem?_eq_some_iff.mp h).1
  rw [observeRows_length] at hlt
  have hj : j < (observeRow o states row).length := by
    rw [observeRow_length]
    exact hlt
  exact ⟨_,List.getElem?_eq_getElem hj,h⟩

/-- What holds of a column at first and is kept by a look at a value holds after all rows. -/
theorem observeRows_keeps {P : ColumnState → Prop}
    (hkeep : ∀ s raw, P s → P (s.observe (detect o raw)))
    {s₀ : ColumnState} (hs₀ : states[j]? = some s₀) (h₀ : P s₀)
    (h : (observeRows o states rows)[j]? = some s) : P s := by
  induction rows generalizing states s₀ with
  | nil =>
    obtain rfl : s₀ = s := Option.some.inj (hs₀.symm.trans h)
    exact h₀
  | cons row rows ih =>
    obtain ⟨s₁,hs₁,hrest⟩ := getElem?_observeRows_cons h
    refine ih hs₁ ?_ hrest
    rw [getElem?_observeRow, hs₀] at hs₁
    obtain rfl := Option.some.inj hs₁
    split
    · exact hkeep s₀ _ h₀
    · exact h₀

/-- After all rows the state of a column covers each of its values. -/
theorem observeRows_covers (h : (observeRows o states rows)[j]? = some s) {row : Row}
    (hrow : row ∈ rows) (hraw : row[j]? = some raw) : Covers s (detect o raw) := by
  induction rows generalizing states with
  | nil => cases hrow
  | cons first rows ih =>
    obtain ⟨s₁,hs₁,hrest⟩ := getElem?_observeRows_cons h
    rcases List.mem_cons.mp hrow with rfl | hmem
    · refine observeRows_keeps (P := (Covers · (detect o raw)))
        (fun _ raw' hs => Covers.observe hs (detect o raw')) hs₁ ?_ hrest
      rw [getElem?_observeRow, hraw] at hs₁
      obtain ⟨s₀,_,rfl⟩ := Option.map_eq_some_iff.mp hs₁
      exact covers_observe_self s₀ detect_ne_unset
    · exact ih hrest hmem

/-- A column is one of timestamps only if there is a pattern for them. -/
theorem observeRows_timestamp {width : Nat}
    (h : (observeRows o (blankStates width) rows)[j]? = some s) (ht : s.tag = .timestamp) :
    o.timestampFormat.isSome = true := by
  have hlt : j < (observeRows o (blankStates width) rows).length :=
    (List.getElem?_eq_some_iff.mp h).1
  rw [observeRows_length] at hlt
  have hblank : (blankStates width)[j]? = some {} := by
    have hw : j < width := by simpa [blankStates] using hlt
    simp [blankStates, hw]
  refine observeRows_keeps (P := fun s => s.tag = .timestamp → o.timestampFormat.isSome = true)
    ?_ hblank (fun ht => by cases ht) h ht
  intro s raw hs ht
  cases hd : detect o raw with
  | none =>
    rw [hd] at ht
    exact hs ht
  | some t =>
    rw [hd] at ht
    change s.tag.join t = .timestamp at ht
    by_cases hst : s.tag = .timestamp
    · exact hs hst
    · have htt : t = .timestamp := by
        cases t <;> cases htag : s.tag <;> simp_all [Tag.join]
      subst htt
      obtain ⟨pattern,hp,_⟩ := (Delimited.readable_of_detect hd).2
      rw [hp]
      rfl

theorem freezeField_tag (name : String) (s : ColumnState) :
    (freezeField name s).tag = if s.tag = .unset then .string else s.tag := by
  unfold freezeField
  split <;> rfl

/-- The field of a column holds each value that its state covers. -/
theorem Covers.readable (h : Covers s (detect o raw)) (name : String) :
    o.isNull raw = true ∨ Readable o (Text.strip raw) (freezeField name s).tag := by
  cases hd : detect o raw with
  | none => exact .inl (Delimited.isNull_of_detect hd)
  | some t =>
    rw [hd] at h
    obtain ⟨hne,hj⟩ := h
    obtain ⟨_,hr⟩ := Delimited.readable_of_detect hd
    have hunset : s.tag ≠ .unset := by
      intro hs
      rw [hs, Tag.join_unset] at hj
      exact hne hj
    rw [freezeField_tag, if_neg hunset]
    exact .inr (hr.mono hj)

/-- The field of a column allows nulls if its state covers one. -/
theorem Covers.nullable (h : Covers s (detect o raw)) (hnull : o.isNull raw = true)
    (name : String) :
    (freezeField name s).nullable = true := by
  have hd : detect o raw = none := by simp [detect, hnull]
  rw [hd] at h
  unfold freezeField
  split
  · rfl
  · exact h

/-- The fields of a schema that one look at some rows gives. -/
def fieldsOf (o : Options) (names : List String) (rows : List Row) : List Field :=
  List.zipWith freezeField names (observeRows o (blankStates names.length) rows)

theorem length_fieldsOf (o : Options) (names : List String) (rows : List Row) :
    (fieldsOf o names rows).length = names.length := by
  simp [fieldsOf, blankStates]

end Tabular.Inference
