import Tabular.Proofs.Inference.Determined

/-! # Rows that conform to a schema

Rows become a batch exactly if every value that is not null can be read as the tag of its column,
columns of timestamps have a pattern, and nulls stand only where they may. Otherwise the error is
that of the first column that cannot be converted, at its first value; only when all columns can be,
it is that of the first column with a null that it must not have.
-/
namespace Tabular

/-- A field that holds nulls too, and texts if nothing is known of it. -/
def Schema.Field.loosened (f : Schema.Field) : Schema.Field := ⟨f.name,f.tag.settled,true⟩

namespace Delimited
open Inference (columnOf)
open Schema (Field Tag)

/-- The first element of a list that breaks a rule for elements at their places. -/
structure FirstBreach {α : Type} (P : Nat → α → Prop) (l : List α) (i : Nat) (a : α) : Prop where
  here : l[i]? = some a
  breach : ¬ P i a
  before : ∀ k < i, ∀ b, l[k]? = some b → P k b

def CellReadable (o : Options) (f : Field) (raw : String) : Prop :=
  o.isNull raw = true ∨ Readable o (Text.strip raw) f.tag.settled

structure Converts (o : Options) (f : Field) (raws : List String) : Prop where
  pattern : f.tag = .timestamp → o.timestampFormat.isSome = true
  readable : ∀ (i : Nat) (raw : String), raws[i]? = some raw → CellReadable o f raw

/-- What is wrong with a column that cannot be converted: there is no pattern for its timestamps, or
else one of its values is the first that cannot be read. -/
inductive Unconverted (o : Options) (f : Field) (raws : List String) : Error → Prop
  | noPattern (ht : f.tag = .timestamp) (hn : o.timestampFormat = none) :
    Unconverted o f raws (.schema (.noTimestampFormat f.name))
  | unreadable {i raw} (hp : f.tag = .timestamp → o.timestampFormat.isSome = true)
      (h : FirstBreach (fun _ raw => CellReadable o f raw) raws i raw) :
    Unconverted o f raws (.schema (.unreadable f.name raw f.tag))

def NullsAllowed (o : Options) (f : Field) (raws : List String) : Prop :=
  f.nullable = true ∨ ∀ raw ∈ raws, o.isNull raw = false

structure Conforms (o : Options) (s : Schema) (rows : List (List String)) : Prop where
  converts : ∀ j f, s.fields[j]? = some f → Converts o f (columnOf rows j)
  nulls : ∀ j f, s.fields[j]? = some f → NullsAllowed o f (columnOf rows j)

inductive Offends (o : Options) (s : Schema) (rows : List (List String)) : Error → Prop
  | column {j f e} (h : FirstBreach (fun j f => Converts o f (columnOf rows j)) s.fields j f)
      (he : Unconverted o f (columnOf rows j) e) : Offends o s rows e
  | null {j f} (hall : ∀ j f, s.fields[j]? = some f → Converts o f (columnOf rows j))
      (h : FirstBreach (fun j f => NullsAllowed o f (columnOf rows j)) s.fields j f) :
    Offends o s rows (.columnar (.nullInColumn f.name))

variable {o : Options} {f : Field} {fs : List Field} {s : Schema} {raw : String} {e : Error}
variable {raws : List String} {rows : List (List String)} {css : List (List Cell)} {j : Nat}

/-! ## First breaches -/

section FirstBreach
variable {α : Type} {P : Nat → α → Prop} {l : List α} {i : Nat} {a b : α}

theorem forall_or_firstBreach (P : Nat → α → Prop) (l : List α) :
    (∀ i a, l[i]? = some a → P i a) ∨ ∃ i a, FirstBreach P l i a := by
  classical
  by_cases h : ∃ i a, l[i]? = some a ∧ ¬ P i a
  · obtain ⟨a,ha,hbreach⟩ := Nat.find_spec h
    refine .inr ⟨Nat.find h,a,ha,hbreach,fun k hk b hb => ?_⟩
    by_contra hnot
    exact Nat.find_min h hk ⟨b,hb,hnot⟩
  · refine .inl fun i a ha => ?_
    by_contra hnot
    exact h ⟨i,a,ha,hnot⟩

theorem FirstBreach.head (h : FirstBreach P (b :: l) (i + 1) a) : P 0 b :=
  h.before 0 (Nat.succ_pos i) b rfl

theorem FirstBreach.tail (h : FirstBreach P (b :: l) (i + 1) a) :
    FirstBreach (fun k => P (k + 1)) l i a :=
  ⟨h.here,h.breach,fun k hk c hc => h.before (k + 1) (Nat.succ_lt_succ hk) c hc⟩

theorem FirstBreach.find? {p : α → Bool} (h : FirstBreach P l i a)
    (hp : ∀ k b, l[k]? = some b → (p b = true ↔ ¬ P k b)) : l.find? p = some a := by
  induction l generalizing P i with
  | nil => cases h.here
  | cons b l ih =>
    cases i with
    | zero =>
      obtain rfl : b = a := Option.some.inj h.here
      rw [List.find?_cons_of_pos ((hp 0 b rfl).mpr h.breach)]
    | succ i =>
      have hb : ¬ p b = true := fun hb => (hp 0 b rfl).mp hb h.head
      rw [List.find?_cons_of_neg hb]
      exact ih h.tail fun k c hc => hp (k + 1) c hc

end FirstBreach

/-! ## Cells and columns -/

@[simp] theorem cell_loosened (pattern : String) :
    cell o pattern f.loosened raw = cell o pattern f raw := by
  obtain ⟨name,tag,nullable⟩ := f
  cases tag <;> simp only [cell, Field.loosened, Tag.settled]

@[simp] theorem cells_loosened (pattern : String) :
    cells o pattern f.loosened raws = cells o pattern f raws := by
  induction raws with
  | nil => rfl
  | cons raw raws ih => simp only [cells, cell_loosened, ih]

theorem cell_of_not_readable (hp : f.tag = .timestamp → o.timestampFormat.isSome = true)
    (h : ¬ CellReadable o f raw) : cell o (o.timestampFormat.getD "") f raw =
      .error (.schema (.unreadable f.name raw f.tag)) := by
  obtain ⟨hnull,hread⟩ := not_or.mp h
  cases ht : f.tag with
  | string | unset => simp [ht, Tag.settled, Readable] at hread
  | int64 | float64 | boolean =>
    simp only [ht, Tag.settled, Readable, Option.not_isSome_iff_eq_none] at hread
    simp [cell, hnull, ht, cell?, hread]
  | timestamp =>
    obtain ⟨pattern,hpattern⟩ := Option.isSome_iff_exists.mp (hp ht)
    have hmicros : Calendar.timestamp? pattern (Text.strip raw) = none := by
      rw [← Option.not_isSome_iff_eq_none]
      intro hm
      exact hread (by rw [ht]; exact ⟨pattern,hpattern,hm⟩)
    simp [cell, hnull, ht, cell?, hpattern, hmicros]

theorem cell_of_cellReadable (h : CellReadable o f raw) :
    ∃ c, cell o (o.timestampFormat.getD "") f raw = .ok c := by
  obtain ⟨c,hc,_⟩ := cell_of_readable (f := f.loosened) h
  exact ⟨c,by rwa [cell_loosened] at hc⟩

theorem cells_of_firstBreach {i : Nat} (hp : f.tag = .timestamp → o.timestampFormat.isSome = true)
    (h : FirstBreach (fun _ raw => CellReadable o f raw) raws i raw) :
    cells o (o.timestampFormat.getD "") f raws =
      .error (.schema (.unreadable f.name raw f.tag)) := by
  induction raws generalizing i with
  | nil => cases h.here
  | cons first raws ih =>
    cases i with
    | zero =>
      obtain rfl : first = raw := Option.some.inj h.here
      simp [cells, cell_of_not_readable hp h.breach, bind, Except.bind]
    | succ i =>
      obtain ⟨c,hc⟩ := cell_of_cellReadable h.head
      simp [cells, hc, ih h.tail, bind, Except.bind]

@[simp] theorem column_loosened : column o f.loosened raws = column o f raws := by
  obtain ⟨name,tag,nullable⟩ := f
  have hcells (pattern : String) :
      cells o pattern (Field.loosened ⟨name,tag,nullable⟩) raws =
        cells o pattern ⟨name,tag,nullable⟩ raws := cells_loosened pattern
  cases tag with
  | timestamp =>
    cases hp : o.timestampFormat with
    | none => simp [column, Field.loosened, Tag.settled, hp]
    | some pattern => simpa [column, Field.loosened, Tag.settled, hp] using hcells pattern
  | string | unset | int64 | float64 | boolean =>
    simpa [column, Field.loosened, Tag.settled] using hcells (o.timestampFormat.getD "")

@[simp] theorem columns_loosened (fs : List Field) (rows : List (List String)) :
    columns o (fs.map Field.loosened) rows = columns o fs rows := by
  induction fs generalizing rows with
  | nil => rfl
  | cons f fs ih => simp only [List.map_cons, columns, column_loosened, ih]

theorem column_of_unconverted (h : Unconverted o f raws e) : column o f raws = .error e := by
  cases h with
  | noPattern ht hn => simp [column, ht, hn]
  | unreadable hp h => rw [column_eq_cells hp, cells_of_firstBreach hp h]

theorem Converts.readable_mem (h : Converts o f raws) (hmem : raw ∈ raws) :
    CellReadable o f raw := by
  obtain ⟨i,hi⟩ := List.mem_iff_getElem?.mp hmem
  exact h.readable i raw hi

theorem column_of_converts (h : Converts o f raws) : ∃ cs, column o f raws = .ok cs := by
  have hreadable : ∀ raw ∈ raws, CellReadable o f raw := fun raw hmem => h.readable_mem hmem
  obtain ⟨cs,hcs,_⟩ := cells_of_readable (f := f.loosened) hreadable
  rw [cells_loosened] at hcs
  exact ⟨cs,by rw [column_eq_cells h.pattern, hcs]⟩

/-- A column that cannot be converted has something wrong with it. -/
theorem exists_unconverted (h : ¬ Converts o f raws) : ∃ e, Unconverted o f raws e := by
  by_cases hp : f.tag = .timestamp → o.timestampFormat.isSome = true
  · rcases forall_or_firstBreach (fun _ raw => CellReadable o f raw) raws with hall | ⟨i,raw,hfirst⟩
    · exact absurd ⟨hp,hall⟩ h
    · exact ⟨_,.unreadable hp hfirst⟩
  · obtain ⟨ht,hn⟩ := Classical.not_imp.mp hp
    exact ⟨_,.noPattern ht (Option.not_isSome_iff_eq_none.mp hn)⟩

theorem columnOf_map_tail (rows : List (List String)) (j : Nat) :
    columnOf (rows.map List.tail) j = columnOf rows (j + 1) := by
  simp [columnOf, List.filterMap_map]

theorem columnOf_zero (rows : List (List String)) :
    columnOf rows 0 = rows.filterMap List.head? := by
  simp [columnOf, List.head?_eq_getElem?]

theorem columns_of_firstBreach
    (h : FirstBreach (fun j f => Converts o f (columnOf rows j)) fs j f)
    (he : Unconverted o f (columnOf rows j) e) : columns o fs rows = .error e := by
  induction fs generalizing rows j with
  | nil => cases h.here
  | cons first fs ih =>
    simp only [columns, ← columnOf_zero]
    cases j with
    | zero =>
      obtain rfl : first = f := Option.some.inj h.here
      simp [column_of_unconverted he, bind, Except.bind]
    | succ j =>
      obtain ⟨c,hc⟩ := column_of_converts h.head
      have hrest := h.tail
      simp only [← columnOf_map_tail] at hrest he
      simp [hc, ih hrest he, bind, Except.bind]

theorem mem_columnOf {row : List String} (hrow : row ∈ rows) (hraw : row[j]? = some raw) :
    raw ∈ columnOf rows j :=
  List.mem_filterMap.mpr ⟨row,hrow,hraw⟩

theorem settled_eq_timestamp_iff {t : Tag} : t.settled = .timestamp ↔ t = .timestamp := by
  cases t <;> simp [Tag.settled]

theorem columns_of_converts (hw : ∀ row ∈ rows, row.length = fs.length)
    (h : ∀ j f, fs[j]? = some f → Converts o f (columnOf rows j)) :
    ∃ css, columns o fs rows = .ok css ∧ css.length = fs.length ∧
      ∀ j f cs, fs[j]? = some f → css[j]? = some cs → ColumnOf o rows j f.loosened cs := by
  -- a loosened field holds all that converts, whatever nulls the field itself allows
  have hw' : ∀ row ∈ rows, row.length = (fs.map Field.loosened).length := by simpa using hw
  obtain ⟨css,hcss,hlen,hcol⟩ := columns_of_holds (o := o) hw' fun j g hg => by
    rw [List.getElem?_map] at hg
    obtain ⟨f,hf,rfl⟩ := Option.map_eq_some_iff.mp hg
    have hconverts := h j f hf
    refine ⟨fun row hrow raw hraw => hconverts.readable_mem (mem_columnOf hrow hraw),
      fun _ _ _ _ _ => rfl,fun ht => hconverts.pattern (settled_eq_timestamp_iff.mp ht)⟩
  rw [columns_loosened] at hcss
  rw [List.length_map] at hlen
  refine ⟨css,hcss,hlen,fun j f cs hf hcs => hcol j _ cs ?_ hcs⟩
  rw [List.getElem?_map, hf]
  rfl

theorem ColumnOf.any_isNull_iff {cs : List Cell} (h : ColumnOf o rows j f cs) :
    cs.any Cell.isNull = true ↔ ∃ raw ∈ columnOf rows j, o.isNull raw = true := by
  induction h with
  | nil => simp [columnOf]
  | @cons row c rows cs hc _ ih =>
    obtain ⟨raw,hraw,hr⟩ := hc
    have hcons : columnOf (row :: rows) j = raw :: columnOf rows j := by simp [columnOf, hraw]
    rw [List.any_cons, Bool.or_eq_true, ih, hr.isNull_iff, hcons]
    simp

theorem not_nullsAllowed_iff {cs : List Cell} {g : Field} (h : ColumnOf o rows j g cs) :
    ¬ NullsAllowed o f (columnOf rows j) ↔ (!f.nullable && cs.any Cell.isNull) = true := by
  rw [Bool.and_eq_true, h.any_isNull_iff]
  simp [NullsAllowed]

theorem nullOffence?_of_firstBreach (hlen : css.length = s.fields.length)
    (hcol : ∀ j f cs, s.fields[j]? = some f → css[j]? = some cs →
      ColumnOf o rows j f.loosened cs)
    (h : FirstBreach (fun j f => NullsAllowed o f (columnOf rows j)) s.fields j f) :
    Batch.nullOffence? s.toLayout css = some f.name := by
  obtain ⟨cs,hcs⟩ : ∃ cs, css[j]? = some cs := by
    have hj := (List.getElem?_eq_some_iff.mp h.here).1
    rw [← hlen] at hj
    exact ⟨_,List.getElem?_eq_getElem hj⟩
  have hbad := (not_nullsAllowed_iff (hcol j f cs h.here hcs)).mp h.breach
  have hfirst : FirstBreach (fun _ p => ¬ (!p.1.nullable && p.2.any Cell.isNull) = true)
      (s.toLayout.columns.zip css) j (f.toColumn,cs) := by
    refine ⟨?_,not_not.mpr hbad,fun k hk p hp hbad' => ?_⟩
    · rw [List.getElem?_zip_eq_some]
      simp [Schema.toLayout, h.here, hcs]
    · obtain ⟨hcolumn,hds⟩ := List.getElem?_zip_eq_some.mp hp
      simp only [Schema.toLayout, List.getElem?_map] at hcolumn
      obtain ⟨g,hg,hcol'⟩ := Option.map_eq_some_iff.mp hcolumn
      rw [← hcol'] at hbad'
      exact (not_nullsAllowed_iff (hcol k g _ hg hds)).mpr hbad' (h.before k hk g hg)
  rw [Batch.nullOffence?, hfirst.find? fun _ p _ => not_not.symm]
  rfl

/-! ## Batches -/

theorem batch_of_conforms (hs : s.fields ≠ []) (hw : ∀ row ∈ rows, row.length = s.width)
    (h : Conforms o s rows) : ∃ b, batch o s rows = .ok b ∧ b.layout = s.toLayout ∧
      b.rows = rows.length ∧ ∀ j f, s.fields[j]? = some f →
        ∃ cs, b.columns[j]? = some cs ∧ ColumnOf o rows j f.loosened cs := by
  obtain ⟨css,hcss,hlen,hcol⟩ := columns_of_converts hw h.converts
  have hheight := length_of_columnOf hlen fun j f cs hf hcs => ⟨_,hcol j f cs hf hcs⟩
  have hbatch := batch_of_columns hs hcss hlen hheight
  have hoffence : Batch.nullOffence? s.toLayout css = none := by
    refine nullOffence?_eq_none fun j f cs hf hcs => ?_
    rw [← Bool.not_eq_true, ← not_nullsAllowed_iff (hcol j f cs hf hcs)]
    exact not_not.mpr (h.nulls j f hf)
  rw [hoffence] at hbatch
  refine ⟨_,hbatch,rfl,rfl,fun j f hf => ?_⟩
  have hj := (List.getElem?_eq_some_iff.mp hf).1
  rw [← hlen] at hj
  have hcs := List.getElem?_eq_getElem hj
  exact ⟨_,hcs,hcol j f _ hf hcs⟩

theorem batch_of_offends (hs : s.fields ≠ []) (hw : ∀ row ∈ rows, row.length = s.width)
    (h : Offends o s rows e) : batch o s rows = .error e := by
  cases h with
  | column h he => simp [batch, columns_of_firstBreach h he, bind, Except.bind]
  | null hall h =>
    obtain ⟨css,hcss,hlen,hcol⟩ := columns_of_converts hw hall
    have hheight := length_of_columnOf hlen fun j f cs hf hcs => ⟨_,hcol j f cs hf hcs⟩
    rw [batch_of_columns hs hcss hlen hheight, nullOffence?_of_firstBreach hlen hcol h]

theorem conforms_or_offends (o : Options) (s : Schema) (rows : List (List String)) :
    Conforms o s rows ∨ ∃ e, Offends o s rows e := by
  rcases forall_or_firstBreach (fun j f => Converts o f (columnOf rows j)) s.fields with
    hconverts | ⟨j,f,hfirst⟩
  · rcases forall_or_firstBreach (fun j f => NullsAllowed o f (columnOf rows j)) s.fields with
      hnulls | ⟨j,f,hfirst⟩
    · exact .inl ⟨hconverts,hnulls⟩
    · exact .inr ⟨_,.null hconverts hfirst⟩
  · obtain ⟨e,he⟩ := exists_unconverted hfirst.breach
    exact .inr ⟨e,.column hfirst he⟩

theorem conforms_of_batch {b : Batch} (hs : s.fields ≠ [])
    (hw : ∀ row ∈ rows, row.length = s.width) (h : batch o s rows = .ok b) :
    Conforms o s rows := by
  rcases conforms_or_offends o s rows with hc | ⟨e,he⟩
  · exact hc
  · rw [batch_of_offends hs hw he] at h
    cases h

/-- The rows of a batch that was built are the given ones, typed one by one. -/
theorem typed_of_batch {b : Batch} (hs : s.fields ≠ []) (hne : rows ≠ [])
    (hw : ∀ row ∈ rows, row.length = s.width) (h : batch o s rows = .ok b) :
    List.Forall₂ (RowTyped o s.fields) rows b.rowList := by
  have hc := conforms_of_batch hs hw h
  obtain ⟨typed,htyped⟩ := exists_typed (o := o) hw fun row hrow j f raw hf hraw => by
    have hmem := mem_columnOf hrow hraw
    obtain ⟨c,hcell,hreads⟩ := cell_of_readable (f := f.loosened)
      ((hc.converts j f hf).readable_mem hmem)
    rw [cell_loosened] at hcell
    refine ⟨c,hcell,fun hnull => ?_,(hc.converts j f hf).pattern⟩
    by_contra hn
    have hno := (hc.nulls j f hf).resolve_left hn raw hmem
    rw [hreads.isNull_iff.mp hnull] at hno
    cases hno
  obtain ⟨b',hb',_,_,hrows⟩ := batch_of_typed hs hne htyped
  obtain rfl := Except.ok.inj (h.symm.trans hb')
  exact hrows ▸ htyped

theorem offends_of_batch (hs : s.fields ≠ []) (hw : ∀ row ∈ rows, row.length = s.width)
    (h : batch o s rows = .error e) : Offends o s rows e := by
  rcases conforms_or_offends o s rows with hc | ⟨e',he⟩
  · obtain ⟨b,hb,_⟩ := batch_of_conforms hs hw hc
    rw [hb] at h
    cases h
  · obtain rfl := Except.error.inj ((batch_of_offends hs hw he).symm.trans h)
    exact he

/-- Rows become a batch exactly if they conform to their schema. The batch then has the columns of
the schema, a row for each row, and in each place a null or the value, read as the tag of its column
(as a text if nothing is known of the column). Rows that do not conform fail with what is wrong with
the first column that cannot be converted, or else with the name of the first column with a null
that it must not have. -/
theorem batch_conforms (hs : s.fields ≠ []) (hw : ∀ row ∈ rows, row.length = s.width) :
    ((∃ b, batch o s rows = .ok b) ↔ Conforms o s rows) ∧
    (∀ b, batch o s rows = .ok b → b.layout = s.toLayout ∧ b.rows = rows.length ∧
      ∀ (j : Nat) (f : Field), s.fields[j]? = some f → ∃ cs, b.columns[j]? = some cs ∧
        List.Forall₂ (fun row c => ∃ raw, row[j]? = some raw ∧ ReadsAs o f.tag.settled raw c)
          rows cs) ∧
    ∀ e, batch o s rows = .error e ↔ Offends o s rows e := by
  refine ⟨⟨?_,fun hc => ?_⟩,fun b hb => ?_,fun e => ⟨offends_of_batch hs hw,batch_of_offends hs hw⟩⟩
  · rintro ⟨b,hb⟩
    exact conforms_of_batch hs hw hb
  · obtain ⟨b,hb,_⟩ := batch_of_conforms hs hw hc
    exact ⟨b,hb⟩
  · obtain ⟨b',hb',hrest⟩ := batch_of_conforms hs hw (conforms_of_batch hs hw hb)
    obtain rfl := Except.ok.inj (hb.symm.trans hb')
    exact hrest

/-- A value that cannot be read is found before a null in a column further to the left. -/
theorem batch_conforms_nullAndWord :
    let s : Schema := { fields := [⟨"n",.int64,false⟩, ⟨"m",.int64,false⟩] }
    let rows := [["1", "x"], ["", "2"]]
    let unreadable : Error := .schema (.unreadable "m" "x" .int64)
    (s.fields ≠ [] ∧ ∀ row ∈ rows, row.length = s.width) ∧ batch {} s rows = .error unreadable ∧
      Offends {} s rows unreadable ∧ ¬ Conforms {} s rows ∧ Conforms {} s [["1", " 2 "]] := by
  intro s rows unreadable
  have hs : s.fields ≠ [] := List.cons_ne_nil _ _
  have hw : ∀ row ∈ rows, row.length = s.width := by decide
  have hbatch : batch {} s rows = .error unreadable := rfl
  obtain ⟨hiff,_,herror⟩ := batch_conforms (o := {}) hs hw
  have hw' : ∀ row ∈ [["1", " 2 "]], row.length = s.width := by decide
  obtain ⟨hiff',_⟩ := batch_conforms (o := {}) hs hw'
  have hok : ∃ b, batch {} s [["1", " 2 "]] = .ok b := ⟨_,rfl⟩
  refine ⟨⟨hs,hw⟩,hbatch,(herror _).mp hbatch,fun hc => ?_,hiff'.mp hok⟩
  obtain ⟨b,hb⟩ := hiff.mpr hc
  rw [hbatch] at hb
  cases hb

end Delimited
end Tabular
