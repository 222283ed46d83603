import Tabular.Proofs.Delimited.Value
import Tabular.Proofs.Files.Tree
import Mathlib.Data.List.Forall2

/-! # Typed columns

When every value of every column has a cell, the rows become a batch, and its cells are those of
the values one by one.
-/
namespace Tabular.Delimited
open Schema (Field Tag)

variable {o : Options} {f : Field} {fs : List Field} {rows : List (List String)}

/-- A field for each of whose values in some rows there is a cell. -/
structure Holds (o : Options) (rows : List (List String)) (j : Nat) (f : Field) : Prop where
  readable : ∀ row ∈ rows, ∀ raw, row[j]? = some raw →
    o.isNull raw = true ∨ Readable o (Text.strip raw) f.tag
  nullable : ∀ row ∈ rows, ∀ raw, row[j]? = some raw → o.isNull raw = true → f.nullable = true
  pattern : f.tag = .timestamp → o.timestampFormat.isSome = true

theorem Holds.of_subset {rows' : List (List String)} {j : Nat} (h : Holds o rows j f)
    (hsub : ∀ row ∈ rows', row ∈ rows) : Holds o rows' j f :=
  ⟨fun row hmem => h.readable row (hsub row hmem),fun row hmem => h.nullable row (hsub row hmem),
    h.pattern⟩

def ColumnOf (o : Options) (rows : List (List String)) (j : Nat) (f : Field) (cs : List Cell) :
    Prop :=
  List.Forall₂ (fun row c => ∃ raw, row[j]? = some raw ∧ ReadsAs o f.tag raw c) rows cs

theorem cells_of_readable {raws : List String}
    (h : ∀ raw ∈ raws, o.isNull raw = true ∨ Readable o (Text.strip raw) f.tag) :
    ∃ cs, cells o (o.timestampFormat.getD "") f raws = .ok cs ∧
      List.Forall₂ (ReadsAs o f.tag) raws cs := by
  induction raws with
  | nil => exact ⟨[],rfl,.nil⟩
  | cons raw raws ih =>
    obtain ⟨c,hc,hr⟩ := cell_of_readable (h raw List.mem_cons_self)
    obtain ⟨cs,hcs,hrs⟩ := ih fun raw hmem => h raw (List.mem_cons_of_mem _ hmem)
    refine ⟨c :: cs,?_,.cons hr hrs⟩
    simp [cells, hc, hcs, bind, Except.bind, pure, Except.pure]

theorem column_eq_cells (hp : f.tag = .timestamp → o.timestampFormat.isSome = true)
    (raws : List String) : column o f raws = cells o (o.timestampFormat.getD "") f raws := by
  unfold column
  split
  · next ht hn =>
    have hs := hp ht
    rw [hn] at hs
    cases hs
  · rfl

theorem filterMap_head? (h : ∀ row ∈ rows, row ≠ []) {raws : List String} {cs : List Cell}
    (hraws : rows.filterMap List.head? = raws) (hcs : List.Forall₂ (ReadsAs o f.tag) raws cs) :
    ColumnOf o rows 0 f cs := by
  induction rows generalizing raws cs with
  | nil =>
    subst hraws
    cases hcs
    exact .nil
  | cons row rows ih =>
    have hrest : ∀ row ∈ rows, row ≠ [] := fun row hmem => h row (List.mem_cons_of_mem _ hmem)
    cases row with
    | nil => exact absurd rfl (h [] List.mem_cons_self)
    | cons raw row =>
      simp only [List.filterMap_cons, List.head?_cons] at hraws
      subst hraws
      cases hcs with
      | cons hr hrs => exact .cons ⟨raw,rfl,hr⟩ (ih hrest rfl hrs)

theorem ColumnOf.of_tail {j : Nat} {cs : List Cell} (h : ColumnOf o (rows.map List.tail) j f cs) :
    ColumnOf o rows (j + 1) f cs := by
  unfold ColumnOf at h ⊢
  rw [List.forall₂_map_left_iff] at h
  refine h.imp fun row c hc => ?_
  obtain ⟨raw,hraw,hr⟩ := hc
  rw [List.getElem?_tail] at hraw
  exact ⟨raw,hraw,hr⟩

theorem Holds.tail {j : Nat} (h : Holds o rows (j + 1) f) : Holds o (rows.map List.tail) j f := by
  refine ⟨?_,?_,h.pattern⟩
  · intro row hmem raw hraw
    obtain ⟨row',hmem',rfl⟩ := List.mem_map.mp hmem
    rw [List.getElem?_tail] at hraw
    exact h.readable row' hmem' raw hraw
  · intro row hmem raw hraw
    obtain ⟨row',hmem',rfl⟩ := List.mem_map.mp hmem
    rw [List.getElem?_tail] at hraw
    exact h.nullable row' hmem' raw hraw

/-- The columns of rows whose fields hold all their values. -/
theorem columns_of_holds (hw : ∀ row ∈ rows, row.length = fs.length)
    (h : ∀ j f, fs[j]? = some f → Holds o rows j f) :
    ∃ css, columns o fs rows = .ok css ∧ css.length = fs.length ∧
      ∀ j f cs, fs[j]? = some f → css[j]? = some cs → ColumnOf o rows j f cs := by
  induction fs generalizing rows with
  | nil => exact ⟨[],rfl,rfl,fun j f cs hf => by simp at hf⟩
  | cons f fs ih =>
    have hne : ∀ row ∈ rows, row ≠ [] := by
      intro row hmem hn
      have hl := hw row hmem
      simp [hn] at hl
    have hf := h 0 f rfl
    have hheads : ∀ raw ∈ rows.filterMap List.head?,
        o.isNull raw = true ∨ Readable o (Text.strip raw) f.tag := by
      intro raw hmem
      obtain ⟨row,hrow,hhead⟩ := List.mem_filterMap.mp hmem
      rw [List.head?_eq_getElem?] at hhead
      exact hf.readable row hrow raw hhead
    have htails : ∀ row ∈ rows.map List.tail, row.length = fs.length := by
      intro row hmem
      obtain ⟨row',hmem',rfl⟩ := List.mem_map.mp hmem
      rw [List.length_tail, hw row' hmem']
      rfl
    obtain ⟨cs,hcs,hrs⟩ := cells_of_readable hheads
    obtain ⟨css,hcss,hlen,hcol⟩ := ih htails fun j g hg => (h (j + 1) g hg).tail
    refine ⟨cs :: css,?_,by simp [hlen],?_⟩
    · simp [columns, column_eq_cells hf.pattern, hcs, hcss, bind, Except.bind, pure, Except.pure]
    · intro j g ds hg hds
      cases j with
      | zero =>
        obtain rfl : f = g := Option.some.inj hg
        obtain rfl : cs = ds := Option.some.inj hds
        exact filterMap_head? hne rfl hrs
      | succ j => exact (hcol j g ds hg hds).of_tail

/-- A column of cells has a null only where its field allows one. -/
theorem ColumnOf.nullable {j : Nat} {cs : List Cell} (h : ColumnOf o rows j f cs)
    (hf : Holds o rows j f) (hn : cs.any Cell.isNull = true) : f.nullable = true := by
  obtain ⟨c,hmem,hnull⟩ := List.any_eq_true.mp hn
  obtain ⟨i,hi,rfl⟩ := List.getElem_of_mem hmem
  have hlt : i < rows.length := by
    rw [h.length_eq]
    exact hi
  obtain ⟨raw,hraw,hr⟩ := h.get hlt hi
  exact hf.nullable _ (List.get_mem rows ⟨i,hlt⟩) raw hraw (hr.isNull_iff.mp hnull)

theorem nullOffence?_eq_none {s : Schema} {css : List (List Cell)}
    (h : ∀ (j : Nat) f cs, s.fields[j]? = some f → css[j]? = some cs →
      (!f.nullable && cs.any Cell.isNull) = false) :
    Batch.nullOffence? s.toLayout css = none := by
  simp only [Batch.nullOffence?, Option.map_eq_none_iff, List.find?_eq_none]
  rintro ⟨column,cs⟩ hmem hbad
  obtain ⟨j,hj⟩ := List.mem_iff_getElem?.mp hmem
  obtain ⟨hcolumn,hcs⟩ := List.getElem?_zip_eq_some.mp hj
  simp only [Schema.toLayout, List.getElem?_map] at hcolumn
  obtain ⟨f,hf,rfl⟩ := Option.map_eq_some_iff.mp hcolumn
  exact Bool.false_ne_true ((h j f cs hf hcs).symm.trans hbad)

theorem layout_of_batch {s : Schema} {b : Batch} (h : batch o s rows = .ok b) :
    b.layout = s.toLayout := by
  obtain ⟨columns,_,h⟩ := bind_eq_ok_iff.mp h
  split at h
  · next hb =>
    cases h
    exact (Batch.layout_of_ofColumns hb).1
  · cases h

/-- Columns that were read become a batch, unless one has a null that it must not have. -/
theorem batch_of_columns {s : Schema} {css : List (List Cell)} (hs : s.fields ≠ [])
    (hcss : columns o s.fields rows = .ok css) (hlen : css.length = s.fields.length)
    (hheight : ∀ cs ∈ css, cs.length = rows.length) :
    batch o s rows = match Batch.nullOffence? s.toLayout css with
      | some name => .error (.columnar (.nullInColumn name))
      | none => .ok ⟨s.toLayout,rows.length,css,hlen.trans s.width_toLayout.symm,hheight⟩ := by
  have hwidth : css.length = s.toLayout.width := hlen.trans s.width_toLayout.symm
  obtain ⟨first,rest,rfl⟩ : ∃ first rest, css = first :: rest := by
    cases css with
    | nil => exact absurd (List.eq_nil_of_length_eq_zero hlen.symm) hs
    | cons first rest => exact ⟨first,rest,rfl⟩
  have hfirst : first.length = rows.length := hheight first List.mem_cons_self
  simp only [batch, hcss, bind, Except.bind, Batch.ofColumns, hwidth, dif_pos, List.head?_cons,
    Option.map_some, Option.none_or, hfirst]
  cases Batch.nullOffence? s.toLayout (first :: rest) with
  | some name => rfl
  | none =>
    dsimp only
    rw [dif_pos hheight]

theorem length_of_columnOf {s : Schema} {css : List (List Cell)}
    (hlen : css.length = s.fields.length)
    (h : ∀ j f cs, s.fields[j]? = some f → css[j]? = some cs → ∃ g, ColumnOf o rows j g cs) :
    ∀ cs ∈ css, cs.length = rows.length := by
  intro cs hmem
  obtain ⟨j,hj,rfl⟩ := List.getElem_of_mem hmem
  have hf := List.getElem?_eq_getElem (hlen ▸ hj)
  obtain ⟨g,hg⟩ := h j _ _ hf (List.getElem?_eq_getElem hj)
  exact hg.length_eq.symm

/-- Rows whose fields hold all their values become a batch of just these values. -/
theorem batch_of_holds {s : Schema} (hs : s.fields ≠ [])
    (hw : ∀ row ∈ rows, row.length = s.fields.length)
    (h : ∀ j f, s.fields[j]? = some f → Holds o rows j f) :
    ∃ b, batch o s rows = .ok b ∧ b.layout = s.toLayout ∧ b.rows = rows.length ∧
      ∀ j f, s.fields[j]? = some f → ∃ cs, b.columns[j]? = some cs ∧ ColumnOf o rows j f cs := by
  obtain ⟨css,hcss,hlen,hcol⟩ := columns_of_holds hw h
  have hheight := length_of_columnOf hlen fun j f cs hf hcs => ⟨f,hcol j f cs hf hcs⟩
  have hbatch := batch_of_columns hs hcss hlen hheight
  have hoffence : Batch.nullOffence? s.toLayout css = none := by
    refine nullOffence?_eq_none fun j f cs hf hcs => ?_
    cases hn : cs.any Cell.isNull with
    | false => simp
    | true => simp [(hcol j f cs hf hcs).nullable (h j f hf) hn]
  rw [hoffence] at hbatch
  refine ⟨_,hbatch,rfl,rfl,fun j f hf => ?_⟩
  have hj : j < css.length := by
    rw [hlen]
    exact (List.getElem?_eq_some_iff.mp hf).1
  have hcs := List.getElem?_eq_getElem hj
  exact ⟨_,hcs,hcol j f _ hf hcs⟩

end Tabular.Delimited
