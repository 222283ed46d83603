import Tabular.Proofs.Delimited.Rows
import Tabular.Proofs.Inference.Invariance
import Tabular.Proofs.Inference.ReadBack

/-! # Delimited text read row by row

The plain way to read a text: find the fields in one look at its rows, then type one row after the
other. There are no batches, workers or queues in it. Where an inference has succeeded and has seen
all rows, this reading succeeds too, and finds the fields of the inference.
-/
namespace Tabular.Delimited
open Inference (Outcome Surroundings Sample.rowsFrom inferRecords findingsOf behindHeader
  dataReadings)
open Schema (Field Tag)

variable {o : Options} {f : Field} {fs : List Field} {width : Nat} {rs rest : List Reading}
variable {rows : List (List String)} {typed : List (List Cell)}

/-- How many records there are before the end of a stream, sound or not. -/
def recordCount : List Reading → Nat
  | [] => 0
  | r :: rs => match r.item with
    | .finished => 0
    | _ => recordCount rs + 1

theorem recordCount_eq_zero_iff : recordCount rs = 0 ↔ AtEnd rs := by
  cases rs with
  | nil => simp [recordCount, AtEnd]
  | cons r rs => cases hi : r.item <;> simp [recordCount, AtEnd, hi]

theorem Begins.recordCount_eq (h : Begins width rest rs rows) :
    recordCount rs = rows.length + recordCount rest := by
  induction h with
  | done => simp
  | row hr hw h ih =>
    obtain ⟨record,hi,_⟩ := exists_record_of_row? hr
    simp only [recordCount, hi, ih, List.length_cons]
    omega

theorem rowsFrom_begins (h : Begins width rest rs rows) (he : AtEnd rest) {n : Nat}
    (hn : rows.length ≤ n) : Sample.rowsFrom width n rs = .ok rows := by
  induction h generalizing n with
  | done => exact Inference.Sample.rowsFrom_atEnd he
  | row hr hw h ih =>
    obtain ⟨record,hi,rfl⟩ := exists_record_of_row? hr
    rw [List.length_cons] at hn
    obtain ⟨m,rfl⟩ : ∃ m, n = m + 1 := ⟨n - 1,by omega⟩
    rw [Inference.Sample.rowsFrom_row hi hw, ih (Nat.le_of_succ_le_succ hn)]
    rfl

theorem Begins.length_le (h : Begins width rest rs rows) : rows.length ≤ rs.length := by
  induction h with
  | done => exact Nat.zero_le _
  | row _ _ _ ih => exact Nat.succ_le_succ ih

def rowCells (o : Options) : List Field → List String → Except Error (List Cell)
  | f :: fs, raw :: raws => do
    let c ← cell o (o.timestampFormat.getD "") f raw
    let cs ← rowCells o fs raws
    return c :: cs
  | _, _ => return []

/-- The fields of a text, and the cells of its rows. -/
def readRowByRow (o : Options) (input : List Chunk) :
    Except Error (List Field × List (List Cell)) := do
  let rs := readings (← o.delimiterByte) input
  let (fields, _) ← findingsOf o rs
  let rows ← Sample.rowsFrom fields.length rs.length (behindHeader o rs)
  let typed ← rows.mapM (rowCells o fields)
  return (fields, typed)

theorem isNull_of_cell? {pattern value : String} {t : Tag} {c : Cell}
    (h : cell? pattern t value = some c) : c.isNull = false := by
  unfold cell? at h
  split at h
  · obtain ⟨_,_,rfl⟩ := Option.map_eq_some_iff.mp h
    rfl
  · obtain ⟨_,_,rfl⟩ := Option.map_eq_some_iff.mp h
    rfl
  · obtain ⟨_,_,rfl⟩ := Option.map_eq_some_iff.mp h
    rfl
  · obtain ⟨_,_,rfl⟩ := Option.map_eq_some_iff.mp h
    rfl
  · cases h
    rfl
  · cases h
    rfl

theorem CellTyped.isNull_iff {raw : String} {c : Cell} (h : CellTyped o f raw c) :
    c.isNull = true ↔ o.isNull raw = true := by
  have hvalue := h.value
  unfold cell at hvalue
  split at hvalue
  · next hnull =>
    cases hvalue
    exact iff_of_true rfl hnull
  · next hnull =>
    refine iff_of_false ?_ hnull
    split at hvalue
    · cases hvalue
      simp [Cell.isNull]
    · cases hvalue
      simp [Cell.isNull]
    · split at hvalue
      · next hc =>
        cases hvalue
        simp [isNull_of_cell? hc]
      · cases hvalue

theorem RowTyped.nulls {row : List String} {cs : List Cell} (h : RowTyped o fs row cs) :
    List.Forall₂ (fun raw c => c.isNull = true ↔ o.isNull raw = true) row cs := by
  induction h with
  | nil => exact .nil
  | cons hc _ ih => exact .cons hc.isNull_iff ih

theorem rowCells_of_typed {row : List String} {cs : List Cell} (h : RowTyped o fs row cs) :
    rowCells o fs row = .ok cs := by
  induction h with
  | nil => rfl
  | cons hc _ ih => simp [rowCells, hc.value, ih, bind, Except.bind, pure, Except.pure]

theorem mapM_rowCells (h : List.Forall₂ (RowTyped o fs) rows typed) :
    rows.mapM (rowCells o fs) = .ok typed := by
  induction h with
  | nil => rfl
  | cons hr _ ih =>
    simp [List.mapM_cons, rowCells_of_typed hr, ih, bind, Except.bind, pure, Except.pure]

/-- A value of a column that holds it has its cell. -/
theorem Holds.exists_cellTyped {j : Nat} {row : List String} {raw : String} (h : Holds o rows j f)
    (hrow : row ∈ rows) (hraw : row[j]? = some raw) : ∃ c, CellTyped o f raw c := by
  obtain ⟨c,hc,hreads⟩ := cell_of_readable (h.readable row hrow raw hraw)
  exact ⟨c,hc,fun hnull => h.nullable row hrow raw hraw (hreads.isNull_iff.mp hnull),h.pattern⟩

theorem exists_rowTyped {row : List String} (hlen : row.length = fs.length)
    (h : ∀ (j : Nat) f raw, fs[j]? = some f → row[j]? = some raw → ∃ c, CellTyped o f raw c) :
    ∃ cs, RowTyped o fs row cs := by
  induction fs generalizing row with
  | nil =>
    obtain rfl := List.eq_nil_of_length_eq_zero hlen
    exact ⟨[],.nil⟩
  | cons f fs ih =>
    cases row with
    | nil => cases hlen
    | cons raw raws =>
      obtain ⟨c,hc⟩ := h 0 f raw rfl rfl
      obtain ⟨cs,hcs⟩ := ih (Nat.succ.inj hlen) fun j g raw hg hraw => h (j + 1) g raw hg hraw
      exact ⟨c :: cs,.cons hc hcs⟩

/-- Rows each of whose values has a cell are typed. -/
theorem exists_typed (hlen : ∀ row ∈ rows, row.length = fs.length)
    (h : ∀ row ∈ rows, ∀ (j : Nat) f raw, fs[j]? = some f → row[j]? = some raw →
      ∃ c, CellTyped o f raw c) :
    ∃ typed, List.Forall₂ (RowTyped o fs) rows typed := by
  induction rows with
  | nil => exact ⟨[],.nil⟩
  | cons row rows ih =>
    obtain ⟨cs,hcs⟩ := exists_rowTyped (hlen row List.mem_cons_self) (h row List.mem_cons_self)
    obtain ⟨typed,htyped⟩ := ih (fun row hmem => hlen row (List.mem_cons_of_mem _ hmem))
      fun row hmem => h row (List.mem_cons_of_mem _ hmem)
    exact ⟨cs :: typed,.cons hcs htyped⟩

theorem length_behindHeader_le (o : Options) (rs : List Reading) :
    (behindHeader o rs).length ≤ rs.length := by
  cases rs with
  | nil => exact Nat.le_refl 0
  | cons first rest =>
    simp only [behindHeader]
    split
    · exact Nat.le_succ _
    · exact Nat.le_refl _

/-- What an inference has found is what one look at the rows finds. -/
theorem findingsOf_of_inferRecords {s : Surroundings} {out : Outcome}
    (hq : ∀ r ∈ rs, r.fired = false) (h : inferRecords o s rs = .ok out) :
    findingsOf o rs = .ok (out.schema.fields, out.rowsSampled) := by
  obtain ⟨moves,x,hx⟩ := Inference.exists_inferRecordsAlong (Inference.canMove_nil o s rs)
  have hsame := Inference.inferRecords_of_along hx
  rw [h] at hsame
  rw [← Inference.inferRecordsAlong_findings hq hx, hsame]
  rfl

/-- Where an inference has seen all rows of a text, the text can be read row by row, with the fields
that were inferred. -/
theorem readRowByRow_of_inferRecords {s : Surroundings} {out : Outcome} {input : List Chunk}
    {delimiter : UInt8} (hc : .cancel ∉ input) (hd : o.delimiterByte = .ok delimiter)
    (h : inferRecords o s (readings delimiter input) = .ok out)
    (hn : recordCount (dataReadings o input) ≤ o.maxRows) :
    ∃ rest rows typed, Begins out.schema.width rest (dataReadings o input) rows ∧ AtEnd rest ∧
      rows.length = recordCount (dataReadings o input) ∧
      List.Forall₂ (RowTyped o out.schema.fields) rows typed ∧
      readRowByRow o input = .ok (out.schema.fields, typed) := by
  have hfindings := findingsOf_of_inferRecords (fun r hr => readings_quiet hc hr) h
  rw [Inference.dataReadings_eq hd] at hn ⊢
  obtain ⟨names,rows,rest,hfields,_,hbegins,hend,_⟩ := Inference.inferRecords_ok h
  have hwidth : names.length = out.schema.fields.length := by
    rw [hfields, Inference.length_fieldsOf]
  have hcount := hbegins.recordCount_eq
  -- a sample that stopped short did so at the end; a full one has used up all records there are
  have hatEnd : AtEnd rest := by
    by_cases hlt : rows.length < o.maxRows
    · exact hend hlt
    · exact recordCount_eq_zero_iff.mp (by omega)
  rw [recordCount_eq_zero_iff.mpr hatEnd, Nat.add_zero] at hcount
  rw [hwidth] at hbegins
  obtain ⟨typed,htyped⟩ := exists_typed hbegins.length_row fun row hrow j f raw hf hraw =>
    (Inference.holds_fieldsOf (hfields ▸ hf)).exists_cellTyped hrow hraw
  have hroom := hbegins.length_le.trans (length_behindHeader_le o (readings delimiter input))
  refine ⟨rest,rows,typed,hbegins,hatEnd,hcount.symm,htyped,?_⟩
  simp only [readRowByRow, hd, hfindings, bind, Except.bind,
    rowsFrom_begins hbegins hatEnd hroom, mapM_rowCells htyped]
  rfl

end Tabular.Delimited
