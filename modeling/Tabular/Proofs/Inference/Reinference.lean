import Tabular.Proofs.Delimited.Written
import Tabular.Proofs.Inference.Determined
import Mathlib.Data.List.DropRight

/-! # Inferring a schema from what was written under it

A table of booleans, 64-bit integers and texts is written in another way than it was read: numbers
lose their signs and leading zeros, booleans their case, blanks around both. None of this changes
the tag that is detected for a value or makes it null, so inference finds in the texts that were
written just what it found in those that were read.
-/
namespace Tabular

namespace Text

/-- Trimming the end of a trimmed start leaves the start trimmed. -/
theorem trimStart_trim (cs : List Char) : trimStart (trim cs) = trim cs := by
  refine List.dropWhile_eq_self_iff.mpr fun hpos hblank => ?_
  obtain ⟨back,hback⟩ : trim cs <+: trimStart cs := List.rdropWhile_prefix isBlank _
  have hlen : 0 < (cs.dropWhile isBlank).length := by
    rw [← trimStart, ← hback, List.length_append]
    omega
  refine List.dropWhile_get_zero_not isBlank cs hlen ?_
  have hget : (cs.dropWhile isBlank).get ⟨0,hlen⟩ = (trim cs).get ⟨0,hpos⟩ := by
    simp only [List.get_eq_getElem]
    change (trimStart cs)[0] = _
    simp only [← hback, List.getElem_append_left hpos]
  rw [hget]
  exact hblank

theorem strip_strip (s : String) : strip (strip s) = strip s := by
  rw [strip, strip, String.toList_ofList, trim, trimStart_trim]
  exact congrArg String.ofList (List.rdropWhile_idempotent isBlank (trimStart s.toList))

end Text

namespace Inference
open Delimited (Begins AtEnd Chunk Reading Record detect)
open Schema (ColumnState Field Tag)

variable {o o' : Options} {rows rows' : List Row} {rs rest : List Reading}

theorem strip_madeUpName (i : Nat) : Text.strip (madeUpName i) = madeUpName i := by
  refine Text.strip_eq_self fun c hc => ?_
  have hlist : (madeUpName i).toList = ['c', 'o', 'l'] ++ Number.Decimal.digits i := by
    simp [madeUpName, Number.Decimal.ofNat]
  have hletters : ∀ c ∈ ['c', 'o', 'l'], Text.isBlank c = false := by
    simp only [List.forall_mem_cons]
    exact ⟨rfl,rfl,rfl,fun _ h => absurd h List.not_mem_nil⟩
  rw [hlist] at hc
  rcases List.mem_append.mp hc with hc | hc
  · exact hletters c hc
  · exact Number.Decimal.isBlank_of_isDigit (Number.Decimal.all_isDigit_digits i c hc)

/-- The names that inference has found are found again as they are. -/
theorem map_strip_columnNames (o : Options) (first : List String) :
    (columnNames o first).map Text.strip = columnNames o first := by
  unfold columnNames
  split
  · simp [Text.strip_strip]
  · simp [strip_madeUpName]

/-- Left alone, an inference finds what one look at the rows finds. -/
theorem inferRecords_findings {s : Surroundings} (hq : ∀ r ∈ rs, r.fired = false) :
    (inferRecords o s rs).map Outcome.findings = findingsOf o rs := by
  obtain ⟨moves,x,hx⟩ := exists_inferRecordsAlong (canMove_nil o s rs)
  rw [← inferRecords_of_along hx, inferRecordsAlong_findings hq hx]

/-- One look at a stream of a header and some rows. -/
theorem findingsOf_headed {header : Row} (ho : o.hasHeader = true)
    (h : Begins header.length rest rs (header :: rows)) (hend : AtEnd rest)
    (hn : rows.length ≤ o.maxRows) :
    findingsOf o rs = .ok (fieldsOf o (header.map Text.strip) rows, rows.length) := by
  cases h with
  | row hr _ h =>
    obtain ⟨record,hi,rfl⟩ := Delimited.exists_record_of_row? hr
    simp only [findingsOf, hi, openRecords, ho, if_true, List.length_map]
    rw [Delimited.rowsFrom_begins h hend hn]
    rfl

/-- Rows in which the same is detected value by value. -/
abbrev SameDetected (o o' : Options) (rows rows' : List Row) : Prop :=
  List.Forall₂ (List.Forall₂ fun raw raw' => detect o' raw' = detect o raw) rows rows'

theorem observeRow_congr {row row' : Row}
    (h : List.Forall₂ (fun raw raw' => detect o' raw' = detect o raw) row row')
    (states : List ColumnState) : observeRow o' states row' = observeRow o states row := by
  induction h generalizing states with
  | nil => cases states <;> rfl
  | cons hd _ ih =>
    cases states with
    | nil => rfl
    | cons s states => simp only [observeRow, hd, ih]

theorem observeRows_congr (h : SameDetected o o' rows rows') (states : List ColumnState) :
    observeRows o' states rows' = observeRows o states rows := by
  induction h generalizing states with
  | nil => rfl
  | @cons row row' rows rows' hr _ ih =>
    change observeRows o' (observeRow o' states row') rows' =
      observeRows o (observeRow o states row) rows
    rw [observeRow_congr hr]
    exact ih _

theorem fieldsOf_congr (h : SameDetected o o' rows rows') (names : List String) :
    fieldsOf o' names rows' = fieldsOf o names rows := by
  rw [fieldsOf, fieldsOf, observeRows_congr h]

/-- The tag of a field lies above those of the values in its column. -/
theorem le_tag_of_fieldsOf {names : List String} {j : Nat} {f : Field} {row : Row} {raw : String}
    {t : Tag} (hf : (fieldsOf o names rows)[j]? = some f) (hrow : row ∈ rows)
    (hraw : row[j]? = some raw) (hd : detect o raw = some t) : t ≤ f.tag := by
  obtain ⟨name,s,_,hs,rfl⟩ := List.getElem?_zipWith_eq_some.mp hf
  have hcovers := observeRows_covers hs hrow hraw
  rw [hd] at hcovers
  obtain ⟨hne,hle⟩ := hcovers
  have hunset : s.tag ≠ .unset := fun h => hne (Tag.eq_unset_of_le (h ▸ hle))
  rw [freezeField_tag, if_neg hunset]
  exact hle

end Inference

namespace Delimited
open Schema (Field Tag)

variable {o o' : Options} {f : Field} {fs : List Field} {raw : String} {c : Cell}

/-- Options of which one reads again what was read under the other: they agree on what is null, and
no values are null or timestamps because options say so. -/
structure SameNulls (o o' : Options) : Prop where
  nullValues_eq : o.nullValues = [] ∧ o'.nullValues = []
  emptyAsNull_eq : o'.emptyAsNull = o.emptyAsNull
  timestampFormat_eq : o.timestampFormat = none ∧ o'.timestampFormat = none

theorem SameNulls.detect_eq (h : SameNulls o o') (raw : String) :
    detect o' raw = detect o raw := by
  simp [detect, Options.isNull, h.nullValues_eq, h.emptyAsNull_eq, h.timestampFormat_eq]

/-- The tags whose cells are written as texts that have the same tag again. -/
def PlainTag (t : Tag) : Prop := t = .boolean ∨ t = .int64 ∨ t = .string

inductive PlainCell (o : Options) (f : Field) (raw : String) : Cell → Prop
  | null (hnull : o.isNull raw = true) (h : f.nullable = true) : PlainCell o f raw .null
  | boolean (hnull : o.isNull raw = false) (h : f.tag = .boolean) (b : Bool) :
    PlainCell o f raw (.boolean b)
  | int (hnull : o.isNull raw = false) (h : f.tag = .int64) {i : Int}
    (hi : Number.Decimal.inInt64 i = true) : PlainCell o f raw (.int i)
  | text (hnull : o.isNull raw = false) (h : f.tag = .string) : PlainCell o f raw (.text raw)

theorem inInt64_of_int? {value : String} {i : Int} (h : int? value = some i) :
    Number.Decimal.inInt64 i = true := by
  rcases hs : Number.Decimal.splitSign value.toList with ⟨negative,ds⟩
  simp only [int?, Number.Decimal.int64?, hs] at h
  cases hn : Number.Decimal.nat? ds with
  | none => simp [hn] at h
  | some n =>
    simp only [hn] at h
    obtain ⟨hi,heq⟩ := Option.ite_none_right_eq_some.mp h
    cases heq
    exact hi

theorem CellTyped.plain (h : CellTyped o f raw c) (hf : PlainTag f.tag) : PlainCell o f raw c := by
  have hvalue := h.value
  unfold cell at hvalue
  split at hvalue
  · next hnull =>
    cases hvalue
    exact .null hnull (h.nullable rfl)
  · next hnull =>
    have hnull : o.isNull raw = false := by simpa using hnull
    rcases hf with ht | ht | ht
    · cases hb : bool? (Text.strip raw) with
      | none => simp [ht, cell?, hb] at hvalue
      | some b =>
        obtain rfl : .boolean b = c := by simpa [ht, cell?, hb] using hvalue
        exact .boolean hnull ht b
    · cases hi : int? (Text.strip raw) with
      | none => simp [ht, cell?, hi] at hvalue
      | some i =>
        obtain rfl : .int i = c := by simpa [ht, cell?, hi] using hvalue
        exact .int hnull ht (inInt64_of_int? hi)
    · obtain rfl : .text raw = c := by simpa [ht] using hvalue
      exact .text hnull ht

theorem PlainCell.suits (h : PlainCell o f raw c) : Suits f.toColumn c := by
  cases h with
  | null _ h => exact .null h
  | boolean _ h b => exact .boolean (by rw [Field.toColumn, h]; rfl) b
  | int _ h hi => exact .int (by rw [Field.toColumn, h]; rfl) hi
  | text _ h => exact .text (by rw [Field.toColumn, h]; rfl) raw

theorem detect_shown_boolean (hn : o.nullValues = []) (b : Bool) :
    detect o (shown (.boolean b)) = some .boolean := by
  have hblank : Text.allBlank (shown (.boolean b)) = false := by cases b <;> decide
  have hint : int? (Text.strip (shown (.boolean b))) = none := by cases b <;> cbv
  have hfloat : float? (Text.strip (shown (.boolean b))) = none := by cases b <;> cbv
  have hbool : (bool? (Text.strip (shown (.boolean b)))).isSome = true := by cases b <;> cbv
  simp [detect, Options.isNull, hn, hblank, hint, hfloat, hbool]

theorem detect_shown_int (hn : o.nullValues = []) {i : Int} (hi : Number.Decimal.inInt64 i = true) :
    detect o (shown (.int i)) = some .int64 := by
  have hint : int? (Text.strip (shown (.int i))) = some i := by
    rw [shown, Number.Decimal.strip_ofInt, int?, Number.Decimal.int64?_ofInt hi]
  have hblank : Text.allBlank (shown (.int i)) = false := Number.Decimal.allBlank_ofInt i
  simp [detect, Options.isNull, hn, hblank, hint]

/-- Below the tag of booleans or integers there is no other that a value can have. -/
theorem detect_eq_of_le (hnull : o.isNull raw = false) {t : Tag} (ht : t = .boolean ∨ t = .int64)
    (hle : ∀ u, detect o raw = some u → u ≤ t) : detect o raw = some t := by
  cases hd : detect o raw with
  | none =>
    rw [Inference.detect_eq_none_iff.mp hd] at hnull
    cases hnull
  | some u =>
    have hne : u ≠ .unset := fun hu => Inference.detect_ne_unset (hu ▸ hd)
    rw [Tag.eq_of_le ht hne (hle u hd)]

/-- In a plain column a cell is written as a text for which just that is detected which was detected
for the value it was read from. -/
theorem PlainCell.detect_shown (h : PlainCell o f raw c) (ho : SameNulls o o')
    (hle : ∀ t, detect o raw = some t → t ≤ f.tag) : detect o' (shown c) = detect o raw := by
  cases h with
  | null hnull _ =>
    have hempty : o'.isNull (shown .null) = true := by
      have hblank : o.emptyAsNull = true ∧ Text.allBlank raw = true := by
        simpa [Options.isNull, ho.nullValues_eq] using hnull
      simp [Options.isNull, ho.emptyAsNull_eq, hblank, shown, Text.allBlank]
    rw [Inference.detect_eq_none_iff.mpr hnull, Inference.detect_eq_none_iff.mpr hempty]
  | boolean hnull ht b =>
    rw [detect_shown_boolean ho.nullValues_eq.2, ← ht]
    exact (detect_eq_of_le hnull (.inl ht) hle).symm
  | int hnull ht hi =>
    rw [detect_shown_int ho.nullValues_eq.2 hi, ← ht]
    exact (detect_eq_of_le hnull (.inr ht) hle).symm
  | text hnull ht => exact ho.detect_eq raw

/-- Rows of plain columns become rows that suit these columns. -/
theorem RowTyped.suits {row : List String} {cs : List Cell} (h : RowTyped o fs row cs)
    (hf : ∀ f ∈ fs, PlainTag f.tag) : RowSuits (fs.map Field.toColumn) cs := by
  induction h with
  | nil => exact .nil
  | cons hc _ ih =>
    exact .cons (hc.plain (hf _ List.mem_cons_self)).suits
      (ih fun f hmem => hf f (List.mem_cons_of_mem _ hmem))

/-- What is written of a row of plain columns is detected as the row was. -/
theorem RowTyped.sameDetected {row : List String} {cs : List Cell} (h : RowTyped o fs row cs)
    (ho : SameNulls o o') (hf : ∀ f ∈ fs, PlainTag f.tag)
    (hle : ∀ (j : Nat) (f : Field) (raw : String) (t : Tag), fs[j]? = some f →
      row[j]? = some raw → detect o raw = some t → t ≤ f.tag) :
    List.Forall₂ (fun raw raw' => detect o' raw' = detect o raw) row (cs.map shown) := by
  induction h with
  | nil => exact .nil
  | cons hc _ ih =>
    refine .cons ((hc.plain (hf _ List.mem_cons_self)).detect_shown ho fun t ht =>
      hle 0 _ _ t rfl rfl ht) (ih (fun f hmem => hf f (List.mem_cons_of_mem _ hmem)) ?_)
    exact fun j f raw t hj hraw ht => hle (j + 1) f raw t hj hraw ht

end Delimited

namespace Inference
open Delimited (Begins AtEnd Chunk PlainTag Reading RowTyped SameNulls readings shown)
open Schema (Field)

variable {o o' : Options} {rows : List Row} {typed : List (List Cell)} {fs : List Field}

/-- When the fields of plain columns and the rows that were typed under them are written, one look
at the text finds these fields and as many rows. -/
theorem findingsOf_written {first : Row} {rs rest : List Reading} (ho : SameNulls o o')
    (hheader : o'.hasHeader = true) (hfs : fs = fieldsOf o (columnNames o first) rows)
    (hplain : ∀ f ∈ fs, PlainTag f.tag) (htyped : List.Forall₂ (RowTyped o fs) rows typed)
    (hbegins : Begins fs.length rest rs (fs.map Field.name :: typed.map (·.map shown)))
    (hend : AtEnd rest) (hn : rows.length ≤ o'.maxRows) :
    findingsOf o' rs = .ok (fs, rows.length) := by
  have hlen : (typed.map (·.map shown)).length = rows.length := by
    rw [List.length_map, htyped.length_eq]
  have hsame : SameDetected o o' rows (typed.map (·.map shown)) := by
    obtain ⟨hsize,hall⟩ := List.forall₂_iff_zip.mp htyped
    refine List.forall₂_map_right_iff.mpr (List.forall₂_iff_zip.mpr ⟨hsize,fun hmem => ?_⟩)
    exact (hall hmem).sameDetected ho hplain fun j f raw t hj hraw hd =>
      le_tag_of_fieldsOf (hfs ▸ hj) (List.of_mem_zip hmem).1 hraw hd
  have hnames : fs.map Field.name = columnNames o first := by
    rw [hfs, fieldsOf, map_name_zipWith (by simp [blankStates])]
  have hlength : fs.length = (fs.map Field.name).length := (List.length_map _).symm
  rw [hlength] at hbegins
  rw [findingsOf_headed hheader hbegins hend (hlen ▸ hn), hlen, hnames, map_strip_columnNames,
    fieldsOf_congr hsame, ← hfs]

end Inference
end Tabular
