import Tabular.Proofs.Delimited.Quoting
import Tabular.Proofs.Delimited.Rows
import Tabular.Proofs.Number.Decimal
import Mathlib

/-! # Writing rows and typing them again

Rows of booleans, 64-bit integers and texts are all written, each as one line behind the line of the
column names. Each cell is written as a text that is typed as that cell again, as long as no text is
blank: a blank one would come back as a null.
-/
namespace Tabular.Delimited
open Schema (Field Tag)

/-- The cells that a column of booleans, 64-bit integers or texts can hold. -/
inductive Suits (column : Column) : Cell → Prop
  | null (h : column.nullable = true) : Suits column .null
  | boolean (h : column.type = .boolean) (b : Bool) : Suits column (.boolean b)
  | int (h : column.type = .int64) {i : Int} (hi : Number.Decimal.inInt64 i = true) :
    Suits column (.int i)
  | text (h : column.type = .utf8) (s : String) : Suits column (.text s)

def shown : Cell → String
  | .boolean b => if b then "true" else "false"
  | .int i => Number.Decimal.ofInt i
  | .text s => s
  | _ => ""

variable {column : Column} {columns : List Column} {c : Cell} {row : List Cell}
variable {rows : List (List Cell)}

theorem Suits.cellText_eq (h : Suits column c) : cellText c = .ok (shown c) := by
  cases h <;> rfl

abbrev RowSuits (columns : List Column) (row : List Cell) : Prop := List.Forall₂ Suits columns row

theorem mapM_cellText (h : RowSuits columns row) : row.mapM cellText = .ok (row.map shown) := by
  induction h with
  | nil => rfl
  | cons hc _ ih =>
    rw [List.mapM_cons, hc.cellText_eq, ih]
    rfl

/-! ## Writing -/

namespace Writer

variable {w w' w'' : Writer} {n : Nat} {bs cs : List UInt8} {fields : List (List UInt8)}

/-- A writer at the start of a line, all of whose records have had one width. -/
structure Ready (w : Writer) (width : Nat) : Prop where
  pending_eq : w.pending = 0
  touched_eq : w.touched = false
  width_eq : ∀ n ∈ w.width, n = width

/-- A writer that has gone on to the start of a later line. -/
structure Extends (w : Writer) (width : Nat) (bs : List UInt8) (w' : Writer) : Prop where
  ready : w'.Ready width
  bytes_eq : w'.bytes = w.bytes ++ bs
  delimiter_eq : w'.delimiter = w.delimiter

theorem Extends.trans (h : Extends w n bs w') (h' : Extends w' n cs w'') :
    Extends w n (bs ++ cs) w'' :=
  ⟨h'.ready,by rw [h'.bytes_eq, h.bytes_eq, List.append_assoc],
    h'.delimiter_eq.trans h.delimiter_eq⟩

@[simp] theorem bytes_add (w : Writer) (bs : List UInt8) : (w.add bs).bytes = w.bytes ++ bs := by
  simp [bytes, add]

/-- A record of the right width is accepted, and its width is known from then on. -/
theorem check_eq_ok (h : ∀ n ∈ w.width, n = w.pending) :
    w.check = (.ok (), { w with width := some w.pending }) := by
  unfold check
  split
  · rfl
  · next n hw =>
    obtain rfl := h n hw
    simp [← hw]

theorem writeFields_ready (h : w.Ready n) (hlen : fields.length = n) :
    ∃ w', w.writeFields fields = (.ok (), w') ∧
      Extends w n (encodeRecord w.delimiter fields) w' ∧ w'.headed = w.headed := by
  obtain ⟨delimiter,pieces,headed,width,pending,touched⟩ := w
  obtain ⟨rfl,rfl,hwidth⟩ := h
  subst hlen
  have hcheck : ∀ (pieces : List (List UInt8)) (touched : Bool),
      check ⟨delimiter,pieces,headed,width,fields.length,touched⟩ =
        (.ok (), ⟨delimiter,pieces,headed,some fields.length,fields.length,touched⟩) := by
    intro pieces touched
    exact check_eq_ok hwidth
  simp only [writeFields, add, Nat.lt_irrefl, decide_false, Bool.false_and, Bool.false_eq_true,
    if_false, List.nil_append, Nat.zero_add, Bool.false_or, hcheck]
  by_cases hempty : encodeFields delimiter fields = []
  · refine ⟨_,rfl,⟨⟨rfl,rfl,?_⟩,?_,?_⟩,?_⟩ <;> simp [hempty, bytes, encodeRecord]
  · refine ⟨_,rfl,⟨⟨rfl,rfl,?_⟩,?_,?_⟩,?_⟩ <;> simp [hempty, bytes, encodeRecord]

/-- A row is written as one line, whether there are any bytes in it or not. -/
theorem writeRow_ready (h : w.Ready n) (hlen : fields.length = n) :
    ∃ w', w.writeRow fields = (.ok (), w') ∧
      Extends w n (encodeRecord w.delimiter fields) w' ∧ w'.headed = w.headed := by
  unfold writeRow
  split
  · exact writeFields_ready h hlen
  · next hne =>
    have hbytes : (encodeFields w.delimiter fields).isEmpty = false := by
      rw [Bool.eq_false_iff]
      intro hempty
      apply hne
      cases fields with
      | nil => rfl
      | cons f fs =>
        obtain ⟨rfl,rfl⟩ := eq_of_encodeFields_eq_nil (List.isEmpty_iff.mp hempty)
        rfl
    obtain ⟨delimiter,pieces,headed,width,pending,touched⟩ := w
    obtain ⟨rfl,rfl,hwidth⟩ := h
    subst hlen
    have hcheck := check_eq_ok
      (w := ⟨delimiter,encodeFields delimiter fields :: pieces,headed,width,fields.length,false⟩)
      hwidth
    simp only [add, hcheck]
    refine ⟨_,rfl,⟨⟨rfl,rfl,?_⟩,?_,rfl⟩,rfl⟩
    · simp
    · simp only at hbytes
      simp [bytes, encodeRecord, hbytes]

theorem writeRows_ready (h : w.Ready n) (hrows : ∀ row ∈ rows, RowSuits columns row)
    (hn : columns.length = n) :
    ∃ w', w.writeRows rows = (.ok (), w') ∧
      Extends w n (encodeRecords w.delimiter (rows.map (·.map shown))) w' ∧
      w'.headed = w.headed := by
  induction rows generalizing w with
  | nil => exact ⟨w,rfl,⟨h,by simp [encodeRecords],rfl⟩,rfl⟩
  | cons row rows ih =>
    have hrow := hrows row List.mem_cons_self
    have hlen : ((row.map shown).map Text.Utf8.encode).length = n := by
      rw [List.length_map, List.length_map, ← hrow.length_eq, hn]
    obtain ⟨w₁,hw₁,he₁,hh₁⟩ := writeRow_ready h hlen
    obtain ⟨w',hw',he',hh'⟩ := ih he₁.ready fun r hr => hrows r (List.mem_cons_of_mem _ hr)
    refine ⟨w',?_,?_,hh'.trans hh₁⟩
    · simp only [writeRows, mapM_cellText hrow, hw₁, hw']
    · rw [he₁.delimiter_eq] at he'
      exact he₁.trans he'

/-- A batch is written with the names of its columns in front of the first one. -/
theorem write_ready {b : Batch} (h : w.Ready n) (hn : b.layout.columns.length = n)
    (hflat : ∀ c ∈ b.layout.columns, isNested c.type = false)
    (hrows : ∀ row ∈ b.rowList, RowSuits b.layout.columns row) :
    ∃ w', w.write b = (.ok (), w') ∧
      Extends w n (encodeRecords w.delimiter
        ((if w.headed then [] else [b.layout.columns.map Column.name]) ++
          b.rowList.map (·.map shown))) w' ∧ w'.headed = true := by
  obtain ⟨w₁,hw₁,he₁,hh₁⟩ : ∃ w₁, w.writeHeader b.layout.columns = (.ok (), w₁) ∧
      Extends w n (encodeRecords w.delimiter
        (if w.headed then [] else [b.layout.columns.map Column.name])) w₁ ∧ w₁.headed = true := by
    unfold writeHeader
    split
    · next hh => exact ⟨w,rfl,⟨h,by simp [encodeRecords],rfl⟩,hh⟩
    · have hlen : (b.layout.columns.map fun c => Text.Utf8.encode c.name).length = n := by
        rwa [List.length_map]
      obtain ⟨w₁,hw₁,he₁,_⟩ := writeFields_ready h hlen
      rw [hw₁]
      refine ⟨_,rfl,⟨⟨he₁.ready.pending_eq,he₁.ready.touched_eq,he₁.ready.width_eq⟩,?_,
        he₁.delimiter_eq⟩,rfl⟩
      have hbytes : ({ w₁ with headed := true } : Writer).bytes = w₁.bytes := rfl
      rw [hbytes, he₁.bytes_eq]
      simp [encodeRecords, Function.comp_def]
  obtain ⟨w',hw',he',hh'⟩ := writeRows_ready he₁.ready hrows hn
  have hfind : b.layout.columns.find? (isNested ·.type) = none := by
    rw [List.find?_eq_none]
    intro c hc
    simp [hflat c hc]
  refine ⟨w',?_,?_,hh'.trans hh₁⟩
  · simp only [write, hw₁, hfind, hw']
  · have htrans := he₁.trans he'
    rw [he₁.delimiter_eq, encodeRecords, encodeRecords, ← List.flatMap_append] at htrans
    exact htrans

end Writer

/-! ## Reading -/

variable {o : Options} {f : Field} {fs : List Field}

/-- Options under which just the blank values are null. -/
structure BlankIsNull (o : Options) : Prop where
  nullValues_eq : o.nullValues = []
  emptyAsNull_eq : o.emptyAsNull = true

theorem BlankIsNull.isNull_eq (ho : BlankIsNull o) (raw : String) :
    o.isNull raw = Text.allBlank raw := by
  simp [Options.isNull, ho.nullValues_eq, ho.emptyAsNull_eq]

theorem cell_shown_boolean (ho : BlankIsNull o) (hf : f.tag = .boolean) (pattern : String)
    (b : Bool) : cell o pattern f (shown (.boolean b)) = .ok (.boolean b) := by
  have hblank : o.isNull (shown (.boolean b)) = false := by
    rw [ho.isNull_eq]
    cases b <;> decide
  have hcell : cell? pattern .boolean (Text.strip (shown (.boolean b))) = some (.boolean b) := by
    cases b <;> cbv
  simp only [cell, hblank, Bool.false_eq_true, if_false, hf, hcell]

theorem cell_shown_int (ho : BlankIsNull o) (hf : f.tag = .int64) (pattern : String) {i : Int}
    (hi : Number.Decimal.inInt64 i = true) : cell o pattern f (shown (.int i)) = .ok (.int i) := by
  have hblank : o.isNull (shown (.int i)) = false := by
    rw [ho.isNull_eq]
    exact Number.Decimal.allBlank_ofInt i
  have hcell : cell? pattern .int64 (Text.strip (shown (.int i))) = some (.int i) := by
    simp only [shown, Number.Decimal.strip_ofInt, cell?, int?, Number.Decimal.int64?_ofInt hi,
      Option.map_some]
  simp only [cell, hblank, Bool.false_eq_true, if_false, hf, hcell]

theorem tag_of_columnType {t : Tag} :
    (t.columnType = .boolean → t = .boolean) ∧ (t.columnType = .int64 → t = .int64) ∧
      (t.columnType = .utf8 → t = .string ∨ t = .unset) := by
  cases t <;> simp [Tag.columnType]

/-- What a cell is written as is typed as that cell. -/
theorem cellTyped_shown (ho : BlankIsNull o) (h : Suits f.toColumn c)
    (hplain : f.tag ≠ .timestamp) (hblank : ∀ s, c = .text s → Text.allBlank s = false) :
    CellTyped o f (shown c) c := by
  obtain ⟨hboolean,hint,htext⟩ := tag_of_columnType (t := f.tag)
  refine ⟨?_,?_,fun ht => absurd ht hplain⟩
  · cases h with
    | null _ =>
      have hnull : o.isNull "" = true := by
        rw [ho.isNull_eq]
        rfl
      simp only [cell, shown, hnull, if_true]
    | boolean ht b => exact cell_shown_boolean ho (hboolean ht) _ b
    | int ht hi => exact cell_shown_int ho (hint ht) _ hi
    | text ht s =>
      have hnull : o.isNull s = false := by
        rw [ho.isNull_eq]
        exact hblank s rfl
      rcases htext ht with hf | hf <;>
        simp only [cell, shown, hnull, Bool.false_eq_true, if_false, hf]
  · intro hnull
    cases h with
    | null h => exact h
    | boolean _ _ | int _ _ | text _ _ => cases hnull

theorem rowTyped_shown (ho : BlankIsNull o) (hplain : ∀ f ∈ fs, f.tag ≠ .timestamp)
    (h : RowSuits (fs.map Field.toColumn) row)
    (hblank : ∀ s, Cell.text s ∈ row → Text.allBlank s = false) :
    RowTyped o fs (row.map shown) row := by
  induction fs generalizing row with
  | nil =>
    cases h
    exact .nil
  | cons f fs ih =>
    cases h with
    | cons hc hrest =>
      have hcell := cellTyped_shown ho hc (hplain f List.mem_cons_self) fun s hs =>
        hblank s (hs ▸ List.mem_cons_self)
      refine .cons hcell (ih ?_ hrest ?_)
      · exact fun f hf => hplain f (List.mem_cons_of_mem _ hf)
      · exact fun s hs => hblank s (List.mem_cons_of_mem _ hs)

end Tabular.Delimited
