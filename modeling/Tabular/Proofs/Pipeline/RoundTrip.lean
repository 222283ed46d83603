import Tabular.Proofs.Delimited.Written
import Tabular.Proofs.Inference.ReadBack
import Tabular.Proofs.Pipeline.Course
import Tabular.Proofs.Pipeline.Settings

/-! # Delimited text written and read back

A sink for delimited text and a source over its file find the same delimiter in the path that both
are given. Tables of booleans, 64-bit integers and texts come back from such a file row by row, in
batches of any size, up to the end.
-/
namespace Tabular

namespace FileTree
variable {t t' : FileTree} {l : Location} {p : Path}

theorem endsWithSeparator_of_create (h : t.create p = .ok (l, t')) :
    p.endsWithSeparator = false := by
  rw [create, bind_eq_ok_iff] at h
  obtain ⟨l₁,_,h⟩ := h
  cases hs : p.endsWithSeparator with
  | true =>
    rw [hs] at h
    cases h
  | false => rfl

/-- What was put where a file was created is found under the path that created it. -/
theorem openEntry_of_create (h : t.create p = .ok (l, t')) (bytes : List UInt8) :
    (t'.put l (.file bytes)).openEntry p = .ok (.file bytes) := by
  obtain ⟨hwalk,hdir,rfl⟩ := create_eq_ok h
  have hcreated : (t.put l (.file [])).get? l ≠ some .directory := by
    rw [get?_put hdir, if_pos rfl]
    simp
  have haltered := (altered_put hdir (.file [])).trans (altered_put hcreated (.file bytes))
  have hget : ((t.put l (.file [])).put l (.file bytes)).get? l = some (.file bytes) := by
    rw [get?_put hcreated, if_pos rfl]
  have hlocate := locate_eq_ok_iff.mpr
    ⟨haltered.walk hwalk,.inr ⟨⟨bytes,hget⟩,endsWithSeparator_of_create h⟩⟩
  rw [openEntry, entry_eq_ok_iff.mpr ⟨l,hlocate,hget⟩]

end FileTree

namespace FileSink
open Delimited (RowSuits Writer encodeRecords shown)

/-- Batches of one table of booleans, 64-bit integers and texts. No text may be blank, and the file
must not begin with what would be taken for a byte order mark. -/
structure Plain (columns : List Column) (batches : List Batch) : Prop where
  columns_ne_nil : columns ≠ []
  types : ∀ c ∈ columns, c.type = .boolean ∨ c.type = .int64 ∨ c.type = .utf8
  layout_eq : ∀ b ∈ batches, b.layout.columns = columns
  suits : ∀ b ∈ batches, ∀ row ∈ b.rowList, RowSuits columns row
  not_blank : ∀ b ∈ batches, ∀ row ∈ b.rowList, ∀ text, Cell.text text ∈ row →
    Text.allBlank text = false
  not_mark : ∀ c ∈ columns.head?, c.name.toList.head? ≠ some '\uFEFF'

/-- Batches of one table that a sink for delimited text can write so that its rows are found again.
Unlike in a plain table, texts may be blank. -/
structure Writable (columns : List Column) (batches : List Batch) : Prop where
  columns_ne_nil : columns ≠ []
  types : ∀ c ∈ columns, c.type = .boolean ∨ c.type = .int64 ∨ c.type = .utf8
  layout_eq : ∀ b ∈ batches, b.layout.columns = columns
  suits : ∀ b ∈ batches, ∀ row ∈ b.rowList, RowSuits columns row
  not_mark : ∀ c ∈ columns.head?, c.name.toList.head? ≠ some '\uFEFF'

variable {columns : List Column} {batches : List Batch} {b : Batch} {bs : List Batch}

theorem Plain.writable (h : Plain columns batches) : Writable columns batches :=
  ⟨h.columns_ne_nil,h.types,h.layout_eq,h.suits,h.not_mark⟩

theorem Writable.tail (h : Writable columns (b :: bs)) : Writable columns bs :=
  ⟨h.columns_ne_nil,h.types,fun x hx => h.layout_eq x (List.mem_cons_of_mem _ hx),
    fun x hx => h.suits x (List.mem_cons_of_mem _ hx),h.not_mark⟩

/-- The rows of a file of batches, the names of the columns first if there is a batch at all. -/
def fileRows (headed : Bool) (columns : List Column) (batches : List Batch) : List (List String) :=
  (if batches.isEmpty || headed then [] else [columns.map Column.name]) ++
    (batches.flatMap Batch.rowList).map (·.map shown)

theorem fileRows_cons (headed : Bool) (columns : List Column) (b : Batch) (bs : List Batch) :
    fileRows headed columns (b :: bs) =
      ((if headed then [] else [columns.map Column.name]) ++ b.rowList.map (·.map shown)) ++
        fileRows true columns bs := by
  simp [fileRows]

/-- An open sink for delimited text takes all batches of such a table. -/
theorem takes_writable {sink : FileSink} {w : Writer} (h : Writable columns batches)
    (hopen : sink.sink.closed = false) (hw : sink.sink.encoder = .delimited w)
    (hready : w.Ready columns.length) :
    ∃ last, sink.Takes batches last ∧ last.location = sink.location ∧
      last.sink.encoder.bytes =
        w.bytes ++ encodeRecords w.delimiter (fileRows w.headed columns batches) := by
  induction batches generalizing sink w with
  | nil =>
    have hclose : sink.close =
        (.ok (), { sink with sink := { sink.sink with closed := true } }) := by
      simp [close, EncodingSink.close, hopen, Encoder.finish, hw]
    refine ⟨_,.closes hclose,rfl,?_⟩
    simp [hw, FileEncoder.bytes, fileRows, encodeRecords]
  | cons b bs ih =>
    have hcolumns := h.layout_eq b List.mem_cons_self
    have hflat : ∀ c ∈ b.layout.columns, Delimited.isNested c.type = false := by
      intro c hc
      rcases h.types c (hcolumns ▸ hc) with ht | ht | ht <;> rw [ht] <;> rfl
    obtain ⟨w₁,hw₁,hextends,hheaded⟩ := Writer.write_ready hready (by rw [hcolumns]) hflat
      (by rw [hcolumns]; exact h.suits b List.mem_cons_self)
    have hwrite : sink.write b = (.ok (), { sink with sink := { sink.sink with
        encoder := .delimited w₁, rowsWritten := sink.sink.rowsWritten + b.rows } }) := by
      simp [write, EncodingSink.write, hopen, Encoder.write, hw, hw₁]
    obtain ⟨last,htakes,hlocation,hbytes⟩ := @ih { sink with sink := { sink.sink with
        encoder := .delimited w₁, rowsWritten := sink.sink.rowsWritten + b.rows } }
      w₁ h.tail hopen rfl hextends.ready
    refine ⟨last,.takes hwrite htakes,hlocation,?_⟩
    rw [hbytes, hextends.bytes_eq, hextends.delimiter_eq, hheaded, fileRows_cons, hcolumns,
      List.append_assoc, encodeRecords, encodeRecords, encodeRecords, ← List.flatMap_append]

theorem length_of_mem_fileRows (h : Writable columns batches) :
    ∀ row ∈ fileRows false columns batches, row.length = columns.length := by
  intro row hrow
  rcases List.mem_append.mp hrow with hrow | hrow
  · split at hrow
    · cases hrow
    · obtain rfl := List.mem_singleton.mp hrow
      exact List.length_map _
  · obtain ⟨cells,hcells,rfl⟩ := List.mem_map.mp hrow
    obtain ⟨b,hb,hcells⟩ := List.mem_flatMap.mp hcells
    rw [List.length_map, (h.suits b hb cells hcells).length_eq]

theorem not_mark_fileRows (h : Writable columns batches) :
    ∀ row ∈ (fileRows false columns batches).head?, ∀ text ∈ row.head?,
      text.toList.head? ≠ some '\uFEFF' := by
  intro row hrow text htext
  cases batches with
  | nil => cases hrow
  | cons b bs =>
    obtain rfl : columns.map Column.name = row := Option.some.inj hrow
    rw [List.head?_map] at htext
    obtain ⟨c,hc,rfl⟩ := Option.map_eq_some_iff.mp htext
    exact h.not_mark c hc

end FileSink

/-! ## Reading the file -/

namespace Delimited
variable {p : Path}

theorem forPath_default (p : Path) : ({} : Options).forPath p = { delimiter := p.delimiter? } := by
  rcases p.delimiter?_cases with h | h <;> simp [Options.forPath, h]

/-- Without other options, a file is read with the delimiter that its path implies. -/
theorem delimiterByte_default (p : Path) :
    ∃ d, Separates d ∧ (({} : Options).forPath p).delimiterByte = .ok d ∧
      UInt8.ofNat (p.delimiter?.getD Options.defaultDelimiter).toNat = d ∧
      (({} : Options).forPath p).validate = .ok () := by
  rw [forPath_default]
  rcases p.delimiter?_cases with h | h
  · exact ⟨44,⟨by decide,by decide,by decide⟩,by rw [h]; rfl,by rw [h]; rfl,by rw [h]; rfl⟩
  · exact ⟨9,⟨by decide,by decide,by decide⟩,by rw [h]; rfl,by rw [h]; rfl,by rw [h]; rfl⟩

theorem blankIsNull_default (p : Path) : BlankIsNull (({} : Options).forPath p) := by
  rw [forPath_default]
  exact ⟨rfl,rfl⟩

/-- Behind the names of the columns, which are taken off as a header, are the rows of the batches. -/
theorem begins_behindHeader {o : Options} {rs rest : List Reading} {columns : List Column}
    {batches : List Batch} {width : Nat} (hheader : o.hasHeader = true) (hend : AtEnd rest)
    (h : Begins width rest rs (FileSink.fileRows false columns batches)) :
    (∀ first ∈ rs.head?, first.item = .finished ∨
      ∃ record, first.item = .record record ∧ record.fields.length = width) ∧
    Begins width rest (Inference.behindHeader o rs)
      ((batches.flatMap Batch.rowList).map (·.map shown)) := by
  cases batches with
  | nil =>
    -- not even the names of the columns are in the file, so there is no header to take off
    cases h
    refine ⟨fun first hfirst => .inl (hend first hfirst),?_⟩
    have hplain : Inference.behindHeader o rs = rs := by
      cases rs with
      | nil => rfl
      | cons r rs =>
        have hr : r.item = .finished := hend r rfl
        simp [Inference.behindHeader, hr, Item.row?]
    rw [hplain]
    exact .done
  | cons b bs =>
    rw [FileSink.fileRows_cons] at h
    cases h with
    | @row r rs row rows hr hw hrest =>
      obtain ⟨record,hrecord,hnames⟩ := exists_record_of_row? hr
      have hbehind : Inference.behindHeader o (r :: rs) = rs := by
        simp [Inference.behindHeader, hheader, hrecord, Item.row?]
      refine ⟨fun first hfirst => ?_,?_⟩
      · obtain rfl := Option.some.inj hfirst
        exact .inr ⟨record,hrecord,by rw [hnames, hw]⟩
      · rw [hbehind]
        simpa [FileSink.fileRows] using hrest

/-- A source over a file of a plain table stands in front of the rows that were written. -/
theorem opens_written {t : FileTree} {d : UInt8} {s : Schema} {columns : List Column}
    {batches : List Batch} (h : FileSink.Plain columns batches)
    (hcolumns : s.toLayout.columns = columns) (hd : Separates d)
    (hdelimiter : (({} : Options).forPath p).delimiterByte = .ok d)
    (hvalid : (({} : Options).forPath p).validate = .ok ())
    (hentry : t.openEntry p =
      .ok (.file (encodeRecords d (FileSink.fileRows false columns batches)))) :
    ∃ source rs rest, DelimitedSource.ofPath t s (({} : Options).forPath p) p = .ok source ∧
      source.schema = s ∧ source.options = ({} : Options).forPath p ∧ source.records = some rs ∧
      AtEnd rest ∧ Begins s.width rest rs ((batches.flatMap Batch.rowList).map (·.map shown)) := by
  have hwidth : columns.length = s.width := by
    rw [← hcolumns, Schema.toLayout, List.length_map, Schema.width]
  have hheader : (({} : Options).forPath p).hasHeader = true := by rw [forPath_default]
  obtain ⟨rest,hend,hbegins⟩ := begins_readings hd (List.length_pos_iff.mpr h.columns_ne_nil)
    (FileSink.length_of_mem_fileRows h.writable) (FileSink.not_mark_fileRows h.writable)
  rw [hwidth] at hbegins
  obtain ⟨hfirst,hrows⟩ := begins_behindHeader hheader hend hbegins
  obtain ⟨source,hsource,hschema,hoptions,hrecords,_⟩ :=
    Inference.ofRecords_ok (o := ({} : Options).forPath p) hfirst
  have hopen : DelimitedSource.ofPath t s (({} : Options).forPath p) p = .ok source := by
    rw [DelimitedSource.ofPath, hentry]
    simp only [bind, Except.bind, Entry.chunks, DelimitedSource.ofInput, hvalid, hdelimiter]
    exact hsource
  exact ⟨source,_,rest,hopen,hschema,hoptions,hrecords,hend,hrows⟩

end Delimited

namespace FileSink
open Delimited (RowTyped shown)

variable {t after : FileTree} {e : Endpoint} {layout : Layout} {o : ParquetOptions}
variable {batches : List Batch} {s : Schema}

theorem ofEndpoint_csv (hcsv : e.resolve = .ok .csv) {d : UInt8}
    (hd : UInt8.ofNat (e.path.delimiter?.getD Options.defaultDelimiter).toNat = d) :
    ofEndpoint t e layout o = delimited t e.path d := by
  subst hd
  simp only [ofEndpoint, hcsv]

/-- A sink for delimited text that was created is open, has written nothing, and its file is where
its path leads to. -/
theorem delimited_eq_ok {sink : FileSink} {p : Path} {d : UInt8}
    (h : delimited t p d = (.ok sink, after)) :
    t.create p = .ok (sink.location, after) ∧ sink.sink.closed = false ∧
      sink.sink.encoder = .delimited { delimiter := d } := by
  unfold delimited create at h
  split at h
  · cases h
  · next location after hc =>
    cases h
    exact ⟨hc,rfl,rfl⟩

/-- A sink for delimited text that was created takes all batches of such a table, and leaves its rows
in the file that the path leads to. -/
theorem exists_written {sink : FileSink} {p : Path} {d : UInt8} {columns : List Column}
    (h : delimited t p d = (.ok sink, after)) (hbatches : Writable columns batches) :
    ∃ last, sink.Takes batches last ∧ (last.save after).openEntry p =
      .ok (.file (Delimited.encodeRecords d (fileRows false columns batches))) := by
  obtain ⟨hcreate,hopen,hencoder⟩ := delimited_eq_ok h
  obtain ⟨last,htakes,hlocation,hbytes⟩ :=
    takes_writable hbatches hopen hencoder ⟨rfl,rfl,by simp⟩
  have hentry := FileTree.openEntry_of_create hcreate last.sink.encoder.bytes
  have hnothing : ({ delimiter := d } : Delimited.Writer).bytes = [] := rfl
  rw [← hlocation] at hentry
  refine ⟨last,htakes,hentry.trans ?_⟩
  rw [hbytes, hnothing, List.nil_append]

theorem typed_of_plain (h : Plain s.toLayout.columns batches) {reading : Options}
    (hreading : Delimited.BlankIsNull reading) :
    List.Forall₂ (RowTyped reading s.fields)
      ((batches.flatMap Batch.rowList).map (·.map shown)) (batches.flatMap Batch.rowList) := by
  have htag : ∀ f ∈ s.fields, f.tag ≠ .timestamp := by
    intro f hf ht
    have htypes := h.types f.toColumn (List.mem_map_of_mem hf)
    simp [Schema.Field.toColumn, ht, Schema.Tag.columnType] at htypes
  rw [List.forall₂_map_left_iff, List.forall₂_same]
  intro row hrow
  obtain ⟨b,hb,hrow⟩ := List.mem_flatMap.mp hrow
  exact Delimited.rowTyped_shown hreading htag (h.suits b hb row hrow) (h.not_blank b hb row hrow)

/-- What a sink for delimited text writes, a source over its file reads back. The delimiter that the
sink is created with is the one that reading resolves for the same path. If the sink could be
created, it takes all batches of a plain table and closes, and the source that is opened on its file
with the schema of the table and default options yields the rows of these batches and then the end,
in batches of any size for which there can be room. Where there cannot, it yields none of them. -/
theorem reads_back_plain (hcsv : e.resolve = .ok .csv) :
    ∃ d, (({} : Options).forPath e.path).delimiterByte = .ok d ∧
      ofEndpoint t e layout o = delimited t e.path d ∧
      ∀ (sink : FileSink) (after : FileTree) (s : Schema) (batches : List Batch),
        ofEndpoint t e layout o = (.ok sink, after) → Plain s.toLayout.columns batches →
        ∃ last source, sink.Takes batches last ∧
          DelimitedSource.ofPath (last.save after) s (({} : Options).forPath e.path) e.path =
            .ok source ∧
          (∀ size, 1 ≤ size → size < 2 ^ 60 →
            ∃ read, (Source.delimited (source.withBatchSize size)).Yields read ∧
              read.flatMap Batch.rowList = batches.flatMap Batch.rowList ∧
              ∀ b ∈ read, b.layout = s.toLayout) ∧
          ∀ size, 2 ^ 60 ≤ size → (source.withBatchSize size).read.1 =
            .error (.source (.taskFailed "CSV" "capacity overflow")) := by
  obtain ⟨d,hd,hdelimiter,hchosen,hvalid⟩ := Delimited.delimiterByte_default e.path
  have hsame : ofEndpoint t e layout o = delimited t e.path d := ofEndpoint_csv hcsv hchosen
  refine ⟨d,hdelimiter,hsame,?_⟩
  intro sink after s batches hsink hplain
  rw [hsame] at hsink
  obtain ⟨last,htakes,hentry⟩ := exists_written hsink hplain.writable
  obtain ⟨source,rs,rest,hsource,hschema,hoptions,hrecords,hend,hbegins⟩ :=
    Delimited.opens_written hplain rfl hd hdelimiter hvalid hentry
  refine ⟨last,source,htakes,hsource,fun size hsize hroom => ?_,
    fun size hlarge => DelimitedSource.read_withBatchSize_of_le hlarge hrecords⟩
  have hfields : s.fields ≠ [] := by
    intro hnil
    exact hplain.columns_ne_nil (by rw [Schema.toLayout, hnil]; rfl)
  have htyped := typed_of_plain hplain (Delimited.blankIsNull_default e.path)
  rw [← hschema, ← hoptions] at htyped
  obtain ⟨read,hyields,hrows,_,hlayouts⟩ := DelimitedSource.yields_of_typed
    (d := source.withBatchSize size) hrecords
    (by rw [DelimitedSource.withBatchSize, hschema]; exact hbegins) hend
    (by rw [DelimitedSource.withBatchSize, hschema]; exact fun _ => hfields)
    (Nat.le_max_right size 1) (by rwa [DelimitedSource.withBatchSize, Nat.max_eq_left hsize]) htyped
  refine ⟨read,hyields,hrows,fun b hb => ?_⟩
  rw [hlayouts b hb, DelimitedSource.withBatchSize, hschema]

/-- A schema whose first name needs quotes. -/
def awkwardSchema : Schema :=
  { fields := [⟨"say \"a,b\"",.string,true⟩,⟨"n",.int64,true⟩,⟨"ok",.boolean,false⟩] }

/-- A table with a text of delimiters, quotes and line breaks between blanks. -/
def awkwardBatch : Batch where
  layout := awkwardSchema.toLayout
  rows := 2
  columns := [[.text " x,\n\"y\" ",.null],[.int (-42),.null],[.boolean true,.boolean false]]
  width_eq := rfl
  length_eq := by simp

def awkwardRest : Batch where
  layout := awkwardSchema.toLayout
  rows := 0
  columns := [[],[],[]]
  width_eq := rfl
  length_eq := by simp

theorem plain_awkward : Plain awkwardSchema.toLayout.columns [awkwardBatch,awkwardRest] := by
  have hrows : awkwardBatch.rowList = [[.text " x,\n\"y\" ",.int (-42),.boolean true],
      [.null,.null,.boolean false]] := rfl
  have hrest : awkwardRest.rowList = [] := rfl
  refine ⟨by decide,by decide,by decide,?_,?_,by decide⟩
  · simp only [List.mem_cons, List.not_mem_nil, or_false, forall_eq_or_imp, forall_eq, hrows, hrest,
      false_imp_iff, implies_true, and_true]
    exact ⟨.cons (.text rfl _) (.cons (.int rfl (by decide)) (.cons (.boolean rfl _) .nil)),
      .cons (.null rfl) (.cons (.null rfl) (.cons (.boolean rfl _) .nil))⟩
  · simp only [List.mem_cons, List.not_mem_nil, or_false, forall_eq_or_imp, forall_eq, hrows, hrest,
      false_imp_iff, implies_true, and_true]
    refine ⟨?_,by simp⟩
    intro text htext
    simp at htext
    subst htext
    decide

theorem reads_back_plain_awkward :
    let e : Endpoint := ⟨⟨"o"⟩,some .csv⟩
    e.resolve = .ok .csv ∧ ∃ sink after last source,
      ofEndpoint {} e awkwardSchema.toLayout {} = (.ok sink, after) ∧
      Plain awkwardSchema.toLayout.columns [awkwardBatch,awkwardRest] ∧
      sink.Takes [awkwardBatch,awkwardRest] last ∧
      DelimitedSource.ofPath (last.save after) awkwardSchema (({} : Options).forPath e.path)
        e.path = .ok source ∧
      ∃ read, (Source.delimited (source.withBatchSize 1)).Yields read ∧
        read.flatMap Batch.rowList = [[.text " x,\n\"y\" ",.int (-42),.boolean true],
          [.null,.null,.boolean false]] := by
  intro e
  have hcsv : e.resolve = .ok .csv := rfl
  have hcreate : ∃ l after, ({} : FileTree).create e.path = .ok (l, after) := ⟨_,_,by cbv⟩
  obtain ⟨l,after,hcreate⟩ := hcreate
  obtain ⟨d,_,hsame,hreads⟩ := @reads_back_plain {} e awkwardSchema.toLayout {} hcsv
  have hsink : ∃ sink, ofEndpoint {} e awkwardSchema.toLayout {} = (.ok sink, after) := by
    rw [hsame, delimited, create, hcreate]
    exact ⟨_,rfl⟩
  obtain ⟨sink,hsink⟩ := hsink
  obtain ⟨last,source,htakes,hsource,hyields,_⟩ := hreads sink after _ _ hsink plain_awkward
  obtain ⟨read,hread,hrows,_⟩ := hyields 1 (by decide) (by decide)
  exact ⟨hcsv,sink,after,last,source,hsink,plain_awkward,htakes,hsource,read,hread,hrows⟩

/-- In batches for which there cannot be room the table is not read back. -/
theorem awkward_unread_without_room :
    let e : Endpoint := ⟨⟨"o"⟩,some .csv⟩
    e.resolve = .ok .csv ∧ ∃ sink after last source,
      ofEndpoint {} e awkwardSchema.toLayout {} = (.ok sink, after) ∧
      Plain awkwardSchema.toLayout.columns [awkwardBatch,awkwardRest] ∧
      sink.Takes [awkwardBatch,awkwardRest] last ∧
      DelimitedSource.ofPath (last.save after) awkwardSchema (({} : Options).forPath e.path)
        e.path = .ok source ∧
      (source.withBatchSize (2 ^ 60)).read.1 =
        .error (.source (.taskFailed "CSV" "capacity overflow")) := by
  intro e
  have hcsv : e.resolve = .ok .csv := rfl
  have hcreate : ∃ l after, ({} : FileTree).create e.path = .ok (l, after) := ⟨_,_,by cbv⟩
  obtain ⟨l,after,hcreate⟩ := hcreate
  obtain ⟨d,hd,hdelimiter,hchosen,hvalid⟩ := Delimited.delimiterByte_default e.path
  have hsink : ∃ sink, delimited {} e.path d = (.ok sink, after) := by
    rw [delimited, create, hcreate]
    exact ⟨_,rfl⟩
  obtain ⟨sink,hsink⟩ := hsink
  obtain ⟨last,htakes,hentry⟩ := exists_written hsink plain_awkward.writable
  obtain ⟨source,rs,_,hsource,_,_,hrecords,_,_⟩ :=
    Delimited.opens_written plain_awkward rfl hd hdelimiter hvalid hentry
  exact ⟨hcsv,sink,after,last,source,(ofEndpoint_csv hcsv hchosen).trans hsink,plain_awkward,htakes,
    hsource,DelimitedSource.read_withBatchSize_of_le (Nat.le_refl _) hrecords⟩

end FileSink
end Tabular
