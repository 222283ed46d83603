import Tabular.Proofs.Inference.Reinference
import Tabular.Proofs.Pipeline.Refinement
import Tabular.Proofs.Pipeline.RoundTrip

/-! # Copies of delimited text keep their schema

A pipeline types the rows of a text and prints them again. Over a table of booleans, 64-bit integers
and texts that is a fixpoint of inference: what is found in the copy is what was found in the text.
Only a table without a row is lost, since the names of its columns are not written before its first
batch, and there is none.
-/
namespace Tabular
open Delimited (AtEnd Begins PlainTag RowTyped SameNulls recordCount shown)
open Inference (dataReadings)

theorem Options.forPath_eq (o : Options) (p : Path) :
    o.forPath p = { o with delimiter := o.delimiter.or p.delimiter? } := by
  unfold forPath
  cases o with
  | mk delimiter =>
    cases delimiter <;> cases p.delimiter? <;> rfl

namespace Inference
open Delimited (Chunk Reading readings)

variable {o : Options} {s : Surroundings} {out : Outcome} {rs : List Reading}

theorem findingsOf_atEnd (h : AtEnd rs) : findingsOf o rs = .ok ([], 0) := by
  cases rs with
  | nil => rfl
  | cons r rs =>
    have hr : r.item = .finished := h r rfl
    simp [findingsOf, hr]

/-- An inference that finds a column and sees all rows has found what one look at them finds. -/
theorem fields_of_begins {input : List Chunk} {width : Nat} {rest : List Reading} {rows : List Row}
    {delimiter : UInt8} (hd : o.delimiterByte = .ok delimiter) (hc : .cancel ∉ input)
    (h : infer o s false input = .ok out) (hne : out.schema.fields ≠ [])
    (hbegins : Begins width rest (dataReadings o input) rows) (hend : AtEnd rest)
    (hn : rows.length ≤ o.maxRows) :
    (∃ first, out.schema.fields = fieldsOf o (columnNames o first) rows) ∧
      out.rowsSampled = rows.length := by
  have hsampled : sampledRows o input = rows := take_rowsOf hbegins hn fun _ => hend
  have hsome : ¬ AtEnd (readings delimiter input) := by
    intro he
    obtain ⟨_,hcheck,h⟩ := bind_eq_ok_iff.mp h
    obtain rfl := Except.ok.inj (hd.symm.trans (check_ok hcheck).2)
    have hfindings := inferRecords_findings (o := o) (s := s)
      fun r (hr : r ∈ readings delimiter input) => Delimited.readings_quiet hc hr
    rw [h, findingsOf_atEnd he] at hfindings
    exact hne (congrArg Prod.fst (Except.ok.inj hfindings))
  obtain ⟨record,_,_,_,_,rfl⟩ := infer_of_not_atEnd hd hsome h
  rw [hsampled]
  exact ⟨⟨record.fields,rfl⟩,rfl⟩

end Inference

namespace Pipeline
open Transfer (Run)
open Transfer.Run (callerFired_iff result_of_callerFired)

variable {t tree : FileTree} {c : Config} {s : Surroundings} {k : Course} {m : Transfer.Metrics}

/-- A course that succeeds is one on which the caller never cancels, and both its ends opened. -/
theorem RunsTo.succeeds (h : RunsTo t c s k ⟨.ok m,tree⟩) :
    c.validate = .ok () ∧ k.Quiet ∧ ∃ source sink after,
      Source.ofEndpoint t c.source c.inference s.inference false = .ok source ∧
      FileSink.ofEndpoint t c.sink source.layout c.parquet = (.ok sink, after) := by
  generalize hout : (⟨.ok m,tree⟩ : Outcome) = out at h
  cases h with
  | refused | unopened | uncreated => cases hout
  | @transferred source sink after last result rest hv hs hsink ha hstart =>
    obtain ⟨rfl,_⟩ := Outcome.mk.inj hout
    obtain ⟨_,hresult⟩ := result_of_startAlong hv ha hstart
    have hquiet : k.Quiet := by
      have hcaller : last.run.callerFired = false := by
        cases hslot : last.run.errors.slot with
        | some stage => simp [Run.result, hslot, Except.map] at hresult
        | none =>
          by_contra hfired
          rw [result_of_callerFired hslot (by simpa using hfired)] at hresult
          cases hresult
      have hnot := mt (callerFired_iff ha.steps).mpr (by simp [hcaller])
      simpa [Transfer.CallerFiredIn, Course.Quiet] using hnot
    obtain ⟨hcancelled,hsampling⟩ := hquiet.opening
    have hsame := openAlong_eq hsampling hs
    rw [hcancelled] at hsame
    exact ⟨hv,hquiet,source,sink,after,hsame.symm,hsink⟩

/-- The rows of a text with the fields that inference has found in them, and batches of these rows
that can be written. -/
structure InferredTable (o : Options) (fs : List Schema.Field) (rows : List (List String))
    (batches : List Batch) : Prop where
  fields_eq : ∃ first, fs = Inference.fieldsOf o (Inference.columnNames o first) rows
  plain : ∀ f ∈ fs, PlainTag f.tag
  typed : List.Forall₂ (RowTyped o fs) rows (batches.flatMap Batch.rowList)
  empty_iff : batches = [] ↔ rows = []
  writable : FileSink.Writable (fs.map Schema.Field.toColumn) batches

variable {o again : Options} {n : Nat} {p : Path} {fs : List Schema.Field} {batches : List Batch}
variable {rows : List (List String)} {d : UInt8}

/-- The batches of the typed rows of plain columns can be written. -/
theorem writable_of_typed (hne : fs ≠ []) (hplain : ∀ f ∈ fs, PlainTag f.tag)
    (hmark : ∀ f ∈ fs.head?, f.name.toList.head? ≠ some '\uFEFF')
    (htyped : List.Forall₂ (RowTyped o fs) rows (batches.flatMap Batch.rowList))
    (hlayouts : ∀ b ∈ batches, b.layout.columns = fs.map Schema.Field.toColumn) :
    FileSink.Writable (fs.map Schema.Field.toColumn) batches := by
  refine ⟨by simpa using hne,?_,hlayouts,?_,?_⟩
  · intro column hcolumn
    obtain ⟨f,hf,rfl⟩ := List.mem_map.mp hcolumn
    rcases hplain f hf with ht | ht | ht <;>
      simp [Schema.Field.toColumn, ht, Schema.Tag.columnType]
  · intro b hb row hrow
    obtain ⟨j,hj,rfl⟩ := List.getElem_of_mem (List.mem_flatMap.mpr ⟨b,hb,hrow⟩)
    exact (htyped.get (htyped.length_eq ▸ hj) hj).suits hplain
  · intro column hcolumn
    rw [List.head?_map] at hcolumn
    obtain ⟨f,hf,rfl⟩ := Option.map_eq_some_iff.mp hcolumn
    exact hmark f hf

/-- In the file of such a table one look finds its fields again, if there is a row in it. -/
theorem InferredTable.findingsOf_file (h : InferredTable o fs rows batches)
    (hd : Delimited.Separates d) (hheader : again.hasHeader = true) (ho : SameNulls o again)
    (hn : rows.length ≤ again.maxRows) :
    Inference.findingsOf again (Delimited.readings d
        [.bytes (Delimited.encodeRecords d
          (FileSink.fileRows false (fs.map Schema.Field.toColumn) batches))]) =
      .ok (if rows.length = 0 then [] else fs, rows.length) := by
  obtain ⟨rest,hend,hbegins⟩ := Delimited.begins_readings hd
    (List.length_pos_iff.mpr h.writable.columns_ne_nil) (FileSink.length_of_mem_fileRows h.writable)
    (FileSink.not_mark_fileRows h.writable)
  rw [List.length_map] at hbegins
  cases batches with
  | nil =>
    obtain rfl := h.empty_iff.mp rfl
    cases hbegins
    exact Inference.findingsOf_atEnd hend
  | cons b bs =>
    have hrows : rows.length ≠ 0 := fun hz =>
      List.cons_ne_nil b bs (h.empty_iff.mpr (List.eq_nil_of_length_eq_zero hz))
    obtain ⟨first,hfs⟩ := h.fields_eq
    rw [if_neg hrows]
    refine Inference.findingsOf_written ho hheader hfs h.plain h.typed ?_ hend hn
    simpa [FileSink.fileRows, Function.comp_def, Schema.Field.toColumn] using hbegins

/-- Options with which a file at a path, of some rows at most, is read after other options have
applied to the text it was copied from. -/
structure Rereads (o : Options) (rows : Nat) (p : Path) (again : Options) : Prop where
  valid : again.validate = .ok ()
  hasHeader_eq : again.hasHeader = true
  nulls : SameNulls o again
  enough : rows ≤ again.maxRows
  /-- The delimiter is the one that the path implies. -/
  delimiter_eq : (again.forPath p).delimiterChar = p.delimiter?.getD Options.defaultDelimiter

theorem Rereads.forPath (h : Rereads o n p again) (q : Path) :
    (again.forPath p).hasHeader = true ∧ SameNulls (o.forPath q) (again.forPath p) ∧
      n ≤ (again.forPath p).maxRows := by
  obtain ⟨_,hheader,⟨hnull,hempty,htime⟩,hn,_⟩ := h
  rw [Options.forPath_eq, Options.forPath_eq]
  exact ⟨hheader,⟨hnull,hempty,htime⟩,hn⟩

theorem Rereads.delimiterByte_eq (h : Rereads o n p again) :
    (again.forPath p).delimiterByte = (({} : Options).forPath p).delimiterByte := by
  rw [Delimited.forPath_default, Options.delimiterByte, h.delimiter_eq]
  rfl

/-- Inference over the file of such a table finds its fields again, if there is a row in it. -/
theorem InferredTable.infer_file {q : Path} (h : InferredTable (o.forPath q) fs rows batches)
    (hagain : Rereads o rows.length p again) (hd : Delimited.Separates d)
    (hdelimiter : (({} : Options).forPath p).delimiterByte = .ok d)
    (hentry : tree.openEntry p = .ok (.file (Delimited.encodeRecords d
      (FileSink.fileRows false (fs.map Schema.Field.toColumn) batches))))
    (i : Inference.Surroundings) :
    ∃ found, Inference.inferPath tree (again.forPath p) i false p = .ok found ∧
      found.rowsSampled = rows.length ∧
      found.schema.fields = if rows.length = 0 then [] else fs := by
  obtain ⟨hheader,hnulls,henough⟩ := hagain.forPath q
  rw [← hagain.delimiterByte_eq] at hdelimiter
  have hinfer : ∀ bytes, tree.openEntry p = .ok (.file bytes) →
      (Inference.inferPath tree (again.forPath p) i false p).map Inference.Outcome.findings =
        Inference.findingsOf (again.forPath p) (Delimited.readings d [.bytes bytes]) := by
    intro bytes hbytes
    rw [← Inference.inferRecords_findings (s := i)
      fun r hr => Delimited.readings_quiet (by simp) hr]
    simp only [Inference.inferPath, hbytes, bind, Except.bind, Inference.infer,
      Inference.check_forPath hagain.valid hdelimiter, Entry.chunks]
  have hfindings := hinfer _ hentry
  rw [h.findingsOf_file hd hheader hnulls henough] at hfindings
  obtain ⟨found,hfound,hpair⟩ := map_eq_ok_iff.mp hfindings
  exact ⟨found,hfound,congrArg Prod.snd hpair,congrArg Prod.fst hpair⟩

/-- A copy of delimited text keeps its schema, unless it has no rows. Inference over the text has
seen all rows and found booleans, 64-bit integers and texts only, with no values null or timestamps
because options say so, and no name that looks like a byte order mark in front. Along every course
that copies it to another file, inference over the copy samples as many rows, and if there is one
it finds the same fields: their names, types and nullability, in order. Of a text without rows the
copy is empty, and its columns are not found again. All sizes are within the limits of the
machine. -/
theorem schema_fixpoint {x : Entry} {inferred : Inference.Outcome}
    (hcsv : c.source.resolve = .ok .csv) (hsink : c.sink.resolve = .ok .csv)
    (hapart : ¬ Overlap t c) (hx : t.openEntry c.source.path = .ok x)
    (hi : Inference.inferPath t (c.inference.forPath c.source.path) s.inference false
      c.source.path = .ok inferred)
    (hn : recordCount (dataReadings (c.inference.forPath c.source.path) x.chunks) ≤
      c.inference.maxRows)
    (hplain : ∀ f ∈ inferred.schema.fields, PlainTag f.tag) (hne : inferred.schema.fields ≠ [])
    (hmark : ∀ f ∈ inferred.schema.fields.head?, f.name.toList.head? ≠ some '\uFEFF')
    (hruns : RunsTo t c s k ⟨.ok m,tree⟩)
    (hagain : Rereads c.inference inferred.rowsSampled c.sink.path again)
    (i : Inference.Surroundings) :
    ∃ found, Inference.inferPath tree (again.forPath c.sink.path) i false c.sink.path =
        .ok found ∧ found.rowsSampled = inferred.rowsSampled ∧
      found.schema.fields = if inferred.rowsSampled = 0 then [] else inferred.schema.fields := by
  obtain ⟨hv,hquiet,source,sink,after,hs,hk⟩ := hruns.succeeds
  have hmax : (c.inference.forPath c.source.path).maxRows = c.inference.maxRows := by
    rw [Options.forPath_eq]
  rw [← hmax] at hn
  have hinfer : Inference.infer (c.inference.forPath c.source.path) s.inference false x.chunks =
      .ok inferred := by
    simpa only [Inference.inferPath, hx, bind, Except.bind] using hi
  obtain ⟨rest,rows,_,source',batches,hbegins,hend,hlen,htyped,_,hs',_,hyields,rfl,hbatches,
    hlayouts⟩ := exists_yields_row_by_row hv hcsv hx hinfer hn
  obtain rfl : source = source' := Except.ok.inj (hs.symm.trans hs')
  have hvalid := Options.validate_forPath (Config.validate_eq_ok_iff.mp hv).inference c.source.path
  obtain ⟨_,hread⟩ := Options.delimiterByte_of_validate hvalid
  obtain ⟨hfields,hcount⟩ := Inference.fields_of_begins hread (Source.not_mem_chunks x)
    hinfer hne hbegins hend (hlen ▸ hn)
  have htable : InferredTable (c.inference.forPath c.source.path) inferred.schema.fields rows
      batches := by
    refine ⟨hfields,hplain,htyped,?_,writable_of_typed hne hplain hmark htyped fun b hb =>
      congrArg Layout.columns (hlayouts b hb)⟩
    rw [← List.length_eq_zero_iff, ← List.length_eq_zero_iff, hbatches]
    omega
  -- the sink takes what the source yields, so it is the file of these batches that the run leaves
  obtain ⟨d,hd,hdelimiter,hchosen,_⟩ := Delimited.delimiterByte_default c.sink.path
  obtain ⟨last,htakes,hentry⟩ :=
    FileSink.exists_written (FileSink.ofEndpoint_csv hsink hchosen ▸ hk) htable.writable
  have hsettled : settled t c.source.path sink.location source = source :=
    settled_eq (fun hlocate => hapart ((created_on_source_iff hs hk).1.mp hlocate)) source
  have hrowsOf : Transfer.rowsOf batches = rows.length := by
    rw [Transfer.rowsOf_eq_length, htyped.length_eq]
  obtain ⟨⟨_,hout,_⟩,_⟩ := copied_of_runsTo hv hquiet hs hsettled hk hyields htakes
    (hrowsOf ▸ hbatches) hruns
  obtain rfl : tree = last.save after := (Outcome.mk.inj hout).2
  rw [hcount] at hagain ⊢
  exact htable.infer_file hagain hd hdelimiter hentry i

/-- A file of two columns; behind their names it has some more bytes. -/
def twoColumns (more : List UInt8) : FileTree :=
  { entries := [(["in.csv"],.file ([97, 44, 98, 10] ++ more))] }

def toCopy : Config where
  source := ⟨⟨"in.csv"⟩,some .csv⟩
  sink := ⟨⟨"out.csv"⟩,some .csv⟩

/-- The rows `+05, TRUE` and `,`, which are printed in another way. -/
def oddRows : List UInt8 := [43, 48, 53, 44, 32, 84, 82, 85, 69, 10, 44, 10]

theorem schema_fixpoint_oddRows :
    let t := twoColumns oddRows
    let s : Surroundings := ⟨⟨2,"now"⟩,⟨0,0⟩,⟨1,0⟩⟩
    ∃ m tree found, run t toCopy s false = ⟨.ok m,tree⟩ ∧
      tree.openEntry toCopy.sink.path =
        .ok (.file [97, 44, 98, 10, 53, 44, 116, 114, 117, 101, 10, 44, 10]) ∧
      Inference.inferPath tree (({} : Options).forPath toCopy.sink.path) ⟨1,"later"⟩ false
        toCopy.sink.path = .ok found ∧
      found.rowsSampled = 2 ∧ found.schema.fields = [⟨"a",.int64,true⟩,⟨"b",.boolean,true⟩] := by
  intro t s
  have hv : toCopy.validate = .ok () := rfl
  have hapart : ¬ Overlap t toCopy := not_overlap_of_validate (by decide) (by decide) rfl hv
  have hx : t.openEntry toCopy.source.path = .ok (.file ([97, 44, 98, 10] ++ oddRows)) := rfl
  have ho : toCopy.inference.forPath toCopy.source.path = {} := by cbv
  have hinfer : (Inference.inferPath t {} s.inference false toCopy.source.path).map
      Inference.Outcome.findings = .ok ([⟨"a",.int64,true⟩,⟨"b",.boolean,true⟩], 2) := by
    decide +kernel
  have hn : recordCount (dataReadings {} (Entry.file ([97, 44, 98, 10] ++ oddRows)).chunks) = 2 :=
    rfl
  obtain ⟨inferred,hi,hfindings⟩ := map_eq_ok_iff.mp hinfer
  obtain ⟨hfields,hcount⟩ := Prod.mk.inj hfindings
  rw [← ho] at hi hn
  have hok : (run t toCopy s false).result.isOk = true := by decide +kernel
  have hfile : (run t toCopy s false).tree.openEntry toCopy.sink.path =
      .ok (.file [97, 44, 98, 10, 53, 44, 116, 114, 117, 101, 10, 44, 10]) := by decide +kernel
  obtain ⟨k,_,_,hruns⟩ := exists_course_run t toCopy s false
  obtain ⟨m,tree,hrun⟩ : ∃ m tree, run t toCopy s false = ⟨.ok m,tree⟩ := by
    cases hresult : (run t toCopy s false).result with
    | error e => simp [hresult, Except.isOk, Except.toBool] at hok
    | ok m => exact ⟨m,_,congrArg (Outcome.mk · _) hresult⟩
  rw [hrun] at hruns hfile
  have hagain : Rereads toCopy.inference inferred.rowsSampled toCopy.sink.path {} :=
    ⟨rfl,rfl,⟨⟨rfl,rfl⟩,rfl,⟨rfl,rfl⟩⟩,hcount ▸ by decide,by cbv⟩
  obtain ⟨found,hfound,hsampled,hsame⟩ := schema_fixpoint rfl rfl hapart hx hi
    (hn ▸ by decide) (by simp [hfields, PlainTag]) (by simp [hfields])
    (by simp [hfields]) hruns hagain ⟨1,"later"⟩
  rw [hcount] at hsampled hsame
  exact ⟨m,tree,found,hrun,hfile,hfound,hsampled,hsame.trans hfields⟩

/-- Of a text that has names of columns and no rows, the copy is empty and shows no columns. -/
theorem copy_without_rows_loses_columns :
    let t := twoColumns []
    let s : Surroundings := ⟨⟨2,"now"⟩,⟨0,0⟩,⟨1,0⟩⟩
    let copied := run t toCopy s false
    toCopy.validate = .ok () ∧ ¬ Overlap t toCopy ∧
    (Inference.inferPath t (toCopy.inference.forPath toCopy.source.path) s.inference false
      toCopy.source.path).map Inference.Outcome.findings =
        .ok ([⟨"a",.string,true⟩,⟨"b",.string,true⟩], 0) ∧
    copied.result.isOk = true ∧ copied.tree.openEntry toCopy.sink.path = .ok (.file []) ∧
    (Inference.inferPath copied.tree (toCopy.inference.forPath toCopy.sink.path) s.inference false
      toCopy.sink.path).map Inference.Outcome.findings = .ok ([], 0) := by
  refine ⟨rfl,not_overlap_of_validate (by decide) (by decide) rfl rfl,?_,?_,?_,?_⟩
  all_goals decide +kernel

end Pipeline
end Tabular
