import Tabular.Machine.Pipeline
import Tabular.Proofs.Delimited.RowByRow
import Tabular.Proofs.Pipeline.Delivery
import Tabular.Proofs.Pipeline.Input

/-! # A pipeline refines reading row by row

A pipeline over delimited text goes through its file twice, with a pool of workers the first time
and with two workers and a queue between them the second time. Whatever they do, the sink is given
what the plain way of reading finds: the rows of the file in order, typed one by one. Settings may
ask for a longer queue than the machine has; then there is a panic instead, and nothing is copied.
-/
namespace Tabular
open Transfer
open Delimited (AtEnd Begins RowTyped readRowByRow recordCount)
open Inference (dataReadings)

theorem Transfer.rowsOf_eq_length (bs : List Batch) :
    Transfer.rowsOf bs = (bs.flatMap Batch.rowList).length := by
  simp [Transfer.rowsOf, List.length_flatMap, Batch.rowList, length_rowsOf]

namespace Machine
variable {t after : FileTree} {c : Config} {s : Pipeline.Surroundings} {cancelled : Bool}

/-- An inference that does not panic leads to the source that it leads to without limits. -/
theorem openSource_eq {e : Endpoint} {o : Options} {s : Inference.Surroundings} {x : Entry}
    {result : Except Error Inference.Outcome} (hx : t.openEntry e.path = .ok x)
    (hi : infer (o.forPath e.path) s cancelled x.chunks = .ok result) :
    openSource t e o s cancelled = Source.ofEndpoint t e o s cancelled := by
  unfold openSource
  split
  · next hcsv =>
    simp only [hx, hi, Source.ofEndpoint, hcsv, Inference.inferPath, bind, Except.bind]
    rw [infer_eq_ok hi]
  · rfl

variable (hs : openSource t c.source c.inference s.inference cancelled =
  Source.ofEndpoint t c.source c.inference s.inference cancelled)
include hs

/-- So it leads to the run that there is without limits, if the queue is within its own. -/
theorem runPipeline_eq (hq : c.transfer.queueCapacity < 2 ^ 61) :
    runPipeline t c s cancelled = .ok (Pipeline.run t c s cancelled) := by
  unfold runPipeline Pipeline.run
  rw [hs, within_of_le (le_placesMax.mpr hq)]
  cases c.validate with
  | error e => rfl
  | ok _ =>
    cases Source.ofEndpoint t c.source c.inference s.inference cancelled with
    | error e => rfl
    | ok source =>
      dsimp only
      generalize FileSink.ofEndpoint t c.sink source.layout c.parquet = made
      obtain ⟨created,after⟩ := made
      cases created <;> rfl

theorem runPipeline_eq_error {source : Source} {sink : FileSink} (hv : c.validate = .ok ())
    (hsource : Source.ofEndpoint t c.source c.inference s.inference cancelled = .ok source)
    (hsink : FileSink.ofEndpoint t c.sink source.layout c.parquet = (.ok sink, after))
    (hq : 2 ^ 61 ≤ c.transfer.queueCapacity) :
    runPipeline t c s cancelled = .error .places := by
  simp only [runPipeline, hv, hs, hsource, hsink, within_of_lt (placesMax_lt.mpr hq)]
  rfl

end Machine

namespace Pipeline
variable {t after : FileTree} {c : Config} {s : Surroundings} {x : Entry} {sink : FileSink}
variable {inferred : Inference.Outcome}

/-- A transfer that has copied some rows, and the file tree with them. -/
def Copied (n : Nat) (tree : FileTree) (out : Outcome) : Prop :=
  ∃ m, out = ⟨.ok m,tree⟩ ∧ m.rowsRead = n ∧ m.rowsWritten = n ∧
    m.batchesRead = (n + 8191) / 8192 ∧ m.batchesWritten = (n + 8191) / 8192

/-- However far a course has come, it goes on to an outcome, and it does not go on for ever. -/
structure Proceeds (t : FileTree) (c : Config) (s : Surroundings) (source : Source)
    (sink : FileSink) (k : Course) : Prop where
  /-- The inference comes to one source only. -/
  opens : ∀ r, openAlong t c.source c.inference s.inference k = some r → r = .ok source
  /-- Its workers can always go on until it has come to that. -/
  infers : (∀ x delimiter, t.openEntry c.source.path = .ok x →
      (c.inference.forPath c.source.path).delimiterByte = .ok delimiter →
      Inference.CanMove (c.inference.forPath c.source.path) s.inference
        (Delimited.readings delimiter x.chunks) k.moves) →
    ∃ more, openAlong t c.source c.inference s.inference { k with moves := k.moves ++ more } =
      some (.ok source)
  bounded : ∀ now, (opening c k source sink).Along k.events now →
    k.events.length ≤ 6 * Pullable.size source + 6
  /-- The workers of the transfer can always go on until it has come to an outcome. -/
  transfers : ∀ now, openAlong t c.source c.inference s.inference k = some (.ok source) →
    (opening c k source sink).Along k.events now →
    ∃ more out, .callerCancels ∉ more ∧ RunsTo t c s { k with events := k.events ++ more } out

theorem Course.Quiet.opening {k : Course} (h : k.Quiet) :
    k.cancelled = false ∧ k.whileSampling = none := by
  have hfired := h.1
  simp only [Course.fired, Bool.or_eq_false_iff, Option.isSome_eq_false_iff,
    Option.isNone_iff_eq_none] at hfired
  exact hfired.1

theorem settled_eq {p : Path} {l : Location} (h : t.locate p ≠ .ok l) (source : Source) :
    settled t p l source = source := by
  unfold settled
  split
  · next l' hl =>
    split
    · split
      · next he => exact absurd (he ▸ hl) h
      · rfl
    · rfl
  · rfl

/-- Left alone, a course whose source opens proceeds. -/
theorem proceeds {source : Source} {k : Course} (hv : c.validate = .ok ()) (hk : k.Quiet)
    (hs : Source.ofEndpoint t c.source c.inference s.inference false = .ok source)
    (hsettled : settled t c.source.path sink.location source = source)
    (hsink : FileSink.ofEndpoint t c.sink source.layout c.parquet = (.ok sink, after)) :
    Proceeds t c s source sink k := by
  obtain ⟨hcancelled,hsampling⟩ := hk.opening
  have hcapacity := Engine.capacity_pos_of_check (check_engine hv source sink)
  have hopens : ∀ moves r, openAlong t c.source c.inference s.inference { k with moves } = some r →
      r = .ok source := by
    intro moves r hr
    have hsame := openAlong_eq (k := { k with moves }) hsampling hr
    rw [hcancelled, hs] at hsame
    exact hsame
  refine ⟨hopens k.moves,fun hmoves => ?_,fun now ha => ?_,fun now ho ha => ?_⟩
  · obtain ⟨more,r,hr⟩ := exists_openAlong (k := k) fun x delimiter hx hd => by
      rw [hsampling]
      exact hmoves x delimiter hx hd
    exact ⟨more,hopens _ r hr ▸ hr⟩
  · have hle := ha.length_le hk.2
    rw [toDo_opening] at hle
    omega
  · -- there is room in the queue, so a transfer that is not at its end has a move to make
    have hroom : 0 < now.run.capacity := by
      rw [Run.capacity_of_steps ha.steps]
      exact hcapacity
    obtain ⟨more,last,ha',hnot,hclosed⟩ := Scene.exists_closed hroom
    have hall := ha.trans ha'
    obtain ⟨result,rest,hstart⟩ : ∃ result rest, (engine c source sink).startAlong k.fired
        (k.events ++ more) s.startedAt s.finishedAt = some (result, rest) :=
      ⟨_,_,startAlong_of_closed hv hall hclosed _ _⟩
    rw [← hsettled] at hall hstart
    let k' : Course := { k with events := k.events ++ more }
    exact ⟨more,_,hnot,RunsTo.transferred (k := k') hv ho hsink hall hstart⟩

/-- A pipeline over a text whose inference has seen all rows opens a source that yields what reading
the text row by row finds. -/
theorem exists_yields_row_by_row (hv : c.validate = .ok ()) (hcsv : c.source.resolve = .ok .csv)
    (hx : t.openEntry c.source.path = .ok x)
    (hi : Inference.infer (c.inference.forPath c.source.path) s.inference false x.chunks =
      .ok inferred)
    (hn : recordCount (dataReadings (c.inference.forPath c.source.path) x.chunks) ≤
      (c.inference.forPath c.source.path).maxRows) :
    let o := c.inference.forPath c.source.path
    ∃ rest rows typed source batches,
      Begins inferred.schema.width rest (dataReadings o x.chunks) rows ∧ AtEnd rest ∧
      rows.length = recordCount (dataReadings o x.chunks) ∧
      List.Forall₂ (RowTyped o inferred.schema.fields) rows typed ∧
      readRowByRow o x.chunks = .ok (inferred.schema.fields, typed) ∧
      Source.ofEndpoint t c.source c.inference s.inference false = .ok source ∧
      source.layout = inferred.schema.toLayout ∧ source.Yields batches ∧
      batches.flatMap Batch.rowList = typed ∧ batches.length = (rows.length + 8191) / 8192 ∧
      ∀ b ∈ batches, b.layout = inferred.schema.toLayout := by
  intro o
  have hsound := (Config.validate_eq_ok_iff.mp hv).inference
  have hvalid : o.validate = .ok () := Options.validate_forPath hsound c.source.path
  obtain ⟨delimiter,hd⟩ := Options.delimiterByte_of_validate hvalid
  have hcheck : Inference.check o false = .ok delimiter := Inference.check_forPath hsound hd
  have hrecords : Inference.inferRecords o s.inference (Delimited.readings delimiter x.chunks) =
      .ok inferred := by
    simpa only [Inference.infer, o, hcheck, bind, Except.bind] using hi
  obtain ⟨rest,rows,typed,hbegins,hend,hlen,htyped,hplain⟩ :=
    Delimited.readRowByRow_of_inferRecords (Source.not_mem_chunks x) hd hrecords hn
  -- the source opens the file anew, and comes to stand behind the same header
  obtain ⟨d,hpath,hschema,hoptions,hsize,hrest⟩ :=
    exists_ofPath (n := none) hvalid hd hx hrecords
  have hs : Source.ofEndpoint t c.source c.inference s.inference false = .ok (.delimited d) := by
    simp only [Source.ofEndpoint, hcsv, Inference.inferPath, hx, bind, Except.bind]
    rw [hi]
    dsimp only
    rw [hpath]
    rfl
  have hdata : dataReadings o x.chunks =
      Inference.behindHeader o (Delimited.readings delimiter x.chunks) :=
    Inference.dataReadings_eq hd
  rw [← hdata] at hrest
  obtain ⟨batches,hyields,hflat,hbatches,hlayouts⟩ := DelimitedSource.yields_of_typed hrest
    (hschema ▸ hbegins) hend
    (fun hne => by
      rw [hdata] at hbegins
      rw [hschema]
      exact List.length_pos_iff.mp (Inference.width_pos_of_begins hbegins hne))
    (by rw [hsize]; decide) (by rw [hsize]; decide) (hoptions ▸ hschema ▸ htyped)
  refine ⟨rest,rows,typed,.delimited d,batches,hbegins,hend,hlen,htyped,hplain,hs,?_,hyields,hflat,
    ?_,hschema ▸ hlayouts⟩
  · rw [← hschema]
    rfl
  · rw [hbatches, hsize, Nat.add_sub_assoc (by decide)]

/-- Left alone, a course whose source yields what its sink takes copies it. -/
theorem copied_of_runsTo {source : Source} {k : Course} {out : Outcome} {batches : List Batch}
    {last : FileSink} (hv : c.validate = .ok ()) (hquiet : k.Quiet)
    (hs : Source.ofEndpoint t c.source c.inference s.inference false = .ok source)
    (hsettled : settled t c.source.path sink.location source = source)
    (hk : FileSink.ofEndpoint t c.sink source.layout c.parquet = (.ok sink, after))
    (hyields : source.Yields batches) (htakes : sink.Takes batches last)
    (hcount : batches.length = (Transfer.rowsOf batches + 8191) / 8192)
    (h : RunsTo t c s k out) :
    Copied (Transfer.rowsOf batches) (last.save after) out ∧
    (Run.start c.transfer.queueCapacity false).batchesWrittenIn k.events = batches := by
  have hopens := (proceeds hv hquiet hs hsettled hk).opens
  cases h with
  | refused h =>
    rw [hv] at h
    cases h
  | unopened _ h => cases hopens _ h
  | uncreated _ h hfails =>
    cases hopens _ h
    rw [hk] at hfails
    cases hfails
  | transferred _ h hsink ha hstart =>
    cases hopens _ h
    rw [hk] at hsink
    cases hsink
    rw [hsettled] at ha hstart
    obtain ⟨⟨m,rfl,hread,hrowsRead,hwritten,hrowsWritten⟩,rfl,hgiven⟩ :=
      outcome_of_delivery hv hquiet hyields htakes ha hstart
    exact ⟨⟨m,rfl,hrowsRead,hrowsWritten,hread.trans hcount,hwritten.trans hcount⟩,hgiven⟩

/-- Where the inference succeeds and sees all rows, a pipeline over delimited text gives its sink,
which is on another file and fails at nothing, what reading the text row by row finds: all rows of
the file in order, and a cell of them is null just where its text stands for null. So it is along
every course on which the caller does not cancel, and such a course goes on until it has come to
this. The queue is one that the machine has. -/
theorem refines_row_by_row (hv : c.validate = .ok ()) (hcsv : c.source.resolve = .ok .csv)
    (hapart : ¬ Overlap t c) (hx : t.openEntry c.source.path = .ok x)
    (hi : Machine.infer (c.inference.forPath c.source.path) s.inference false x.chunks =
      .ok (.ok inferred))
    (hn : recordCount (dataReadings (c.inference.forPath c.source.path) x.chunks) ≤
      (c.inference.forPath c.source.path).maxRows)
    (hk : FileSink.ofEndpoint t c.sink inferred.schema.toLayout c.parquet = (.ok sink, after))
    (hq : c.transfer.queueCapacity < 2 ^ 61) :
    let o := c.inference.forPath c.source.path
    let n := recordCount (dataReadings o x.chunks)
    ∃ rest rows typed batches source,
      Begins inferred.schema.width rest (dataReadings o x.chunks) rows ∧ AtEnd rest ∧
      rows.length = n ∧
      List.Forall₂ (List.Forall₂ fun raw cell => cell.isNull = true ↔ o.isNull raw = true)
        rows typed ∧
      readRowByRow o x.chunks = .ok (inferred.schema.fields, typed) ∧
      batches.flatMap Batch.rowList = typed ∧ batches.length = (n + 8191) / 8192 ∧
      (∀ b ∈ batches, b.layout = inferred.schema.toLayout) ∧
      (∀ k, k.Quiet → Proceeds t c s source sink k) ∧
      ∀ last, sink.Takes batches last →
        (∀ k out, k.Quiet → RunsTo t c s k out → Copied n (last.save after) out ∧
          (Run.start c.transfer.queueCapacity false).batchesWrittenIn k.events = batches) ∧
        ∃ out, Machine.runPipeline t c s false = .ok out ∧ Copied n (last.save after) out := by
  intro o n
  obtain ⟨rest,rows,typed,source,batches,hbegins,hend,hlen,htyped,hplain,hs,hlayout,hyields,hflat,
    hbatches,hlayouts⟩ :=
      exists_yields_row_by_row hv hcsv hx (Machine.infer_eq_ok hi).symm hn
  have hrowsOf : Transfer.rowsOf batches = n := by
    rw [Transfer.rowsOf_eq_length, hflat, ← htyped.length_eq, hlen]
  rw [← hlayout] at hk
  have hsettled : settled t c.source.path sink.location source = source :=
    settled_eq (fun hlocate => hapart ((created_on_source_iff hs hk).1.mp hlocate)) source
  refine ⟨rest,rows,typed,batches,source,hbegins,hend,hlen,htyped.imp fun _ _ h => h.nulls,hplain,
    hflat,hbatches.trans (by rw [hlen]),hlayouts,fun k hquiet => proceeds hv hquiet hs hsettled hk,
    fun last htakes => ?_⟩
  have hcourse : ∀ k out, k.Quiet → RunsTo t c s k out → Copied n (last.save after) out ∧
      (Run.start c.transfer.queueCapacity false).batchesWrittenIn k.events = batches := by
    intro k out hquiet hruns
    rw [← hrowsOf]
    exact copied_of_runsTo hv hquiet hs hsettled hk hyields htakes
      (by rw [hrowsOf, hbatches, hlen]) hruns
  obtain ⟨k,hfired,hnot,hruns⟩ := exists_course_run t c s false
  exact ⟨hcourse,_,Machine.runPipeline_eq (Machine.openSource_eq hx hi) hq,
    (hcourse k _ ⟨hfired,hnot⟩ hruns).1⟩

/-- A sink for lines takes whatever it is given. -/
theorem exists_takes_lines {sink : FileSink} {w : Ndjson.Writer} (hopen : sink.sink.closed = false)
    (hw : sink.sink.encoder = .lines w) (batches : List Batch) :
    ∃ last, sink.Takes batches last := by
  induction batches generalizing sink w with
  | nil =>
    have hclose : sink.close =
        (.ok (), { sink with sink := { sink.sink with closed := true } }) := by
      simp [FileSink.close, EncodingSink.close, hopen, Encoder.finish, hw]
    exact ⟨_,.closes hclose⟩
  | cons b bs ih =>
    have hwrite : sink.write b = (.ok (), { sink with sink := { sink.sink with
        encoder := .lines (w.write b), rowsWritten := sink.sink.rowsWritten + b.rows } }) := by
      simp [FileSink.write, EncodingSink.write, hopen, Encoder.write, hw]
    obtain ⟨last,htakes⟩ := @ih { sink with sink := { sink.sink with
        encoder := .lines (w.write b), rowsWritten := sink.sink.rowsWritten + b.rows } }
      (w.write b) hopen rfl
    exact ⟨last,.takes hwrite htakes⟩

/-- A text of two rows, with a gap in the first one. -/
def twoRows : List UInt8 := [110, 44, 115, 10, 49, 44, 10, 50, 44, 120, 10]

def twoRowsFile : FileTree :=
  { entries := [(["in.csv"],.file twoRows)] }

/-- Settings that turn the text into lines. -/
def toLines : Config where
  source := ⟨⟨"in.csv"⟩,some .csv⟩
  sink := ⟨⟨"out.json"⟩,some .ndjson⟩

theorem refines_row_by_row_twoRows :
    let s : Surroundings := ⟨⟨2,"now"⟩,⟨0,0⟩,⟨1,0⟩⟩
    toLines.validate = .ok () ∧ ¬ Overlap twoRowsFile toLines ∧
    ∃ batches tree, batches.flatMap Batch.rowList = [[.int 1,.null],[.int 2,.text "x"]] ∧
      (∀ k out, k.Quiet → RunsTo twoRowsFile toLines s k out → Copied 2 tree out ∧
        (Run.start toLines.transfer.queueCapacity false).batchesWrittenIn k.events = batches) ∧
      ∃ out, Machine.runPipeline twoRowsFile toLines s false = .ok out ∧ Copied 2 tree out := by
  intro s
  have hv : toLines.validate = .ok () := rfl
  have ho : toLines.inference.forPath toLines.source.path = {} := by cbv
  have hapart : ¬ Overlap twoRowsFile toLines :=
    not_overlap_of_validate (by decide) (by decide) rfl hv
  have hx : ∃ x, twoRowsFile.openEntry toLines.source.path = .ok x ∧
      x.chunks = [.bytes twoRows] := ⟨_,rfl,rfl⟩
  have hi : ∃ inferred, Machine.infer {} s.inference false [.bytes twoRows] =
      .ok (.ok inferred) := ⟨_,rfl⟩
  have hn : recordCount (dataReadings {} [.bytes twoRows]) = 2 := rfl
  have hplain : (readRowByRow {} [.bytes twoRows]).map Prod.snd =
      .ok [[.int 1,.null],[.int 2,.text "x"]] := by cbv
  obtain ⟨x,hx,hchunks⟩ := hx
  obtain ⟨inferred,hi⟩ := hi
  rw [← hchunks] at hi hn hplain
  have hk : ∃ sink after, FileSink.ofEndpoint twoRowsFile toLines.sink inferred.schema.toLayout
      toLines.parquet = (.ok sink, after) ∧ sink.sink.closed = false ∧
      sink.sink.encoder = .lines {} := ⟨_,_,rfl,rfl,rfl⟩
  obtain ⟨sink,after,hk,hopen,hlines⟩ := hk
  obtain ⟨_,_,typed,batches,_,_,_,_,_,hread,hrows,_,_,_,hcopies⟩ := refines_row_by_row
    (s := s) hv rfl hapart hx (by rw [ho]; exact hi) (by rw [ho, hn]; decide) hk (by decide)
  obtain ⟨last,htakes⟩ := exists_takes_lines hopen hlines batches
  have hcopied := hcopies last htakes
  rw [ho] at hread hcopied
  rw [hn] at hcopied
  rw [hread] at hplain
  exact ⟨hv,hapart,batches,last.save after,hrows.trans (Except.ok.inj hplain),hcopied⟩

/-- The same settings with a queue that is too long for the machine. -/
def throughLongQueue : Config := { toLines with transfer := { queueCapacity := 2 ^ 61 } }

/-- These settings pass too, and then there is no result. -/
theorem two_rows_beyond_queue :
    let o := throughLongQueue.inference.forPath throughLongQueue.source.path
    let s : Surroundings := ⟨⟨2,"now"⟩,⟨0,0⟩,⟨1,0⟩⟩
    throughLongQueue.validate = .ok () ∧ ¬ Overlap twoRowsFile throughLongQueue ∧
      (∃ inferred, Machine.infer o s.inference false [.bytes twoRows] = .ok (.ok inferred)) ∧
      recordCount (dataReadings o [.bytes twoRows]) ≤ o.maxRows ∧
      Machine.runPipeline twoRowsFile throughLongQueue s false = .error .places := by
  intro o s
  have hplaces : throughLongQueue.transfer.validate = .ok () := by
    simp [Settings.validate, throughLongQueue]
  have hv : throughLongQueue.validate = .ok () :=
    Config.validate_eq_ok_iff.mpr ⟨⟨_,rfl⟩,⟨_,rfl⟩,by decide,rfl,hplaces,by decide⟩
  have ho : o = {} := by
    simp only [o, throughLongQueue]
    cbv
  have hapart : ¬ Overlap twoRowsFile throughLongQueue := by
    refine not_overlap_of_validate ?_ ?_ ?_ hv <;> simp only [throughLongQueue] <;> decide
  have hx : ∃ x, twoRowsFile.openEntry throughLongQueue.source.path = .ok x ∧
      x.chunks = [.bytes twoRows] := ⟨_,rfl,rfl⟩
  have hi : ∃ inferred, Machine.infer o s.inference false [.bytes twoRows] =
      .ok (.ok inferred) := by
    rw [ho]
    exact ⟨_,rfl⟩
  have hn : recordCount (dataReadings o [.bytes twoRows]) ≤ o.maxRows := by
    rw [ho]
    decide
  refine ⟨hv,hapart,hi,hn,?_⟩
  obtain ⟨x,hx,hchunks⟩ := hx
  obtain ⟨inferred,hi⟩ := hi
  rw [← hchunks] at hi hn
  obtain ⟨_,_,_,source,_,_,_,_,_,_,hs,hlayout,_⟩ :=
    exists_yields_row_by_row hv rfl hx (Machine.infer_eq_ok hi).symm hn
  have hk : ∃ sink after, FileSink.ofEndpoint twoRowsFile throughLongQueue.sink
      inferred.schema.toLayout throughLongQueue.parquet = (.ok sink, after) := ⟨_,_,rfl⟩
  obtain ⟨sink,after,hk⟩ := hk
  rw [← hlayout] at hk
  exact Machine.runPipeline_eq_error (Machine.openSource_eq hx hi) hv hs hk (Nat.le_refl _)

end Pipeline
end Tabular
