import Tabular.Proofs.Inference.Progress
import Tabular.Proofs.Inference.Sampling
import Tabular.Proofs.Inference.Columns
import Tabular.Proofs.Delimited.Reads

/-! # An inferred schema reads its rows

A source that is opened on the input of an inference, with the schema found and under the same
options, stands in front of the rows the schema was inferred from, and every one of their values
fits its column.
-/
namespace Tabular.Inference
open Delimited
open Schema (ColumnState Field)

def behindHeader (o : Options) : List Reading → List Reading
  | [] => []
  | first :: rest => if o.hasHeader && first.item.row?.isSome then rest else first :: rest

variable {o : Options} {width : Nat} {rows : List Row} {rs : List Reading} {out : Outcome}

/-- Rows that were sampled are those the stream begins with; when fewer came than wanted, nothing
follows them. -/
theorem begins_of_rowsFrom {left : Nat} (h : Sample.rowsFrom width left rs = .ok rows) :
    ∃ rest, Begins width rest rs rows ∧ (rows.length < left → AtEnd rest) := by
  have hahead := ahead width left rs
  induction hahead generalizing rows with
  | @capped rs =>
    cases h
    exact ⟨rs,.done,fun hlt => absurd hlt (Nat.lt_irrefl 0)⟩
  | @atEnd left rs hend =>
    rw [Sample.rowsFrom_atEnd hend] at h
    cases h
    exact ⟨rs,.done,fun _ => hend⟩
  | bad he =>
    rw [Sample.rowsFrom_bad he] at h
    cases h
  | row hi hw _ ih =>
    rw [Sample.rowsFrom_row hi hw] at h
    obtain ⟨more,hmore,rfl⟩ := map_eq_ok_iff.mp h
    obtain ⟨rest,hbegins,hend⟩ := ih hmore
    exact ⟨rest,.row (by rw [hi]; rfl) hw hbegins,fun hlt => hend (Nat.lt_of_succ_lt_succ hlt)⟩

/-- The field that was found for a column holds each of its values. -/
theorem holds_fieldsOf {names : List String} {j : Nat} {f : Field}
    (h : (fieldsOf o names rows)[j]? = some f) : Holds o rows j f := by
  obtain ⟨name,s,_,hs,rfl⟩ := List.getElem?_zipWith_eq_some.mp h
  refine ⟨?_,?_,?_⟩
  · intro row hrow raw hraw
    exact (observeRows_covers hs hrow hraw).readable name
  · intro row hrow raw hraw hnull
    exact (observeRows_covers hs hrow hraw).nullable hnull name
  · intro ht
    rw [freezeField_tag] at ht
    split at ht
    · cases ht
    · exact observeRows_timestamp hs ht

def columnNames (o : Options) (first : List String) : List String :=
  if o.hasHeader then first.map Text.strip else (List.range first.length).map madeUpName

@[simp] theorem length_columnNames (o : Options) (first : List String) :
    (columnNames o first).length = first.length := by
  unfold columnNames
  split <;> simp

theorem openRecords_eq (o : Options) {first : Reading} {record : Record} (rest : List Reading)
    (h : first.item = .record record) :
    openRecords o first record rest =
      (columnNames o record.fields, behindHeader o (first :: rest)) := by
  cases hh : o.hasHeader <;> simp [openRecords, columnNames, behindHeader, h, hh, Item.row?]

/-- A source takes the header of a stream off when it is as wide as the schema. -/
theorem ofRecords_ok {schema : Schema} (h : ∀ first ∈ rs.head?, first.item = .finished ∨
      ∃ record, first.item = .record record ∧ record.fields.length = schema.width) :
    ∃ d, DelimitedSource.ofRecords schema o rs = .ok d ∧ d.schema = schema ∧ d.options = o ∧
      d.records = some (behindHeader o rs) ∧ d.rowsRead = 0 := by
  refine ⟨⟨schema,o,DelimitedSource.defaultBatchSize,some (behindHeader o rs),0⟩,?_,rfl,rfl,rfl,rfl⟩
  cases hh : o.hasHeader with
  | false =>
    have hplain : behindHeader o rs = rs := by cases rs <;> simp [behindHeader, hh]
    simp [DelimitedSource.ofRecords, hh, hplain, bind, Except.bind, pure, Except.pure]
  | true =>
    have hskip : DelimitedSource.skipHeader schema rs = .ok (behindHeader o rs) := by
      cases rs with
      | nil => rfl
      | cons first rest =>
        rcases h first rfl with hi | ⟨record,hi,hw⟩
        · simp [DelimitedSource.skipHeader, behindHeader, hi, Item.row?]
        · simp [DelimitedSource.skipHeader, behindHeader, hh, hi, hw, Item.row?]
    simp [DelimitedSource.ofRecords, hh, hskip, bind, Except.bind, pure, Except.pure]

/-- Behind a first record an inference that succeeds has looked once at the rows that come first, at
no more of them than it wants, and at all there are if these are fewer. -/
theorem inferRecords_of_record {s : Surroundings} {first : Reading} {record : Record}
    {rest : List Reading} (hi : first.item = .record record)
    (h : inferRecords o s (first :: rest) = .ok out) :
    let names := columnNames o record.fields
    ∃ rows more, Begins names.length more (behindHeader o (first :: rest)) rows ∧
      rows.length ≤ o.maxRows ∧ (rows.length < o.maxRows → AtEnd more) ∧
      out = freeze o s.clock names (observeRows o (blankStates names.length) rows) rows.length := by
  intro names
  have hcount : 1 ≤ o.workerCount s.processors := Nat.le_max_left _ _
  unfold inferRecords sampleRecords at h
  simp only [hi, Pool.observe_eq o hcount, openRecords_eq o rest hi] at h
  change settle o s names (Sample.take o names.length first.fired _) _ = _ at h
  cases hk : (Sample.take o names.length first.fired (behindHeader o (first :: rest))).outcome with
  | error e => simp [settle, hk, Except.map] at h
  | ok k =>
    obtain ⟨rows,hrows,rfl,hflat⟩ := Sample.take_ok hk
    obtain ⟨more,hbegins,hend⟩ := begins_of_rowsFrom hrows
    simp only [settle, hk, Except.map] at h
    obtain rfl := Except.ok.inj h
    refine ⟨rows,more,hbegins,Sample.length_le_of_rowsFrom hrows,hend,?_⟩
    exact congrArg (fun seen => freeze o s.clock names
      (observeRows o (blankStates names.length) seen) rows.length) hflat

/-- An inference that succeeds has seen the end of the stream or a record first. In the second case
its sample succeeded, and the schema is that of one look at the rows sampled. -/
theorem inferRecords_ok {s : Surroundings} (h : inferRecords o s rs = .ok out) :
    ∃ names rows rest, out.schema.fields = fieldsOf o names rows ∧ out.rowsSampled = rows.length ∧
      Begins names.length rest (behindHeader o rs) rows ∧
      (rows.length < o.maxRows → AtEnd rest) ∧
      ∀ first ∈ rs.head?, first.item = .finished ∨
        ∃ record, first.item = .record record ∧ record.fields.length = names.length := by
  unfold inferRecords sampleRecords at h
  cases rs with
  | nil =>
    cases h
    exact ⟨[],[],[],rfl,rfl,.done,fun _ => by simp [AtEnd],by simp⟩
  | cons first rest =>
    cases hi : first.item with
    | fault f => simp [hi] at h
    | panic text => simp [hi] at h
    | finished =>
      simp only [hi] at h
      cases h
      have hbehind : behindHeader o (first :: rest) = first :: rest := by
        simp [behindHeader, hi, Item.row?]
      refine ⟨[],[],first :: rest,rfl,rfl,by rw [hbehind]; exact .done,fun _ => ?_,?_⟩
      · intro r hr
        obtain rfl := Option.some.inj hr
        exact hi
      · intro r hr
        obtain rfl := Option.some.inj hr
        exact .inl hi
    | record record =>
      obtain ⟨rows,more,hbegins,_,hend,rfl⟩ := inferRecords_of_record hi h
      refine ⟨columnNames o record.fields,rows,more,rfl,rfl,hbegins,hend,?_⟩
      intro r hr
      obtain rfl := Option.some.inj hr
      exact .inr ⟨record,hi,(length_columnNames o record.fields).symm⟩

/-- The requests that are answered by the data rows of an input. -/
def dataReadings (o : Options) (input : List Chunk) : List Reading :=
  match o.delimiterByte with
  | .ok delimiter => behindHeader o (readings delimiter input)
  | .error _ => []

theorem dataReadings_eq {delimiter : UInt8} {input : List Chunk}
    (h : o.delimiterByte = .ok delimiter) :
    dataReadings o input = behindHeader o (readings delimiter input) := by
  simp only [dataReadings, h]

theorem mem_of_mem_behindHeader {r : Reading} (h : r ∈ behindHeader o rs) : r ∈ rs := by
  cases rs with
  | nil => cases h
  | cons first rest =>
    simp only [behindHeader] at h
    split at h
    · exact List.mem_cons_of_mem _ h
    · exact h

/-- A record has a field, so the rows of an input have a width. -/
theorem width_pos_of_begins {delimiter : UInt8} {input : List Chunk} {rest : List Reading}
    (h : Begins width rest (behindHeader o (readings delimiter input)) rows) (hne : rows ≠ []) :
    0 < width := by
  obtain ⟨row,hrow⟩ := List.exists_mem_of_ne_nil rows hne
  obtain ⟨r,hr,hrow'⟩ := h.exists_reading hrow
  rw [← h.length_row row hrow, List.length_pos_iff]
  rintro rfl
  exact readings_row?_ne_nil (mem_of_mem_behindHeader hr) hrow'

theorem check_ok {cancelled : Bool} {delimiter : UInt8} (h : check o cancelled = .ok delimiter) :
    o.validate = .ok () ∧ o.delimiterByte = .ok delimiter := by
  unfold check at h
  cases hv : o.validate with
  | error e => rw [hv] at h; cases h
  | ok u =>
    cases cancelled with
    | true => rw [hv] at h; cases h
    | false => rw [hv] at h; exact ⟨rfl,h⟩

/-- An inferred schema reads back the rows it was inferred from. On the same input and under the same
options a source opens, and the rows sampled are the first data rows of the input. Whatever the size
of its batches, as long as there can be room for one, a read that takes none but these rows gives a
batch with a cell for each value: null exactly for a null, the text itself in a column of texts, and
otherwise the trimmed value read as the type of the column. When nothing follows the rows sampled,
reading comes to its end without an error after just these rows. Where there cannot be room for a
batch, no row is read back. -/
theorem infer_reads_back {s : Surroundings} {cancelled : Bool} {input : List Chunk}
    (h : infer o s cancelled input = .ok out) :
    ∃ d rows rest, DelimitedSource.ofInput out.schema o input = .ok d ∧
      rows.length = out.rowsSampled ∧
      Begins out.schema.width rest (dataReadings o input) rows ∧
      (out.rowsSampled < o.maxRows → AtEnd rest) ∧
      (∀ b, 1 ≤ b → b < 2 ^ 60 →
        let source := (d.withBatchSize b).afterReads
        (∀ n, (n + 1) * b ≤ out.rowsSampled ∨ AtEnd rest →
          ((rows.drop (n * b)).take b = [] → (source n).read.1 = .ok none) ∧
          ((rows.drop (n * b)).take b ≠ [] → ∃ batch, (source n).read.1 = .ok (some batch) ∧
            batch.layout = out.schema.toLayout ∧
            batch.rows = ((rows.drop (n * b)).take b).length ∧
            ∀ (j : Nat) (f : Field), out.schema.fields[j]? = some f →
              ∃ cells, batch.columns[j]? = some cells ∧
              List.Forall₂ (fun row c => ∃ raw, row[j]? = some raw ∧ ReadsAs o f.tag raw c)
                ((rows.drop (n * b)).take b) cells)) ∧
        (AtEnd rest → ∃ n, (∀ m < n, ∃ batch, (source m).read.1 = .ok (some batch)) ∧
          (source n).read.1 = .ok none ∧ (source n).rowsRead = out.rowsSampled)) ∧
      ∀ b, 2 ^ 60 ≤ b → (d.withBatchSize b).read.1 =
        .error (.source (.taskFailed "CSV" "capacity overflow")) := by
  unfold infer at h
  cases hc : check o cancelled with
  | error e => rw [hc] at h; cases h
  | ok delimiter =>
    rw [hc] at h
    obtain ⟨hvalid,hdelimiter⟩ := check_ok hc
    obtain ⟨names,rows,rest,hfields,hk,hbegins,hend,hfirst⟩ := inferRecords_ok h
    have hwidth : out.schema.width = names.length := by
      rw [Schema.width, hfields, length_fieldsOf]
    rw [← hwidth] at hbegins hfirst
    obtain ⟨d,hd,hschema,hoptions,hrecords,hread⟩ := ofRecords_ok (o := o) hfirst
    have hopen : DelimitedSource.ofInput out.schema o input = .ok d := by
      simp only [DelimitedSource.ofInput, hvalid, hdelimiter]
      exact hd
    have hdata : dataReadings o input = behindHeader o (readings delimiter input) :=
      dataReadings_eq hdelimiter
    have hfits : DelimitedSource.Fits out.schema o rows := by
      refine ⟨fun hne hnil => ?_,fun j f hf => holds_fieldsOf (hfields ▸ hf)⟩
      have hwide := width_pos_of_begins hbegins hne
      rw [Schema.width, hnil] at hwide
      exact Nat.lt_irrefl 0 hwide
    refine ⟨d,rows,rest,hopen,hk.symm,hdata ▸ hbegins,hk ▸ hend,fun b hb hroom => ?_,
      fun b hlarge => DelimitedSource.read_withBatchSize_of_le hlarge hrecords⟩
    have hpos : DelimitedSource.Positioned out.schema o b rest rows 0 (d.withBatchSize b) :=
      ⟨hschema,hoptions,Nat.max_eq_left hb,hroom,⟨_,hrecords,hbegins⟩,hread⟩
    refine ⟨fun n hn => ?_,fun he => ?_⟩
    · rw [hk] at hn
      exact (hpos.gives hfits hn).1
    · rw [hk]
      exact hpos.ends hfits hb he

theorem infer_reads_back_decimals :
    let input : List Chunk := [.bytes [110, 10, 49, 10, 50, 46, 53, 10]]
    ∃ out, infer {} ⟨2,"now"⟩ false input = .ok out ∧ out.rowsSampled = 2 ∧
      out.schema.fields = [⟨"n",.float64,false⟩] ∧
      ∃ d, DelimitedSource.ofInput out.schema {} input = .ok d ∧
        ∃ batch, (d.withBatchSize 2).read.1 = .ok (some batch) ∧ batch.rows = 2 := by
  intro input
  have hs : ∃ out, infer {} ⟨2,"now"⟩ false input = .ok out ∧ out.rowsSampled = 2 ∧
      out.schema.fields = [⟨"n",.float64,false⟩] := ⟨_,rfl,rfl,rfl⟩
  obtain ⟨out,h,hk,hfields⟩ := hs
  obtain ⟨d,rows,rest,hopen,hlen,_,_,hreads,_⟩ := infer_reads_back h
  rw [hk] at hlen
  obtain ⟨_,hsome⟩ := (hreads 2 (by decide) (by decide)).1 0 (.inl (by rw [hk]))
  obtain ⟨batch,hbatch,_,hrows,_⟩ := hsome (by
    intro hnil
    have hzero := congrArg List.length hnil
    simp [hlen] at hzero)
  exact ⟨out,h,hk,hfields,d,hopen,batch,hbatch,by simpa [hlen] using hrows⟩

/-- The two numbers are not read back in batches for which there cannot be room. -/
theorem numbers_unread_without_room :
    let input : List Chunk := [.bytes [110, 10, 49, 10, 50, 46, 53, 10]]
    ∃ out d, infer {} ⟨2,"now"⟩ false input = .ok out ∧ out.rowsSampled = 2 ∧
      DelimitedSource.ofInput out.schema {} input = .ok d ∧
      (d.withBatchSize (2 ^ 60)).read.1 =
        .error (.source (.taskFailed "CSV" "capacity overflow")) :=
  ⟨_,_,rfl,rfl,rfl,rfl⟩

end Tabular.Inference
