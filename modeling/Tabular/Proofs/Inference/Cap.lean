import Tabular.Proofs.Inference.Determined

/-! # Sampling stops at the cap

Inference looks at the first record of a stream and, behind a header, at as many records as it may.
Nothing behind these shows in what it finds. The rows sampled reach the workers in order, in batches
of one size but for the last, and the first bad record among those looked at is the error.
-/
namespace Tabular.Inference
open Delimited (AtEnd Begins Chunk Item Reading readings)
open Schema (ColumnState)

/-- What the request with a number finds. Behind its last answer a stream has nothing to read. -/
def answer (rs : List Reading) (n : Nat) : Item := (rs[n]?.map Reading.item).getD .finished

def firstRow (rs : List Reading) : Row := (answer rs 0).row?.getD []

/-- Streams that agree on the first record and on the data records that inference looks at. -/
structure SameSample (o : Options) (rs rs' : List Reading) : Prop where
  first : answer rs 0 = answer rs' 0
  data : ∀ n < o.maxRows, answer (behindHeader o rs) n = answer (behindHeader o rs') n

def handedOut (o : Options) (s : Surroundings) (moves : List Move) (rs : List Reading) :
    List (List Row) :=
  match sampleRecords o rs with
  | .ok (some (names, sample)) =>
    ((Pool.start (o.workerCount s.processors) names.length sample.batches).deliveries o moves).map
      (·.2)
  | _ => []

variable {o : Options} {s : Surroundings} {moves : List Move} {rs rs' : List Reading}
variable {width size left room count : Nat} {pending rows : List Row} {fired : Bool} {e : Error}

namespace Sample

/-! ## Rows within the cap -/

theorem rowsFrom_congr (h : ∀ n < left, answer rs n = answer rs' n) :
    rowsFrom width left rs = rowsFrom width left rs' := by
  induction left generalizing rs rs' with
  | zero => simp only [rowsFrom]
  | succ left ih =>
    have hfirst := h 0 (Nat.succ_pos left)
    cases rs with
    | nil =>
      cases rs' with
      | nil => rfl
      | cons r' rs' =>
        have hr' : r'.item = .finished := hfirst.symm
        simp [rowsFrom, hr']
    | cons r rs =>
      cases rs' with
      | nil =>
        have hr : r.item = .finished := hfirst
        simp [rowsFrom, hr]
      | cons r' rs' =>
        have hr : r.item = r'.item := hfirst
        have hrest := ih fun n hn => h (n + 1) (Nat.succ_lt_succ hn)
        simp only [rowsFrom, hr, hrest]

/-- The error of the rows of a stream is that of the first bad record within the cap. -/
theorem rowsFrom_eq_error_iff : rowsFrom width left rs = .error e ↔
    ∃ rows r rest, Begins width (r :: rest) rs rows ∧ rows.length < left ∧
      samplingError? width r.item = some e := by
  constructor
  · intro h
    have hahead := ahead width left rs
    induction hahead with
    | capped => cases h
    | atEnd hend =>
      rw [rowsFrom_atEnd hend] at h
      cases h
    | @bad left r rs e' he =>
      rw [rowsFrom_bad he] at h
      cases h
      exact ⟨[],r,rs,.done,Nat.succ_pos left,he⟩
    | row hi hw _ ih =>
      rw [rowsFrom_row hi hw] at h
      obtain ⟨rows,r,rest,hbegins,hlt,he⟩ := ih (map_eq_error_iff.mp h)
      exact ⟨_,r,rest,.row (by rw [hi]; rfl) hw hbegins,Nat.succ_lt_succ hlt,he⟩
  · rintro ⟨rows,r,rest,hbegins,hlt,he⟩
    induction rows generalizing rs left with
    | nil =>
      cases hbegins
      obtain ⟨n,rfl⟩ := Nat.exists_eq_succ_of_ne_zero (Nat.ne_of_gt hlt)
      exact rowsFrom_bad he
    | cons row rows ih =>
      cases hbegins with
      | row hr hw h =>
        obtain ⟨n,rfl⟩ := Nat.exists_eq_succ_of_ne_zero (Nat.ne_of_gt (Nat.zero_lt_of_lt hlt))
        obtain ⟨record,hi,rfl⟩ := Delimited.exists_record_of_row? hr
        rw [rowsFrom_row hi hw, map_eq_error_iff]
        exact ih h (Nat.lt_of_succ_lt_succ hlt)

/-! ## Batches -/

theorem sized_handOut {b : List Row} {rest : Sample} (hb : b.length = size)
    (h : Sized size rest.batches) : Sized size (handOut fired b rest).batches := by
  cases fired with
  | true => exact .nil
  | false => exact .cons hb h

theorem sized_finish (h : pending.length ≤ size) :
    Sized size (finish fired pending count).batches := by
  unfold finish
  split
  · exact .nil
  · next hne =>
    cases fired with
    | true => exact .nil
    | false => exact .last (by simpa using hne) (by simpa using h)

/-- Whatever it comes to, sampling hands out batches of one size but for the last. -/
theorem sized_takeFrom (hroom : 1 ≤ room) (hsize : room + pending.length = size) :
    Sized size (takeFrom width size left pending room count fired rs).batches := by
  have hahead := ahead width left rs
  induction hahead generalizing pending room count fired with
  | capped =>
    rw [takeFrom_zero]
    exact sized_finish (by omega)
  | atEnd hend =>
    rw [takeFrom_atEnd hend]
    exact sized_finish (by omega)
  | bad he =>
    rw [takeFrom_bad he]
    exact .nil
  | row hi hw _ ih =>
    rw [takeFrom_row hi hw]
    split
    · refine sized_handOut ?_ (ih (by omega) (by simp))
      rw [List.length_reverse, List.length_cons]
      omega
    · refine ih (by omega) ?_
      rw [List.length_cons]
      omega

end Sample

/-! ## What inference finds -/

theorem one_le_of_validate (h : o.validate = .ok ()) : 1 ≤ o.maxRows ∧ 1 ≤ o.batchSize := by
  obtain ⟨_,_,h⟩ := bind_eq_ok_iff.mp h
  by_cases hm : o.maxRows = 0
  · simp [hm] at h
    cases h
  · by_cases hb : o.batchSize = 0
    · simp [hm, hb] at h
      cases h
    · omega

theorem firstRow_of_record {first : Reading} {record : Delimited.Record} (rest : List Reading)
    (hi : first.item = .record record) : firstRow (first :: rest) = record.fields := by
  simp [firstRow, answer, hi, Item.row?]

theorem behindHeader_of_no_row (o : Options) {first : Reading} (rest : List Reading)
    (h : first.item.row? = none) : behindHeader o (first :: rest) = first :: rest := by
  simp [behindHeader, h]

/-- One look at a stream. A first record that cannot be read counts as one of those sampled. -/
theorem findingsOf_eq (hcap : 1 ≤ o.maxRows) (rs : List Reading) :
    findingsOf o rs = (Sample.rowsFrom (firstRow rs).length o.maxRows (behindHeader o rs)).map
      fun rows => (fieldsOf o (columnNames o (firstRow rs)) rows,rows.length) := by
  have hnone : fieldsOf o (columnNames o []) [] = [] := by simp [fieldsOf, columnNames]
  obtain ⟨cap,hcap⟩ := Nat.exists_eq_succ_of_ne_zero (Nat.ne_of_gt hcap)
  cases rs with
  | nil =>
    have hrow : firstRow [] = [] := rfl
    rw [hrow, Sample.rowsFrom_atEnd (by simp [behindHeader, AtEnd])]
    simp only [findingsOf, Except.map, hnone, List.length_nil]
  | cons first rest =>
    cases hi : first.item with
    | record record =>
      simp only [findingsOf, hi, openRecords_eq o rest hi, firstRow_of_record rest hi,
        length_columnNames]
    | finished =>
      have hrow : firstRow (first :: rest) = [] := by simp [firstRow, answer, hi, Item.row?]
      rw [hrow, behindHeader_of_no_row o rest (by rw [hi]; rfl),
        Sample.rowsFrom_atEnd (by simp [AtEnd, hi])]
      simp only [findingsOf, hi, Except.map, hnone, List.length_nil]
    | fault f =>
      have hbad (width : Nat) : samplingError? width first.item = some (.delimited f) := by
        rw [hi]
        rfl
      rw [behindHeader_of_no_row o rest (by rw [hi]; rfl), hcap, Sample.rowsFrom_bad (hbad _)]
      simp only [findingsOf, hi, Except.map]
    | panic text =>
      have hbad (width : Nat) :
          samplingError? width first.item = some (.taskFailed "Inference" text) := by
        rw [hi]
        rfl
      rw [behindHeader_of_no_row o rest (by rw [hi]; rfl), hcap, Sample.rowsFrom_bad (hbad _)]
      simp only [findingsOf, hi, Except.map]

theorem sampleRecords_of_record (o : Options) {first : Reading} {record : Delimited.Record}
    (rest : List Reading) (hi : first.item = .record record) :
    sampleRecords o (first :: rest) = .ok (some (columnNames o record.fields,
      Sample.take o record.fields.length first.fired (behindHeader o (first :: rest)))) := by
  simp only [sampleRecords, hi, openRecords_eq o rest hi, length_columnNames]

/-- An inference with a first record samples the rows behind the header, those of its width. -/
theorem sampleRecords_eq {names : List String} {sample : Sample}
    (h : sampleRecords o rs = .ok (some (names,sample))) :
    names = columnNames o (firstRow rs) ∧ ∃ first rest, rs = first :: rest ∧
      sample = Sample.take o (firstRow rs).length first.fired (behindHeader o rs) := by
  cases rs with
  | nil => cases h
  | cons first rest =>
    cases hi : first.item with
    | finished => simp [sampleRecords, hi] at h
    | fault f => simp [sampleRecords, hi] at h
    | panic text => simp [sampleRecords, hi] at h
    | record record =>
      have hrow := firstRow_of_record rest hi
      rw [sampleRecords_of_record o rest hi] at h
      obtain ⟨rfl,rfl⟩ := Prod.mk.inj (Option.some.inj (Except.ok.inj h))
      exact ⟨by rw [hrow],first,rest,rfl,by rw [hrow]⟩

/-- What the workers receive on the way to the end is what was sampled. -/
theorem handedOut_of_ok {out : Outcome} (h : inferRecordsAlong o s moves rs = some (.ok out)) :
    (sampleRecords o rs = .ok none ∧ handedOut o s moves rs = [] ∧ out.rowsSampled = 0) ∨
    ∃ names sample, sampleRecords o rs = .ok (some (names,sample)) ∧
      sample.outcome = .ok out.rowsSampled ∧ handedOut o s moves rs = sample.batches := by
  unfold inferRecordsAlong at h
  unfold handedOut
  cases hs : sampleRecords o rs with
  | error e => simp [hs] at h
  | ok found =>
    cases found with
    | none =>
      simp only [hs] at h
      cases h
      exact .inl ⟨rfl,rfl,rfl⟩
    | some found =>
      obtain ⟨names,sample⟩ := found
      simp only [hs] at h ⊢
      obtain ⟨states,hstates,hsettle⟩ := Option.map_eq_some_iff.mp h
      refine .inr ⟨names,sample,rfl,?_,?_⟩
      · unfold settle at hsettle
        cases hk : sample.outcome with
        | error e => simp [hk, Except.map] at hsettle
        | ok k =>
          rw [hk] at hsettle
          cases hsettle
          rfl
      · unfold Pool.observeAlong at hstates
        split at hstates
        · next p hp =>
          split at hstates
          · next hf => exact (Pool.accounted_of_run hp).delivered (one_le_workerCount _ _) hf
          · cases hstates
        · cases hstates

/-- Sampling is bounded and stops exactly at the cap. Two streams that agree on the first record and
on the data records within the cap give the same fields and number of rows, or the same error. An
inference that succeeds has sampled as many rows as it may or as there are, and just these have
reached the workers, in order and in batches of one size but for the last. It fails exactly if there
is a bad record within the cap, with the error of the first one; its width is measured against that
of the first record. -/
theorem sampling_stops_at_cap {x : Except Error Outcome} (hv : o.validate = .ok ())
    (hq : ∀ r ∈ rs, r.fired = false) (hx : inferRecordsAlong o s moves rs = some x) :
    let data := behindHeader o rs
    let width := (firstRow rs).length
    (∀ s' rs', (∀ r ∈ rs', r.fired = false) → SameSample o rs rs' →
      (∃ moves' x', inferRecordsAlong o s' moves' rs' = some x') ∧
      ∀ moves' x', inferRecordsAlong o s' moves' rs' = some x' →
        x.map Outcome.findings = x'.map Outcome.findings) ∧
    (∀ out, x = .ok out → out.rowsSampled = min o.maxRows (rowsOf data).length ∧
      (handedOut o s moves rs).flatten = (rowsOf data).take o.maxRows ∧
      Sized o.batchSize (handedOut o s moves rs)) ∧
    (∀ e, x = .error e ↔ ∃ rows r rest, Begins width (r :: rest) data rows ∧
      rows.length < o.maxRows ∧ samplingError? width r.item = some e) ∧
    ∀ delimiter input, o.delimiterByte = .ok delimiter → rs = readings delimiter input →
      inferAlong o s false moves input = some x := by
  intro data width
  obtain ⟨hcap,hsize⟩ := one_le_of_validate hv
  have hfindings := inferRecordsAlong_findings hq hx
  rw [findingsOf_eq hcap] at hfindings
  refine ⟨fun s' rs' hq' hsame => ⟨exists_inferRecordsAlong (canMove_nil o s' rs'),
    fun moves' x' hx' => ?_⟩,fun out hout => ?_,fun e => ?_,?_⟩
  · have hrow : firstRow rs = firstRow rs' := by rw [firstRow, firstRow, hsame.first]
    rw [hfindings, inferRecordsAlong_findings hq' hx', findingsOf_eq hcap, hrow,
      Sample.rowsFrom_congr hsame.data]
  · subst hout
    obtain ⟨rows,hrows,hpair⟩ := map_eq_ok_iff.mp hfindings.symm
    have hcount : out.rowsSampled = rows.length := (congrArg Prod.snd hpair).symm
    obtain ⟨rest,hbegins,hend⟩ := begins_of_rowsFrom hrows
    have htake := take_rowsOf hbegins (Sample.length_le_of_rowsFrom hrows) hend
    have hlen := congrArg List.length htake
    rw [List.length_take] at hlen
    refine ⟨by rw [hcount, hlen],?_⟩
    rw [htake]
    rcases handedOut_of_ok hx with ⟨_,hnone,hzero⟩ | ⟨names,sample,hs,hk,hbatches⟩
    · have hnil : rows = [] := List.eq_nil_of_length_eq_zero (hcount.symm.trans hzero)
      rw [hnone, hnil]
      exact ⟨rfl,.nil⟩
    · obtain ⟨_,first,rest,_,rfl⟩ := sampleRecords_eq hs
      obtain ⟨rows',hrows',_,hflat⟩ := Sample.take_ok hk
      obtain rfl : rows = rows' := Except.ok.inj (hrows.symm.trans hrows')
      rw [hbatches]
      exact ⟨hflat,Sample.sized_takeFrom hsize rfl⟩
  · rw [← Sample.rowsFrom_eq_error_iff, ← map_eq_error_iff (f := Outcome.findings), hfindings,
      map_eq_error_iff]
  · rintro delimiter input hd rfl
    have hcheck : check o false = .ok delimiter := by
      simp [check, hv, hd, bind, Except.bind]
    simp only [inferAlong, hcheck, hx]

/-- Three rows within the cap, and behind them a row of another width or a file that fails. -/
theorem sampling_stops_at_cap_oddRest :
    let o : Options := { hasHeader := false, maxRows := 3, batchSize := 2 }
    let rs := readings 44 [.bytes [49, 10, 120, 10, 51, 10, 52, 44, 53, 10]]
    let rs' := readings 44 [.bytes [49, 10, 120, 10, 51, 10], .error .isDirectory]
    SameSample o rs rs' ∧
    ∃ out x', inferRecordsAlong o ⟨2,"now"⟩ (Pool.roundRobin 2 2) rs = some (.ok out) ∧
      inferRecordsAlong o ⟨1,"later"⟩ (Pool.roundRobin 1 2) rs' = some x' ∧
      (Except.ok out).map Outcome.findings = x'.map Outcome.findings ∧ out.rowsSampled = 3 ∧
      (handedOut o ⟨2,"now"⟩ (Pool.roundRobin 2 2) rs).flatten = [["1"], ["x"], ["3"]] ∧
      Sized 2 (handedOut o ⟨2,"now"⟩ (Pool.roundRobin 2 2) rs) := by
  intro o rs rs'
  have hsame : SameSample o rs rs' := ⟨rfl,by decide⟩
  have hs : ∃ out x', inferRecordsAlong o ⟨2,"now"⟩ (Pool.roundRobin 2 2) rs = some (.ok out) ∧
      inferRecordsAlong o ⟨1,"later"⟩ (Pool.roundRobin 1 2) rs' = some x' := ⟨_,_,rfl,rfl⟩
  obtain ⟨out,x',hx,hx'⟩ := hs
  obtain ⟨hagree,hok,_⟩ := sampling_stops_at_cap (o := o) rfl (by decide) hx
  obtain ⟨hcount,hrows,hsized⟩ := hok out rfl
  obtain ⟨_,hsameFindings⟩ := hagree ⟨1,"later"⟩ rs' (by decide) hsame
  exact ⟨hsame,out,x',hx,hx',hsameFindings _ _ hx',hcount,hrows,hsized⟩

end Tabular.Inference
