import Tabular.Proofs.Inference.Cap
import Tabular.Proofs.Delimited.Segments

/-! # Inference and reading reject the same texts

A source whose schema takes any text fails exactly at what is wrong with the records themselves, and
so does an inference that looks at all of them. Both are brought to one closed form: the first
offence among the records. They differ only where the cap of the inference ends its look right in
front of a fault.
-/
namespace Tabular
open Delimited

/-- A schema of texts, any of which may be null. -/
structure Schema.TakesTexts (width : Nat) (s : Schema) : Prop where
  width_eq : s.width = width
  texts : ∀ f ∈ s.fields, f.tag = .string ∧ f.nullable = true

/-- What the reads of a source give up to the first that gives no batch: the batches, and the error
unless that read finds the end. -/
inductive DelimitedSource.Drains : DelimitedSource → List Batch → Option Error → Prop
  | ended {d : DelimitedSource} (h : d.read.1 = .ok none) : Drains d [] none
  | failed {d : DelimitedSource} {e : Error} (h : d.read.1 = .error e) : Drains d [] (some e)
  | batch {d : DelimitedSource} {b : Batch} {bs : List Batch} {e? : Option Error}
    (h : d.read.1 = .ok (some b)) (hrest : Drains d.read.2 bs e?) : Drains d (b :: bs) e?

/-- What comes of opening a source on a stream and reading it to its end or to the first error. -/
inductive ReadsOut (s : Schema) (o : Options) (size : Nat) (rs : List Reading) :
    List Batch → Option Error → Prop
  | refused {e : Error} (h : DelimitedSource.ofRecords s o rs = .error e) :
    ReadsOut s o size rs [] (some e)
  | opened {d : DelimitedSource} {bs : List Batch} {e? : Option Error}
    (h : DelimitedSource.ofRecords s o rs = .ok d) (hd : (d.withBatchSize size).Drains bs e?) :
    ReadsOut s o size rs bs e?

/-- A stream of records with fields and of faults, during which nobody cancels. -/
structure Delimited.Calm (rs : List Reading) : Prop where
  quiet : ∀ r ∈ rs, r.fired = false
  noPanic : ∀ r ∈ rs, ∀ text, r.item ≠ .panic text
  fields : ∀ r ∈ rs, r.item.row? ≠ some []

/-- A record with fields, or a fault. -/
inductive Delimited.Item.IsData : Item → Prop
  | record {r : Record} (h : r.fields ≠ []) : IsData (.record r)
  | fault (f : DelimitedFault) : IsData (.fault f)

def Delimited.firstOffence? (width : Nat) (items : List Item) : Option Error :=
  items.findSome? (Item.offence? width)

def Inference.dataItems (o : Options) (rs : List Reading) : List Item :=
  resultsOf (behindHeader o rs)

/-- The cap of an inference is used up by rows of the width of the first record, and the request
that is not made any more would have met a fault. -/
structure Inference.StopsShort (o : Options) (rs : List Reading) (f : DelimitedFault) : Prop where
  rows : ∀ item ∈ (dataItems o rs).take o.maxRows, item.isRow (firstRow rs).length = true
  next : (dataItems o rs)[o.maxRows]? = some (.fault f)

variable {o : Options} {s : Schema} {width size : Nat} {rs : List Reading} {items : List Item}
variable {rows : List (List String)} {e : Error} {e? e?' : Option Error} {bs bs' : List Batch}

/-! ## A source of texts -/

theorem DelimitedSource.Drains.unique {d : DelimitedSource} (h : d.Drains bs e?)
    (h' : d.Drains bs' e?') : bs' = bs ∧ e?' = e? := by
  induction h generalizing bs' with
  | ended h => cases h' <;> simp_all
  | failed h => cases h' <;> simp_all
  | batch h _ ih =>
    cases h' with
    | ended h' => simp [h] at h'
    | failed h' => simp [h] at h'
    | batch h' hrest' =>
      rw [h] at h'
      cases h'
      obtain ⟨rfl,rfl⟩ := ih hrest'
      exact ⟨rfl,rfl⟩

theorem ReadsOut.unique (h : ReadsOut s o size rs bs e?) (h' : ReadsOut s o size rs bs' e?') :
    bs' = bs ∧ e?' = e? := by
  cases h with
  | refused h =>
    cases h' with
    | refused h' => simp_all
    | opened h' => simp [h] at h'
  | opened h hd =>
    cases h' with
    | refused h' => simp [h] at h'
    | opened h' hd' =>
      rw [h] at h'
      cases h'
      exact hd.unique hd'

namespace Delimited

theorem not_offends_of_takesTexts (hs : s.TakesTexts width) : ¬ Offends o s rows e := by
  have hfield {j : Nat} {f : Schema.Field} (hf : s.fields[j]? = some f) :=
    hs.texts f (List.mem_of_getElem? hf)
  intro h
  cases h with
  | column h =>
    obtain ⟨ht,_⟩ := hfield h.here
    refine h.breach ⟨fun htime => ?_,fun _ _ _ => .inr ?_⟩
    · rw [ht] at htime
      cases htime
    · rw [ht]
      trivial
  | null _ h => exact h.breach (.inl (hfield h.here).2)

theorem mem_of_mem_resultsOf {item : Item} (h : item ∈ resultsOf rs) :
    item ≠ .finished ∧ ∃ r ∈ rs, r.item = item := by
  induction rs with
  | nil => cases h
  | cons r rs ih =>
    by_cases hi : r.item = .finished
    · rw [resultsOf_atEnd (by simp [AtEnd, hi])] at h
      cases h
    · rw [resultsOf_cons hi] at h
      rcases List.mem_cons.mp h with rfl | h
      · exact ⟨hi,r,List.mem_cons_self,rfl⟩
      · obtain ⟨hne,r',hr',hitem⟩ := ih h
        exact ⟨hne,r',List.mem_cons_of_mem _ hr',hitem⟩

theorem rowsOf_eq (rs : List Reading) :
    Inference.rowsOf rs = (resultsOf rs).filterMap Item.row? := by
  induction rs with
  | nil => rfl
  | cons r rs ih =>
    cases hi : r.item <;> simp [Inference.rowsOf, resultsOf, hi, ih, List.filterMap_cons, Item.row?]

theorem firstOffence?_append (front back : List Item) :
    firstOffence? width (front ++ back) =
      (firstOffence? width front).or (firstOffence? width back) :=
  List.findSome?_append

theorem firstOffence?_of_rows (h : ∀ item ∈ items, item.isRow width = true) :
    firstOffence? width items = none := by
  refine List.findSome?_eq_none_iff.mpr fun item hmem => ?_
  obtain ⟨row,hrow,hw⟩ := Item.isRow_iff.mp (h item hmem)
  obtain ⟨record,rfl,rfl⟩ := exists_record_of_row? hrow
  exact if_pos hw

theorem IsSegment.firstOffence?_eq {rest front : List Item} {item : Item}
    (h : IsSegment width size rest (front ++ [item])) (he : item.offence? width = some e) :
    firstOffence? width (front ++ [item]) = some e := by
  have hbad : ¬ ∀ i ∈ front ++ [item], i.isRow width = true := by
    intro hall
    have hrow := hall item (by simp)
    rw [Item.not_isRow_of_offence he] at hrow
    cases hrow
  have hfront : ∀ i ∈ front, i.isRow width = true := by
    generalize hseg : front ++ [item] = seg at h hbad
    cases h with
    | full hall => exact absurd hall hbad
    | ended hall => exact absurd hall hbad
    | bad hrows =>
      -- what precedes the bad record is all of the segment but its last item
      obtain ⟨rfl,_⟩ := List.append_inj' hseg rfl
      exact hrows
  rw [firstOffence?_append, firstOffence?_of_rows hfront]
  simp [firstOffence?, he]

theorem Item.IsData.ne_panic {item : Item} (h : item.IsData) (text : String) :
    item ≠ .panic text := by
  cases h <;> simp

theorem Item.IsData.row?_ne_nil {item : Item} (h : item.IsData) : item.row? ≠ some [] := by
  cases h with
  | record h => simpa [Item.row?] using h
  | fault f => simp [Item.row?]

/-- What a read in a table of texts gives for its segment: nothing, a batch of as many rows, or the
error of what is wrong in it. -/
inductive TextAnswer (width : Nat) : List Item → Except Error (Option Batch) → Prop
  | nothing : TextAnswer width [] (.ok none)
  | batch {seg b} (hne : seg ≠ []) (hrows : b.rows = seg.length)
    (hnone : firstOffence? width seg = none) : TextAnswer width seg (.ok (some b))
  | error {seg e} (he : firstOffence? width seg = some e) : TextAnswer width seg (.error e)

theorem Answers.text {rest seg : List Item} {result : Except Error (Option Batch)}
    (h : Answers o s seg result) (hcut : IsSegment s.width size rest seg)
    (hs : s.TakesTexts s.width) (hdata : ∀ item ∈ seg, item.IsData) :
    TextAnswer s.width seg result := by
  cases h with
  | nothing => exact .nothing
  | bad he => exact .error (hcut.firstOffence?_eq he)
  | batch hne hall hb hlayout htyped =>
    refine .batch hne ?_ (firstOffence?_of_rows hall)
    rw [← (length_filterMap_row? hall).1, htyped.length_eq, Batch.rowList, length_rowsOf]
  | unconvertible hne hall he hoffends =>
    refine absurd (hoffends ?_) (not_offends_of_takesTexts hs)
    -- a row has a field, so the schema has one too
    obtain ⟨item,hmem⟩ := List.exists_mem_of_ne_nil _ hne
    obtain ⟨row,hrow,hw⟩ := Item.isRow_iff.mp (hall item hmem)
    intro hnil
    rw [Schema.width, hnil] at hw
    rw [List.eq_nil_of_length_eq_zero hw] at hrow
    exact (hdata item hmem).row?_ne_nil hrow

end Delimited

namespace DelimitedSource

/-- A source of texts reads up to the first thing that is wrong with the records, or all of them. -/
theorem drains_of_takesTexts {d : DelimitedSource} (hs : d.schema.TakesTexts d.schema.width)
    (hrs : d.records = some rs) (hsize : 1 ≤ d.batchSize) (hroom : d.batchSize < 2 ^ 60)
    (hdata : ∀ item ∈ resultsOf rs, item.IsData) :
    ∃ bs, d.Drains bs (firstOffence? d.schema.width (resultsOf rs)) ∧
      (firstOffence? d.schema.width (resultsOf rs) = none →
        (bs.map Batch.rows).sum = (resultsOf rs).length) := by
  induction hn : (resultsOf rs).length using Nat.strong_induction_on generalizing d rs with
  | _ n ih =>
    obtain ⟨seg,rs',hseg,hcut,hanswers,hread⟩ :=
      read_segment hroom hrs fun item hmem => (hdata item hmem).ne_panic
    have htext := hanswers.text hcut hs fun item hmem =>
      hdata item (hseg ▸ List.mem_append_left _ hmem)
    generalize hresult : d.read.1 = result at htext
    cases htext with
    | nothing =>
      have hnil : resultsOf rs' = [] := hcut.rest_eq_nil rfl hsize
      rw [hseg, hnil] at hn ⊢
      exact ⟨[],.ended hresult,fun _ => hn⟩
    | error he =>
      rw [hseg, firstOffence?_append, he]
      exact ⟨[],.failed hresult,by simp⟩
    | @batch _ b hne hrows hnone =>
      have hlen : (resultsOf rs).length = seg.length + (resultsOf rs').length := by
        rw [hseg, List.length_append]
      have hpos := List.length_pos_of_ne_nil hne
      have hdata' : ∀ item ∈ resultsOf rs', item.IsData := fun item hmem =>
        hdata item (hseg ▸ List.mem_append_right _ hmem)
      have hschema : d.read.2.schema = d.schema := by rw [hread]
      have hrecords : d.read.2.records = some rs' := by rw [hread]
      obtain ⟨bs,hdrains,hsum⟩ := ih (resultsOf rs').length (by omega)
        (by rw [hschema]; exact hs) hrecords (by rw [hread]; exact hsize)
        (by rw [hread]; exact hroom) hdata' rfl
      rw [hschema] at hdrains hsum
      have hfirst : firstOffence? d.schema.width (resultsOf rs) =
          firstOffence? d.schema.width (resultsOf rs') := by
        rw [hseg, firstOffence?_append, hnone]
        rfl
      rw [hfirst]
      refine ⟨b :: bs,.batch hresult hdrains,fun h => ?_⟩
      rw [List.map_cons, List.sum_cons, hsum h, hrows]
      omega

/-- A source of texts opens on a stream whose first record is as wide as its schema, unless it wants
a header and meets a fault there. -/
theorem ofRecords_cases (hs : s.width = (Inference.firstRow rs).length)
    (hpanic : ∀ r ∈ rs, ∀ text, r.item ≠ .panic text) :
    (∃ d, ofRecords s o rs = .ok d ∧ d.schema = s ∧
      d.records = some (Inference.behindHeader o rs)) ∨
    ∃ f, ofRecords s o rs = .error (.delimited f) ∧
      (resultsOf (Inference.behindHeader o rs)).head? = some (.fault f) := by
  cases rs with
  | nil =>
    refine .inl ⟨⟨s,o,defaultBatchSize,some [],0⟩,?_,rfl,rfl⟩
    cases ho : o.hasHeader <;>
      simp [ofRecords, skipHeader, ho, bind, Except.bind, pure, Except.pure]
  | cons first rest =>
    by_cases ho : o.hasHeader = true
    · cases hi : first.item with
      | panic text => exact absurd hi (hpanic first List.mem_cons_self text)
      | finished =>
        refine .inl ⟨⟨s,o,defaultBatchSize,some (first :: rest),0⟩,?_,rfl,?_⟩
        · simp [ofRecords, skipHeader, ho, hi, bind, Except.bind, pure, Except.pure]
        · rw [Inference.behindHeader_of_no_row o rest (by rw [hi]; rfl)]
      | fault f =>
        refine .inr ⟨f,by simp [ofRecords, skipHeader, ho, hi, bind, Except.bind],?_⟩
        rw [Inference.behindHeader_of_no_row o rest (by rw [hi]; rfl),
          resultsOf_cons (by simp [hi]), hi]
        rfl
      | record record =>
        rw [Inference.firstRow_of_record rest hi] at hs
        refine .inl ⟨⟨s,o,defaultBatchSize,some rest,0⟩,?_,rfl,?_⟩
        · simp [ofRecords, skipHeader, ho, hi, hs, bind, Except.bind, pure, Except.pure]
        · simp [Inference.behindHeader, ho, hi, Item.row?]
    · refine .inl ⟨⟨s,o,defaultBatchSize,some (first :: rest),0⟩,?_,rfl,?_⟩
      · simp [ofRecords, ho, bind, Except.bind, pure, Except.pure]
      · simp [Inference.behindHeader, ho]

end DelimitedSource

/-! ## Sampling against the cap -/

namespace Delimited

theorem isRow_of_firstOffence?_eq_none (hdata : ∀ item ∈ items, item.IsData)
    (h : firstOffence? width items = none) : ∀ item ∈ items, item.isRow width = true := by
  intro item hmem
  have hnone := List.findSome?_eq_none_iff.mp h item hmem
  cases hdata item hmem with
  | @record r _ =>
    by_cases hw : r.fields.length = width
    · exact Item.isRow_iff.mpr ⟨r.fields,rfl,hw⟩
    · simp [Item.offence?, hw] at hnone
  | fault f => cases hnone

/-- Where there are no more rows than a cap, the items within it show the first offence, or the cap
is reached by rows only and a fault follows. -/
theorem firstOffence?_take (hdata : ∀ item ∈ items, item.IsData) {cap : Nat}
    (hcap : (items.filterMap Item.row?).length ≤ cap) :
    firstOffence? width (items.take cap) = firstOffence? width items ∨
      ∃ f, (∀ item ∈ items.take cap, item.isRow width = true) ∧ items[cap]? = some (.fault f) := by
  have hsplit : firstOffence? width items =
      (firstOffence? width (items.take cap)).or (firstOffence? width (items.drop cap)) := by
    rw [← firstOffence?_append, List.take_append_drop]
  cases hfront : firstOffence? width (items.take cap) with
  | some e =>
    rw [hfront] at hsplit
    exact .inl hsplit.symm
  | none =>
    rw [hfront] at hsplit
    have hall := isRow_of_firstOffence?_eq_none
      (fun item hmem => hdata item (List.mem_of_mem_take hmem)) hfront
    cases hnext : items[cap]? with
    | none =>
      rw [List.drop_eq_nil_of_le (List.getElem?_eq_none_iff.mp hnext)] at hsplit
      exact .inl hsplit.symm
    | some item =>
      -- the cap is used up by rows, so what follows is none
      obtain ⟨hlt,_⟩ := List.getElem?_eq_some_iff.mp hnext
      have hcount := (length_filterMap_row? hall).1
      rw [List.length_take_of_le hlt.le] at hcount
      rw [← List.take_append_drop cap items, List.filterMap_append, List.length_append, hcount]
        at hcap
      have hnil : (items.drop cap).filterMap Item.row? = [] :=
        List.eq_nil_of_length_eq_zero (by omega)
      have hfirst : (items.drop cap)[0]? = some item := by
        rw [List.getElem?_drop, Nat.add_zero, hnext]
      have hrow := List.filterMap_eq_nil_iff.mp hnil item (List.mem_of_getElem? hfirst)
      cases hdata item (List.mem_of_getElem? hnext) with
      | record => cases hrow
      | fault f => exact .inr ⟨f,hall,rfl⟩

end Delimited

namespace Inference

theorem Sample.rowsFrom_eq (width left : Nat) (hpanic : ∀ r ∈ rs, ∀ text, r.item ≠ .panic text) :
    rowsFrom width left rs = (firstOffence? width ((resultsOf rs).take left)).elim
      (.ok (((resultsOf rs).take left).filterMap Item.row?)) .error := by
  have hahead := ahead width left rs
  induction hahead with
  | capped => rw [rowsFrom_zero]; rfl
  | atEnd hend =>
    rw [rowsFrom_atEnd hend, resultsOf_atEnd hend]
    rfl
  | @bad left r rs e he =>
    have hoffence : r.item.offence? width = some e := by
      cases hi : r.item with
      | panic text => exact absurd hi (hpanic r List.mem_cons_self text)
      | record | fault | finished => rwa [hi] at he
    have hne : r.item ≠ .finished := by
      intro hi
      rw [hi] at hoffence
      cases hoffence
    rw [rowsFrom_bad he, resultsOf_cons hne, List.take_succ_cons]
    simp [firstOffence?, hoffence]
  | @row left r rs record hi hw _ ih =>
    have hnone : r.item.offence? width = none := by simp [hi, Item.offence?, hw]
    rw [rowsFrom_row hi hw, resultsOf_cons (by simp [hi]), List.take_succ_cons,
      ih fun r hr => hpanic r (List.mem_cons_of_mem _ hr)]
    simp only [firstOffence?, List.findSome?_cons, hnone]
    cases List.findSome? (Item.offence? width) ((resultsOf rs).take left) with
    | some e => rfl
    | none => simp [hi, Item.row?, Except.map]

theorem isData_of_mem_dataItems {item : Item} (hcalm : Calm rs) (h : item ∈ dataItems o rs) :
    item.IsData := by
  obtain ⟨hne,r,hr,rfl⟩ := mem_of_mem_resultsOf h
  have hmem := mem_of_mem_behindHeader hr
  cases hi : r.item with
  | record record => exact .record fun hnil => hcalm.fields r hmem (by rw [hi, Item.row?, hnil])
  | fault f => exact .fault f
  | panic text => exact absurd hi (hcalm.noPanic r hmem text)
  | finished => exact absurd hi hne

/-- An inference fails with the first offence within its cap, and else has sampled the records
there. -/
theorem inferRecordsAlong_offence {sur : Surroundings} {moves : List Move}
    {x : Except Error Outcome} (hcap : 1 ≤ o.maxRows) (hcalm : Calm rs)
    (hx : inferRecordsAlong o sur moves rs = some x) :
    (∀ e, x = .error e ↔
      firstOffence? (firstRow rs).length ((dataItems o rs).take o.maxRows) = some e) ∧
    ∀ out, x = .ok out →
      out.rowsSampled = (((dataItems o rs).take o.maxRows).filterMap Item.row?).length := by
  have hfindings := inferRecordsAlong_findings hcalm.quiet hx
  rw [findingsOf_eq hcap, Sample.rowsFrom_eq _ _
    fun r hr => hcalm.noPanic r (mem_of_mem_behindHeader hr), ← dataItems] at hfindings
  constructor
  · intro e
    rw [← map_eq_error_iff (f := Outcome.findings), hfindings, map_eq_error_iff]
    cases firstOffence? (firstRow rs).length ((dataItems o rs).take o.maxRows) <;> simp
  · rintro out rfl
    obtain ⟨rows,hrows,hpair⟩ := map_eq_ok_iff.mp hfindings.symm
    have hcount : rows.length = out.rowsSampled := congrArg Prod.snd hpair
    rw [← hcount]
    cases hfirst : firstOffence? (firstRow rs).length ((dataItems o rs).take o.maxRows) with
    | some e =>
      rw [hfirst] at hrows
      cases hrows
    | none =>
      rw [hfirst] at hrows
      cases hrows
      rfl

theorem firstOffence?_take_dataItems (hcalm : Calm rs)
    (hcap : (rowsOf (behindHeader o rs)).length ≤ o.maxRows) (hroom : ∀ f, ¬ StopsShort o rs f) :
    firstOffence? (firstRow rs).length ((dataItems o rs).take o.maxRows) =
      firstOffence? (firstRow rs).length (dataItems o rs) := by
  rw [rowsOf_eq, ← dataItems] at hcap
  rcases firstOffence?_take (fun item => isData_of_mem_dataItems hcalm) hcap with
    hfirst | ⟨f,hrows,hnext⟩
  · exact hfirst
  · exact absurd ⟨hrows,hnext⟩ (hroom f)

theorem StopsShort.firstOffence?_eq {f : DelimitedFault} (h : StopsShort o rs f) :
    firstOffence? (firstRow rs).length (dataItems o rs) = some (.delimited f) := by
  rw [← List.take_append_drop o.maxRows (dataItems o rs), firstOffence?_append,
    firstOffence?_of_rows h.rows, List.drop_eq_getElem?_toList_append, h.next]
  rfl

end Inference

open Inference

/-- Opening a source of texts and reading it fails with the first offence, and else gives a row for
each record. -/
theorem exists_readsOut (hcalm : Calm rs) (hs : s.TakesTexts (firstRow rs).length)
    (hsize : 1 ≤ size) (hroom : size < 2 ^ 60) :
    ∃ bs, ReadsOut s o size rs bs (firstOffence? (firstRow rs).length (dataItems o rs)) ∧
      (firstOffence? (firstRow rs).length (dataItems o rs) = none →
        (bs.map Batch.rows).sum = (dataItems o rs).length) := by
  rcases DelimitedSource.ofRecords_cases (o := o) hs.width_eq hcalm.noPanic with
    ⟨d,hd,rfl,hrecords⟩ | ⟨f,hf,hhead⟩
  · have hbatch : (d.withBatchSize size).batchSize = size := Nat.max_eq_left hsize
    have htexts : d.schema.TakesTexts d.schema.width := ⟨rfl,hs.texts⟩
    obtain ⟨bs,hdrains,hsum⟩ := DelimitedSource.drains_of_takesTexts (d := d.withBatchSize size)
      htexts hrecords (by rw [hbatch]; exact hsize) (by rw [hbatch]; exact hroom)
      fun item => isData_of_mem_dataItems hcalm
    rw [← hs.width_eq]
    exact ⟨bs,.opened hd hdrains,hsum⟩
  · obtain ⟨rest,hdata⟩ := List.head?_eq_some_iff.mp hhead
    have hfirst : firstOffence? (firstRow rs).length (dataItems o rs) =
        some (.delimited f) := by
      rw [dataItems, hdata]
      rfl
    rw [hfirst]
    exact ⟨[],.refused hf,by simp⟩

/-! ## Inputs -/

namespace Delimited

theorem panic_of_mem_readingsFrom {delimiter : UInt8} {scan : Scan} {first fired : Bool}
    {input : List Chunk} {r : Reading} {text : String}
    (h : r ∈ readingsFrom delimiter scan first fired input) (hi : r.item = .panic text) :
    .panic text ∈ input := by
  have hscan (scan : Scan) : scan.item ≠ .panic text := by
    unfold Scan.item
    split <;> simp
  induction input generalizing scan first fired with
  | nil =>
    simp only [readingsFrom] at h
    split at h
    · obtain rfl := List.mem_singleton.mp h
      cases hi
    · rcases List.mem_cons.mp h with rfl | h
      · exact absurd hi (hscan scan)
      · obtain rfl := List.mem_singleton.mp h
        cases hi
  | cons c cs ih =>
    cases c with
    | bytes bs =>
      refine List.mem_cons_of_mem _ ?_
      simp only [readingsFrom] at h
      generalize (if first then dropMark scan bs else (scan, bs)) = start at h
      split at h
      · split at h
        · obtain rfl := List.mem_singleton.mp h
          cases hi
        · rcases List.mem_cons.mp h with rfl | h
          · exact absurd hi (hscan _)
          · exact ih h
      · rcases List.mem_append.mp h with h | h
        · obtain ⟨_,scan',hs⟩ := mem_scanBytes h
          exact absurd (hs.symm.trans hi) (hscan scan')
        · exact ih h
    | error t =>
      simp only [readingsFrom] at h
      rcases List.mem_cons.mp h with rfl | h
      · cases hi
      · obtain rfl := List.mem_singleton.mp h
        cases hi
    | panic t =>
      obtain rfl := List.mem_singleton.mp h
      cases hi
      exact List.mem_cons_self
    | cancel => exact List.mem_cons_of_mem _ (ih h)

/-- An input during which nobody cancels and nothing panics is read as a calm stream. -/
theorem calm_readings {delimiter : UInt8} {input : List Chunk} (hc : .cancel ∉ input)
    (hp : ∀ text, .panic text ∉ input) : Calm (readings delimiter input) where
  quiet := fun _ hr => readings_quiet hc hr
  noPanic := fun _ hr text hi => hp text (panic_of_mem_readingsFrom hr hi)
  fields := fun _ hr => readings_row?_ne_nil hr

end Delimited

/-- Whether a text is inferred from or read as texts, it is rejected for the same reason. Where the
cap leaves room for all rows, an inference and a source of as many nullable texts as the first
record has fields fail with one and the same error, whatever the workers do and the size of the
batches, and they fail together: where inference succeeds, the source gives as many rows as were
sampled. The one exception is a stream in which the cap is used up by rows and a fault follows.
There inference does not ask for more, and only the source meets the fault. All sizes are within the
limits of the machine. -/
theorem inference_rejects_as_reading_does {schema : Schema} (hv : o.validate = .ok ())
    (hcalm : Calm rs) (hcap : (Inference.rowsOf (behindHeader o rs)).length ≤ o.maxRows)
    (hs : schema.TakesTexts (firstRow rs).length) (hsize : 1 ≤ size) (hroom : size < 2 ^ 60)
    (sur : Surroundings) (hworkers : o.workerCount sur.processors < 2 ^ 63)
    (hbatch : o.batchSize < 2 ^ 60) :
    ∃ bs e?, (∀ bs' e?', ReadsOut schema o size rs bs' e?' ↔ bs' = bs ∧ e?' = e?) ∧
      (∃ moves x, inferRecordsAlong o sur moves rs = some x) ∧
      (∀ moves x, inferRecordsAlong o sur moves rs = some x →
        ((∀ f, ¬ StopsShort o rs f) →
          (∀ e, x = .error e ↔ e? = some e) ∧
          ∀ out, x = .ok out → (bs.map Batch.rows).sum = out.rowsSampled) ∧
        ∀ f, StopsShort o rs f →
          (∃ out, x = .ok out ∧ out.rowsSampled = o.maxRows) ∧ e? = some (.delimited f)) ∧
      ∀ delimiter input, o.delimiterByte = .ok delimiter → rs = readings delimiter input →
        DelimitedSource.ofInput schema o input = DelimitedSource.ofRecords schema o rs ∧
        ∀ moves x, inferAlong o sur false moves input = some x ↔
          inferRecordsAlong o sur moves rs = some x ∧ Machine.infer o sur false input = .ok x := by
  obtain ⟨bs,hreads,hsum⟩ := exists_readsOut (o := o) hcalm hs hsize hroom
  refine ⟨bs,_,fun bs' e?' => ⟨hreads.unique,?_⟩,
    exists_inferRecordsAlong (canMove_nil o sur rs),fun moves x hx => ?_,?_⟩
  · rintro ⟨rfl,rfl⟩
    exact hreads
  · obtain ⟨herror,hok⟩ := inferRecordsAlong_offence (one_le_of_validate hv).1 hcalm hx
    constructor
    · intro hroom
      rw [firstOffence?_take_dataItems hcalm hcap hroom] at herror
      refine ⟨herror,?_⟩
      rintro out rfl
      have hnone : firstOffence? (firstRow rs).length (dataItems o rs) = none :=
        Option.eq_none_iff_forall_ne_some.mpr fun e he => by cases (herror e).mpr he
      have hall := isRow_of_firstOffence?_eq_none
        (fun item => isData_of_mem_dataItems hcalm) hnone
      have hlen := (length_filterMap_row? hall).1
      rw [rowsOf_eq, ← dataItems, hlen] at hcap
      rw [hsum hnone, hok out rfl, List.take_of_length_le hcap, hlen]
    · intro f hshort
      refine ⟨?_,hshort.firstOffence?_eq⟩
      rw [firstOffence?_of_rows hshort.rows] at herror
      obtain ⟨hlt,_⟩ := List.getElem?_eq_some_iff.mp hshort.next
      cases x with
      | error e => cases (herror e).mp rfl
      | ok out =>
        refine ⟨out,rfl,?_⟩
        rw [hok out rfl, (length_filterMap_row? hshort.rows).1, List.length_take_of_le hlt.le]
  · rintro delimiter input hd rfl
    have hcheck : check o false = .ok delimiter := by
      simp [check, hv, hd, bind, Except.bind]
    refine ⟨?_,fun moves x => ⟨fun hx => ⟨?_,?_⟩,fun hx => ?_⟩⟩
    · simp [DelimitedSource.ofInput, hv, hd, bind, Except.bind]
    · simpa only [inferAlong, hcheck] using hx
    · rw [infer_of_inferAlong hx]
      exact Machine.infer_of_lt hworkers hbatch
    · simpa only [inferAlong, hcheck] using hx.1

/-- A row with a field too few fails both with its line and the two numbers of fields. -/
theorem inference_rejects_as_reading_does_shortRow :
    let o : Options := { maxRows := 2 }
    let rs := readings 44 [.bytes [97, 44, 98, 10, 49, 44, 50, 10, 51, 10]]
    let schema : Schema := { fields := [⟨"a",.string,true⟩, ⟨"b",.string,true⟩] }
    inferRecordsAlong o ⟨2,"now"⟩ (Pool.roundRobin 2 0) rs = some (.error (.rowArity 3 2 1)) ∧
      ∃ bs, ReadsOut schema o 1 rs bs (some (.rowArity 3 2 1)) := by
  intro o rs schema
  have hs : schema.TakesTexts (firstRow rs).length := ⟨rfl,by decide⟩
  have hcalm : Calm rs := calm_readings (by decide) (by simp)
  have hx : inferRecordsAlong o ⟨2,"now"⟩ (Pool.roundRobin 2 0) rs =
      some (.error (.rowArity 3 2 1)) := rfl
  have hroom (f : DelimitedFault) : ¬ StopsShort o rs f := by
    intro h
    have hnone : (dataItems o rs)[2]? = none := rfl
    rw [h.next] at hnone
    cases hnone
  obtain ⟨bs,e?,hreads,_,hsame,_⟩ := inference_rejects_as_reading_does (o := o) rfl hcalm
    (by decide) hs (Nat.le_refl 1) (by decide) ⟨2,"now"⟩ (by decide) (by decide)
  obtain ⟨herror,_⟩ := (hsame _ _ hx).1 hroom
  obtain rfl := (herror _).mp rfl
  exact ⟨hx,bs,(hreads _ _).mpr ⟨rfl,rfl⟩⟩

/-- One row, which is all that inference may look at, and then the file fails. -/
theorem inference_accepts_text_that_reading_rejects :
    let o : Options := { maxRows := 1, nullValues := ["x"] }
    let input : List Chunk := [.bytes [97, 10, 120, 10], .error (.described "boom")]
    let rs := readings 44 input
    let schema : Schema := { fields := [⟨"a",.string,true⟩] }
    o.validate = .ok () ∧ (Inference.rowsOf (behindHeader o rs)).length ≤ o.maxRows ∧
      schema.TakesTexts (firstRow rs).length ∧
      (∃ out, infer o ⟨1,"now"⟩ false input = .ok out ∧ out.schema.fields = schema.fields ∧
        out.rowsSampled = 1) ∧
      ∃ d bs, DelimitedSource.ofInput schema o input = .ok d ∧
        (d.withBatchSize 1).Drains bs (some (.delimited (.file (.described "boom")))) := by
  intro o input rs schema
  have hs : schema.TakesTexts (firstRow rs).length := ⟨rfl,by decide⟩
  exact ⟨rfl,by decide,hs,⟨_,rfl,rfl,rfl⟩,_,_,rfl,.batch rfl (.failed rfl)⟩

end Tabular
