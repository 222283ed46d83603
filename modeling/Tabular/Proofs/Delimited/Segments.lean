import Tabular.Proofs.Delimited.Conformance
import Mathlib.Algebra.GroupWithZero.Nat

/-! # A stream is read in segments

The reads of a source cut its stream of records into consecutive segments. A segment is as long as a
batch, unless it stops behind the first bad record or at the end of the stream. Bad records and rows
that make no batch cost only their own segment: the next read goes on behind it.
-/
namespace Tabular
open Delimited

namespace Delimited

def resultsOf : List Reading → List Item
  | [] => []
  | r :: rs => match r.item with
    | .finished => []
    | item => item :: resultsOf rs

def Item.isRow (width : Nat) (item : Item) : Bool := item.row?.any (·.length = width)

/-- A segment that a read may take where it wants `size` rows, if `rest` follows it. -/
inductive IsSegment (width size : Nat) (rest : List Item) : List Item → Prop
  | full {seg} (h : ∀ item ∈ seg, item.isRow width = true) (hl : seg.length = size) :
    IsSegment width size rest seg
  | bad {front item e} (h : ∀ item ∈ front, item.isRow width = true) (hl : front.length < size)
      (he : item.offence? width = some e) : IsSegment width size rest (front ++ [item])
  | ended {seg} (h : ∀ item ∈ seg, item.isRow width = true) (hl : seg.length < size)
      (hrest : rest = []) : IsSegment width size rest seg

/-- What a read of a segment gives: nothing for an empty one, the error of its bad record if it has
one, and else the batch of just its rows, unless they make none. -/
inductive Answers (o : Options) (s : Schema) : List Item → Except Error (Option Batch) → Prop
  | nothing : Answers o s [] (.ok none)
  | bad {front item e} (he : item.offence? s.width = some e) :
    Answers o s (front ++ [item]) (.error e)
  | batch {seg b} (hne : seg ≠ []) (h : ∀ item ∈ seg, item.isRow s.width = true)
      (hb : Delimited.batch o s (seg.filterMap Item.row?) = .ok b) (hlayout : b.layout = s.toLayout)
      (htyped : List.Forall₂ (RowTyped o s.fields) (seg.filterMap Item.row?) b.rowList) :
    Answers o s seg (.ok (some b))
  | unconvertible {seg e} (hne : seg ≠ []) (h : ∀ item ∈ seg, item.isRow s.width = true)
      (he : Delimited.batch o s (seg.filterMap Item.row?) = .error e)
      (hoffends : s.fields ≠ [] → Offends o s (seg.filterMap Item.row?) e) :
    Answers o s seg (.error e)

/-- The rows of a segment, none if a record of it is bad. -/
def countedRows (width : Nat) (seg : List Item) : Nat :=
  if seg.all (Item.isRow width) then seg.length else 0

variable {o : Options} {s : Schema} {width size : Nat} {rs rest : List Reading} {seg : List Item}
variable {rows : List (List String)} {item : Item} {e : Error}

theorem resultsOf_cons {r : Reading} (h : r.item ≠ .finished) :
    resultsOf (r :: rs) = r.item :: resultsOf rs := by
  cases hi : r.item with
  | finished => exact absurd hi h
  | record | fault | panic => simp [resultsOf, hi]

theorem resultsOf_atEnd (h : AtEnd rs) : resultsOf rs = [] := by
  cases rs with
  | nil => rfl
  | cons r rs => simp [resultsOf, h r rfl]

theorem Item.isRow_iff :
    item.isRow width = true ↔ ∃ row, item.row? = some row ∧ row.length = width := by
  simp [Item.isRow, Option.any_eq_true]

theorem Begins.resultsOf (h : Begins width rest rs rows) : ∃ front,
    resultsOf rs = front ++ resultsOf rest ∧ front.filterMap Item.row? = rows ∧
      front.length = rows.length ∧ ∀ item ∈ front, item.isRow width = true := by
  induction h with
  | done => exact ⟨[],rfl,rfl,rfl,by simp⟩
  | @row r rs row rows hr hw h ih =>
    obtain ⟨front,hfront,hrows,hlen,hall⟩ := ih
    have hne : r.item ≠ .finished := by
      intro hi
      rw [hi] at hr
      cases hr
    refine ⟨r.item :: front,?_,?_,?_,?_⟩
    · rw [resultsOf_cons hne, hfront]
      rfl
    · rw [List.filterMap_cons, hr, hrows]
    · rw [List.length_cons, List.length_cons, hlen]
    · intro item hmem
      rcases List.mem_cons.mp hmem with rfl | hmem
      · exact Item.isRow_iff.mpr ⟨row,hr,hw⟩
      · exact hall item hmem

/-- A stream of rows only begins with all of them. -/
theorem begins_of_isRow (h : ∀ item ∈ resultsOf rs, item.isRow width = true) :
    ∃ rest, Begins width rest rs ((resultsOf rs).filterMap Item.row?) ∧ AtEnd rest := by
  induction rs with
  | nil => exact ⟨[],.done,by simp [AtEnd]⟩
  | cons r rs ih =>
    by_cases hi : r.item = .finished
    · have hend : AtEnd (r :: rs) := by simp [AtEnd, hi]
      rw [resultsOf_atEnd hend]
      exact ⟨r :: rs,.done,hend⟩
    · rw [resultsOf_cons hi] at h ⊢
      obtain ⟨row,hr,hw⟩ := Item.isRow_iff.mp (h r.item List.mem_cons_self)
      obtain ⟨rest,hbegins,hend⟩ := ih fun item hmem => h item (List.mem_cons_of_mem _ hmem)
      refine ⟨rest,?_,hend⟩
      rw [List.filterMap_cons, hr]
      exact .row hr hw hbegins

theorem length_filterMap_row? (h : ∀ item ∈ seg, item.isRow width = true) :
    (seg.filterMap Item.row?).length = seg.length ∧
      ∀ row ∈ seg.filterMap Item.row?, row.length = width := by
  constructor
  · rw [List.length_filterMap_eq_countP, List.countP_eq_length]
    intro item hmem
    obtain ⟨row,hr,_⟩ := Item.isRow_iff.mp (h item hmem)
    rw [hr]
    rfl
  · intro row hmem
    obtain ⟨item,hitem,hr⟩ := List.mem_filterMap.mp hmem
    obtain ⟨row',hr',hw⟩ := Item.isRow_iff.mp (h item hitem)
    rw [hr] at hr'
    cases hr'
    exact hw

theorem Item.not_isRow_of_offence (he : item.offence? width = some e) :
    item.isRow width = false := by
  cases item with
  | record record =>
    simp only [Item.offence?] at he
    split at he
    · cases he
    · next hw => simpa [Item.isRow, Item.row?] using hw
  | fault | panic | finished => rfl

/-- An empty segment is the end. -/
theorem IsSegment.rest_eq_nil {rest : List Item} (h : IsSegment width size rest seg)
    (hseg : seg = []) (hsize : 1 ≤ size) : rest = [] := by
  cases h with
  | full _ hl =>
    rw [hseg, List.length_nil] at hl
    omega
  | bad => simp at hseg
  | ended _ _ hrest => exact hrest

theorem fields_ne_nil_of_batch {b : Batch} (h : batch o s rows = .ok b) : s.fields ≠ [] := by
  intro hs
  have hcolumns : columns o s.fields rows = .ok [] := by rw [hs]; rfl
  have hwidth : 0 = s.toLayout.width := by rw [Schema.width_toLayout, Schema.width, hs]; rfl
  simp [batch, hcolumns, bind, Except.bind, Batch.ofColumns, hwidth] at h

theorem answers_of_rows (hne : seg ≠ []) (h : ∀ item ∈ seg, item.isRow s.width = true) :
    Answers o s seg ((batch o s (seg.filterMap Item.row?)).map some) := by
  obtain ⟨hlen,hw⟩ := length_filterMap_row? h
  have hrows : seg.filterMap Item.row? ≠ [] := by
    intro hnil
    rw [hnil] at hlen
    exact hne (List.eq_nil_of_length_eq_zero hlen.symm)
  cases hb : batch o s (seg.filterMap Item.row?) with
  | ok b =>
    have hs := fields_ne_nil_of_batch hb
    exact .batch hne h hb (layout_of_batch hb) (typed_of_batch hs hrows hw hb)
  | error e => exact .unconvertible hne h hb fun hs => offends_of_batch hs hw hb

end Delimited

namespace DelimitedSource
variable {d : DelimitedSource} {rs : List Reading} {seg : List Item} {item : Item} {e : Error}

theorem read_of_rows (hrs : d.records = some rs)
    (h : ∀ item ∈ seg, item.isRow d.schema.width = true)
    (hseg : (d.stretch rs).segment =
      .rows (seg.filterMap Item.row?)) :
    Answers d.options d.schema seg d.read.1 ∧
      d.read.2 = { d with
        records := some (d.stretch rs).rest
        rowsRead := d.rowsRead + countedRows d.schema.width seg } := by
  have hcount : countedRows d.schema.width seg = seg.length := if_pos (List.all_eq_true.mpr h)
  obtain ⟨hlen,_⟩ := length_filterMap_row? h
  rw [hcount]
  cases hrows : seg.filterMap Item.row? with
  | nil =>
    rw [hrows] at hseg hlen
    obtain rfl : seg = [] := List.eq_nil_of_length_eq_zero hlen.symm
    simp only [DelimitedSource.read, readWatching, hrs, hseg]
    exact ⟨.nothing,rfl⟩
  | cons row rows =>
    have hne : seg ≠ [] := by
      rintro rfl
      cases hrows
    have hanswers := answers_of_rows (o := d.options) hne h
    rw [hrows] at hseg hlen hanswers
    simp only [DelimitedSource.read, readWatching, hrs, hseg, hlen]
    cases hb : batch d.options d.schema (row :: rows) <;> rw [hb] at hanswers <;>
      exact ⟨hanswers,rfl⟩

theorem read_of_bad (seg : List Item) (hrs : d.records = some rs)
    (he : item.offence? d.schema.width = some e)
    (hseg : (d.stretch rs).segment = .bad e) :
    Answers d.options d.schema (seg ++ [item]) d.read.1 ∧
      d.read.2 = { d with
        records := some (d.stretch rs).rest
        rowsRead := d.rowsRead + countedRows d.schema.width (seg ++ [item]) } := by
  have hcount : countedRows d.schema.width (seg ++ [item]) = 0 := by
    refine if_neg fun hall => ?_
    have hrow := List.all_eq_true.mp hall item (by simp)
    rw [Item.not_isRow_of_offence he] at hrow
    cases hrow
  rw [hcount]
  simp only [DelimitedSource.read, readWatching, hrs, hseg]
  exact ⟨.bad he,rfl⟩

/-- A read takes the next segment off the stream and answers for it. -/
theorem read_segment (hroom : d.batchSize < 2 ^ 60) (hrs : d.records = some rs)
    (hpanic : ∀ item ∈ resultsOf rs, ∀ text, item ≠ .panic text) :
    ∃ seg rs', resultsOf rs = seg ++ resultsOf rs' ∧
      IsSegment d.schema.width d.batchSize (resultsOf rs') seg ∧
      Answers d.options d.schema seg d.read.1 ∧
      d.read.2 = { d with
        records := some rs'
        rowsRead := d.rowsRead + countedRows d.schema.width seg } := by
  obtain ⟨rows,mid,hbegins,hle,hstops⟩ := takeSegment_stops d.schema.width d.batchSize [] false rs
  obtain ⟨front,hfront,rfl,hlen,hall⟩ := hbegins.resultsOf
  rw [← hlen] at hle hstops
  rw [← stretch_of_lt hroom] at hstops
  generalize hseg : (d.stretch rs).segment = segment at hstops
  generalize hrest : (d.stretch rs).rest = rs' at hstops
  cases hstops with
  | full hl =>
    obtain ⟨hanswers,hread⟩ := read_of_rows hrs hall hseg
    rw [hrest] at hread
    exact ⟨front,_,hfront,.full hall (by omega),hanswers,hread⟩
  | ended hl hend hrest' =>
    obtain ⟨hanswers,hread⟩ := read_of_rows hrs hall hseg
    rw [hrest] at hread
    rw [resultsOf_atEnd hend] at hfront
    exact ⟨front,_,by rw [resultsOf_atEnd hrest', hfront],
      .ended hall (by omega) (resultsOf_atEnd hrest'),hanswers,hread⟩
  | @fault r rest f hl hi =>
    have he : r.item.offence? d.schema.width = some (.delimited f) := by rw [hi]; rfl
    obtain ⟨hanswers,hread⟩ := read_of_bad front hrs he hseg
    rw [hrest] at hread
    rw [resultsOf_cons (by simp [hi])] at hfront
    exact ⟨front ++ [r.item],_,by simpa using hfront,.bad hall (by omega) he,hanswers,hread⟩
  | @uneven r rest record hl hi hw =>
    have he : r.item.offence? d.schema.width =
        some (.rowArity record.line d.schema.width record.fields.length) := by
      simp [hi, Item.offence?, hw]
    obtain ⟨hanswers,hread⟩ := read_of_bad front hrs he hseg
    rw [hrest] at hread
    rw [resultsOf_cons (by simp [hi])] at hfront
    exact ⟨front ++ [r.item],_,by simpa using hfront,.bad hall (by omega) he,hanswers,hread⟩
  | @panics r rest text hl hi =>
    rw [resultsOf_cons (by simp [hi])] at hfront
    exact absurd hi (hpanic r.item (by simp [hfront]) text)

theorem none_iff_of_answers {result : Except Error (Option Batch)}
    (h : Answers o s seg result) : result = .ok none ↔ seg = [] := by
  cases h with
  | nothing => simp
  | bad he => simp
  | batch hne | unconvertible hne => simp [hne]

theorem ne_panic_of_rest {front : List Item} {rs' : List Reading}
    (hpanic : ∀ item ∈ resultsOf rs, ∀ text, item ≠ .panic text)
    (hsplit : resultsOf rs = front ++ resultsOf rs') :
    ∀ item ∈ resultsOf rs', ∀ text, item ≠ .panic text := by
  intro item hmem
  exact hpanic item (hsplit ▸ List.mem_append_right _ hmem)

/-- Reads, one after the other, cut the stream into segments from its start on. -/
theorem afterReads_cut (hroom : d.batchSize < 2 ^ 60) (hrs : d.records = some rs)
    (hpanic : ∀ item ∈ resultsOf rs, ∀ text, item ≠ .panic text) (n : Nat) :
    ∃ (segs : List (List Item)) (rs' : List Reading), segs.length = n ∧
      resultsOf rs = segs.flatten ++ resultsOf rs' ∧
      d.afterReads n = { d with
        records := some rs'
        rowsRead := d.rowsRead + (segs.map (countedRows d.schema.width)).sum } ∧
      ∀ (k : Nat) (seg : List Item), segs[k]? = some seg →
        IsSegment d.schema.width d.batchSize ((segs.drop (k + 1)).flatten ++ resultsOf rs') seg ∧
        Answers d.options d.schema seg (d.afterReads k).read.1 := by
  induction n with
  | zero =>
    refine ⟨[],rs,rfl,rfl,?_,by simp⟩
    obtain ⟨schema,options,batchSize,records,rowsRead⟩ := d
    obtain rfl : records = some rs := hrs
    rfl
  | succ n ih =>
    obtain ⟨segs,mid,hlen,hsplit,hafter,hsegs⟩ := ih
    have hrecords : (d.afterReads n).records = some mid := by rw [hafter]
    have hsize : (d.afterReads n).batchSize < 2 ^ 60 := by rwa [hafter]
    obtain ⟨seg,rs',hseg,hcut,hanswers,hread⟩ :=
      read_segment hsize hrecords (ne_panic_of_rest hpanic hsplit)
    simp only [hafter] at hcut hread
    rw [hafter] at hanswers
    refine ⟨segs ++ [seg],rs',by simp [hlen],by simp [hsplit, hseg],?_,fun k seg' hk => ?_⟩
    · rw [DelimitedSource.afterReads, hafter, hread]
      simp [Nat.add_assoc]
    · by_cases hlt : k < segs.length
      -- what follows an earlier segment now begins with the new one
      · rw [List.getElem?_append_left hlt] at hk
        obtain ⟨hcut',hanswers'⟩ := hsegs k seg' hk
        refine ⟨?_,hanswers'⟩
        rw [List.drop_append_of_le_length hlt, List.flatten_append, List.flatten_singleton,
          List.append_assoc, ← hseg]
        exact hcut'
      · have hk' := (List.getElem?_eq_some_iff.mp hk).1
        rw [List.length_append, List.length_singleton] at hk'
        obtain rfl : k = segs.length := by omega
        rw [List.getElem?_concat_length] at hk
        obtain rfl := Option.some.inj hk
        rw [hlen, hafter]
        refine ⟨?_,hanswers⟩
        rw [List.drop_of_length_le (by simp [hlen])]
        exact hcut

theorem afterReads_read (d : DelimitedSource) (n : Nat) :
    d.read.2.afterReads n = d.afterReads (n + 1) := by
  induction n with
  | zero => rfl
  | succ n ih => rw [DelimitedSource.afterReads, ih, ← DelimitedSource.afterReads]

/-- A stream of which no read fails has rows only, and all of them are typed. -/
theorem typed_of_no_error (hrs : d.records = some rs)
    (hpanic : ∀ item ∈ resultsOf rs, ∀ text, item ≠ .panic text) (hsize : 1 ≤ d.batchSize)
    (h : ∀ n e, (d.afterReads n).read.1 ≠ .error e) :
    (∀ item ∈ resultsOf rs, item.isRow d.schema.width = true) ∧
      (resultsOf rs ≠ [] → d.schema.fields ≠ []) ∧
      ∃ typed, List.Forall₂ (RowTyped d.options d.schema.fields)
        ((resultsOf rs).filterMap Item.row?) typed := by
  induction hn : (resultsOf rs).length using Nat.strong_induction_on generalizing d rs with
  | _ n ih =>
    obtain ⟨seg,rs',hseg,hcut,hanswers,hread⟩ := read_segment (lt_of_read hrs (h 0)) hrs hpanic
    have hnow := h 0
    generalize hresult : (d.afterReads 0).read.1 = result at hnow
    rw [show d.read.1 = result from hresult] at hanswers
    cases hanswers with
    | nothing =>
      have hnil : resultsOf rs' = [] := hcut.rest_eq_nil rfl hsize
      rw [hseg, hnil]
      exact ⟨by simp,by simp,[],.nil⟩
    | bad | unconvertible => exact absurd rfl (hnow _)
    | @batch _ b hne hall hb hlayout htyped =>
      -- a read that gives a batch takes a row at least
      have hlt : (resultsOf rs').length < n := by
        have hpos := List.length_pos_of_ne_nil hne
        rw [← hn, hseg, List.length_append]
        omega
      have hpanic' := ne_panic_of_rest hpanic hseg
      have hcalm : ∀ n e, (d.read.2.afterReads n).read.1 ≠ .error e := by
        intro n e
        rw [afterReads_read]
        exact h (n + 1) e
      obtain ⟨hrows,_,typed,hrest⟩ :=
        ih _ hlt (by rw [hread]) hpanic' (by rw [hread]; exact hsize) hcalm rfl
      simp only [hread] at hrows hrest
      rw [hseg]
      refine ⟨fun item hmem => ?_,fun _ => fields_ne_nil_of_batch hb,b.rowList ++ typed,?_⟩
      · exact (List.mem_append.mp hmem).elim (hall item) (hrows item)
      · rw [List.filterMap_append]
        exact List.rel_append htyped hrest

theorem yields_atEnd {batches : List Batch} (h : (Source.delimited d).Yields batches)
    (hrs : d.records = some rs) (hend : resultsOf rs = []) : batches = [] := by
  have hroom : d.batchSize < 2 ^ 60 := lt_of_read hrs h.read_ne_error
  obtain ⟨seg,rs',hseg,_,hanswers,_⟩ := read_segment hroom hrs (by simp [hend])
  rw [hend] at hseg
  have hnone := (none_iff_of_answers hanswers).mpr (List.append_eq_nil_iff.mp hseg.symm).1
  cases h with
  | ends => rfl
  | @gives _ b bs hread =>
    have hsome : d.read.1 = .ok (some b) := hread
    rw [hnone] at hsome
    cases hsome

/-- The batches of a source have its size but for the last, which has a row at least. -/
theorem sized_of_yields {source : Source} {batches : List Batch} (h : source.Yields batches)
    (hd : source = .delimited d) (hrs : d.records = some rs)
    (hpanic : ∀ item ∈ resultsOf rs, ∀ text, item ≠ .panic text) :
    Sized d.batchSize (batches.map Batch.rowList) := by
  induction h generalizing d rs with
  | ends => exact .nil
  | @gives source b bs hread hrest ih =>
    subst hd
    have hread' : d.read.1 = .ok (some b) := hread
    have hrest' : (Source.delimited d.read.2).Yields bs := hrest
    have hroom : d.batchSize < 2 ^ 60 := lt_of_read hrs fun e he => by simp [he] at hread'
    obtain ⟨seg,rs',hseg,hcut,hanswers,hnext⟩ := read_segment hroom hrs hpanic
    have hpanic' := ne_panic_of_rest hpanic hseg
    have hrecords : d.read.2.records = some rs' := by rw [hnext]
    have hsized := ih (d := d.read.2) rfl hrecords hpanic'
    rw [show d.read.2.batchSize = d.batchSize by rw [hnext]] at hsized
    rw [hread'] at hanswers
    cases hanswers with
    | batch hne hall hb hlayout htyped =>
      have hlen : b.rowList.length = seg.length := by
        rw [← htyped.length_eq, (length_filterMap_row? hall).1]
      cases hcut with
      | full _ hl => exact .cons (hlen.trans hl) hsized
      | @bad front item e _ _ he =>
        have hrow := hall item (by simp)
        rw [Item.not_isRow_of_offence he] at hrow
        cases hrow
      | ended _ hl hrest =>
        obtain rfl := yields_atEnd hrest' hrecords hrest
        refine .last (fun hnil => hne ?_) (by omega)
        rw [hnil] at hlen
        exact List.eq_nil_of_length_eq_zero hlen.symm

/-- The reads of an open source cut its stream into consecutive segments, as long as there can be
room for a batch. A read gives nothing exactly if its segment is empty, the error of the bad record
if there is one in it, and else the batch of just its rows, or the error of building it. What was
not taken is left for the reads to come, and the rows counted are those of the segments without a
bad record. When no read fails, the rows of all batches are the same for every size, and the batches
have this size but for the last. Where there cannot be room, a read panics before it takes anything,
and shuts the source. -/
theorem reads_cut_stream (hrs : d.records = some rs)
    (hpanic : ∀ item ∈ resultsOf rs, ∀ text, item ≠ .panic text) :
    (d.batchSize < 2 ^ 60 → ∀ n, ∃ (segs : List (List Item)) (rs' : List Reading),
      segs.length = n ∧ resultsOf rs = segs.flatten ++ resultsOf rs' ∧
      d.afterReads n = { d with
        records := some rs'
        rowsRead := d.rowsRead + (segs.map (countedRows d.schema.width)).sum } ∧
      ∀ (k : Nat) (seg : List Item), segs[k]? = some seg →
        IsSegment d.schema.width d.batchSize ((segs.drop (k + 1)).flatten ++ resultsOf rs') seg ∧
        Answers d.options d.schema seg (d.afterReads k).read.1 ∧
        ((d.afterReads k).read.1 = .ok none ↔ seg = [])) ∧
    (1 ≤ d.batchSize → (∀ n e, (d.afterReads n).read.1 ≠ .error e) →
      ∃ typed, ∀ size, 1 ≤ size → size < 2 ^ 60 → ∃ batches,
        (Source.delimited (d.withBatchSize size)).Yields batches ∧
        batches.flatMap Batch.rowList = typed ∧ Sized size (batches.map Batch.rowList)) ∧
    (2 ^ 60 ≤ d.batchSize → d.read =
      (.error (.source (.taskFailed "CSV" "capacity overflow")), { d with records := none })) := by
  refine ⟨fun hroom n => ?_,fun hsize hcalm => ?_,fun hlarge => read_of_le hlarge hrs⟩
  · obtain ⟨segs,rs',hlen,hsplit,hafter,hsegs⟩ := afterReads_cut hroom hrs hpanic n
    refine ⟨segs,rs',hlen,hsplit,hafter,fun k seg hk => ?_⟩
    obtain ⟨hcut,hanswers⟩ := hsegs k seg hk
    exact ⟨hcut,hanswers,none_iff_of_answers hanswers⟩
  · obtain ⟨hrows,hfields,typed,htyped⟩ := typed_of_no_error hrs hpanic hsize hcalm
    obtain ⟨rest,hbegins,hend⟩ := begins_of_isRow hrows
    refine ⟨typed,fun size hsize' hroom => ?_⟩
    have hmax : (d.withBatchSize size).batchSize = size := Nat.max_eq_left hsize'
    have hfields' : (resultsOf rs).filterMap Item.row? ≠ [] → d.schema.fields ≠ [] := by
      intro hne
      refine hfields fun hnil => hne ?_
      rw [hnil]
      rfl
    obtain ⟨batches,hyields,hflat,_⟩ := yields_of_typed (d := d.withBatchSize size) hrs hbegins hend
      hfields' (by omega) (by rwa [hmax]) htyped
    have hsized := sized_of_yields hyields rfl hrs hpanic
    rw [hmax] at hsized
    exact ⟨batches,hyields,hflat,hsized⟩

/-- A record with a field too many between two rows, and the two rows without it. -/
theorem reads_cut_stream_unevenRecord :
    let first : Reading := ⟨.record ⟨2,["1"]⟩,false⟩
    let uneven : Reading := ⟨.record ⟨3,["2", "x"]⟩,false⟩
    let last : Reading := ⟨.record ⟨4,["3"]⟩,false⟩
    let schema : Schema := { fields := [⟨"n",.int64,false⟩] }
    let d : DelimitedSource := ⟨schema,{},2,some [first, uneven, last],0⟩
    let d' : DelimitedSource := ⟨schema,{},2,some [first, last],0⟩
    (∃ (segs : List (List Item)) (rs' : List Reading), segs.length = 2 ∧
      [first.item, uneven.item, last.item] = segs.flatten ++ resultsOf rs' ∧
      (d.afterReads 2).rowsRead = 0 + (segs.map (countedRows 1)).sum) ∧
    d.read.1 = .error (.rowArity 3 1 2) ∧
    ∃ typed, ∀ size, 1 ≤ size → size < 2 ^ 60 → ∃ batches,
      (Source.delimited (d'.withBatchSize size)).Yields batches ∧
      batches.flatMap Batch.rowList = typed ∧ Sized size (batches.map Batch.rowList) := by
  intro first uneven last schema d d'
  refine ⟨?_,rfl,?_⟩
  · have hpanic : ∀ item ∈ resultsOf [first, uneven, last], ∀ text, item ≠ .panic text := by
      simp [resultsOf, first, uneven, last]
    obtain ⟨hcut,_⟩ := reads_cut_stream (d := d) rfl hpanic
    obtain ⟨segs,rs',hlen,hsplit,hafter,_⟩ := hcut (by decide) 2
    exact ⟨segs,rs',hlen,hsplit,by rw [hafter]; rfl⟩
  · have hpanic : ∀ item ∈ resultsOf [first, last], ∀ text, item ≠ .panic text := by
      simp [resultsOf, first, last]
    refine (reads_cut_stream (d := d') rfl hpanic).2.1 (by decide) ?_
    have hended : ∀ n, d'.afterReads (n + 1) = d'.read.2 := by
      intro n
      induction n with
      | zero => rfl
      | succ n ih =>
        rw [DelimitedSource.afterReads, ih]
        rfl
    intro n e h
    cases n with
    | zero => cases h
    | succ n =>
      rw [hended] at h
      cases h

/-- One row, and a batch of more rows than there can be room for: the row is never read. -/
theorem row_unread_without_room :
    let d : DelimitedSource := ⟨{ fields := [⟨"n",.int64,false⟩] },{},2 ^ 60,
      some [⟨.record ⟨2,["1"]⟩,false⟩],0⟩
    d.read.1 = .error (.source (.taskFailed "CSV" "capacity overflow")) ∧
      ∀ n, (d.afterReads (n + 1)).read.1 = .error (.source (.closed "CSV")) := by
  intro d
  have hread := read_of_le (d := d) (Nat.le_refl (2 ^ 60)) rfl
  refine ⟨congrArg Prod.fst hread,fun n => ?_⟩
  have hshut : d.afterReads (n + 1) = { d with records := none } := by
    induction n with
    | zero => exact congrArg Prod.snd hread
    | succ n ih =>
      rw [DelimitedSource.afterReads, ih]
      rfl
  rw [hshut]
  rfl

end DelimitedSource
end Tabular
