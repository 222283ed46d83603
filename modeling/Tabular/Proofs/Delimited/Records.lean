import Tabular.Source.Delimited

/-! # Rows in a stream of records

A record has a field at least. A stretch of a stream that begins with some rows is taken off it in
segments of any size, up to the last of these rows and, when nothing follows them, past it.
-/
namespace Tabular
open Delimited

/-- Batches of one size but for a last one that may be smaller, none of them empty. -/
inductive Sized {α : Type} (size : Nat) : List (List α) → Prop
  | nil : Sized size []
  | last {b} (hne : b ≠ []) (hle : b.length ≤ size) : Sized size [b]
  | cons {b bs} (hb : b.length = size) (h : Sized size bs) : Sized size (b :: bs)

namespace Delimited

def Item.row? : Item → Option (List String)
  | .record found => some found.fields
  | _ => none

/-- What is wrong with an item where a record of some width is wanted: it is a fault, or it has
another width. -/
def Item.offence? (width : Nat) : Item → Option Error
  | .record found =>
    if found.fields.length = width then none
    else some (.rowArity found.line width found.fields.length)
  | .fault f => some (.delimited f)
  | .panic _ | .finished => none

theorem length_textsFrom {n : Nat} {fields : List (List UInt8)} {texts : List String}
    (h : textsFrom n fields = .ok texts) : texts.length = fields.length := by
  induction fields generalizing n texts with
  | nil => cases h; rfl
  | cons field fields ih =>
    simp only [textsFrom] at h
    split at h
    · cases h
    · cases hr : textsFrom (n + 1) fields with
      | error e => rw [hr] at h; cases h
      | ok rest =>
        rw [hr] at h
        cases h
        simp [ih hr]

/-- A record that a scan ends with has a field. -/
theorem Scan.row?_ne_nil (s : Scan) : s.item.row? ≠ some [] := by
  intro h
  unfold Scan.item at h
  split at h
  · next fields hf =>
    have hl := length_textsFrom hf
    obtain rfl : fields = [] := Option.some.inj h
    simp [Scan.close] at hl
  · cases h

variable {delimiter : UInt8} {r : Reading}

/-- A reading that a chunk of bytes brings is an item of a scan, and has the flag of a request from
before or none. -/
theorem mem_scanBytes {s : Scan} {fired : Bool} {bs : List UInt8}
    (h : r ∈ (scanBytes delimiter s fired bs).1) :
    (r.fired = true → fired = true) ∧ ∃ s' : Scan, r.item = s'.item := by
  induction bs generalizing s fired with
  | nil => cases h
  | cons b bs ih =>
    simp only [scanBytes] at h
    split at h
    · rcases List.mem_cons.mp h with rfl | h
      · exact ⟨fun hf => hf,_,rfl⟩
      · obtain ⟨hf,hs⟩ := ih h
        exact ⟨fun hr => absurd (hf hr) Bool.false_ne_true,hs⟩
    · exact ih h

theorem fired_of_scanBytes {s : Scan} {fired : Bool} {bs : List UInt8}
    (h : (scanBytes delimiter s fired bs).2.2 = true) : fired = true := by
  induction bs generalizing s fired with
  | nil => exact h
  | cons b bs ih =>
    simp only [scanBytes] at h
    split at h
    · exact absurd (ih h) Bool.false_ne_true
    · exact ih h

/-- A reading holds an item of a scan or no record, and is flagged only after a cancellation. -/
theorem mem_readingsFrom {s : Scan} {first fired : Bool} {input : List Chunk}
    (h : r ∈ readingsFrom delimiter s first fired input) :
    (r.fired = true → fired = true ∨ .cancel ∈ input) ∧
      (r.item.row? = none ∨ ∃ s' : Scan, r.item = s'.item) := by
  induction input generalizing s first fired with
  | nil =>
    simp only [readingsFrom] at h
    split at h
    · obtain rfl := List.mem_singleton.mp h
      exact ⟨.inl,.inl rfl⟩
    · rcases List.mem_cons.mp h with rfl | h
      · exact ⟨.inl,.inr ⟨s,rfl⟩⟩
      · obtain rfl := List.mem_singleton.mp h
        exact ⟨fun hr => absurd hr Bool.false_ne_true,.inl rfl⟩
  | cons c cs ih =>
    have hcs : Chunk.cancel ∈ cs → Chunk.cancel ∈ c :: cs := List.mem_cons_of_mem c
    cases c with
    | bytes bs =>
      simp only [readingsFrom] at h
      generalize (if first then dropMark s bs else (s, bs)) = start at h
      split at h
      · split at h
        · obtain rfl := List.mem_singleton.mp h
          exact ⟨.inl,.inl rfl⟩
        · rcases List.mem_cons.mp h with rfl | h
          · exact ⟨.inl,.inr ⟨_,rfl⟩⟩
          · obtain ⟨hf,hs⟩ := ih h
            exact ⟨fun hr => .inr (hcs ((hf hr).resolve_left Bool.false_ne_true)),hs⟩
      · rcases List.mem_append.mp h with h | h
        · obtain ⟨hf,hs⟩ := mem_scanBytes h
          exact ⟨fun hr => .inl (hf hr),.inr hs⟩
        · obtain ⟨hf,hs⟩ := ih h
          exact ⟨fun hr => (hf hr).imp fired_of_scanBytes hcs,hs⟩
    | error t =>
      simp only [readingsFrom] at h
      rcases List.mem_cons.mp h with rfl | h
      · exact ⟨.inl,.inl rfl⟩
      · obtain rfl := List.mem_singleton.mp h
        exact ⟨fun hr => absurd hr Bool.false_ne_true,.inl rfl⟩
    | panic t =>
      obtain rfl := List.mem_singleton.mp h
      exact ⟨.inl,.inl rfl⟩
    | cancel =>
      obtain ⟨_,hs⟩ := ih h
      exact ⟨fun _ => .inr List.mem_cons_self,hs⟩

theorem exists_record_of_row? {item : Item} {row : List String} (h : item.row? = some row) :
    ∃ record, item = .record record ∧ record.fields = row := by
  cases item with
  | record record => exact ⟨record,rfl,Option.some.inj h⟩
  | finished | fault | panic => cases h

/-- A record of an input has a field. -/
theorem readings_row?_ne_nil {input : List Chunk} (h : r ∈ readings delimiter input) :
    r.item.row? ≠ some [] := by
  rcases (mem_readingsFrom h).2 with hn | ⟨s,hs⟩
  · simp [hn]
  · rw [hs]
    exact s.row?_ne_nil

/-- Without a cancellation in the input no request for a record meets one. -/
theorem readings_quiet {input : List Chunk} (hc : .cancel ∉ input)
    (h : r ∈ readings delimiter input) : r.fired = false := by
  rw [Bool.eq_false_iff]
  intro hf
  rcases (mem_readingsFrom h).1 hf with hn | hmem
  · cases hn
  · exact hc hmem

def AtEnd (rs : List Reading) : Prop := ∀ r ∈ rs.head?, r.item = .finished

/-- A stream that begins with some rows of a width; `rest` is what follows them. -/
inductive Begins (width : Nat) (rest : List Reading) : List Reading → List (List String) → Prop
  | done : Begins width rest rest []
  | row {r rs row rows} (hr : r.item.row? = some row) (hw : row.length = width)
      (h : Begins width rest rs rows) : Begins width rest (r :: rs) (row :: rows)

variable {width : Nat} {rest rs : List Reading} {row : List String}
variable {rows rows' : List (List String)}

theorem Begins.length_row (h : Begins width rest rs rows) : ∀ row ∈ rows, row.length = width := by
  induction h with
  | done => simp
  | row hr hw _ ih =>
    intro row hmem
    rcases List.mem_cons.mp hmem with rfl | hmem
    · exact hw
    · exact ih row hmem

theorem Begins.exists_reading (h : Begins width rest rs rows) (hrow : row ∈ rows) :
    ∃ r ∈ rs, r.item.row? = some row := by
  induction h with
  | done => cases hrow
  | @row r rs first rows hr hw _ ih =>
    rcases List.mem_cons.mp hrow with rfl | hmem
    · exact ⟨r,List.mem_cons_self,hr⟩
    · obtain ⟨r',hr',hrow'⟩ := ih hmem
      exact ⟨r',List.mem_cons_of_mem _ hr',hrow'⟩

/-- Rows in front of which others stand. -/
theorem Begins.split (h : Begins width rest rs (rows ++ rows')) :
    ∃ mid, Begins width mid rs rows ∧ Begins width rest mid rows' := by
  induction rows generalizing rs with
  | nil => exact ⟨rs,.done,h⟩
  | cons row rows ih =>
    cases h with
    | row hr hw h =>
      obtain ⟨mid,hfront,hback⟩ := ih h
      exact ⟨mid,.row hr hw hfront,hback⟩

end Delimited

open Delimited
variable {width : Nat} {rest rs : List Reading} {rows : List (List String)}

theorem takeSegment_finished (h : AtEnd rs) (width n : Nat) (done : List (List String))
    (fired : Bool) :
    (takeSegment width n done fired rs).segment = .rows done.reverse ∧
      (AtEnd (takeSegment width n done fired rs).rest) := by
  cases n with
  | zero => exact ⟨rfl,h⟩
  | succ n =>
    cases rs with
    | nil => exact ⟨rfl,h⟩
    | cons r rs =>
      have hr : r.item = .finished := h r rfl
      simp [takeSegment, hr, AtEnd]

/-- A segment first takes the rows that a stream begins with. -/
theorem takeSegment_begins (h : Begins width rest rs rows) (m : Nat) (done : List (List String))
    (fired : Bool) :
    ∃ fired', takeSegment width (rows.length + m) done fired rs =
      takeSegment width m (rows.reverse ++ done) fired' rest := by
  induction h generalizing done fired with
  | done => exact ⟨fired,by simp⟩
  | @row r rs row rows hr hw _ ih =>
    have hlen : (row :: rows).length + m = rows.length + m + 1 := by
      rw [List.length_cons]
      omega
    rw [hlen, List.reverse_cons, List.append_assoc]
    cases hi : r.item with
    | record record =>
      rw [hi] at hr
      obtain rfl : record.fields = row := Option.some.inj hr
      simp only [takeSegment, hi, hw, if_true]
      exact ih (record.fields :: done) (fired || r.fired)
    | fault f => rw [hi] at hr; cases hr
    | panic text => rw [hi] at hr; cases hr
    | finished => rw [hi] at hr; cases hr

/-- How a segment ends that has taken some rows and could take `left` more: what it finds in front
of it, what it comes to, and what it leaves. -/
inductive Stops (width left : Nat) (rows : List (List String)) :
    List Reading → Segment → List Reading → Prop
  | full {rs : List Reading} (hl : left = 0) : Stops width left rows rs (.rows rows) rs
  | ended {rs rest : List Reading} (hl : 0 < left) (he : AtEnd rs) (hrest : AtEnd rest) :
    Stops width left rows rs (.rows rows) rest
  | fault {r : Reading} {rest : List Reading} {f : DelimitedFault} (hl : 0 < left)
    (hi : r.item = .fault f) :
    Stops width left rows (r :: rest) (.bad (.delimited f)) rest
  | uneven {r : Reading} {rest : List Reading} {record : Record} (hl : 0 < left)
    (hi : r.item = .record record) (hw : record.fields.length ≠ width) :
    Stops width left rows (r :: rest) (.bad (.rowArity record.line width record.fields.length)) rest
  | panics {r : Reading} {rest : List Reading} {text : String} (hl : 0 < left)
    (hi : r.item = .panic text) :
    Stops width left rows (r :: rest) (.panicked text) rest

/-- All that a segment can do: it takes rows of the right width and stops for one reason. -/
theorem takeSegment_stops (width n : Nat) (done : List (List String)) (fired : Bool)
    (rs : List Reading) :
    ∃ rows mid, Begins width mid rs rows ∧ rows.length ≤ n ∧
      Stops width (n - rows.length) (done.reverse ++ rows) mid
        (takeSegment width n done fired rs).segment (takeSegment width n done fired rs).rest := by
  induction rs generalizing n done fired with
  | nil =>
    refine ⟨[],[],.done,Nat.zero_le n,?_⟩
    rw [List.append_nil]
    cases n with
    | zero => exact .full rfl
    | succ n => exact .ended (Nat.succ_pos n) (by simp [AtEnd]) (by simp [takeSegment, AtEnd])
  | cons r rs ih =>
    cases n with
    | zero =>
      refine ⟨[],r :: rs,.done,Nat.zero_le 0,?_⟩
      rw [List.append_nil]
      exact .full rfl
    | succ n =>
      cases hi : r.item with
      | finished =>
        refine ⟨[],r :: rs,.done,Nat.zero_le _,?_⟩
        simp only [takeSegment, hi, List.append_nil]
        exact .ended (Nat.succ_pos n) (by simp [AtEnd, hi]) (by simp [AtEnd])
      | fault f =>
        refine ⟨[],r :: rs,.done,Nat.zero_le _,?_⟩
        simp only [takeSegment, hi]
        exact .fault (Nat.succ_pos n) hi
      | panic text =>
        refine ⟨[],r :: rs,.done,Nat.zero_le _,?_⟩
        simp only [takeSegment, hi]
        exact .panics (Nat.succ_pos n) hi
      | record record =>
        by_cases hw : record.fields.length = width
        · obtain ⟨rows,mid,hbegins,hle,hstops⟩ := ih n (record.fields :: done) (fired || r.fired)
          refine ⟨record.fields :: rows,mid,.row (by rw [hi]; rfl) hw hbegins,
            Nat.succ_le_succ hle,?_⟩
          rw [List.length_cons, Nat.add_sub_add_right]
          simp only [takeSegment, hi, hw, if_true]
          rwa [List.reverse_cons, List.append_assoc] at hstops
        · refine ⟨[],r :: rs,.done,Nat.zero_le _,?_⟩
          simp only [takeSegment, hi, hw, if_false]
          exact .uneven (Nat.succ_pos n) hi hw

/-- A segment meets a panic exactly if one follows fewer rows than it asks for. -/
theorem takeSegment_panicked_iff {n : Nat} {text : String} :
    (takeSegment width n [] false rs).segment = .panicked text ↔
      ∃ rows r rest, Begins width (r :: rest) rs rows ∧ r.item = .panic text ∧ rows.length < n := by
  constructor
  · intro h
    obtain ⟨rows,mid,hbegins,_,hstops⟩ := takeSegment_stops width n [] false rs
    rw [h] at hstops
    cases hstops with
    | panics hl hi => exact ⟨rows,_,_,hbegins,hi,Nat.lt_of_sub_pos hl⟩
  · rintro ⟨rows,r,rest,hbegins,hi,hlt⟩
    obtain ⟨m,rfl⟩ : ∃ m, n = rows.length + (m + 1) := ⟨n - rows.length - 1,by omega⟩
    obtain ⟨fired,htake⟩ := takeSegment_begins hbegins (m + 1) [] false
    rw [htake]
    simp [takeSegment, hi]

/-- A segment takes the next rows off a stream, as many as it asks for or all that there are. -/
theorem takeSegment_next {n : Nat} (h : Begins width rest rs rows)
    (hn : n ≤ rows.length ∨ AtEnd rest) :
    (takeSegment width n [] false rs).segment = .rows (rows.take n) ∧
      ∃ rest', Begins width rest' (takeSegment width n [] false rs).rest (rows.drop n) ∧
        (AtEnd rest → AtEnd rest') := by
  by_cases hle : n ≤ rows.length
  · have hsplit := List.take_append_drop n rows
    rw [← hsplit] at h
    obtain ⟨mid,hfront,hback⟩ := h.split
    obtain ⟨fired',htake⟩ := takeSegment_begins hfront 0 [] false
    rw [List.length_take, Nat.min_eq_left hle, Nat.add_zero] at htake
    rw [htake]
    exact ⟨by simp [takeSegment],rest,hback,fun he => he⟩
  · have he := hn.resolve_left hle
    have hadd : n = rows.length + (n - rows.length) := by omega
    obtain ⟨fired',htake⟩ := takeSegment_begins h (n - rows.length) [] false
    obtain ⟨hrows,hrest⟩ :=
      takeSegment_finished he width (n - rows.length) (rows.reverse ++ []) fired'
    rw [← hadd] at htake
    rw [htake, List.take_of_length_le (by omega), List.drop_of_length_le (by omega)]
    exact ⟨by rw [hrows]; simp,_,.done,fun _ => hrest⟩

end Tabular
