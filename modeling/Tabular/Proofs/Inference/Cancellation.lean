import Tabular.Proofs.Inference.Cap

/-! # Cancelled inference is all or nothing

The token is looked at before the input is read, and then whenever a batch is about to be handed
out. It may fire at any request for a record. An inference that meets it fired hands out nothing
more and is cancelled; one that never does comes to what it comes to if the token never fires.
-/
namespace Tabular
open Delimited (AtEnd Begins Chunk Item Reading Scan readings readingsFrom scanBytes)

namespace Delimited

/-- The answers of a stream if the token never fires. -/
def undisturbed (rs : List Reading) : List Reading := rs.map ({ · with fired := false })

theorem scanBytes_undisturbed (delimiter : UInt8) (s : Scan) (fired : Bool) (bs : List UInt8) :
    (scanBytes delimiter s false bs).1 = undisturbed (scanBytes delimiter s fired bs).1 ∧
      (scanBytes delimiter s false bs).2.1 = (scanBytes delimiter s fired bs).2.1 ∧
      (scanBytes delimiter s false bs).2.2 = false := by
  induction bs generalizing s fired with
  | nil => exact ⟨rfl,rfl,rfl⟩
  | cons b bs ih =>
    simp only [scanBytes]
    split
    · obtain ⟨hrs,hend⟩ := ih ((s.count b).step delimiter b).1.next false
      exact ⟨congrArg (_ :: ·) hrs,hend⟩
    · exact ih _ fired

theorem readingsFrom_undisturbed (delimiter : UInt8) (s : Scan) (first fired : Bool)
    (input : List Chunk) :
    readingsFrom delimiter s first false (input.filter (· ≠ .cancel)) =
      undisturbed (readingsFrom delimiter s first fired input) := by
  induction input generalizing s first fired with
  | nil =>
    simp only [List.filter_nil, readingsFrom]
    split <;> rfl
  | cons c cs ih =>
    cases c with
    | bytes bs =>
      simp only [ne_eq, reduceCtorEq, not_false_eq_true, decide_true, List.filter_cons_of_pos,
        readingsFrom]
      generalize (if first then dropMark s bs else (s, bs)) = start
      split
      · split
        · rfl
        · rw [ih _ _ false]
          rfl
      · obtain ⟨hrs,hscan,hfired⟩ := scanBytes_undisturbed delimiter start.1 fired start.2
        rw [hrs, hscan, hfired, ih _ _ (scanBytes delimiter start.1 fired start.2).2.2]
        exact List.map_append.symm
    | error t => rfl
    | panic t => rfl
    | cancel => exact ih s first true

/-- An input from which the cancellations are taken out is read as if the token never fired. -/
theorem readings_undisturbed (delimiter : UInt8) (input : List Chunk) :
    readings delimiter (input.filter (· ≠ .cancel)) = undisturbed (readings delimiter input) :=
  readingsFrom_undisturbed delimiter {} true false input

end Delimited

namespace Inference
open Delimited (undisturbed)
open Schema (ColumnState)

def FiredBy (fired : Bool) (rs : List Reading) (n : Nat) : Prop :=
  fired = true ∨ ∃ r ∈ rs.take n, r.fired = true

/-- When a batch is about to be handed out of a stream in front of which `count` rows were sampled:
after which further rows, and how many answers. It is then full, or there is nothing more to sample,
because of the cap or as the answer after the last row tells. -/
inductive Due (o : Options) (width count : Nat) (rs : List Reading) : List Row → Nat → Prop
  | full {rest rows} (h : Begins width rest rs rows) (hne : rows ≠ [])
      (hle : count + rows.length ≤ o.maxRows) (hd : o.batchSize ∣ count + rows.length) :
    Due o width count rs rows rows.length
  | capped {rest rows} (h : Begins width rest rs rows) (hcap : count + rows.length = o.maxRows)
      (hd : ¬ o.batchSize ∣ count + rows.length) : Due o width count rs rows rows.length
  | ended {rest rows} (h : Begins width rest rs rows) (hend : AtEnd rest)
      (hlt : count + rows.length < o.maxRows) (hd : ¬ o.batchSize ∣ count + rows.length) :
    Due o width count rs rows (rows.length + 1)

def Outcome.dated (clock : String) (out : Outcome) : Outcome :=
  { out with schema := out.schema.withMetadata "inferred_at" clock }

/-- Where sampling stands: the batch under way and its room make up a batch, and what was handed out
are whole batches. -/
structure Counted (size count room : Nat) (pending : List Row) : Prop where
  sum : room + pending.length = size
  hasRoom : 1 ≤ room
  whole : size ∣ count + room

/-- What sampling comes to, against what it comes to if the token never fires. -/
structure Watched (o : Options) (width count : Nat) (pending : List Row) (fired : Bool)
    (rs : List Reading) (x quiet : Sample) : Prop where
  outcome : (x = quiet ∧ ∀ rows n, Due o width count rs rows n → ¬ FiredBy fired rs n) ∨
    (x.outcome = .error .cancelled ∧ ∃ rows n, Due o width count rs rows n ∧ FiredBy fired rs n)
  handed : ∀ bs, bs <+: x.batches → bs ≠ [] → ∃ rows n,
    bs.flatten = pending.reverse ++ rows ∧ Due o width count rs rows n ∧ ¬ FiredBy fired rs n

variable {o : Options} {width size count room left n : Nat} {pending rows : List Row} {row : Row}
variable {fired : Bool} {r : Reading} {rs : List Reading} {x quiet : Sample}

@[simp] theorem firedBy_zero : FiredBy fired rs 0 ↔ fired = true := by
  simp [FiredBy]

theorem firedBy_one : FiredBy fired rs 1 ↔ (fired || firedFirst rs) = true := by
  cases rs <;> simp [FiredBy, firedFirst]

@[simp] theorem firedBy_cons :
    FiredBy fired (r :: rs) (n + 1) ↔ FiredBy (fired || r.fired) rs n := by
  simp [FiredBy, or_assoc]

namespace Counted

theorem start (h : 1 ≤ size) : Counted size 0 size [] :=
  ⟨rfl,h,by simp⟩

theorem nil_iff (h : Counted size count room pending) : pending = [] ↔ size ∣ count := by
  have hs := h.sum
  constructor
  · rintro rfl
    obtain rfl : room = size := hs
    exact (Nat.dvd_add_left (Nat.dvd_refl room)).mp h.whole
  · intro hd
    have hroom : size ∣ room := (Nat.dvd_add_right hd).mp h.whole
    have hle := Nat.le_of_dvd h.hasRoom hroom
    exact List.eq_nil_of_length_eq_zero (by omega)

theorem full_iff (h : Counted size count room pending) : room ≤ 1 ↔ size ∣ count + 1 := by
  have hs := h.sum
  have hroom := h.hasRoom
  constructor
  · intro hle
    obtain rfl : room = 1 := Nat.le_antisymm hle hroom
    exact h.whole
  · intro hd
    have hsplit : count + room = count + 1 + (room - 1) := by omega
    have hdvd : size ∣ room - 1 := (Nat.dvd_add_right hd).mp (hsplit ▸ h.whole)
    by_contra hlt
    have hle := Nat.le_of_dvd (by omega) hdvd
    omega

theorem next (h : Counted size count room pending) (hroom : ¬ room ≤ 1) (row : Row) :
    Counted size (count + 1) (room - 1) (row :: pending) := by
  have hs := h.sum
  refine ⟨by rw [List.length_cons]; omega,by omega,?_⟩
  have hsum : count + 1 + (room - 1) = count + room := by omega
  exact hsum ▸ h.whole

theorem handed (h : Counted size count room pending) (hroom : room ≤ 1) :
    Counted size (count + 1) size [] := by
  have hs := h.sum
  have hone := h.hasRoom
  exact ⟨rfl,by omega,Nat.dvd_add (h.full_iff.mp hroom) (Nat.dvd_refl size)⟩

end Counted

/-! ## When a batch is due -/

theorem due_capped_iff (hcap : count = o.maxRows) :
    Due o width count rs rows n ↔ rows = [] ∧ n = 0 ∧ ¬ o.batchSize ∣ count := by
  constructor
  · intro h
    cases h with
    | full h hne hle hd =>
      have hpos := List.length_pos_of_ne_nil hne
      omega
    | capped h hc hd =>
      obtain rfl : rows = [] := List.eq_nil_of_length_eq_zero (by omega)
      exact ⟨rfl,rfl,hd⟩
    | ended h hend hlt hd => omega
  · rintro ⟨rfl,rfl,hd⟩
    exact .capped .done hcap hd

theorem eq_nil_of_begins {rest : List Reading} (h : Begins width rest rs rows)
    (hbad : ∀ r ∈ rs.head?, ∀ row, r.item.row? = some row → row.length ≠ width) : rows = [] := by
  cases h with
  | done => rfl
  | row hr hw h => exact absurd hw (hbad _ rfl _ hr)

theorem due_atEnd_iff (hend : AtEnd rs) (hlt : count < o.maxRows) :
    Due o width count rs rows n ↔ rows = [] ∧ n = 1 ∧ ¬ o.batchSize ∣ count := by
  have hbad : ∀ r ∈ rs.head?, ∀ row, r.item.row? = some row → row.length ≠ width := by
    intro r hmem row hr
    rw [hend r hmem] at hr
    cases hr
  constructor
  · intro h
    cases h with
    | full h hne hle hd => exact absurd (eq_nil_of_begins h hbad) hne
    | capped h hc hd =>
      obtain rfl := eq_nil_of_begins h hbad
      exact absurd hc (Nat.ne_of_lt hlt)
    | ended h hend hlt hd =>
      obtain rfl := eq_nil_of_begins h hbad
      exact ⟨rfl,rfl,hd⟩
  · rintro ⟨rfl,rfl,hd⟩
    exact .ended .done hend hlt hd

theorem not_due_of_bad {e : Error} (he : samplingError? width r.item = some e)
    (hlt : count < o.maxRows) : ¬ Due o width count (r :: rs) rows n := by
  have hbad : ∀ r' ∈ (r :: rs).head?, ∀ row, r'.item.row? = some row → row.length ≠ width := by
    intro r' hmem row hr hw
    obtain rfl := Option.some.inj hmem
    obtain ⟨record,hi,rfl⟩ := Delimited.exists_record_of_row? hr
    simp [hi, samplingError?, Item.offence?, hw] at he
  intro h
  cases h with
  | full h hne hle hd => exact hne (eq_nil_of_begins h hbad)
  | capped h hc hd =>
    obtain rfl := eq_nil_of_begins h hbad
    exact Nat.ne_of_lt hlt hc
  | ended h hend hl hd =>
    obtain rfl := eq_nil_of_begins h hbad
    cases h
    simp [hend r rfl, samplingError?, Item.offence?] at he

/-- Nothing is ever due in a stream that does not begin with a record. -/
theorem not_due_of_no_row (hrow : ∀ r ∈ rs.head?, r.item.row? = none) (hcap : 1 ≤ o.maxRows) :
    ¬ Due o width 0 rs rows n := by
  have hbad : ∀ r ∈ rs.head?, ∀ row, r.item.row? = some row → row.length ≠ width := by
    intro r hmem row hr
    rw [hrow r hmem] at hr
    cases hr
  intro h
  cases h with
  | full h hne hle hd => exact hne (eq_nil_of_begins h hbad)
  | capped h hc hd =>
    obtain rfl := eq_nil_of_begins h hbad
    exact Nat.ne_of_lt hcap hc
  | ended h hend hl hd =>
    obtain rfl := eq_nil_of_begins h hbad
    exact hd (Nat.dvd_zero o.batchSize)

theorem add_length_cons (count : Nat) (row : Row) (rows : List Row) :
    count + (row :: rows).length = count + 1 + rows.length := by
  rw [List.length_cons]
  omega

/-- What is due behind a row is due in front of it too, one row and one answer later. -/
theorem Due.cons (hr : r.item.row? = some row) (hw : row.length = width)
    (h : Due o width (count + 1) rs rows n) : Due o width count (r :: rs) (row :: rows) (n + 1) := by
  have hadd := add_length_cons count row rows
  cases h with
  | full h hne hle hd =>
    rw [← hadd] at hle hd
    exact .full (.row hr hw h) (List.cons_ne_nil row rows) hle hd
  | capped h hcap hd =>
    rw [← hadd] at hcap hd
    exact .capped (.row hr hw h) hcap hd
  | ended h hend hlt hd =>
    rw [← hadd] at hlt hd
    exact .ended (.row hr hw h) hend hlt hd

theorem exists_begins_of_cons {rest : List Reading} (hr : r.item.row? = some row)
    (h : Begins width rest (r :: rs) rows) (hne : rows ≠ []) :
    ∃ rows', rows = row :: rows' ∧ Begins width rest rs rows' := by
  cases h with
  | done => exact absurd rfl hne
  | row hr' hw' h =>
    obtain rfl := Option.some.inj (hr.symm.trans hr')
    exact ⟨_,rfl,h⟩

theorem due_cons_iff (hr : r.item.row? = some row) (hw : row.length = width)
    (hlt : count < o.maxRows) : Due o width count (r :: rs) rows n ↔
      ∃ rows' n', rows = row :: rows' ∧ n = n' + 1 ∧
        ((rows' = [] ∧ n' = 0 ∧ o.batchSize ∣ count + 1) ∨
          Due o width (count + 1) rs rows' n') := by
  constructor
  · intro h
    cases h with
    | full h hne hle hd =>
      obtain ⟨rows',rfl,hrest⟩ := exists_begins_of_cons hr h hne
      rw [add_length_cons] at hle hd
      refine ⟨rows',rows'.length,rfl,rfl,?_⟩
      by_cases hnil : rows' = []
      · subst hnil
        exact .inl ⟨rfl,rfl,hd⟩
      · exact .inr (.full hrest hnil hle hd)
    | capped h hcap hd =>
      have hne : rows ≠ [] := by
        rintro rfl
        exact Nat.ne_of_lt hlt hcap
      obtain ⟨rows',rfl,hrest⟩ := exists_begins_of_cons hr h hne
      rw [add_length_cons] at hcap hd
      exact ⟨rows',rows'.length,rfl,rfl,.inr (.capped hrest hcap hd)⟩
    | ended h hend hl hd =>
      have hne : rows ≠ [] := by
        rintro rfl
        cases h
        rw [hend r rfl] at hr
        cases hr
      obtain ⟨rows',rfl,hrest⟩ := exists_begins_of_cons hr h hne
      rw [add_length_cons] at hl hd
      exact ⟨rows',rows'.length + 1,rfl,rfl,.inr (.ended hrest hend hl hd)⟩
  · rintro ⟨rows',n',rfl,rfl,⟨rfl,rfl,hd⟩ | h⟩
    · exact .full (.row hr hw .done) (List.cons_ne_nil row []) hlt hd
    · exact h.cons hr hw

/-! ## One step of sampling -/

theorem watched_finish {k : Nat} {fired' : Bool} (hp : pending = [] ↔ o.batchSize ∣ count)
    (hdue : ∀ {rows n}, Due o width count rs rows n ↔ rows = [] ∧ n = k ∧ ¬ o.batchSize ∣ count)
    (hfired : FiredBy fired rs k ↔ fired' = true) :
    Watched o width count pending fired rs (Sample.finish fired' pending count)
      (Sample.finish false pending count) := by
  by_cases hnil : pending = []
  · have hd := hp.mp hnil
    subst hnil
    refine ⟨.inl ⟨rfl,fun rows n h => absurd hd (hdue.mp h).2.2⟩,fun bs hbs hne => ?_⟩
    exact absurd (List.prefix_nil.mp hbs) hne
  · have hat : Due o width count rs [] k := hdue.mpr ⟨rfl,rfl,fun hd => hnil (hp.mpr hd)⟩
    cases fired' with
    | true =>
      have hx : Sample.finish true pending count = ⟨[],.error .cancelled⟩ := by
        simp [Sample.finish, hnil, Sample.handOut]
      rw [hx]
      refine ⟨.inr ⟨rfl,[],k,hat,hfired.mpr rfl⟩,fun bs hbs hne => ?_⟩
      exact absurd (List.prefix_nil.mp hbs) hne
    | false =>
      have hx : (Sample.finish false pending count).batches = [pending.reverse] := by
        simp [Sample.finish, hnil, Sample.handOut]
      have hquiet : ¬ FiredBy fired rs k := by simp [hfired]
      refine ⟨.inl ⟨rfl,fun rows n h => ?_⟩,fun bs hbs hne => ⟨[],k,?_,hat,hquiet⟩⟩
      · rw [(hdue.mp h).2.1]
        exact hquiet
      · rw [hx] at hbs
        rcases List.prefix_cons_iff.mp hbs with rfl | ⟨bs',rfl,hbs'⟩
        · exact absurd rfl hne
        · obtain rfl := List.prefix_nil.mp hbs'
          simp

theorem watched_bad {e : Error} (h : ∀ rows n, ¬ Due o width count rs rows n) :
    Watched o width count pending fired rs ⟨[],.error e⟩ ⟨[],.error e⟩ :=
  ⟨.inl ⟨rfl,fun rows n hd => absurd hd (h rows n)⟩,
    fun _ hbs hne => absurd (List.prefix_nil.mp hbs) hne⟩

/-- A row for which the batch under way has room. -/
theorem Watched.next (hr : r.item.row? = some row) (hw : row.length = width)
    (hlt : count < o.maxRows) (hd : ¬ o.batchSize ∣ count + 1)
    (h : Watched o width (count + 1) (row :: pending) (fired || r.fired) rs x quiet) :
    Watched o width count pending fired (r :: rs) x quiet := by
  have hdue {rows n} : Due o width count (r :: rs) rows n ↔ _ := due_cons_iff hr hw hlt
  constructor
  · rcases h.outcome with ⟨hx,hnone⟩ | ⟨hx,rows,n,hat,hfired⟩
    · refine .inl ⟨hx,fun rows n hat => ?_⟩
      obtain ⟨rows',n',rfl,rfl,⟨_,_,hd'⟩ | hat'⟩ := hdue.mp hat
      · exact absurd hd' hd
      · exact firedBy_cons.not.mpr (hnone rows' n' hat')
    · exact .inr ⟨hx,row :: rows,n + 1,hdue.mpr ⟨rows,n,rfl,rfl,.inr hat⟩,firedBy_cons.mpr hfired⟩
  · intro bs hbs hne
    obtain ⟨rows,n,hflat,hat,hquiet⟩ := h.handed bs hbs hne
    refine ⟨row :: rows,n + 1,?_,hdue.mpr ⟨rows,n,rfl,rfl,.inr hat⟩,firedBy_cons.not.mpr hquiet⟩
    rw [hflat, List.reverse_cons, List.append_assoc]
    rfl

/-- A row that fills the batch under way. -/
theorem Watched.handOut (hr : r.item.row? = some row) (hw : row.length = width)
    (hlt : count < o.maxRows) (hd : o.batchSize ∣ count + 1)
    (h : Watched o width (count + 1) [] (fired || r.fired) rs x quiet) :
    Watched o width count pending fired (r :: rs)
      (Sample.handOut (fired || r.fired) (row :: pending).reverse x)
      (Sample.handOut false (row :: pending).reverse quiet) := by
  have hdue {rows n} : Due o width count (r :: rs) rows n ↔ _ := due_cons_iff hr hw hlt
  have hnow : Due o width count (r :: rs) [row] 1 := hdue.mpr ⟨[],0,rfl,rfl,.inl ⟨rfl,rfl,hd⟩⟩
  cases hf : fired || r.fired with
  | true =>
    refine ⟨.inr ⟨rfl,[row],1,hnow,?_⟩,fun bs hbs hne => ?_⟩
    · rw [firedBy_cons, firedBy_zero, hf]
    · exact absurd (List.prefix_nil.mp hbs) hne
  | false =>
    rw [hf] at h
    have hquiet : ¬ FiredBy fired (r :: rs) 1 := by simp [hf]
    constructor
    · rcases h.outcome with ⟨rfl,hnone⟩ | ⟨hx,rows,n,hat,hfired⟩
      · refine .inl ⟨rfl,fun rows n hat => ?_⟩
        obtain ⟨rows',n',rfl,rfl,⟨rfl,rfl,_⟩ | hat'⟩ := hdue.mp hat
        · exact hquiet
        · rw [firedBy_cons, hf]
          exact hnone rows' n' hat'
      · refine .inr ⟨hx,row :: rows,n + 1,hdue.mpr ⟨rows,n,rfl,rfl,.inr hat⟩,?_⟩
        rw [firedBy_cons, hf]
        exact hfired
    · intro bs hbs hne
      rcases List.prefix_cons_iff.mp hbs with rfl | ⟨bs',rfl,hbs'⟩
      · exact absurd rfl hne
      · by_cases hnil : bs' = []
        · subst hnil
          exact ⟨[row],1,by simp,hnow,hquiet⟩
        · obtain ⟨rows,n,hflat,hat,hcalm⟩ := h.handed bs' hbs' hnil
          refine ⟨row :: rows,n + 1,?_,hdue.mpr ⟨rows,n,rfl,rfl,.inr hat⟩,?_⟩
          · rw [List.flatten_cons, hflat]
            simp
          · rw [firedBy_cons, hf]
            exact hcalm

/-! ## The whole of sampling -/

theorem atEnd_undisturbed (h : AtEnd rs) : AtEnd (undisturbed rs) := by
  cases rs with
  | nil => exact h
  | cons r rs => simpa [undisturbed, AtEnd] using h

theorem fired_undisturbed : ∀ r ∈ undisturbed rs, r.fired = false := by
  intro r hr
  obtain ⟨r',_,rfl⟩ := List.mem_map.mp hr
  rfl

theorem watched_takeFrom (h : Counted o.batchSize count room pending)
    (hleft : count + left = o.maxRows) :
    Watched o width count pending fired rs
      (Sample.takeFrom width o.batchSize left pending room count fired rs)
      (Sample.takeFrom width o.batchSize left pending room count false (undisturbed rs)) := by
  -- the batch under way, its room and the count move together, so that the count says what is due
  have hahead := ahead width left rs
  induction hahead generalizing pending room count fired with
  | capped =>
    rw [Sample.takeFrom_zero, Sample.takeFrom_zero]
    exact watched_finish h.nil_iff (due_capped_iff hleft) firedBy_zero
  | @atEnd left rs hend =>
    rw [Sample.takeFrom_atEnd hend, Sample.takeFrom_atEnd (atEnd_undisturbed hend),
      firedFirst_eq_false fired_undisturbed]
    exact watched_finish h.nil_iff (due_atEnd_iff hend (by omega)) firedBy_one
  | @bad left r rs e he =>
    have hquiet : samplingError? width ({ r with fired := false } : Reading).item = some e := he
    rw [Sample.takeFrom_bad he]
    rw [undisturbed, List.map_cons, Sample.takeFrom_bad hquiet]
    exact watched_bad fun _ _ => not_due_of_bad he (by omega)
  | @row left r rs record hi hw _ ih =>
    have hquiet : ({ r with fired := false } : Reading).item = .record record := hi
    have hr : r.item.row? = some record.fields := by rw [hi]; rfl
    rw [Sample.takeFrom_row hi hw]
    rw [undisturbed, List.map_cons, Sample.takeFrom_row hquiet hw, Bool.or_false]
    by_cases hroom : room ≤ 1
    · rw [if_pos hroom, if_pos hroom]
      exact (ih (h.handed hroom) (by omega)).handOut hr hw (by omega) (h.full_iff.mp hroom)
    · rw [if_neg hroom, if_neg hroom]
      exact (ih (h.next hroom record.fields) (by omega)).next hr hw (by omega)
        (h.full_iff.not.mp hroom)

/-! ## The whole of inference -/

theorem freeze_dated (o : Options) (clock clock' : String) (names : List String)
    (states : List ColumnState) (rows : Nat) :
    (freeze o clock names states rows).dated clock' = freeze o clock' names states rows := by
  simp [freeze, Outcome.dated, Schema.withMetadata, Metadata.insert_insert]

theorem settle_dated (o : Options) (s s' : Surroundings) (names : List String) (sample : Sample)
    (states : List ColumnState) :
    (settle o s' names sample states).map (Outcome.dated s.clock) =
      settle o s names sample states := by
  unfold settle
  cases sample.outcome with
  | error e => rfl
  | ok k => simp only [Except.map, freeze_dated]

theorem behindHeader_undisturbed (o : Options) (rs : List Reading) :
    behindHeader o (undisturbed rs) = undisturbed (behindHeader o rs) := by
  cases rs with
  | nil => rfl
  | cons first rest =>
    simp only [undisturbed, List.map_cons, behindHeader]
    split <;> rfl

/-- What there is to sample is the same if the token never fires, and if there is nothing then no
batch is ever due. -/
theorem sampleRecords_watched (hcap : 1 ≤ o.maxRows) (hsize : 1 ≤ o.batchSize) (rs : List Reading) :
    (sampleRecords o rs = sampleRecords o (undisturbed rs) ∧
      (∀ names sample, sampleRecords o rs ≠ .ok (some (names, sample))) ∧
      ∀ rows n, ¬ Due o (firstRow rs).length 0 (behindHeader o rs) rows n) ∨
    ∃ names x quiet, sampleRecords o rs = .ok (some (names, x)) ∧
      sampleRecords o (undisturbed rs) = .ok (some (names, quiet)) ∧
      Watched o (firstRow rs).length 0 [] (firedFirst rs) (behindHeader o rs) x quiet := by
  cases rs with
  | nil =>
    refine .inl ⟨rfl,by simp [sampleRecords],fun rows n => not_due_of_no_row ?_ hcap⟩
    simp [behindHeader]
  | cons first rest =>
    cases hrow : first.item.row? with
    | none =>
      have hdata := behindHeader_of_no_row o rest hrow
      refine .inl ⟨?_,?_,fun rows n => ?_⟩
      · cases hi : first.item with
        | record record => simp [hi, Item.row?] at hrow
        | finished | fault | panic => simp [sampleRecords, undisturbed, hi]
      · cases hi : first.item with
        | record record => simp [hi, Item.row?] at hrow
        | finished | fault | panic => simp [sampleRecords, hi]
      · rw [hdata]
        exact not_due_of_no_row (by simp [hrow]) hcap
    | some row =>
      obtain ⟨record,hi,rfl⟩ := Delimited.exists_record_of_row? hrow
      have hquiet : ({ first with fired := false } : Reading).item = .record record := hi
      have hdata := behindHeader_undisturbed o (first :: rest)
      have hwatched : Watched o record.fields.length 0 [] first.fired
          (behindHeader o (first :: rest)) (Sample.take o _ _ _) (Sample.take o _ _ _) :=
        watched_takeFrom (Counted.start hsize) (Nat.zero_add o.maxRows)
      rw [← hdata] at hwatched
      have hsample := sampleRecords_of_record o rest hi
      have hsample' := sampleRecords_of_record o (undisturbed rest) hquiet
      rw [firstRow_of_record rest hi]
      exact .inr ⟨_,_,_,hsample,hsample',hwatched⟩

/-- An inference that the token does not stop comes to what it comes to if the token never fires. -/
theorem inferRecords_watched (hv : o.validate = .ok ()) (s s' : Surroundings) (rs : List Reading) :
    (inferRecords o s rs = (inferRecords o s' (undisturbed rs)).map (Outcome.dated s.clock) ∧
      ∀ rows n, Due o (firstRow rs).length 0 (behindHeader o rs) rows n →
        ¬ FiredBy (firedFirst rs) (behindHeader o rs) n) ∨
    (inferRecords o s rs = .error .cancelled ∧
      ∃ rows n, Due o (firstRow rs).length 0 (behindHeader o rs) rows n ∧
        FiredBy (firedFirst rs) (behindHeader o rs) n) := by
  obtain ⟨hcap,hsize⟩ := one_le_of_validate hv
  unfold inferRecords
  rcases sampleRecords_watched hcap hsize rs with ⟨hsame,hnone,hdue⟩ | ⟨names,x,quiet,hx,hquiet,h⟩
  · refine .inl ⟨?_,fun rows n h => absurd h (hdue rows n)⟩
    rw [← hsame]
    cases hs : sampleRecords o rs with
    | error e => rfl
    | ok found =>
      cases found with
      | none => simp only [Except.map, freeze_dated]
      | some found => exact absurd hs (hnone found.1 found.2)
  · simp only [hx, hquiet]
    rcases h.outcome with ⟨rfl,hcalm⟩ | ⟨hx,hfired⟩
    · refine .inl ⟨?_,hcalm⟩
      rw [settle_dated, Pool.observe_eq o (one_le_workerCount o s.processors),
        Pool.observe_eq o (one_le_workerCount o s'.processors)]
    · refine .inr ⟨?_,hfired⟩
      simp only [settle, hx]
      rfl

/-- A token that never fires cancels nothing. -/
theorem undisturbed_ne_cancelled {s : Surroundings} {moves : List Move}
    {x : Except Error Outcome} (hv : o.validate = .ok ())
    (hx : inferRecordsAlong o s moves (undisturbed rs) = some x) : x ≠ .error .cancelled := by
  intro h
  have hfindings := inferRecordsAlong_findings fired_undisturbed hx
  rw [h, findingsOf_eq (one_le_of_validate hv).1] at hfindings
  obtain ⟨_,r,_,_,_,he⟩ := Sample.rowsFrom_eq_error_iff.mp (map_eq_error_iff.mp hfindings.symm)
  revert he
  cases r.item with
  | record record =>
    simp only [samplingError?, Item.offence?]
    split <;> simp
  | fault | panic | finished => simp [samplingError?, Item.offence?]

/-- A batch that has reached a worker was due, with those before it, before the token had fired. -/
theorem quiet_of_handedOut {s : Surroundings} {moves : List Move} {bs : List (List Row)}
    (hv : o.validate = .ok ()) (hmoves : CanMove o s rs moves) (hbs : bs <+: handedOut o s moves rs)
    (hne : bs ≠ []) : ∃ n, Due o (firstRow rs).length 0 (behindHeader o rs) bs.flatten n ∧
      ¬ FiredBy (firedFirst rs) (behindHeader o rs) n := by
  obtain ⟨hcap,hsize⟩ := one_le_of_validate hv
  unfold handedOut at hbs
  rcases sampleRecords_watched hcap hsize rs with ⟨_,hnone,_⟩ | ⟨names,x,quiet,hx,_,h⟩
  · split at hbs
    · next names sample hs => exact absurd hs (hnone names sample)
    · exact absurd (List.prefix_nil.mp hbs) hne
  · simp only [hx] at hbs
    obtain ⟨p,hp⟩ := Option.isSome_iff_exists.mp (hmoves names x hx)
    -- what the workers have received is the front of what was handed out
    have horder := (Pool.accounted_of_run hp).order
    rw [List.append_assoc] at horder
    have hprefix := hbs.trans (List.prefix_append _ (p.queue ++ p.waiting))
    rw [horder] at hprefix
    obtain ⟨rows,n,hflat,hdue,hcalm⟩ := h.handed bs hprefix hne
    obtain rfl : bs.flatten = rows := hflat
    exact ⟨n,hdue,hcalm⟩

/-- Cancelled inference is all or nothing. Options that are not valid are refused with their own
error, and after them a token that has fired is found before the input is read. From then on the
token may fire at any answer of the stream, and be it that the inference has begun along some
schedule. It goes on to an end, and comes either to what it comes to along any schedule if the token
never fires, but for the time, or to a cancellation; and to this exactly if the token has fired by
the time that some batch is due. No batch reaches a worker that is not due before. -/
theorem cancelled_all_or_nothing (o : Options) (s : Surroundings) :
    (∀ e, o.validate = .error e → ∀ cancelled moves input,
      inferAlong o s cancelled moves input = some (.error e)) ∧
    (o.validate = .ok () →
      (∀ moves input, inferAlong o s true moves input = some (.error .cancelled)) ∧
      ∃ delimiter, o.delimiterByte = .ok delimiter ∧ ∀ input,
        let rs := readings delimiter input
        (∀ s' moves, inferAlong o s' false moves input = inferRecordsAlong o s' moves rs) ∧
        (∀ s' moves, inferAlong o s' false moves (input.filter (· ≠ .cancel)) =
          inferRecordsAlong o s' moves (undisturbed rs))) ∧
    (o.validate = .ok () → ∀ rs,
      let due := Due o (firstRow rs).length 0 (behindHeader o rs)
      let firedBy := FiredBy (firedFirst rs) (behindHeader o rs)
      (∀ moves x, inferRecordsAlong o s moves rs = some x →
        (x = .error .cancelled ∨ ∀ s' moves' x',
          inferRecordsAlong o s' moves' (undisturbed rs) = some x' →
          x = x'.map (Outcome.dated s.clock)) ∧
        (x = .error .cancelled ↔ ∃ rows n, due rows n ∧ firedBy n)) ∧
      ∀ moves, CanMove o s rs moves →
        (∃ more x, inferRecordsAlong o s (moves ++ more) rs = some x) ∧
        ∀ bs, bs <+: handedOut o s moves rs → bs ≠ [] → ∃ n, due bs.flatten n ∧ ¬ firedBy n) := by
  refine ⟨fun e he cancelled moves input => ?_,fun hv => ⟨fun moves input => ?_,?_⟩,
    fun hv rs => ⟨fun moves x hx => ?_,fun moves hmoves => ⟨exists_inferRecordsAlong hmoves,
      fun bs hbs hne => quiet_of_handedOut hv hmoves hbs hne⟩⟩⟩
  · simp [inferAlong, check, he, bind, Except.bind]
  · simp [inferAlong, check, hv, bind, Except.bind, throw, throwThe, MonadExceptOf.throw]
  · obtain ⟨delimiter,hd,_⟩ := bind_eq_ok_iff.mp hv
    have hcheck : check o false = .ok delimiter := by simp [check, hv, hd, bind, Except.bind]
    refine ⟨delimiter,hd,fun input => ⟨fun s' moves => ?_,fun s' moves => ?_⟩⟩
    · simp only [inferAlong, hcheck]
    · simp only [inferAlong, hcheck, Delimited.readings_undisturbed]
  · obtain rfl := inferRecords_of_along hx
    constructor
    · refine or_iff_not_imp_left.mpr fun hne s' moves' x' hx' => ?_
      obtain rfl := inferRecords_of_along hx'
      rcases inferRecords_watched hv s s' rs with ⟨hsame,_⟩ | ⟨hcancelled,_⟩
      · exact hsame
      · exact absurd hcancelled hne
    · rcases inferRecords_watched hv s s rs with ⟨hsame,hcalm⟩ | ⟨hcancelled,hfired⟩
      · obtain ⟨_,x',hx'⟩ := exists_inferRecordsAlong (canMove_nil o s (undisturbed rs))
        have hquiet := undisturbed_ne_cancelled hv hx'
        obtain rfl := inferRecords_of_along hx'
        constructor
        · intro hc
          exact absurd (map_eq_error_iff.mp (hsame ▸ hc)) hquiet
        · rintro ⟨rows,n,hdue,hfired⟩
          exact absurd hfired (hcalm rows n hdue)
      · exact ⟨fun _ => hfired,fun _ => hcancelled⟩

/-- Behind two rows in a batch of two a cancellation comes too late, unless a third row follows. -/
theorem cancelled_all_or_nothing_late :
    let o : Options := { hasHeader := false, batchSize := 2 }
    let late : List Chunk := [.bytes [49, 10, 50, 10], .cancel]
    let s : Surroundings := ⟨2,"now"⟩
    (∃ out out', inferAlong o s false (Pool.roundRobin 2 1) late = some (.ok out) ∧
      inferAlong o ⟨1,"then"⟩ false (Pool.roundRobin 1 1) [.bytes [49, 10, 50, 10]] =
        some (.ok out') ∧ out = out'.dated "now") ∧
    ∀ moves x, inferAlong o s false moves (late ++ [.bytes [51, 10]]) = some x →
      x = .error .cancelled := by
  intro o late s
  obtain ⟨_,hinput,hrecords⟩ := cancelled_all_or_nothing o s
  have hv : o.validate = .ok () := rfl
  obtain ⟨_,delimiter,hd,hread⟩ := hinput hv
  obtain rfl : 44 = delimiter := Except.ok.inj hd
  constructor
  · have hsome : ∃ out, inferAlong o s false (Pool.roundRobin 2 1) late = some (.ok out) := ⟨_,rfl⟩
    have hsome' : ∃ out', inferAlong o ⟨1,"then"⟩ false (Pool.roundRobin 1 1)
        (late.filter (· ≠ .cancel)) = some (.ok out') := ⟨_,rfl⟩
    obtain ⟨out,hx⟩ := hsome
    obtain ⟨out',hx'⟩ := hsome'
    have hquiet := hx'
    rw [(hread late).1] at hx
    rw [(hread late).2] at hquiet
    obtain ⟨hsame,_⟩ := (hrecords hv (readings 44 late)).1 _ _ hx
    have hdated := (hsame.resolve_left (by simp)) _ _ _ hquiet
    exact ⟨out,out',hx,hx',Except.ok.inj hdated⟩
  · intro moves x hx
    have hbegins : Begins 1 [⟨.finished,false⟩] (readings 44 (late ++ [.bytes [51, 10]]))
        [["1"], ["2"], ["3"]] := .row rfl rfl (.row rfl rfl (.row rfl rfl .done))
    have hdue : Due o 1 0 (readings 44 (late ++ [.bytes [51, 10]])) [["1"], ["2"], ["3"]] 4 :=
      .ended hbegins (by simp [AtEnd]) (by decide) (by decide)
    have hfired : FiredBy false (readings 44 (late ++ [.bytes [51, 10]])) 4 := by
      refine .inr ⟨⟨.record ⟨3,["3"]⟩,true⟩,?_,rfl⟩
      decide
    rw [(hread _).1] at hx
    exact ((hrecords hv _).1 moves x hx).2.mpr ⟨_,4,hdue,hfired⟩

end Inference
end Tabular
