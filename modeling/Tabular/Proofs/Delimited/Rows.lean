import Tabular.Proofs.Delimited.Records
import Tabular.Proofs.Delimited.Typed
import Tabular.Proofs.Machine.Size
import Tabular.Source.Basic
import Mathlib.Data.List.Forall2

/-! # Typed rows

Rows are typed column by column, but when each value has its cell, what comes of it are the rows
typed one by one. A source that stands in front of the last rows of its stream yields them so,
whatever the size of its batches.
-/
namespace Tabular

/-! ## Rows and columns of a table -/

variable {w : Nat} {row : List Cell} {rows : List (List Cell)}

@[simp] theorem length_columnsOf (w : Nat) (rows : List (List Cell)) :
    (columnsOf w rows).length = w := by
  induction w generalizing rows with
  | zero => rfl
  | succ w ih => simp [columnsOf, ih]

/-- The first cells of the columns are the first row, and the others make the columns of the rows
behind it. -/
theorem columnsOf_cons (hrow : row.length = w) (rows : List (List Cell)) :
    (columnsOf w (row :: rows)).filterMap List.head? = row ∧
      (columnsOf w (row :: rows)).map List.tail = columnsOf w rows := by
  induction w generalizing row rows with
  | zero => simp [columnsOf, List.eq_nil_of_length_eq_zero hrow]
  | succ w ih =>
    cases row with
    | nil => simp at hrow
    | cons c row =>
      obtain ⟨hhead,htail⟩ := ih (Nat.succ.inj hrow) (rows.map List.tail)
      simp [columnsOf, hhead, htail]

theorem rowsOf_columnsOf (hw : ∀ row ∈ rows, row.length = w) :
    rowsOf rows.length (columnsOf w rows) = rows := by
  induction rows with
  | nil => rfl
  | cons row rows ih =>
    obtain ⟨hhead,htail⟩ := columnsOf_cons (hw row List.mem_cons_self) rows
    rw [List.length_cons, rowsOf, hhead, htail, ih fun r hr => hw r (List.mem_cons_of_mem _ hr)]

theorem length_rowsOf (n : Nat) (columns : List (List Cell)) : (rowsOf n columns).length = n := by
  induction n generalizing columns with
  | zero => rfl
  | succ n ih => rw [rowsOf, List.length_cons, ih]

theorem length_of_mem_columnsOf (hw : ∀ row ∈ rows, row.length = w) :
    ∀ c ∈ columnsOf w rows, c.length = rows.length := by
  induction w generalizing rows with
  | zero => simp [columnsOf]
  | succ w ih =>
    intro c hc
    have hne : ∀ row ∈ rows, row.head?.isSome = true := by
      intro row hmem
      cases row with
      | nil => simpa using hw [] hmem
      | cons _ _ => rfl
    rcases List.mem_cons.mp hc with rfl | hc
    · rw [List.length_filterMap_eq_countP, List.countP_eq_length]
      exact hne
    · have htails : ∀ row ∈ rows.map List.tail, row.length = w := by
        intro row hmem
        obtain ⟨row',hmem',rfl⟩ := List.mem_map.mp hmem
        rw [List.length_tail, hw row' hmem', Nat.succ_sub_one]
      rw [ih htails c hc, List.length_map]

namespace Delimited
open Schema (Field Tag)

/-! ## Rows of texts -/

variable {o : Options} {f : Field} {fs : List Field} {raws : List (List String)}
variable {typed : List (List Cell)}

/-- The cell that a raw value becomes in a column, one that the column may hold. -/
structure CellTyped (o : Options) (f : Field) (raw : String) (c : Cell) : Prop where
  value : cell o (o.timestampFormat.getD "") f raw = .ok c
  nullable : c.isNull = true → f.nullable = true
  pattern : f.tag = .timestamp → o.timestampFormat.isSome = true

inductive RowTyped (o : Options) : List Field → List String → List Cell → Prop
  | nil : RowTyped o [] [] []
  | cons {f fs raw row c cs} (hc : CellTyped o f raw c) (h : RowTyped o fs row cs) :
    RowTyped o (f :: fs) (raw :: row) (c :: cs)

theorem RowTyped.length_eq {row : List String} {cs : List Cell} (h : RowTyped o fs row cs) :
    row.length = fs.length ∧ cs.length = fs.length := by
  induction h with
  | nil => exact ⟨rfl,rfl⟩
  | cons _ _ ih => exact ⟨congrArg (· + 1) ih.1,congrArg (· + 1) ih.2⟩

theorem length_of_typed (h : List.Forall₂ (RowTyped o fs) raws typed) :
    ∀ row ∈ typed, row.length = fs.length := by
  induction h with
  | nil => simp
  | cons hr _ ih =>
    intro row hmem
    rcases List.mem_cons.mp hmem with rfl | hmem
    · exact hr.length_eq.2
    · exact ih row hmem

/-- Typed rows are a typed column in front of typed rows. -/
theorem typed_cons (h : List.Forall₂ (RowTyped o (f :: fs)) raws typed) :
    List.Forall₂ (CellTyped o f) (raws.filterMap List.head?) (typed.filterMap List.head?) ∧
      List.Forall₂ (RowTyped o fs) (raws.map List.tail) (typed.map List.tail) := by
  induction h with
  | nil => exact ⟨.nil,.nil⟩
  | cons hr _ ih =>
    cases hr with
    | cons hc hrow => exact ⟨.cons hc ih.1,.cons hrow ih.2⟩

theorem cells_of_typed {raws : List String} {cs : List Cell}
    (h : List.Forall₂ (CellTyped o f) raws cs) :
    cells o (o.timestampFormat.getD "") f raws = .ok cs := by
  induction h with
  | nil => rfl
  | cons hc _ ih => simp [cells, hc.value, ih, bind, Except.bind, pure, Except.pure]

theorem column_of_typed {raws : List String} {cs : List Cell} (hne : raws ≠ [])
    (h : List.Forall₂ (CellTyped o f) raws cs) : column o f raws = .ok cs := by
  have hpattern : f.tag = .timestamp → o.timestampFormat.isSome = true := by
    cases h with
    | nil => exact absurd rfl hne
    | cons hc _ => exact hc.pattern
  unfold column
  split
  · next ht hn =>
    have hs := hpattern ht
    rw [hn] at hs
    cases hs
  · exact cells_of_typed h

theorem columns_of_typed (hne : raws ≠ []) (h : List.Forall₂ (RowTyped o fs) raws typed) :
    columns o fs raws = .ok (columnsOf fs.length typed) := by
  induction fs generalizing raws typed with
  | nil => rfl
  | cons f fs ih =>
    obtain ⟨hcells,hrows⟩ := typed_cons h
    have hheads : raws.filterMap List.head? ≠ [] := by
      cases h with
      | nil => exact absurd rfl hne
      | cons hr _ => cases hr with | cons _ _ => simp
    have hcol := column_of_typed hheads hcells
    have hcols := ih (by simpa using hne) hrows
    simp [columns, columnsOf, hcol, hcols, bind, Except.bind, pure, Except.pure]

/-- No typed row has a null where its column allows none. -/
theorem nullOffence?_of_typed (h : List.Forall₂ (RowTyped o fs) raws typed) :
    ∀ p ∈ (fs.map Field.toColumn).zip (columnsOf fs.length typed),
      (!p.1.nullable && p.2.any Cell.isNull) = false := by
  induction fs generalizing raws typed with
  | nil => simp
  | cons f fs ih =>
    obtain ⟨hcells,hrows⟩ := typed_cons h
    intro p hp
    rcases List.mem_cons.mp hp with rfl | hp
    · rw [Bool.and_eq_false_iff, Bool.not_eq_false', List.any_eq_false]
      by_cases hf : f.nullable = true
      · exact .inl hf
      · right
        intro c hc hnull
        obtain ⟨i,hi,rfl⟩ := List.getElem_of_mem hc
        have hi' : i < (raws.filterMap List.head?).length := hcells.length_eq ▸ hi
        exact hf ((hcells.get hi' hi).nullable hnull)
    · exact ih hrows p hp

/-- Typed rows become a batch of just these rows. -/
theorem batch_of_typed {s : Schema} (hs : s.fields ≠ []) (hne : raws ≠ [])
    (h : List.Forall₂ (RowTyped o s.fields) raws typed) :
    ∃ b, batch o s raws = .ok b ∧ b.layout = s.toLayout ∧ b.rows = raws.length ∧
      b.rowList = typed := by
  have hlen := length_of_typed h
  have hheight : ∀ c ∈ columnsOf s.fields.length typed, c.length = raws.length := by
    rw [h.length_eq]
    exact length_of_mem_columnsOf hlen
  have hoffence : Batch.nullOffence? s.toLayout (columnsOf s.fields.length typed) = none := by
    rw [Batch.nullOffence?, Option.map_eq_none_iff, List.find?_eq_none]
    intro p hp
    simpa using nullOffence?_of_typed h p hp
  have hbatch := batch_of_columns hs (columns_of_typed hne h) (length_columnsOf _ _) hheight
  rw [hoffence] at hbatch
  have hrowList := rowsOf_columnsOf hlen
  rw [← h.length_eq] at hrowList
  exact ⟨_,hbatch,rfl,rfl,hrowList⟩

end Delimited

/-! ## Batches of typed rows -/

/-- The batches that a source gives read by read, up to its end. -/
inductive Source.Yields : Source → List Batch → Prop
  | ends {source} (h : source.read.1 = .ok none) : Yields source []
  | gives {source b bs} (h : source.read.1 = .ok (some b)) (hrest : Yields source.read.2 bs) :
    Yields source (b :: bs)

theorem Source.Yields.read_ne_error {source : Source} {bs : List Batch} (h : source.Yields bs)
    (e : Error) : source.read.1 ≠ .error e := by
  cases h with
  | ends h | gives h => simp [h]

open Delimited (RowTyped Begins AtEnd Reading)

/-- How many batches of a size there are in some rows. -/
theorem ceil_drop {n b : Nat} (hn : 0 < n) (hb : 1 ≤ b) :
    (n + b - 1) / b = (n - b + b - 1) / b + 1 := by
  by_cases hle : b ≤ n
  · have hsum : n + b - 1 = (n - b + b - 1) + b := by omega
    rw [hsum, Nat.add_div_right _ (by omega)]
  · have hsum : n + b - 1 = (n - 1) + b := by omega
    rw [hsum, Nat.add_div_right _ (by omega), Nat.div_eq_of_lt (by omega),
      Nat.div_eq_of_lt (by omega)]

/-- A source that stands in front of the last rows of its stream yields these rows, typed one by
one, in batches of its size. -/
theorem DelimitedSource.yields_of_typed {d : DelimitedSource} {rs rest : List Reading}
    {raws : List (List String)} {typed : List (List Cell)} (hrecords : d.records = some rs)
    (hbegins : Begins d.schema.width rest rs raws) (hend : AtEnd rest)
    (hfields : raws ≠ [] → d.schema.fields ≠ []) (hb : 1 ≤ d.batchSize)
    (hroom : d.batchSize < 2 ^ 60)
    (htyped : List.Forall₂ (RowTyped d.options d.schema.fields) raws typed) :
    ∃ batches, (Source.delimited d).Yields batches ∧ batches.flatMap Batch.rowList = typed ∧
      batches.length = (raws.length + d.batchSize - 1) / d.batchSize ∧
      ∀ b ∈ batches, b.layout = d.schema.toLayout := by
  induction hn : raws.length using Nat.strong_induction_on generalizing d rs rest raws typed with
  | _ n ih =>
    obtain ⟨hseg,rest',hrest,hend'⟩ := takeSegment_next hbegins (n := d.batchSize) (.inr hend)
    rw [← stretch_of_lt hroom] at hseg hrest
    cases raws with
    | nil =>
      cases htyped
      subst hn
      refine ⟨[],.ends ?_,rfl,?_,by simp⟩
      · simp [Source.read, DelimitedSource.read, readWatching, hrecords, hseg]
      · rw [List.length_nil, List.length_nil, Nat.zero_add, Nat.div_eq_of_lt (by omega)]
    | cons raw raws =>
      obtain ⟨k,hk⟩ : ∃ k, d.batchSize = k + 1 := ⟨d.batchSize - 1,by omega⟩
      have hfront : (raw :: raws).take d.batchSize ≠ [] := by simp [hk]
      obtain ⟨b,hbatch,hlayout,_,hrows⟩ :=
        Delimited.batch_of_typed (hfields (by simp)) hfront (List.forall₂_take d.batchSize htyped)
      have hread : (Source.delimited d).read = (.ok (some b), .delimited { d with
          records := some (d.stretch rs).rest
          rowsRead := d.rowsRead + ((raw :: raws).take d.batchSize).length }) := by
        simp only [Source.read, DelimitedSource.read, readWatching, hrecords, hseg]
        rw [hk] at hbatch ⊢
        simp only [List.take_succ_cons] at hbatch ⊢
        simp [hbatch]
      obtain ⟨bs,hyields,hflat,hlength,hlayouts⟩ := ih ((raw :: raws).drop d.batchSize).length
        (by rw [List.length_drop, ← hn, hk, List.length_cons]; omega)
        (d := { d with
          records := some (d.stretch rs).rest
          rowsRead := d.rowsRead + ((raw :: raws).take d.batchSize).length })
        rfl hrest (hend' hend) (fun _ => hfields (by simp)) hb hroom
        (List.forall₂_drop d.batchSize htyped) rfl
      refine ⟨b :: bs,.gives (by rw [hread]) (by rw [hread]; exact hyields),?_,?_,?_⟩
      · rw [List.flatMap_cons, hflat, hrows, List.take_append_drop]
      · rw [List.length_cons, hlength, List.length_drop, hn]
        exact (ceil_drop (by simp [← hn]) hb).symm
      · intro x hx
        rcases List.mem_cons.mp hx with rfl | hx
        · exact hlayout
        · exact hlayouts x hx

end Tabular
