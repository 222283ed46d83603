import Tabular.Proofs.Delimited.Records
import Tabular.Proofs.Delimited.Typed
import Tabular.Proofs.Machine.Size
import Mathlib.Data.Nat.Find

/-! # Reading batch by batch

A source stands somewhere in its stream of records. A read whose rows are all among those that the
stream begins with gives the batch of these rows and moves the source behind them, as long as there
can be room for so many rows.
-/
namespace Tabular.DelimitedSource
open Delimited

def afterReads (d : DelimitedSource) : Nat → DelimitedSource
  | 0 => d
  | n + 1 => (afterReads d n).read.2

variable {s : Schema} {o : Options} {b count : Nat} {rest : List Reading}
variable {rows : List (List String)} {d : DelimitedSource}

/-- A schema each of whose fields holds its values in some rows. -/
structure Fits (s : Schema) (o : Options) (rows : List (List String)) : Prop where
  width : rows ≠ [] → s.fields ≠ []
  holds : ∀ j f, s.fields[j]? = some f → Holds o rows j f

theorem Fits.drop (h : Fits s o rows) (n : Nat) : Fits s o (rows.drop n) := by
  refine ⟨fun hne => h.width fun hnil => hne (by rw [hnil, List.drop_nil]),fun j f hf => ?_⟩
  exact (h.holds j f hf).of_subset fun row hmem => List.mem_of_mem_drop hmem

/-- Where a source stands: some rows are in front of it, `rest` follows them, and it has read a
number of rows. There can be room for its batches. -/
structure Positioned (s : Schema) (o : Options) (b : Nat) (rest : List Reading)
    (rows : List (List String)) (count : Nat) (d : DelimitedSource) : Prop where
  schema : d.schema = s
  options : d.options = o
  batchSize : d.batchSize = b
  room : b < 2 ^ 60
  records : ∃ rs, d.records = some rs ∧ Begins s.width rest rs rows
  rowsRead : d.rowsRead = count

/-- What a read of some rows gives: nothing at the end, otherwise their batch. -/
def Gives (s : Schema) (o : Options) (rows : List (List String))
    (result : Except Error (Option Batch)) : Prop :=
  (rows = [] → result = .ok none) ∧
  (rows ≠ [] → ∃ batch, result = .ok (some batch) ∧ batch.layout = s.toLayout ∧
    batch.rows = rows.length ∧
    ∀ j f, s.fields[j]? = some f → ∃ cs, batch.columns[j]? = some cs ∧ ColumnOf o rows j f cs)

theorem Positioned.read (h : Positioned s o b rest rows count d) (hfits : Fits s o rows)
    (hb : b ≤ rows.length ∨ AtEnd rest) :
    Gives s o (rows.take b) d.read.1 ∧ ∃ rest', (AtEnd rest → AtEnd rest') ∧
      Positioned s o b rest' (rows.drop b) (count + (rows.take b).length) d.read.2 := by
  obtain ⟨rs,hrs,hbegins⟩ := h.records
  have hstretch : d.stretch rs = takeSegment s.width b [] false rs := by
    rw [stretch_of_lt (h.batchSize ▸ h.room), h.schema, h.batchSize]
  obtain ⟨hseg,rest',hrest,hend⟩ := takeSegment_next hbegins hb
  have hsub : ∀ row ∈ rows.take b, row ∈ rows := fun row hmem => List.mem_of_mem_take hmem
  cases hrows : rows.take b with
  | nil =>
    rw [hrows] at hseg
    have hread : d.read = (.ok none,
        { d with records := some (takeSegment s.width b [] false rs).rest }) := by
      simp [DelimitedSource.read, readWatching, hrs, hstretch, hseg]
    rw [hread]
    refine ⟨⟨fun _ => rfl,fun hne => absurd rfl hne⟩,rest',hend,?_⟩
    exact ⟨h.schema,h.options,h.batchSize,h.room,⟨_,rfl,hrest⟩,h.rowsRead⟩
  | cons row more =>
    rw [hrows] at hseg hsub
    have hne : rows ≠ [] := List.ne_nil_of_mem (hsub row List.mem_cons_self)
    obtain ⟨batch,hbatch,hlayout,hheight,hcells⟩ := batch_of_holds (hfits.width hne)
      (fun row hmem => hbegins.length_row row (hsub row hmem))
      (fun j f hf => (hfits.holds j f hf).of_subset hsub)
    have hread : d.read = (.ok (some batch), { d with
        records := some (takeSegment s.width b [] false rs).rest
        rowsRead := d.rowsRead + (row :: more).length }) := by
      simp [DelimitedSource.read, readWatching, hrs, hstretch, h.schema, h.options, hseg, hbatch]
    rw [hread]
    refine ⟨⟨fun hn => absurd hn (by simp),fun _ => ⟨batch,rfl,hlayout,hheight,hcells⟩⟩,?_⟩
    refine ⟨rest',hend,?_⟩
    exact ⟨h.schema,h.options,h.batchSize,h.room,⟨_,rfl,hrest⟩,by rw [← h.rowsRead]⟩

theorem within_succ {n : Nat} {mid : List Reading}
    (hn : (n + 1) * b ≤ rows.length ∨ AtEnd rest) (hmid : AtEnd rest → AtEnd mid) :
    b ≤ (rows.drop (n * b)).length ∨ AtEnd mid := by
  rcases hn with hn | hn
  · left
    rw [Nat.succ_mul] at hn
    rw [List.length_drop]
    omega
  · exact .inr (hmid hn)

/-- After some reads a source stands behind the rows they took. -/
theorem Positioned.afterReads (h : Positioned s o b rest rows 0 d) (hfits : Fits s o rows) {n : Nat}
    (hn : n * b ≤ rows.length ∨ AtEnd rest) :
    ∃ rest', (AtEnd rest → AtEnd rest') ∧
      Positioned s o b rest' (rows.drop (n * b)) (min rows.length (n * b)) (d.afterReads n) := by
  induction n with
  | zero => exact ⟨rest,id,by simpa [DelimitedSource.afterReads] using h⟩
  | succ n ih =>
    have hmul : (n + 1) * b = n * b + b := Nat.succ_mul n b
    obtain ⟨mid,hmid,hpos⟩ := ih (hn.imp_left (by omega))
    obtain ⟨_,rest',hend,hpos'⟩ := hpos.read (hfits.drop (n * b)) (within_succ hn hmid)
    refine ⟨rest',fun he => hend (hmid he),?_⟩
    have hcount : min rows.length (n * b) + ((rows.drop (n * b)).take b).length =
        min rows.length ((n + 1) * b) := by
      rw [List.length_take, List.length_drop]
      omega
    rw [hcount, List.drop_drop, ← hmul] at hpos'
    exact hpos'

/-- Each read that stays among the rows a stream begins with gives the batch of its rows. -/
theorem Positioned.gives (h : Positioned s o b rest rows 0 d) (hfits : Fits s o rows) {n : Nat}
    (hn : (n + 1) * b ≤ rows.length ∨ AtEnd rest) :
    Gives s o ((rows.drop (n * b)).take b) (d.afterReads n).read.1 ∧
      (d.afterReads n).rowsRead = min rows.length (n * b) := by
  have hmul : (n + 1) * b = n * b + b := Nat.succ_mul n b
  obtain ⟨mid,hmid,hpos⟩ := h.afterReads hfits (n := n) (hn.imp_left (by omega))
  obtain ⟨hgives,_⟩ := hpos.read (hfits.drop (n * b)) (within_succ hn hmid)
  exact ⟨hgives,hpos.rowsRead⟩

/-- A source in front of the last rows reads them to the end. -/
theorem Positioned.ends (h : Positioned s o b rest rows 0 d) (hfits : Fits s o rows) (hb : 1 ≤ b)
    (he : AtEnd rest) :
    ∃ n, (∀ m < n, ∃ batch, (d.afterReads m).read.1 = .ok (some batch)) ∧
      (d.afterReads n).read.1 = .ok none ∧ (d.afterReads n).rowsRead = rows.length := by
  have hlast : rows.length ≤ rows.length * b := Nat.le_mul_of_pos_right _ hb
  -- the reads that take a row are those in front of the first multiple of `b` past all rows
  obtain ⟨n,hn,hmin⟩ : ∃ n, rows.length ≤ n * b ∧ ∀ m < n, m * b < rows.length := by
    have hex : ∃ n, rows.length ≤ n * b := ⟨rows.length,hlast⟩
    exact ⟨Nat.find hex,Nat.find_spec hex,fun m hm => Nat.lt_of_not_le (Nat.find_min hex hm)⟩
  refine ⟨n,fun m hm => ?_,?_⟩
  · obtain ⟨⟨_,hsome⟩,_⟩ := h.gives hfits (n := m) (.inr he)
    have hne : (rows.drop (m * b)).take b ≠ [] := by
      have hlt := hmin m hm
      intro hnil
      have hlen := congrArg List.length hnil
      rw [List.length_take, List.length_drop, List.length_nil] at hlen
      omega
    obtain ⟨batch,hbatch,_⟩ := hsome hne
    exact ⟨batch,hbatch⟩
  · obtain ⟨⟨hnone,_⟩,hcount⟩ := h.gives hfits (n := n) (.inr he)
    refine ⟨hnone (by rw [List.drop_of_length_le hn, List.take_nil]),?_⟩
    rw [hcount, Nat.min_eq_left hn]

end Tabular.DelimitedSource
