import Tabular.Inference.Pool
import Mathlib.Data.List.Basic

/-! # Looking at rows in any order

Looking at a row commutes with looking at another and with merging, column by column. So the
states that several workers reach by looking at rows of their own merge into what one look at all
the rows gives.
-/
namespace Tabular.Inference
open Schema (ColumnState)

variable {o : Options} {rows : List Row}

def blankStates (width : Nat) : List ColumnState := List.replicate width {}

theorem mergeStates_comm (s t : List ColumnState) : mergeStates s t = mergeStates t s :=
  List.zipWith_comm_of_comm (fun s t => s.merge_comm t)

@[simp] theorem mergeStates_self (s : List ColumnState) : mergeStates s s = s := by
  simp [mergeStates, List.zipWith_self]

@[simp] theorem observeRow_length (o : Options) (s : List ColumnState) (row : Row) :
    (observeRow o s row).length = s.length := by
  induction s generalizing row with
  | nil => rfl
  | cons a s ih =>
    cases row with
    | nil => rfl
    | cons raw row => simp [observeRow, ih]

@[simp] theorem observeRows_length (o : Options) (s : List ColumnState) (rows : List Row) :
    (observeRows o s rows).length = s.length := by
  induction rows generalizing s with
  | nil => rfl
  | cons row rows ih =>
    have h := ih (observeRow o s row)
    simpa [observeRows] using h

theorem observeRows_append (o : Options) (s : List ColumnState) (rows rows' : List Row) :
    observeRows o s (rows ++ rows') = observeRows o (observeRows o s rows) rows' :=
  List.foldl_append

theorem mergeStates_observeRow (o : Options) (s t : List ColumnState) (row : Row) :
    mergeStates s (observeRow o t row) = observeRow o (mergeStates s t) row := by
  induction s generalizing t row with
  | nil => simp [mergeStates, observeRow]
  | cons a s ih =>
    cases t with
    | nil => simp [mergeStates, observeRow]
    | cons b t =>
      cases row with
      | nil => simp [mergeStates, observeRow]
      | cons raw row =>
        have h := ih t row
        simp only [mergeStates] at h
        have hhead (d : Option Schema.Tag) : a.merge (b.observe d) = (a.merge b).observe d := by
          rw [b.observe_eq_merge, (a.merge b).observe_eq_merge, ColumnState.merge_assoc]
        simp [mergeStates, observeRow, h, hhead]

/-- Rows may be looked at before or after merging. -/
theorem mergeStates_observeRows (o : Options) (s t : List ColumnState) (rows : List Row) :
    mergeStates s (observeRows o t rows) = observeRows o (mergeStates s t) rows := by
  induction rows generalizing t with
  | nil => rfl
  | cons row rows ih =>
    have h := ih (observeRow o t row)
    rw [mergeStates_observeRow] at h
    exact h

theorem observeRows_mergeStates (o : Options) (s t : List ColumnState) (rows : List Row) :
    mergeStates (observeRows o s rows) t = observeRows o (mergeStates s t) rows := by
  rw [mergeStates_comm, mergeStates_observeRows, mergeStates_comm]

def mergeAll (s : List ColumnState) (workers : List Worker) : List ColumnState :=
  workers.foldl (fun s w => mergeStates s w.states) s

theorem mergeAll_observeRows (o : Options) (s : List ColumnState) (workers : List Worker)
    (rows : List Row) :
    mergeAll (observeRows o s rows) workers = observeRows o (mergeAll s workers) rows := by
  induction workers generalizing s with
  | nil => rfl
  | cons w workers ih =>
    have h := ih (mergeStates s w.states)
    rw [← observeRows_mergeStates] at h
    exact h

/-- When one worker looks at rows more, all of them together have. -/
theorem mergeAll_set {workers : List Worker} {i : Nat} {w w' : Worker}
    (hi : workers[i]? = some w) (hw : w'.states = observeRows o w.states rows)
    (s : List ColumnState) :
    mergeAll s (workers.set i w') = observeRows o (mergeAll s workers) rows := by
  induction workers generalizing i s with
  | nil => simp at hi
  | cons v workers ih =>
    cases i with
    | zero =>
      obtain rfl : v = w := by simpa using hi
      have h := mergeAll_observeRows o (mergeStates s v.states) workers rows
      rw [← mergeStates_observeRows, ← hw] at h
      exact h
    | succ i => exact ih (by simpa using hi) (mergeStates s v.states)

end Tabular.Inference
