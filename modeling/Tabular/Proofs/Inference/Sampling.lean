import Tabular.Proofs.Delimited.Records
import Tabular.Proofs.Files.Tree
import Tabular.Inference.Infer

/-! # Sampled rows

However rows are put into batches, the batches of a sample that succeeds hold the first rows of the
stream in order. Whether it succeeds, and with what error it fails, is decided by the records alone
unless the caller cancels.
-/
namespace Tabular.Inference
open Delimited (AtEnd Chunk Item Reading)

def samplingError? (width : Nat) : Item → Option Error
  | .panic text => some (.taskFailed "Inference" text)
  | item => item.offence? width

def firedFirst (rs : List Reading) : Bool := rs.head?.any Reading.fired

theorem firedFirst_eq_false {rs : List Reading} (h : ∀ r ∈ rs, r.fired = false) :
    firedFirst rs = false := by
  cases rs with
  | nil => rfl
  | cons r rs => exact h r List.mem_cons_self

/-- What is ahead of a sample that wants `left` more rows of a width: rows, up to the cap, to the
end of the stream or to a bad item. -/
inductive Ahead (width : Nat) : Nat → List Reading → Prop
  | capped {rs} : Ahead width 0 rs
  | atEnd {left rs} (h : AtEnd rs) : Ahead width (left + 1) rs
  | bad {left r rs e} (he : samplingError? width r.item = some e) : Ahead width (left + 1) (r :: rs)
  | row {left r rs record} (hi : r.item = .record record) (hw : record.fields.length = width)
      (h : Ahead width left rs) : Ahead width (left + 1) (r :: rs)

theorem ahead (width left : Nat) (rs : List Reading) : Ahead width left rs := by
  induction rs generalizing left with
  | nil =>
    cases left with
    | zero => exact .capped
    | succ left => exact .atEnd (by simp [AtEnd])
  | cons r rs ih =>
    cases left with
    | zero => exact .capped
    | succ left =>
      cases hi : r.item with
      | finished => exact .atEnd (by simp [AtEnd, hi])
      | fault f => exact .bad (by rw [hi]; rfl)
      | panic text => exact .bad (by rw [hi]; rfl)
      | record record =>
        by_cases hw : record.fields.length = width
        · exact .row hi hw (ih left)
        · have he : samplingError? width r.item =
              some (.rowArity record.line width record.fields.length) := by
            simp [hi, samplingError?, Item.offence?, hw]
          exact .bad he

namespace Sample
variable {width batchSize left room count k : Nat} {pending : List Row} {fired : Bool}
variable {r : Reading} {rs : List Reading} {record : Delimited.Record} {e : Error}

def rowsFrom (width : Nat) : Nat → List Reading → Except Error (List Row)
  | 0, _ => .ok []
  | _ + 1, [] => .ok []
  | left + 1, r :: rs => match r.item with
    | .finished => .ok []
    | .fault f => .error (.delimited f)
    | .panic text => .error (.taskFailed "Inference" text)
    | .record record =>
      if record.fields.length = width then (rowsFrom width left rs).map (record.fields :: ·)
      else .error (.rowArity record.line width record.fields.length)

/-! ## One step -/

@[simp] theorem rowsFrom_zero : rowsFrom width 0 rs = .ok [] := by
  simp only [rowsFrom]

theorem rowsFrom_atEnd (h : AtEnd rs) : rowsFrom width left rs = .ok [] := by
  cases left with
  | zero => exact rowsFrom_zero
  | succ left =>
    cases rs with
    | nil => rfl
    | cons r rs => simp [rowsFrom, h r rfl]

theorem rowsFrom_bad (he : samplingError? width r.item = some e) :
    rowsFrom width (left + 1) (r :: rs) = .error e := by
  cases hi : r.item with
  | finished => simp [hi, samplingError?, Item.offence?] at he
  | fault f => simpa [hi, samplingError?, Item.offence?, rowsFrom] using he
  | panic text => simpa [hi, samplingError?, rowsFrom] using he
  | record record =>
    by_cases hw : record.fields.length = width
    · simp [hi, samplingError?, Item.offence?, hw] at he
    · simpa [hi, samplingError?, Item.offence?, rowsFrom, hw] using he

theorem rowsFrom_row (hi : r.item = .record record) (hw : record.fields.length = width) :
    rowsFrom width (left + 1) (r :: rs) = (rowsFrom width left rs).map (record.fields :: ·) := by
  simp [rowsFrom, hi, hw]

theorem takeFrom_zero : takeFrom width batchSize 0 pending room count fired rs =
    finish fired pending count := by
  simp only [takeFrom]

theorem takeFrom_atEnd (h : AtEnd rs) :
    takeFrom width batchSize (left + 1) pending room count fired rs =
      finish (fired || firedFirst rs) pending count := by
  cases rs with
  | nil => simp [takeFrom, firedFirst]
  | cons r rs => simp [takeFrom, firedFirst, h r rfl]

theorem takeFrom_bad (he : samplingError? width r.item = some e) :
    takeFrom width batchSize (left + 1) pending room count fired (r :: rs) = ⟨[],.error e⟩ := by
  cases hi : r.item with
  | finished => simp [hi, samplingError?, Item.offence?] at he
  | fault f => simpa [hi, samplingError?, Item.offence?, takeFrom] using he
  | panic text => simpa [hi, samplingError?, takeFrom] using he
  | record record =>
    by_cases hw : record.fields.length = width
    · simp [hi, samplingError?, Item.offence?, hw] at he
    · simpa [hi, samplingError?, Item.offence?, takeFrom, hw] using he

/-- A row fills the batch under way, or there is room in it for more. -/
theorem takeFrom_row (hi : r.item = .record record) (hw : record.fields.length = width) :
    takeFrom width batchSize (left + 1) pending room count fired (r :: rs) =
      if room ≤ 1 then handOut (fired || r.fired) (record.fields :: pending).reverse
        (takeFrom width batchSize left [] batchSize (count + 1) (fired || r.fired) rs)
      else takeFrom width batchSize left (record.fields :: pending) (room - 1) (count + 1)
        (fired || r.fired) rs := by
  simp [takeFrom, hi, hw]

/-! ## The rows of a sample -/

theorem length_le_of_rowsFrom {rows : List Row}
    (h : rowsFrom width left rs = .ok rows) : rows.length ≤ left := by
  have hahead := ahead width left rs
  induction hahead generalizing rows with
  | capped =>
    cases h
    exact Nat.zero_le 0
  | atEnd hend =>
    rw [rowsFrom_atEnd hend] at h
    cases h
    exact Nat.zero_le _
  | bad he =>
    rw [rowsFrom_bad he] at h
    cases h
  | row hi hw _ ih =>
    rw [rowsFrom_row hi hw] at h
    obtain ⟨more,hmore,rfl⟩ := map_eq_ok_iff.mp h
    exact Nat.succ_le_succ (ih hmore)

theorem handOut_ok {batch : List Row} {rest : Sample}
    (h : (handOut fired batch rest).outcome = .ok k) :
    fired = false ∧ rest.outcome = .ok k ∧
      (handOut fired batch rest).batches = batch :: rest.batches := by
  cases fired with
  | true => cases h
  | false => exact ⟨rfl,h,rfl⟩

theorem finish_ok (h : (finish fired pending count).outcome = .ok k) :
    k = count ∧ (finish fired pending count).batches.flatten = pending.reverse := by
  unfold finish at h ⊢
  split
  · next hp =>
    rw [if_pos hp] at h
    cases h
    exact ⟨rfl,by rw [List.isEmpty_iff.mp hp]; rfl⟩
  · next hp =>
    rw [if_neg hp] at h
    obtain ⟨_,hk,hb⟩ := handOut_ok h
    cases hk
    rw [hb]
    exact ⟨rfl,by simp⟩

/-- A sample that succeeds holds the rows of the stream, whatever the size of its batches. -/
theorem takeFrom_ok
    (h : (takeFrom width batchSize left pending room count fired rs).outcome = .ok k) :
    ∃ rows, rowsFrom width left rs = .ok rows ∧ k = count + rows.length ∧
      (takeFrom width batchSize left pending room count fired rs).batches.flatten =
        pending.reverse ++ rows := by
  have hahead := ahead width left rs
  induction hahead generalizing pending room count fired with
  | capped =>
    rw [takeFrom_zero] at h ⊢
    obtain ⟨hk,hb⟩ := finish_ok h
    exact ⟨[],rowsFrom_zero,hk,hb.trans (List.append_nil _).symm⟩
  | atEnd hend =>
    rw [takeFrom_atEnd hend] at h ⊢
    obtain ⟨hk,hb⟩ := finish_ok h
    exact ⟨[],rowsFrom_atEnd hend,hk,hb.trans (List.append_nil _).symm⟩
  | bad he =>
    rw [takeFrom_bad he] at h
    cases h
  | @row left r rs record hi hw _ ih =>
    rw [rowsFrom_row hi hw]
    rw [takeFrom_row hi hw] at h ⊢
    split at h
    · next hroom =>
      rw [if_pos hroom]
      obtain ⟨_,hrest,hb⟩ := handOut_ok h
      obtain ⟨rows,hrows,hk,hbs⟩ := ih hrest
      refine ⟨record.fields :: rows,by rw [hrows]; rfl,?_,?_⟩
      · rw [List.length_cons]
        omega
      · rw [hb, List.flatten_cons, hbs]
        simp
    · next hroom =>
      rw [if_neg hroom]
      obtain ⟨rows,hrows,hk,hbs⟩ := ih h
      refine ⟨record.fields :: rows,by rw [hrows]; rfl,?_,?_⟩
      · rw [List.length_cons]
        omega
      · rw [hbs]
        simp

theorem finish_quiet (pending : List Row) (count : Nat) :
    (finish false pending count).outcome = .ok count := by
  unfold finish
  split <;> rfl

/-- Left alone, a sample succeeds or fails with the records, whatever the size of its batches. -/
theorem takeFrom_quiet (width batchSize left room count : Nat) (pending : List Row)
    (h : ∀ r ∈ rs, r.fired = false) :
    (takeFrom width batchSize left pending room count false rs).outcome =
      (rowsFrom width left rs).map (count + ·.length) := by
  have hahead := ahead width left rs
  induction hahead generalizing room count pending with
  | capped =>
    rw [takeFrom_zero, rowsFrom_zero]
    exact finish_quiet pending count
  | atEnd hend =>
    rw [takeFrom_atEnd hend, firedFirst_eq_false h, rowsFrom_atEnd hend]
    exact finish_quiet pending count
  | bad he =>
    rw [takeFrom_bad he, rowsFrom_bad he]
    rfl
  | @row left r rs record hi hw _ ih =>
    have hrs : ∀ r ∈ rs, r.fired = false := fun r hr => h r (List.mem_cons_of_mem _ hr)
    have hr : r.fired = false := h r List.mem_cons_self
    have hmap : ((rowsFrom width left rs).map (record.fields :: ·)).map (count + ·.length) =
        (rowsFrom width left rs).map (count + 1 + ·.length) := by
      cases rowsFrom width left rs with
      | error e => rfl
      | ok rows => simp [Except.map, Nat.add_assoc, Nat.add_comm 1]
    rw [takeFrom_row hi hw, rowsFrom_row hi hw, hmap, hr]
    split
    · exact ih batchSize (count + 1) [] hrs
    · exact ih (room - 1) (count + 1) (record.fields :: pending) hrs

theorem take_ok {o : Options} (h : (take o width fired rs).outcome = .ok k) :
    ∃ rows, rowsFrom width o.maxRows rs = .ok rows ∧ k = rows.length ∧
      (take o width fired rs).batches.flatten = rows := by
  obtain ⟨rows,hrows,hk,hb⟩ := takeFrom_ok h
  exact ⟨rows,hrows,by omega,hb⟩

theorem take_quiet (o : Options) (width : Nat) (h : ∀ r ∈ rs, r.fired = false) :
    (take o width false rs).outcome = (rowsFrom width o.maxRows rs).map List.length := by
  have hq := takeFrom_quiet width o.batchSize o.maxRows o.batchSize 0 [] h
  simp only [Nat.zero_add] at hq
  exact hq

end Sample

end Tabular.Inference
