import Mathlib.Algebra.GroupWithZero.Nat
import Tabular.Machine
import Tabular.Proofs.Files.Tree

/-! # Sizes within their limits

The limits of sizes in numbers. Within them an inference and a read come to what they would come to
if there were none.
-/
namespace Tabular

namespace Machine
open Delimited (Chunk Reading)

variable {o : Options} {s : Inference.Surroundings} {cancelled : Bool} {input : List Chunk}
variable {limit size n processors : Nat} {x : Excess}

theorem within_of_le (h : size ≤ limit) : within limit x size = .ok size := if_pos h

theorem within_of_lt (h : limit < size) : within limit x size = .error x :=
  if_neg (Nat.not_le.mpr h)

theorem product_le_wordMax : n * 2 ≤ wordMax ↔ n < 2 ^ 63 := by
  unfold wordMax Number.Decimal.nat64Max
  omega

theorem bytes_le_bytesMax : n * handleBytes ≤ bytesMax ↔ n < 2 ^ 60 := by
  unfold handleBytes bytesMax wordMax Number.Decimal.nat64Max
  omega

theorem le_placesMax : n ≤ placesMax ↔ n < 2 ^ 61 := by
  unfold placesMax wordMax Number.Decimal.nat64Max
  omega

theorem wordMax_lt_product : wordMax < n * 2 ↔ 2 ^ 63 ≤ n := by
  rw [← Nat.not_le, product_le_wordMax, Nat.not_lt]

theorem bytesMax_lt_bytes : bytesMax < n * handleBytes ↔ 2 ^ 60 ≤ n := by
  rw [← Nat.not_le, bytes_le_bytesMax, Nat.not_lt]

theorem placesMax_lt : placesMax < n ↔ 2 ^ 61 ≤ n := by
  rw [← Nat.not_le, le_placesMax, Nat.not_lt]

theorem reserve_of_lt (hw : o.workerCount processors < 2 ^ 63) (hb : o.batchSize < 2 ^ 60)
    (rs : List Reading) : reserve o processors rs = .ok () := by
  unfold reserve
  split
  · rw [within_of_le (product_le_wordMax.mpr hw), within_of_le (bytes_le_bytesMax.mpr hb)]
    rfl
  · rfl

/-- Within the limits an inference does not panic. -/
theorem infer_of_lt (hw : o.workerCount s.processors < 2 ^ 63) (hb : o.batchSize < 2 ^ 60) :
    infer o s cancelled input = .ok (Inference.infer o s cancelled input) := by
  unfold infer Inference.infer
  cases Inference.check o cancelled with
  | error e => rfl
  | ok delimiter =>
    simp only [reserve_of_lt hw hb]
    rfl

/-- An inference that does not panic comes to what it comes to without limits. -/
theorem infer_eq_ok {result : Except Error Inference.Outcome}
    (h : infer o s cancelled input = .ok result) :
    result = Inference.infer o s cancelled input := by
  unfold infer at h
  unfold Inference.infer
  cases hc : Inference.check o cancelled with
  | error e =>
    rw [hc] at h
    cases h
    rfl
  | ok delimiter =>
    rw [hc] at h
    obtain ⟨_,_,hresult⟩ := map_eq_ok_iff.mp h
    exact hresult.symm

end Machine

namespace DelimitedSource
open Delimited (Reading)

variable {d : DelimitedSource}

theorem stretch_of_lt (h : d.batchSize < 2 ^ 60) (rs : List Reading) :
    d.stretch rs = takeSegment d.schema.width d.batchSize [] false rs := by
  rw [stretch, Machine.within_of_le (Machine.bytes_le_bytesMax.mpr h)]

theorem stretch_of_le (h : 2 ^ 60 ≤ d.batchSize) (rs : List Reading) :
    d.stretch rs = ⟨.panicked "capacity overflow", rs, false⟩ := by
  rw [stretch, Machine.within_of_lt (Machine.bytesMax_lt_bytes.mpr h)]
  rfl

/-- What a read takes off the records is a segment of them, or nothing for want of room. -/
theorem stretch_cases (d : DelimitedSource) (rs : List Reading) :
    d.stretch rs = takeSegment d.schema.width d.batchSize [] false rs ∨
      2 ^ 60 ≤ d.batchSize ∧ d.stretch rs = ⟨.panicked "capacity overflow", rs, false⟩ := by
  rcases Nat.lt_or_ge d.batchSize (2 ^ 60) with h | h
  · exact .inl (stretch_of_lt h rs)
  · exact .inr ⟨h,stretch_of_le h rs⟩

/-- A read that asks for too much panics before it takes anything, and shuts the source. -/
theorem read_of_le {rs : List Reading} (h : 2 ^ 60 ≤ d.batchSize) (hrs : d.records = some rs) :
    d.read = (.error (.source (.taskFailed "CSV" "capacity overflow")),
      { d with records := none }) := by
  simp only [read, readWatching, hrs, stretch_of_le h]

theorem read_withBatchSize_of_le {rs : List Reading} {size : Nat} (h : 2 ^ 60 ≤ size)
    (hrs : d.records = some rs) : (d.withBatchSize size).read.1 =
      .error (.source (.taskFailed "CSV" "capacity overflow")) := by
  have hlarge : 2 ^ 60 ≤ (d.withBatchSize size).batchSize :=
    Nat.le_trans h (Nat.le_max_left size 1)
  rw [read_of_le hlarge hrs]

/-- So a source whose read does not fail has room for its batches. -/
theorem lt_of_read {rs : List Reading} (hrs : d.records = some rs)
    (h : ∀ e, d.read.1 ≠ .error e) : d.batchSize < 2 ^ 60 := by
  refine Nat.lt_of_not_le fun hle => ?_
  rw [read_of_le hle hrs] at h
  exact h _ rfl

end DelimitedSource
end Tabular
