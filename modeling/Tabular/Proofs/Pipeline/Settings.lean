import Tabular.Pipeline
import Tabular.Proofs.Files.Tree
import Tabular.Proofs.Transfer.Life

/-! # Settings that pass

Validation looks at all settings of a pipeline before anything is touched. What is opened later
looks at its own settings once more, with the delimiter that a path may imply; settings that passed
pass there too, and the engine is not refused either.
-/
namespace Tabular
open Transfer

def FailsAs {α : Type} (P : Error → Prop) (x : Except Error α) : Prop := ∀ e, x = .error e → P e

section FailsAs
variable {α β : Type} {P : Error → Prop} {x : Except Error α} {f : α → Except Error β}

theorem FailsAs.ok (a : α) : FailsAs P (.ok a) := fun _ h => nomatch h

theorem FailsAs.error {e : Error} (h : P e) : FailsAs P (.error e : Except Error α) := by
  rintro _ ⟨⟩
  exact h

theorem FailsAs.bind (hx : FailsAs P x) (hf : ∀ a, x = .ok a → FailsAs P (f a)) :
    FailsAs P (x >>= f) := by
  cases hx' : x with
  | error e => exact .error (hx e hx')
  | ok a => exact hf a hx'

theorem FailsAs.ite {c : Prop} [Decidable c] {y : Except Error α} (hx : c → FailsAs P x)
    (hy : ¬ c → FailsAs P y) : FailsAs P (if c then x else y) := by
  split
  · exact hx ‹_›
  · exact hy ‹_›

end FailsAs

/-- A path implies a tab or nothing. -/
theorem Path.delimiter?_cases (p : Path) : p.delimiter? = none ∨ p.delimiter? = some '\t' := by
  unfold Path.delimiter?
  split
  · split
    · exact .inr rfl
    · exact .inl rfl
  · exact .inl rfl

theorem Format.failsAs_ofPath (p : Path) : FailsAs (·.isValidation = true) (Format.ofPath p) := by
  unfold Format.ofPath
  split
  · exact .error rfl
  · split <;> first
      | exact .ok _
      | exact .error rfl

theorem Endpoint.failsAs_resolve (e : Endpoint) : FailsAs (·.isValidation = true) e.resolve := by
  unfold Endpoint.resolve
  split
  · exact .ok _
  · exact Format.failsAs_ofPath e.path

theorem Transfer.Settings.failsAs_validate (s : Settings) :
    FailsAs (·.isValidation = true) s.validate :=
  .ite (fun _ => .error rfl) fun _ => .ok ()

namespace Options
variable {o : Options}

theorem failsAs_delimiterByte (o : Options) : FailsAs (·.isValidation = true) o.delimiterByte :=
  .ite (fun _ => .ok _) fun _ => .error rfl

theorem failsAs_validate (o : Options) : FailsAs (·.isValidation = true) o.validate := by
  refine .bind o.failsAs_delimiterByte fun _ _ => ?_
  refine .ite (fun _ => .error rfl) fun _ => ?_
  refine .ite (fun _ => .error rfl) fun _ => ?_
  exact .ite (fun _ => .error rfl) fun _ => .ok ()

theorem delimiterByte_of_validate (h : o.validate = .ok ()) : ∃ d, o.delimiterByte = .ok d := by
  obtain ⟨d,hd,_⟩ := bind_eq_ok_iff.mp h
  exact ⟨d,hd⟩

/-- With the delimiter that a path implies, options that pass still do. -/
theorem validate_forPath (h : o.validate = .ok ()) (p : Path) :
    (o.forPath p).validate = .ok () := by
  obtain ⟨_,_,hrest⟩ := bind_eq_ok_iff.mp h
  unfold forPath
  split
  · next d _ hd =>
    rcases p.delimiter?_cases with hn | ht
    · rw [hn] at hd
      cases hd
    · rw [ht] at hd
      cases hd
      exact hrest
  · exact h

end Options

/-- An inference looks at options that passed once more, with the delimiter of the path, and then
begins. -/
theorem Inference.check_forPath {o : Options} {p : Path} {delimiter : UInt8}
    (hv : o.validate = .ok ()) (hd : (o.forPath p).delimiterByte = .ok delimiter) :
    check (o.forPath p) false = .ok delimiter := by
  simp only [check, Options.validate_forPath hv p]
  exact hd

theorem Config.failsAs_validate (c : Config) : FailsAs (·.isValidation = true) c.validate := by
  refine .bind c.source.failsAs_resolve fun _ _ => ?_
  refine .bind c.sink.failsAs_resolve fun _ _ => ?_
  refine .ite (fun _ => .error rfl) fun _ => ?_
  refine .bind c.inference.failsAs_validate fun _ _ => ?_
  refine .bind c.transfer.failsAs_validate fun _ _ => ?_
  exact .ite (fun _ => .error rfl) fun _ => .ok ()

structure Config.Sound (c : Config) : Prop where
  source : ∃ f, c.source.resolve = .ok f
  sink : ∃ f, c.sink.resolve = .ok f
  apart : c.source.path.same c.sink.path = false
  inference : c.inference.validate = .ok ()
  transfer : c.transfer.validate = .ok ()
  rowGroups : c.parquet.rowGroupSize ≠ 0

theorem Config.validate_eq_ok_iff {c : Config} : c.validate = .ok () ↔ c.Sound := by
  constructor
  · intro h
    obtain ⟨f,hf,h⟩ := bind_eq_ok_iff.mp h
    obtain ⟨g,hg,h⟩ := bind_eq_ok_iff.mp h
    dsimp only at h
    split at h
    · cases h
    · next hs =>
      obtain ⟨_,hi,h⟩ := bind_eq_ok_iff.mp h
      obtain ⟨_,ht,h⟩ := bind_eq_ok_iff.mp h
      split at h
      · cases h
      · next hr => exact ⟨⟨f,hf⟩,⟨g,hg⟩,by simpa using hs,hi,ht,hr⟩
  · rintro ⟨⟨f,hf⟩,⟨g,hg⟩,hs,hi,ht,hr⟩
    simp [validate, hf, hg, hs, hi, ht, hr, bind, Except.bind, pure, Except.pure]

end Tabular
