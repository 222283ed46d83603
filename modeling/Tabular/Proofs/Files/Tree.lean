import Tabular.FileTree

/-! # What creating a file changes

A file is created where there is no directory, so no walk that led somewhere before leads elsewhere
afterwards. `FileTree.Altered` says that one tree has come from another by changes at one such
location; whatever a path named at any other location, it still names.
-/
namespace Tabular

theorem bind_eq_ok_iff {ε α β : Type} {x : Except ε α} {f : α → Except ε β} {b : β} :
    x >>= f = .ok b ↔ ∃ a, x = .ok a ∧ f a = .ok b := by
  cases x <;> simp [bind, Except.bind]

theorem map_eq_ok_iff {ε α β : Type} {x : Except ε α} {f : α → β} {b : β} :
    x.map f = .ok b ↔ ∃ a, x = .ok a ∧ f a = b := by
  cases x <;> simp [Except.map]

theorem map_eq_error_iff {ε α β : Type} {x : Except ε α} {f : α → β} {e : ε} :
    x.map f = .error e ↔ x = .error e := by
  cases x <;> simp [Except.map]

namespace FileTree
variable {t t' t'' : FileTree} {k l l' : Location} {e : Entry} {p : Path}

theorem lookup_cons_eq_ite (l first : Location) (x : Entry) (rest : List (Location × Entry)) :
    ((first, x) :: rest).lookup l = if l = first then some x else rest.lookup l := by
  by_cases h : l = first
  · simp [h]
  · have hb : (l == first) = false := by simpa using h
    simp [List.lookup_cons, h, hb]

theorem lookup_putIn (k l : Location) (e : Entry) (entries : List (Location × Entry)) :
    (putIn k e entries).lookup l = if l = k then some e else entries.lookup l := by
  induction entries with
  | nil => exact lookup_cons_eq_ite l k e []
  | cons entry rest ih =>
    obtain ⟨first,x⟩ := entry
    unfold putIn
    split
    · next hf =>
      subst hf
      rw [lookup_cons_eq_ite, lookup_cons_eq_ite]
      split <;> rfl
    · next hf =>
      rw [lookup_cons_eq_ite, lookup_cons_eq_ite, ih]
      by_cases h : l = first
      · subst h
        rw [if_pos rfl, if_neg hf, if_pos rfl]
      · rw [if_neg h, if_neg h]

@[simp] theorem get?_nil (t : FileTree) : t.get? [] = some .directory := rfl

theorem get?_put (hk : t.get? k ≠ some .directory) (e : Entry) (l : Location) :
    (t.put k e).get? l = if l = k then some e else t.get? l := by
  cases l with
  | nil =>
    have hn : ([] : Location) ≠ k := fun h => hk (h ▸ rfl)
    simp [hn]
  | cons name rest => exact lookup_putIn k (name :: rest) e t.entries

/-- A tree after changes at a location where there was no directory. -/
structure Altered (k : Location) (t t' : FileTree) : Prop where
  workingDirectory_eq : t'.workingDirectory = t.workingDirectory
  get?_eq : ∀ l, l ≠ k → t'.get? l = t.get? l
  not_directory : t.get? k ≠ some .directory

theorem altered_put (hk : t.get? k ≠ some .directory) (e : Entry) : Altered k t (t.put k e) :=
  ⟨rfl,fun l hl => by rw [get?_put hk, if_neg hl],hk⟩

theorem Altered.trans (h : Altered k t t') (h' : Altered k t' t'') : Altered k t t'' :=
  ⟨h'.workingDirectory_eq.trans h.workingDirectory_eq,
    fun l hl => (h'.get?_eq l hl).trans (h.get?_eq l hl),h.not_directory⟩

theorem move_eq_ok {s : Path.Step} (h : t.move l s = .ok l') : t.get? l = some .directory := by
  unfold move at h
  split at h
  · cases h
  · cases h
  · assumption

/-- A step that could be taken can still be taken: it starts from a directory. -/
theorem Altered.move {s : Path.Step} (ha : Altered k t t') (h : t.move l s = .ok l') :
    t'.move l s = .ok l' := by
  have hl := move_eq_ok h
  have hne : l ≠ k := fun hk => ha.not_directory (hk ▸ hl)
  rw [← h]
  simp only [FileTree.move, ha.get?_eq l hne, hl]

theorem Altered.foldlM_move {steps : List Path.Step} (ha : Altered k t t')
    (h : steps.foldlM t.move l = .ok l') : steps.foldlM t'.move l = .ok l' := by
  induction steps generalizing l with
  | nil => exact h
  | cons s rest ih =>
    rw [List.foldlM_cons, bind_eq_ok_iff] at h ⊢
    obtain ⟨l₁,hs,hr⟩ := h
    exact ⟨l₁,ha.move hs,ih hr⟩

/-- A path leads somewhere if it can be a path at all and each of its steps can be taken. -/
theorem walk_eq_ok_iff : t.walk p = .ok l ↔
    (p.text.isEmpty = false ∧ p.text.toList.contains '\x00' = false ∧
      p.text.utf8ByteSize ≤ Path.lengthLimit) ∧
    p.steps.foldlM t.move (if p.isAbsolute then [] else t.workingDirectory) = .ok l := by
  unfold walk
  split
  · simp_all
  · split
    · simp_all
    · split
      · next hn => simp [Nat.not_le.mpr hn]
      · next hn => simp_all

/-- A path that led somewhere still leads there. -/
theorem Altered.walk (ha : Altered k t t') (h : t.walk p = .ok l) : t'.walk p = .ok l := by
  rw [walk_eq_ok_iff] at h ⊢
  rw [ha.workingDirectory_eq]
  exact ⟨h.1,ha.foldlM_move h.2⟩

/-- A path names what is where it leads to; a file is not named with a separator at the end. -/
theorem locate_eq_ok_iff : t.locate p = .ok l ↔ t.walk p = .ok l ∧
    (t.get? l = some .directory ∨
      (∃ bytes, t.get? l = some (.file bytes)) ∧ p.endsWithSeparator = false) := by
  rw [locate, bind_eq_ok_iff]
  constructor
  · rintro ⟨l₁,hw,h⟩
    cases hg : t.get? l₁ with
    | none => rw [hg] at h; cases h
    | some x =>
      cases x with
      | directory => rw [hg] at h; cases h; exact ⟨hw,.inl hg⟩
      | file bytes =>
        rw [hg] at h
        cases hs : p.endsWithSeparator with
        | true => rw [hs] at h; cases h
        | false => rw [hs] at h; cases h; exact ⟨hw,.inr ⟨⟨bytes,hg⟩,rfl⟩⟩
  · rintro ⟨hw,hg | ⟨⟨bytes,hg⟩,hs⟩⟩
    · exact ⟨l,hw,by rw [hg]; rfl⟩
    · exact ⟨l,hw,by rw [hg, hs]; rfl⟩

theorem entry_eq_ok_iff : t.entry p = .ok e ↔ ∃ l, t.locate p = .ok l ∧ t.get? l = some e := by
  rw [entry, bind_eq_ok_iff]
  refine exists_congr fun l => and_congr_right fun _ => ?_
  cases t.get? l <;> simp [pure, Except.pure, throw, throwThe, MonadExceptOf.throw]

/-- What a path named anywhere else it still names. -/
theorem Altered.entry (ha : Altered k t t') (h : t.locate p = .ok l) (hl : l ≠ k) :
    t'.entry p = t.entry p := by
  have hg := ha.get?_eq l hl
  have h' : t'.locate p = .ok l := by
    rw [locate_eq_ok_iff] at h ⊢
    rw [hg]
    exact ⟨ha.walk h.1,h.2⟩
  simp only [FileTree.entry, h, h', bind, Except.bind, hg]

/-- What a file is after its content has been changed. -/
theorem Altered.entry_file (ha : Altered k t t') {bytes : List UInt8}
    (h : t.locate p = .ok k) (hg : t'.get? k = some (.file bytes)) :
    t'.entry p = .ok (.file bytes) := by
  rw [locate_eq_ok_iff] at h
  obtain ⟨hw,hd | ⟨_,hs⟩⟩ := h
  · exact absurd hd ha.not_directory
  · rw [entry_eq_ok_iff]
    exact ⟨k,locate_eq_ok_iff.mpr ⟨ha.walk hw,.inr ⟨⟨bytes,hg⟩,hs⟩⟩,hg⟩

theorem create_eq_ok (h : t.create p = .ok (l, t')) :
    t.walk p = .ok l ∧ t.get? l ≠ some .directory ∧ t' = t.put l (.file []) := by
  rw [create, bind_eq_ok_iff] at h
  obtain ⟨l₁,hw,h⟩ := h
  cases hc : p.endsWithSeparator || decide (t.get? l₁ = some .directory) with
  | true => rw [hc] at h; cases h
  | false =>
    rw [hc] at h
    cases h
    simp only [Bool.or_eq_false_iff, decide_eq_false_iff_not] at hc
    exact ⟨hw,hc.2,rfl⟩

end FileTree
end Tabular
