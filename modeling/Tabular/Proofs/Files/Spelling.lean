import Tabular.Proofs.Files.Tree

/-! # Spellings of a path

A path is compared by its components and walked by its steps. Of two paths without `..` that begin
alike, the components say all: if they lead to one place, they are the same. With `..`, or a `./` or
a separator at the beginning of one of them only, one place has many spellings.
-/
namespace Tabular

def Path.Step.name? : Path.Step → Option String
  | .into name => some name
  | _ => none

namespace Path
variable {p q : Path} {t : FileTree} {l l' : Location}

def Component.name? : Component → Option String
  | .name s => some s
  | _ => none

/-- The component that counts only where a path begins, from the pieces of the path. -/
def leadOf : List (List Char) → List Component
  | [] :: _ :: _ => [.root]
  | ['.'] :: _ => [.current]
  | _ => []

/-- How a path begins: at the root, with a dot, or with neither. -/
def lead (p : Path) : List Component := leadOf (pieces p.text.toList)

theorem leadOf_eq_nil {first : List Char} (hn : first ≠ []) (hd : first ≠ ['.'])
    (rest : List (List Char)) : leadOf (first :: rest) = [] := by
  unfold leadOf
  split <;> simp_all

theorem leadOf_cons_ne_root (c : Char) (first : List Char) (rest : List (List Char)) :
    leadOf ((c :: first) :: rest) ≠ [.root] := by
  unfold leadOf
  split <;> simp_all

theorem components_eq_append (p : Path) :
    p.components = p.lead ++ (pieces p.text.toList).filterMap Component.ofPiece? := by
  unfold components lead
  cases pieces p.text.toList with
  | nil => rfl
  | cons first rest =>
    dsimp only
    split
    · cases rest <;> rfl
    · rfl
    · next hn hd =>
      rw [leadOf_eq_nil hn hd, List.filterMap_cons]
      cases Component.ofPiece? first <;> rfl

/-- The step and the component of a piece go together. -/
theorem ofPiece?_cases (cs : List Char) :
    Component.ofPiece? cs = none ∧ (Step.ofPiece? cs).bind Step.name? = none ∧
      Step.ofPiece? cs ≠ some .up ∨
    Component.ofPiece? cs = some .parent ∧ Step.ofPiece? cs = some .up ∨
    ∃ s, Component.ofPiece? cs = some (.name s) ∧ Step.ofPiece? cs = some (.into s) := by
  by_cases hempty : cs = []
  · subst hempty
    exact .inl ⟨rfl,rfl,nofun⟩
  by_cases hdot : cs = ['.']
  · subst hdot
    exact .inl ⟨rfl,rfl,nofun⟩
  by_cases hdots : cs = ['.', '.']
  · subst hdots
    exact .inr (.inl ⟨rfl,rfl⟩)
  have hc : Component.ofPiece? cs = some (.name (String.ofList cs)) := by
    unfold Component.ofPiece?
    split <;> simp_all
  have hs : Step.ofPiece? cs = some (.into (String.ofList cs)) := by
    unfold Step.ofPiece?
    split <;> simp_all
  exact .inr (.inr ⟨_,hc,hs⟩)

def names (p : Path) : List String := p.steps.filterMap Step.name?

/-- The components that count wherever they stand, of a path without `..`, are its names. -/
theorem filterMap_ofPiece?_eq (pieces : List (List Char))
    (hp : .parent ∉ pieces.filterMap Component.ofPiece?) :
    pieces.filterMap Component.ofPiece? =
      ((pieces.filterMap Step.ofPiece?).filterMap Step.name?).map .name ∧
    .up ∉ pieces.filterMap Step.ofPiece? := by
  induction pieces with
  | nil => simp
  | cons cs rest ih =>
    rcases ofPiece?_cases cs with ⟨hc,hs,hu⟩ | ⟨hc,hs⟩ | ⟨s,hc,hs⟩
    · have ih := ih (by simpa [hc] using hp)
      cases hx : Step.ofPiece? cs with
      | none => simp [hc, hx, ih]
      | some x =>
        rw [hx] at hs hu
        simp only [Option.bind_some] at hs
        exact ⟨by simp [hc, hx, hs, ih.1],by simpa [hx, ih.2, eq_comm] using hu⟩
    · simp [hc] at hp
    · have ih := ih (by simpa [hc] using hp)
      simp [hc, hs, Step.name?, ih]

theorem components_eq_names (hp : .parent ∉ p.components) :
    p.components = p.lead ++ p.names.map .name ∧ .up ∉ p.steps := by
  rw [components_eq_append] at hp ⊢
  have hn : .parent ∉ (pieces p.text.toList).filterMap Component.ofPiece? :=
    fun h => hp (List.mem_append_right _ h)
  obtain ⟨hc,hu⟩ := filterMap_ofPiece?_eq _ hn
  exact ⟨by rw [hc]; rfl,hu⟩

theorem pieces_cons_of_ne {c : Char} (hc : c ≠ '/') (cs : List Char) :
    ∃ first rest, pieces (c :: cs) = (c :: first) :: rest := by
  simp only [pieces]
  split
  · exact ⟨_,_,rfl⟩
  · exact ⟨_,_,rfl⟩

theorem pieces_ne_nil (cs : List Char) : pieces cs ≠ [] := by
  cases cs with
  | nil => simp [pieces]
  | cons c cs =>
    by_cases hc : c = '/'
    · simp [pieces, hc]
    · obtain ⟨first,rest,h⟩ := pieces_cons_of_ne hc cs
      simp [h]

theorem isAbsolute_iff_lead : p.isAbsolute = true ↔ p.lead = [.root] := by
  unfold isAbsolute lead
  cases h : p.text.toList with
  | nil => simp [pieces, leadOf]
  | cons c cs =>
    by_cases hc : c = '/'
    · obtain ⟨first,rest,hr⟩ := List.exists_cons_of_ne_nil (pieces_ne_nil cs)
      simp [hc, pieces, hr, leadOf]
    · obtain ⟨first,rest,hr⟩ := pieces_cons_of_ne hc cs
      simp [hc, hr, leadOf_cons_ne_root]

end Path

namespace FileTree
variable {t : FileTree} {l l' : Location} {p q : Path}

/-- A walk that never goes up goes into one name after the other. -/
theorem eq_append_of_foldlM_move {steps : List Path.Step} (hu : .up ∉ steps)
    (h : steps.foldlM t.move l = .ok l') : l' = l ++ steps.filterMap Path.Step.name? := by
  induction steps generalizing l with
  | nil =>
    cases h
    simp
  | cons s rest ih =>
    rw [List.foldlM_cons, bind_eq_ok_iff] at h
    obtain ⟨l₁,hs,hr⟩ := h
    rw [ih (fun h => hu (List.mem_cons_of_mem _ h)) hr]
    have hd := move_eq_ok hs
    simp only [move, hd] at hs
    cases s with
    | stay => cases hs; rfl
    | up => exact absurd List.mem_cons_self hu
    | into name =>
      dsimp only at hs
      split at hs
      · cases hs
      · cases hs
        simp [Path.Step.name?]

end FileTree

/-- Two paths without `..` that begin alike and lead to one place are compared as the same. -/
theorem Path.same_of_walk {t : FileTree} {p q : Path} {l : Location}
    (hp : .parent ∉ p.components) (hq : .parent ∉ q.components) (hl : p.lead = q.lead)
    (hwp : t.walk p = .ok l) (hwq : t.walk q = .ok l) : p.same q = true := by
  obtain ⟨hcp,hup⟩ := components_eq_names hp
  obtain ⟨hcq,huq⟩ := components_eq_names hq
  have ha : p.isAbsolute = q.isAbsolute := by
    rw [Bool.eq_iff_iff, isAbsolute_iff_lead, isAbsolute_iff_lead, hl]
  have hnp := FileTree.eq_append_of_foldlM_move hup (FileTree.walk_eq_ok_iff.mp hwp).2
  have hnq := FileTree.eq_append_of_foldlM_move huq (FileTree.walk_eq_ok_iff.mp hwq).2
  -- both walks begin at one location and end at one, so the names between are the same
  rw [ha] at hnp
  have hn : p.names = q.names := List.append_cancel_left (hnp.symm.trans hnq)
  rw [same, hcp, hcq, hl, hn]
  exact beq_self_eq_true _

end Tabular
