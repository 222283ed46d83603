/-! # Metadata

Descriptive texts under names, each name once, in the order of the names. The order is part of
the type, so two values with the same entries are equal.
-/
namespace Tabular

/-- Add an entry where its name belongs, in place of an entry of that name. -/
def insertSorted (k v : String) : List (String × String) → List (String × String)
  | [] => [(k, v)]
  | (k', v') :: r =>
    if k < k' then (k, v) :: (k', v') :: r
    else if k = k' then (k, v) :: r
    else (k', v') :: insertSorted k v r

theorem mem_insertSorted {k v : String} {e : String × String} {r : List (String × String)}
    (h : e ∈ insertSorted k v r) : e = (k, v) ∨ e ∈ r := by
  induction r with
  | nil => simpa [insertSorted] using h
  | cons a r ih =>
    obtain ⟨k', v'⟩ := a
    unfold insertSorted at h
    split at h
    · simpa using h
    · split at h
      · rcases List.mem_cons.1 h with h | h
        · exact .inl h
        · exact .inr (List.mem_cons_of_mem _ h)
      · rcases List.mem_cons.1 h with h | h
        · exact .inr (h ▸ List.mem_cons_self)
        · rcases ih h with h | h
          · exact .inl h
          · exact .inr (List.mem_cons_of_mem _ h)

theorem insertSorted_pairwise {k v : String} {r : List (String × String)}
    (h : r.Pairwise (·.1 < ·.1)) : (insertSorted k v r).Pairwise (·.1 < ·.1) := by
  induction r with
  | nil => simp [insertSorted]
  | cons a r ih =>
    obtain ⟨k', v'⟩ := a
    have ⟨ha, hr⟩ := List.pairwise_cons.1 h
    unfold insertSorted
    split
    · rename_i hlt
      refine List.pairwise_cons.2 ⟨fun e he => ?_, h⟩
      rcases List.mem_cons.1 he with rfl | he
      · exact hlt
      · exact String.lt_trans hlt (ha e he)
    · split
      · rename_i heq
        subst heq
        exact List.pairwise_cons.2 ⟨ha, hr⟩
      · rename_i hlt hne
        refine List.pairwise_cons.2 ⟨fun e he => ?_, ih hr⟩
        rcases mem_insertSorted he with rfl | he
        · exact Std.lt_of_le_of_ne (String.not_lt.1 hlt) (Ne.symm hne)
        · exact ha e he

theorem find?_insertSorted (k v k' : String) (r : List (String × String)) :
    (insertSorted k v r).find? (·.1 == k') =
      if k = k' then some (k, v) else r.find? (·.1 == k') := by
  induction r with
  | nil => by_cases h : k = k' <;> simp [insertSorted, h]
  | cons a r ih =>
    obtain ⟨first, w⟩ := a
    unfold insertSorted
    split
    · by_cases h : k = k' <;> simp [h]
    · split
      · next heq =>
        subst heq
        by_cases h : k = k' <;> simp [h]
      · next hne =>
        by_cases h : k = k'
        · subst h
          simp [ih, Ne.symm hne]
        · simp [List.find?_cons, ih, h]

theorem insertSorted_insertSorted (k v w : String) (r : List (String × String)) :
    insertSorted k w (insertSorted k v r) = insertSorted k w r := by
  induction r with
  | nil => simp [insertSorted]
  | cons a r ih =>
    obtain ⟨first, u⟩ := a
    by_cases hlt : k < first
    · simp [insertSorted, hlt]
    · by_cases heq : k = first
      · simp [insertSorted, heq]
      · simp [insertSorted, hlt, heq, ih]

structure Metadata where
  entries : List (String × String)
  sorted : entries.Pairwise (·.1 < ·.1)
  deriving DecidableEq, Repr

namespace Metadata

def empty : Metadata := ⟨[], .nil⟩

instance : Inhabited Metadata := ⟨empty⟩

def insert (m : Metadata) (k v : String) : Metadata :=
  ⟨insertSorted k v m.entries, insertSorted_pairwise m.sorted⟩

def get? (m : Metadata) (k : String) : Option String :=
  (m.entries.find? (·.1 == k)).map (·.2)

theorem get?_insert (m : Metadata) (k v k' : String) :
    (m.insert k v).get? k' = if k = k' then some v else m.get? k' := by
  unfold get? insert
  rw [find?_insertSorted]
  split <;> rfl

/-- What is said last of a name counts. -/
theorem insert_insert (m : Metadata) (k v w : String) :
    (m.insert k v).insert k w = m.insert k w := by
  simp only [insert, insertSorted_insertSorted]

def ofList (es : List (String × String)) : Metadata :=
  es.foldl (fun m e => m.insert e.1 e.2) empty

def isEmpty (m : Metadata) : Bool := m.entries.isEmpty

end Metadata
end Tabular
