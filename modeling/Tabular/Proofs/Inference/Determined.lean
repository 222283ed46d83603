import Tabular.Proofs.Delimited.RowByRow
import Tabular.Proofs.Files.Tree
import Mathlib.Data.Finset.Lattice.Fold

/-! # Inferred fields in closed form

What inference says of a column depends only on which tags its values have and on whether one of
them is null. The tags are a finite set in a lattice, the tag of the field is their join, and the
lattice is so low that the join is known without computing it: two different tags have nothing above
them but texts, unless they are the two of numbers.
-/
namespace Tabular

namespace Schema.Tag

instance : Max Tag := ⟨join⟩

/-- A tag is below another if a column of the other can hold its values. -/
instance : SemilatticeSup Tag := SemilatticeSup.mk' join_comm join_assoc join_self

instance : OrderBot Tag where
  bot := unset
  bot_le := unset_join

variable {t u : Tag} {tags : Finset Tag}

@[simp] theorem unset_sup (t : Tag) : unset ⊔ t = t := unset_join t

theorem eq_unset_of_le (h : t ≤ unset) : t = unset := le_bot_iff.mp h

theorem eq_string_of_le (h : string ≤ t) : t = string := by
  cases t <;> first | rfl | cases h

theorem eq_of_le (hu : u = boolean ∨ u = int64) (ht : t ≠ unset) (h : t ≤ u) : t = u := by
  rcases hu with rfl | rfl <;> cases t <;> first | rfl | contradiction

theorem join_eq_string (ht : t ≠ unset) (hu : u ≠ unset) (hne : t ≠ u)
    (hnumeric : ({t, u} : Finset Tag) ≠ {int64, float64}) : t.join u = string := by
  cases t <;> cases u <;> first | rfl | contradiction

/-- Some two of the tags have nothing above them but texts. -/
theorem exists_join_eq_string (hunset : unset ∉ tags) (hne : tags.Nonempty)
    (hsingle : ∀ t, tags ≠ {t}) (hnumeric : tags ≠ {int64, float64}) :
    ∃ t ∈ tags, ∃ u ∈ tags, t.join u = string := by
  by_contra hnone
  have hpair : ∀ t ∈ tags, ∀ u ∈ tags, t ≠ u → ({t, u} : Finset Tag) = {int64, float64} := by
    intro t ht u hu htu
    by_contra hp
    exact hnone ⟨t,ht,u,hu,join_eq_string (fun h => hunset (h ▸ ht)) (fun h => hunset (h ▸ hu))
      htu hp⟩
  have hmany : tags.Nontrivial := by
    rcases hne.exists_eq_singleton_or_nontrivial with ⟨t,ht⟩ | hmany
    · exact absurd ht (hsingle t)
    · exact hmany
  refine hnumeric (Finset.Subset.antisymm (fun t ht => ?_) ?_)
  · obtain ⟨u,hu,hne⟩ := hmany.exists_ne t
    rw [← hpair t ht u hu hne.symm]
    exact Finset.mem_insert_self t {u}
  · obtain ⟨t,ht,u,hu,hne⟩ := hmany
    rw [← hpair t ht u hu hne]
    exact Finset.insert_subset ht (Finset.singleton_subset_iff.mpr hu)

theorem sup_eq_string (hunset : unset ∉ tags) (hne : tags.Nonempty) (hsingle : ∀ t, tags ≠ {t})
    (hnumeric : tags ≠ {int64, float64}) : tags.sup id = string := by
  obtain ⟨t,ht,u,hu,hj⟩ := exists_join_eq_string hunset hne hsingle hnumeric
  have hle : t.join u ≤ tags.sup id :=
    sup_le (Finset.le_sup (f := id) ht) (Finset.le_sup (f := id) hu)
  exact eq_string_of_le (hj ▸ hle)

end Schema.Tag

namespace Inference
open Delimited (Begins AtEnd Chunk Reading detect readings Item.row?)
open Schema (ColumnState Field Tag)

def tagsOf (o : Options) (raws : List String) : Finset Tag := (raws.filterMap (detect o)).toFinset

/-- What a field has to be, given the tags in its column and whether there are nulls in it. -/
structure Determined (tags : Finset Tag) (nulls : Prop) (f : Field) : Prop where
  blank : tags = ∅ → f.tag = .string ∧ f.nullable = true
  single : ∀ t, tags = {t} → f.tag = t
  numeric : tags = {.int64, .float64} → f.tag = .float64
  mixed : tags ≠ ∅ → (∀ t, tags ≠ {t}) → tags ≠ {.int64, .float64} → f.tag = .string
  nullable_iff : tags ≠ ∅ → (f.nullable = true ↔ nulls)

variable {o : Options} {rows : List Row} {raws : List String} {states : List ColumnState} {j : Nat}

theorem detect_eq_none_iff {raw : String} : detect o raw = none ↔ o.isNull raw = true :=
  ⟨Delimited.isNull_of_detect,fun h => by simp [detect, h]⟩

theorem tagsOf_cons_of_none {raw : String} (h : detect o raw = none) :
    tagsOf o (raw :: raws) = tagsOf o raws := by
  simp [tagsOf, h]

theorem tagsOf_cons_of_some {raw : String} {t : Tag} (h : detect o raw = some t) :
    tagsOf o (raw :: raws) = insert t (tagsOf o raws) := by
  simp [tagsOf, h]

theorem unset_not_mem_tagsOf : .unset ∉ tagsOf o raws := by
  simp [tagsOf, detect_ne_unset]

/-- A column shows the join of its tags, and whether it has a null. -/
theorem observeAll_eq (o : Options) (s : ColumnState) (raws : List String) :
    observeAll o s raws = ⟨s.tag ⊔ (tagsOf o raws).sup id,s.nullable || raws.any o.isNull⟩ := by
  induction raws generalizing s with
  | nil => simp [observeAll, tagsOf]
  | cons raw raws ih =>
    refine (ih _).trans ?_
    cases hd : detect o raw with
    | none =>
      have hnull := detect_eq_none_iff.mp hd
      simp [tagsOf_cons_of_none hd, ColumnState.observe, hd, hnull]
    | some t =>
      have hnull : o.isNull raw = false := by
        rw [Bool.eq_false_iff, ne_eq, ← detect_eq_none_iff, hd]
        exact Option.some_ne_none t
      have hjoin : s.tag.join t = s.tag ⊔ t := rfl
      simp [tagsOf_cons_of_some hd, ColumnState.observe, hd, hnull, hjoin, sup_assoc]

/-- So the field of a column is determined by its tags and its nulls. -/
theorem determined_freezeField (name : String) (o : Options) (raws : List String) :
    Determined (tagsOf o raws) (∃ raw ∈ raws, o.isNull raw = true)
      (freezeField name (observeAll o {} raws)) := by
  have hunset : .unset ∉ tagsOf o raws := unset_not_mem_tagsOf
  have hstate : observeAll o {} raws = ⟨(tagsOf o raws).sup id,raws.any o.isNull⟩ := by
    simpa using observeAll_eq o {} raws
  have hfield : tagsOf o raws ≠ ∅ → freezeField name (observeAll o {} raws) =
      ⟨name,(tagsOf o raws).sup id,raws.any o.isNull⟩ := by
    intro hne
    obtain ⟨t,ht⟩ := Finset.nonempty_iff_ne_empty.mpr hne
    have hle : t ≤ (tagsOf o raws).sup id := Finset.le_sup (f := id) ht
    have hsup : (tagsOf o raws).sup id ≠ .unset := by
      intro h
      rw [h] at hle
      exact hunset (Tag.eq_unset_of_le hle ▸ ht)
    rw [freezeField, hstate, if_neg hsup]
  constructor
  case blank =>
    intro hnone
    rw [freezeField, hstate, hnone]
    exact ⟨rfl,rfl⟩
  case single =>
    intro t ht
    rw [hfield (by simp [ht]), ht]
    exact Finset.sup_singleton
  case numeric =>
    intro hboth
    rw [hfield (by simp [hboth]), hboth]
    rfl
  case mixed =>
    intro hne hsingle hnumeric
    rw [hfield hne]
    exact Tag.sup_eq_string hunset (Finset.nonempty_iff_ne_empty.mpr hne) hsingle hnumeric
  case nullable_iff =>
    intro hne
    rw [hfield hne]
    exact List.any_eq_true

theorem freeze_sampleSize (o : Options) (clock : String) (names : List String) (rows : Nat) :
    (freeze o clock names states rows).schema.metadata.get? "sample_size" =
      some (Number.Decimal.ofNat rows) := by
  simp [freeze, Schema.withMetadata, Metadata.get?_insert]

theorem name_freezeField (name : String) (s : ColumnState) : (freezeField name s).name = name := by
  unfold freezeField
  split <;> rfl

theorem map_name_zipWith {names : List String} (h : names.length = states.length) :
    (List.zipWith freezeField names states).map Field.name = names := by
  induction names generalizing states with
  | nil => rfl
  | cons name names ih =>
    cases states with
    | nil => cases h
    | cons s states =>
      rw [List.zipWith_cons_cons, List.map_cons, name_freezeField, ih (Nat.succ.inj h)]

/-- The fields of one look at some rows are determined column by column. -/
theorem determined_fieldsOf {names : List String} {f : Field}
    (hf : (fieldsOf o names rows)[j]? = some f) :
    Determined (tagsOf o (columnOf rows j)) (∃ raw ∈ columnOf rows j, o.isNull raw = true) f := by
  obtain ⟨name,s,_,hs,rfl⟩ := List.getElem?_zipWith_eq_some.mp hf
  rw [getElem?_observeRows] at hs
  obtain ⟨s₀,hs₀,rfl⟩ := Option.map_eq_some_iff.mp hs
  obtain rfl : s₀ = {} := (List.mem_replicate.mp (List.mem_of_getElem? hs₀)).2
  exact determined_freezeField name o (columnOf rows j)

def rowsOf : List Reading → List Row
  | [] => []
  | r :: rs => match r.item with
    | .finished => []
    | .record record => record.fields :: rowsOf rs
    | .fault _ | .panic _ => rowsOf rs

def sampledRows (o : Options) (input : List Chunk) : List Row :=
  (rowsOf (dataReadings o input)).take o.maxRows

theorem rowsOf_begins {width : Nat} {rs more : List Reading} (h : Begins width more rs rows) :
    rowsOf rs = rows ++ rowsOf more := by
  induction h with
  | done => rfl
  | row hr hw h ih =>
    obtain ⟨record,hi,rfl⟩ := Delimited.exists_record_of_row? hr
    simp [rowsOf, hi, ih]

theorem rowsOf_atEnd {rs : List Reading} (h : AtEnd rs) : rowsOf rs = [] := by
  cases rs with
  | nil => rfl
  | cons r rs => simp [rowsOf, h r rfl]

theorem take_rowsOf {width n : Nat} {rs more : List Reading} (h : Begins width more rs rows)
    (hle : rows.length ≤ n) (hend : rows.length < n → AtEnd more) : (rowsOf rs).take n = rows := by
  rw [rowsOf_begins h]
  by_cases hlt : rows.length < n
  · rw [rowsOf_atEnd (hend hlt), List.append_nil, List.take_of_length_le hle]
  · rw [List.take_append_of_le_length (by omega), List.take_of_length_le hle]

/-- An inference from an input that is not empty has looked once at its first data rows, and found
its names in the first record. -/
theorem infer_of_not_atEnd {s : Surroundings} {cancelled : Bool} {input : List Chunk}
    {out : Outcome} {delimiter : UInt8} (hd : o.delimiterByte = .ok delimiter)
    (hne : ¬ AtEnd (readings delimiter input)) (h : infer o s cancelled input = .ok out) :
    let rows := sampledRows o input
    ∃ record more, (readings delimiter input).head?.map Reading.item = some (.record record) ∧
      Begins record.fields.length more (dataReadings o input) rows ∧
      (rows.length < o.maxRows → AtEnd more) ∧
      out = freeze o s.clock (columnNames o record.fields)
        (observeRows o (blankStates (columnNames o record.fields).length) rows) rows.length := by
  obtain ⟨_,hcheck,h⟩ := bind_eq_ok_iff.mp h
  obtain rfl := Except.ok.inj (hd.symm.trans (check_ok hcheck).2)
  rw [sampledRows, dataReadings_eq hd]
  cases hrs : readings delimiter input with
  | nil => exact absurd (by simp [hrs, AtEnd]) hne
  | cons first rest =>
    rw [hrs] at h hne
    cases hi : first.item with
    | finished => exact absurd (by simp [hi, AtEnd]) hne
    | fault f => simp [inferRecords, sampleRecords, hi] at h
    | panic text => simp [inferRecords, sampleRecords, hi] at h
    | record record =>
      obtain ⟨rows,more,hbegins,hle,hend,hout⟩ := inferRecords_of_record hi h
      rw [take_rowsOf hbegins hle hend]
      exact ⟨record,more,congrArg some hi,length_columnNames o record.fields ▸ hbegins,hend,hout⟩

/-- What inference finds is determined, along every schedule of the pool, by the first record and by
the tags and the nulls in the first data rows. It looks at as many of these as it wants or as there
are, and says how many these were. -/
theorem fields_determined {s : Surroundings} {cancelled : Bool} {moves : List Move}
    {input : List Chunk} {out : Outcome} {delimiter : UInt8} (hd : o.delimiterByte = .ok delimiter)
    (hne : ¬ AtEnd (readings delimiter input))
    (h : inferAlong o s cancelled moves input = some (.ok out)) :
    let rows := sampledRows o input
    ∃ record more, (readings delimiter input).head?.map Reading.item = some (.record record) ∧
      Begins record.fields.length more (dataReadings o input) rows ∧
      (rows.length < o.maxRows → AtEnd more) ∧
      out.rowsSampled = rows.length ∧
      out.schema.metadata.get? "sample_size" = some (Number.Decimal.ofNat rows.length) ∧
      out.schema.fields.map Field.name = columnNames o record.fields ∧
      ∀ (j : Nat) (f : Field), out.schema.fields[j]? = some f →
        let raws := columnOf rows j
        Determined (tagsOf o raws) (∃ raw ∈ raws, o.isNull raw = true) f := by
  obtain ⟨record,more,hfirst,hbegins,hend,rfl⟩ :=
    infer_of_not_atEnd hd hne (infer_of_inferAlong h).symm
  exact ⟨record,more,hfirst,hbegins,hend,rfl,freeze_sampleSize ..,
    map_name_zipWith (by simp [blankStates]),fun _ _ hf => determined_fieldsOf hf⟩

/-- A column of numbers and a null, a column of two kinds, and a column of nulls. -/
theorem fields_determined_three :
    let input : List Chunk :=
      [.bytes [110, 44, 109, 44, 122, 10, 49, 44, 116, 114, 117, 101, 44, 10,
        50, 46, 53, 44, 55, 44, 10, 44, 44, 10]]
    sampledRows {} input = [["1", "true", ""], ["2.5", "7", ""], ["", "", ""]] ∧
    ∃ out, inferAlong {} ⟨2,"now"⟩ false (Pool.roundRobin 2 1) input = some (.ok out) ∧
      out.rowsSampled = 3 ∧ out.schema.fields.map Field.name = ["n", "m", "z"] ∧
      ∀ j f, out.schema.fields[j]? = some f →
        let raws := columnOf (sampledRows {} input) j
        Determined (tagsOf {} raws) (∃ raw ∈ raws, ({} : Options).isNull raw = true) f := by
  intro input
  have hs : ∃ out, inferAlong {} ⟨2,"now"⟩ false (Pool.roundRobin 2 1) input = some (.ok out) :=
    ⟨_,rfl⟩
  obtain ⟨out,h⟩ := hs
  have hrows : sampledRows {} input = [["1", "true", ""], ["2.5", "7", ""], ["", "", ""]] := rfl
  have hne : ¬ AtEnd (readings 44 input) :=
    fun he => nomatch he ⟨.record ⟨1,["n", "m", "z"]⟩,false⟩ rfl
  obtain ⟨record,more,hfirst,_,_,hcount,_,hnames,hdetermined⟩ := fields_determined rfl hne h
  obtain rfl : ⟨1,["n", "m", "z"]⟩ = record := Delimited.Item.record.inj (Option.some.inj hfirst)
  exact ⟨hrows,out,h,hcount,hnames,hdetermined⟩

end Inference
end Tabular
