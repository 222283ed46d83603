import Tabular.Schema.Basic
import Tabular.Proofs.Files.Tree
import Mathlib.Data.List.Forall2

/-! # Schemas as layouts and back

A layout knows more types than there are tags. Every tag has a type of its own but for `unset`,
which a layout shows as texts, and a type has a tag if it belongs to the family of one. So a schema
comes back from its layout settled, and a layout, once taken to a schema and back, stays as it is.
-/
namespace Tabular

namespace Schema

/-- The types that a tag stands for. Nothing is known of an `unset` column, so it has none. -/
inductive Tag.Family : Tag → ColumnType → Prop
  | boolean : Family .boolean .boolean
  | int (width : Width) : Family .int64 (.int width)
  | float16 : Family .float64 .float16
  | float32 : Family .float64 .float32
  | float64 : Family .float64 .float64
  | timestamp (unit : TimeUnit) (zone : Option String) : Family .timestamp (.timestamp unit zone)
  | utf8 : Family .string .utf8
  | largeUtf8 : Family .string .largeUtf8

def Supported (type : ColumnType) : Prop := ∃ t : Tag, t.Family type

/-- A field that says of a column what it can. -/
structure Field.Tells (c : Column) (f : Field) : Prop where
  name_eq : f.name = c.name
  family : f.tag.Family c.type
  nullable_eq : f.nullable = c.nullable

def Field.settled (f : Field) : Field := { f with tag := f.tag.settled }

def settled (s : Schema) : Schema := { s with fields := s.fields.map Field.settled }

variable {c : Column} {cs : List Column} {f : Field} {fs : List Field} {l : Layout} {s : Schema}
variable {t : Tag} {type : ColumnType} {e : Error}

theorem Tag.ofColumnType?_eq_some_iff : Tag.ofColumnType? type = some t ↔ t.Family type := by
  constructor
  · intro h
    cases type <;> cases h <;> constructor
  · rintro (_ | _ | _ | _ | _ | _ | _ | _) <;> rfl

theorem Tag.ofColumnType?_eq_none_iff : Tag.ofColumnType? type = none ↔ ¬ Supported type := by
  rw [Option.eq_none_iff_forall_ne_some]
  simp only [ne_eq, Tag.ofColumnType?_eq_some_iff, Supported, not_exists]

theorem Tag.columnType_settled (t : Tag) : t.settled.columnType = t.columnType := by
  cases t <;> rfl

theorem Field.toColumn_settled (f : Field) : f.settled.toColumn = f.toColumn := by
  simp only [toColumn, settled, Tag.columnType_settled]

theorem toLayout_settled (s : Schema) : s.settled.toLayout = s.toLayout := by
  simp [toLayout, settled, Field.toColumn_settled]

theorem Field.ofColumn_toColumn (f : Field) : ofColumn f.toColumn = .ok f.settled := by
  simp only [ofColumn, toColumn, Tag.ofColumnType?_columnType, settled]

theorem Field.ofColumn_eq_ok_iff : ofColumn c = .ok f ↔ f.Tells c := by
  obtain ⟨name,tag,nullable⟩ := f
  unfold ofColumn
  constructor
  · intro h
    split at h
    · next t ht =>
      cases h
      exact ⟨rfl,Tag.ofColumnType?_eq_some_iff.mp ht,rfl⟩
    · cases h
  · rintro ⟨rfl,hfamily,rfl⟩
    rw [Tag.ofColumnType?_eq_some_iff.mpr hfamily]

theorem Field.ofColumn_eq_error_iff : ofColumn c = .error e ↔
    ¬ Supported c.type ∧ e = .schema (.unsupported c.name c.type.name) := by
  rw [← Tag.ofColumnType?_eq_none_iff]
  unfold ofColumn
  cases ht : Tag.ofColumnType? c.type with
  | some t => simp
  | none => simp [eq_comm]

theorem map_eq_of_tells {α : Type} {g : Field → α} {h : Column → α}
    (hall : List.Forall₂ Field.Tells cs fs) (hsame : ∀ {c f}, Field.Tells c f → g f = h c) :
    fs.map g = cs.map h := by
  induction hall with
  | nil => rfl
  | cons hc _ ih => rw [List.map_cons, List.map_cons, hsame hc, ih]

theorem fieldsOf_cons (c : Column) (cs : List Column) :
    fieldsOf (c :: cs) = Field.ofColumn c >>= fun f => (fieldsOf cs).map (f :: ·) := rfl

theorem fieldsOf_map_toColumn (fs : List Field) :
    fieldsOf (fs.map Field.toColumn) = .ok (fs.map Field.settled) := by
  induction fs with
  | nil => rfl
  | cons f fs ih => rw [List.map_cons, fieldsOf_cons, Field.ofColumn_toColumn, ih]; rfl

theorem fieldsOf_eq_ok_iff : fieldsOf cs = .ok fs ↔ List.Forall₂ Field.Tells cs fs := by
  induction cs generalizing fs with
  | nil => simp [fieldsOf, eq_comm, List.forall₂_nil_left_iff]
  | cons c cs ih =>
    rw [fieldsOf_cons, bind_eq_ok_iff, List.forall₂_cons_left_iff]
    simp only [map_eq_ok_iff, Field.ofColumn_eq_ok_iff, ih]
    constructor
    · rintro ⟨f,hf,fs',hfs,rfl⟩
      exact ⟨f,fs',hf,hfs,rfl⟩
    · rintro ⟨f,fs',hf,hfs,rfl⟩
      exact ⟨f,hf,fs',hfs,rfl⟩

/-- The first column of another type is what a layout fails at. -/
theorem fieldsOf_eq_error_iff : fieldsOf cs = .error e ↔
    ∃ front c back, cs = front ++ c :: back ∧ (∀ d ∈ front, Supported d.type) ∧
      ¬ Supported c.type ∧ e = .schema (.unsupported c.name c.type.name) := by
  induction cs with
  | nil => simp [fieldsOf]
  | cons first cs ih =>
    rw [fieldsOf_cons]
    cases hf : Field.ofColumn first with
    | error e' =>
      obtain ⟨hnot,rfl⟩ := Field.ofColumn_eq_error_iff.mp hf
      constructor
      · intro h
        cases h
        exact ⟨[],first,cs,rfl,by simp,hnot,rfl⟩
      · rintro ⟨front,c,back,hsplit,hfront,_,rfl⟩
        cases front with
        | nil =>
          cases hsplit
          rfl
        | cons d front =>
          cases hsplit
          exact absurd (hfront first List.mem_cons_self) hnot
    | ok f =>
      -- a column with a field is never the one named, so the search goes on behind it
      have hfirst : Supported first.type := ⟨f.tag,(Field.ofColumn_eq_ok_iff.mp hf).family⟩
      change (fieldsOf cs).map _ = _ ↔ _
      rw [map_eq_error_iff, ih]
      constructor
      · rintro ⟨front,c,back,rfl,hfront,hrest⟩
        exact ⟨first :: front,c,back,rfl,List.forall_mem_cons.mpr ⟨hfirst,hfront⟩,hrest⟩
      · rintro ⟨front,c,back,hsplit,hfront,hnot,he⟩
        cases front with
        | nil =>
          cases hsplit
          exact absurd hfirst hnot
        | cons d front =>
          cases hsplit
          exact ⟨front,c,back,rfl,(List.forall_mem_cons.mp hfront).2,hnot,he⟩

/-- A layout either has a schema, or one of its types is not supported. -/
theorem exists_fieldsOf_iff : (∃ fs, fieldsOf cs = .ok fs) ↔ ∀ c ∈ cs, Supported c.type := by
  constructor
  · rintro ⟨fs,h⟩ c hc
    have hall := List.forall₂_iff_get.mp (fieldsOf_eq_ok_iff.mp h)
    obtain ⟨i,hi,rfl⟩ := List.getElem_of_mem hc
    exact ⟨_,(hall.2 i hi (hall.1 ▸ hi)).family⟩
  · intro h
    cases hcs : fieldsOf cs with
    | ok fs => exact ⟨fs,rfl⟩
    | error e =>
      obtain ⟨front,c,back,rfl,_,hnot,_⟩ := fieldsOf_eq_error_iff.mp hcs
      exact absurd (h c (by simp)) hnot

theorem ofLayout_eq_ok_iff :
    ofLayout l = .ok s ↔ fieldsOf l.columns = .ok s.fields ∧ s.metadata = l.metadata := by
  obtain ⟨fields,metadata⟩ := s
  unfold ofLayout
  rw [bind_eq_ok_iff]
  constructor
  · rintro ⟨_,hfields,⟨⟩⟩
    exact ⟨hfields,rfl⟩
  · rintro ⟨hfields,rfl⟩
    exact ⟨fields,hfields,rfl⟩

theorem ofLayout_eq_error_iff : ofLayout l = .error e ↔ fieldsOf l.columns = .error e := by
  unfold ofLayout
  cases fieldsOf l.columns <;> simp [bind, Except.bind, pure, Except.pure]

theorem ofLayout_toLayout (s : Schema) : ofLayout s.toLayout = .ok s.settled :=
  ofLayout_eq_ok_iff.mpr ⟨fieldsOf_map_toColumn s.fields,rfl⟩

/-- A schema comes back from its layout with its columns of unknown type settled as texts, and
otherwise as it was. A layout has a schema exactly if all its types are supported, and else fails at
the first that is not, naming the column and the type. The layout of that schema has the columns
under the same names, in the same order, with the same nulls and the same metadata, and taking it to
a schema and back once more changes nothing. -/
theorem layout_survives_round_trip :
    (∀ s : Schema, ofLayout s.toLayout = .ok s.settled) ∧
    ∀ l : Layout,
      ((∃ s, ofLayout l = .ok s) ↔ ∀ c ∈ l.columns, Supported c.type) ∧
      (∀ e, ofLayout l = .error e ↔ ∃ front c back, l.columns = front ++ c :: back ∧
        (∀ d ∈ front, Supported d.type) ∧ ¬ Supported c.type ∧
        e = .schema (.unsupported c.name c.type.name) ∧ e.message = "Schema error: " ++
          ("Column '" ++ c.name ++ "' has unsupported type " ++ c.type.name)) ∧
      ∀ s, ofLayout l = .ok s →
        List.Forall₂ Field.Tells l.columns s.fields ∧
        s.toLayout.columns.map Column.name = l.columns.map Column.name ∧
        s.toLayout.columns.map Column.nullable = l.columns.map Column.nullable ∧
        s.toLayout.metadata = l.metadata ∧
        ∃ s', ofLayout s.toLayout = .ok s' ∧ s'.toLayout = s.toLayout := by
  refine ⟨ofLayout_toLayout,fun l => ⟨?_,fun e => ?_,fun s hs => ?_⟩⟩
  · rw [← exists_fieldsOf_iff]
    constructor
    · rintro ⟨s,hs⟩
      exact ⟨s.fields,(ofLayout_eq_ok_iff.mp hs).1⟩
    · rintro ⟨fs,hfs⟩
      exact ⟨⟨fs,l.metadata⟩,ofLayout_eq_ok_iff.mpr ⟨hfs,rfl⟩⟩
  · rw [ofLayout_eq_error_iff, fieldsOf_eq_error_iff]
    constructor
    · rintro ⟨front,c,back,hsplit,hfront,hnot,rfl⟩
      exact ⟨front,c,back,hsplit,hfront,hnot,rfl,rfl⟩
    · rintro ⟨front,c,back,hsplit,hfront,hnot,he,_⟩
      exact ⟨front,c,back,hsplit,hfront,hnot,he⟩
  · obtain ⟨hfields,hmetadata⟩ := ofLayout_eq_ok_iff.mp hs
    have htells := fieldsOf_eq_ok_iff.mp hfields
    refine ⟨htells,?_,?_,hmetadata,s.settled,ofLayout_toLayout s,toLayout_settled s⟩
    · rw [toLayout, List.map_map]
      exact map_eq_of_tells htells fun h => h.name_eq
    · rw [toLayout, List.map_map]
      exact map_eq_of_tells htells fun h => h.nullable_eq

/-- Narrow and zoned types widen once, under a name that occurs twice; a list is what is refused. -/
theorem layout_survives_round_trip_widened :
    let l : Layout := ⟨[⟨"a",.int .w16,false⟩,⟨"a",.largeUtf8,true⟩,
      ⟨"t",.timestamp .nanosecond (some "UTC"),false⟩],.ofList [("k","v")]⟩
    let s : Schema := ⟨[⟨"a",.int64,false⟩,⟨"a",.string,true⟩,⟨"t",.timestamp,false⟩],
      .ofList [("k","v")]⟩
    ofLayout l = .ok s ∧
      s.toLayout.columns =
        [⟨"a",.int64,false⟩,⟨"a",.utf8,true⟩,⟨"t",.micros,false⟩] ∧
      s.toLayout.metadata = l.metadata ∧
      (∃ s', ofLayout s.toLayout = .ok s' ∧ s'.toLayout = s.toLayout) ∧
      ofLayout ⟨⟨"b",.boolean,true⟩ :: ⟨"l",.list .utf8,true⟩ :: l.columns,l.metadata⟩ =
        .error (.schema (.unsupported "l" (ColumnType.list .utf8).name)) := by
  intro l s
  have hs : ofLayout l = .ok s := rfl
  obtain ⟨_,_,_,hmetadata,hagain⟩ := (layout_survives_round_trip.2 l).2.2 s hs
  refine ⟨hs,rfl,hmetadata,hagain,((layout_survives_round_trip.2 _).2.1 _).mpr ?_⟩
  refine ⟨[⟨"b",.boolean,true⟩],⟨"l",.list .utf8,true⟩,l.columns,rfl,?_,?_,rfl,rfl⟩
  · simpa using ⟨.boolean,Tag.Family.boolean⟩
  · rintro ⟨_,⟨⟩⟩

end Schema
end Tabular
