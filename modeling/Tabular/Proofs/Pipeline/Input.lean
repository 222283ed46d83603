import Tabular.Pipeline
import Tabular.Proofs.Files.Spelling
import Tabular.Proofs.Transfer.Upkeep

/-! # What a pipeline does to its source

A pipeline changes the file tree at one location, where its sink path leads to. So the file that the
source path names is left as it is unless both paths lead to it. Validation compares the paths by
their components; it finds that they name one file when neither has a `..` and they begin alike, and
lets other spellings of one file pass. The file is then emptied before it is read.
-/
namespace Tabular

namespace FileSink
variable {t t' : FileTree} {e : Endpoint} {layout : Layout} {o : ParquetOptions}
variable {r : Except Error FileSink}

/-- A sink is created together with its file, or nothing happens. -/
theorem create_cases {p : Path} {encoder : Except Error FileEncoder}
    (h : create t p encoder = (r, t')) :
    (∃ cause, r = .error cause) ∧ t' = t ∨
    ∃ k, t.create p = .ok (k, t') ∧ ∀ sink, r = .ok sink → sink.location = k := by
  unfold create at h
  split at h
  · cases h
    exact .inl ⟨⟨_,rfl⟩,rfl⟩
  · next k t₁ hc =>
    split at h
    · cases h
      exact .inr ⟨k,hc,fun _ hs => by cases hs⟩
    · cases h
      exact .inr ⟨k,hc,fun _ hs => by cases hs; rfl⟩

theorem ofEndpoint_cases (h : ofEndpoint t e layout o = (r, t')) :
    (∃ cause, r = .error cause) ∧ t' = t ∨
    ∃ k, t.create e.path = .ok (k, t') ∧ ∀ sink, r = .ok sink → sink.location = k := by
  unfold ofEndpoint at h
  split at h
  · cases h
    exact .inl ⟨⟨_,rfl⟩,rfl⟩
  all_goals exact create_cases h

/-- Nothing that is done with a sink moves it to another file. -/
theorem keeps_location (k : Location) :
    Transfer.Pushable.Keeps (κ := FileSink) (fun sink => sink.location = k) where
  begin_keeps _ _ h := h
  observes_keeps _ _ _ _ _ hp := by cases hp
  fires_keeps _ _ _ _ _ hp := by cases hp
  ends_keeps _ _ _ _ _ _ _ h hp := by
    cases hp
    exact h
  close_keeps sink h := by
    have hl : sink.close.2.location = k := h
    simp only [Transfer.Pushable.close]
    cases hc : sink.close with
    | mk r sink' =>
      rw [hc] at hl
      cases r <;> exact hl

end FileSink

namespace Pipeline
variable {t : FileTree} {c : Config} {s : Surroundings} {cancelled : Bool}

theorem entry_of_openEntry {p : Path} {x : Entry} (h : t.openEntry p = .ok x) :
    t.entry p = .ok x := by
  unfold FileTree.openEntry at h
  split at h
  · cases h
    assumption
  · cases h
  · cases h

/-- The path of a source that could be opened names something. -/
theorem entry_of_source {e : Endpoint} {o : Options} {s : Inference.Surroundings} {source : Source}
    (h : Source.ofEndpoint t e o s cancelled = .ok source) : ∃ x, t.entry e.path = .ok x := by
  rw [Source.ofEndpoint, bind_eq_ok_iff] at h
  obtain ⟨format,_,h⟩ := h
  cases format with
  | csv =>
    obtain ⟨outcome,ho,_⟩ := bind_eq_ok_iff.mp h
    obtain ⟨x,hx,_⟩ := bind_eq_ok_iff.mp ho
    exact ⟨x,entry_of_openEntry hx⟩
  | ndjson =>
    obtain ⟨feed,hf,_⟩ := bind_eq_ok_iff.mp h
    obtain ⟨x,hx,_⟩ := bind_eq_ok_iff.mp hf
    exact ⟨x,entry_of_openEntry hx⟩
  | parquet | ipc =>
    obtain ⟨feed,hf,_⟩ := bind_eq_ok_iff.mp h
    obtain ⟨x,hx,_⟩ := bind_eq_ok_iff.mp hf
    exact ⟨x,entry_of_openEntry hx⟩

/-- A transfer writes one file, the one its sink was created with. -/
theorem exists_tree_transfer (c : Config) (s : Surroundings) (cancelled : Bool) (source : Source)
    (sink : FileSink) (t : FileTree) :
    ∃ bytes, (transfer c s cancelled source sink t).tree = t.put sink.location (.file bytes) := by
  unfold transfer
  dsimp only
  split
  · next scene hs =>
    have hl : scene.sink.location = sink.location :=
      Transfer.Engine.keeps_start (FileSink.keeps_location sink.location)
        (fun sink' he => by cases he; rfl) hs
    exact ⟨scene.sink.sink.encoder.bytes,by rw [← hl]; rfl⟩
  · exact ⟨sink.sink.encoder.bytes,rfl⟩

/-- What a run that was not refused before has come to do: it has opened the source, and its sink
is created where there was no directory. Nothing else in the file tree changes. -/
theorem run_cases (t : FileTree) (c : Config) (s : Surroundings) (cancelled : Bool) :
    (run t c s cancelled).tree = t ∨
    ∃ k x, c.validate = .ok () ∧ t.entry c.source.path = .ok x ∧ t.walk c.sink.path = .ok k ∧
      t.Altered k (run t c s cancelled).tree := by
  unfold run
  split
  · exact .inl rfl
  · next hv =>
    split
    · exact .inl rfl
    · next source hs =>
      obtain ⟨x,hx⟩ := entry_of_source hs
      split
      · next hk =>
        rcases FileSink.ofEndpoint_cases hk with ⟨_,rfl⟩ | ⟨k,hc,_⟩
        · exact .inl rfl
        · obtain ⟨hw,hd,rfl⟩ := FileTree.create_eq_ok hc
          exact .inr ⟨k,x,hv,hx,hw,FileTree.altered_put hd _⟩
      · next sink after hk =>
        rcases FileSink.ofEndpoint_cases hk with ⟨⟨_,hn⟩,_⟩ | ⟨k,hc,hl⟩
        · cases hn
        · obtain ⟨hw,hd,rfl⟩ := FileTree.create_eq_ok hc
          -- the file is created empty, and the transfer then gives it its content
          obtain ⟨bytes,ht⟩ := exists_tree_transfer c s cancelled
            (settled t c.source.path sink.location source) sink (t.put k (.file []))
          have hput := FileTree.altered_put hd (.file [])
          have hk : (t.put k (.file [])).get? k ≠ some .directory := by
            rw [FileTree.get?_put hd, if_pos rfl]
            simp
          refine .inr ⟨k,x,hv,hx,hw,?_⟩
          rw [ht, hl sink rfl]
          exact hput.trans (FileTree.altered_put hk _)

/-- Both paths of the settings lead to one file. -/
def Overlap (t : FileTree) (c : Config) : Prop :=
  ∃ l bytes, t.locate c.source.path = .ok l ∧ t.get? l = some (.file bytes) ∧
    t.walk c.sink.path = .ok l

/-- Settings that pass do not have paths with the same components. -/
theorem not_same_of_validate (h : c.validate = .ok ()) :
    c.source.path.same c.sink.path = false := by
  rw [Bool.eq_false_iff]
  intro hs
  obtain ⟨_,_,h⟩ := bind_eq_ok_iff.mp h
  obtain ⟨_,_,h⟩ := bind_eq_ok_iff.mp h
  rw [hs] at h
  cases h

/-- Validation finds that both paths lead to one file if neither goes up and they begin alike. -/
theorem not_overlap_of_validate (hp : .parent ∉ c.source.path.components)
    (hq : .parent ∉ c.sink.path.components) (hl : c.source.path.lead = c.sink.path.lead)
    (h : c.validate = .ok ()) : ¬ Overlap t c := by
  rintro ⟨l,_,hs,_,hw⟩
  have hsame := Path.same_of_walk hp hq hl (FileTree.locate_eq_ok_iff.mp hs).1 hw
  rw [not_same_of_validate h] at hsame
  cases hsame

/-- A location that no directory is at is that of a file if the path of a source leads to it. -/
theorem exists_file_of_entry {p : Path} {l : Location} {x : Entry} (hx : t.entry p = .ok x)
    (hl : t.locate p = .ok l) (hd : t.get? l ≠ some .directory) :
    ∃ bytes, t.get? l = some (.file bytes) := by
  obtain ⟨l',hl',hg⟩ := FileTree.entry_eq_ok_iff.mp hx
  obtain rfl : l' = l := by
    rw [hl] at hl'
    exact (Except.ok.inj hl').symm
  cases x with
  | directory => exact absurd hg hd
  | file bytes => exact ⟨bytes,hg⟩

/-- Both ends are one file exactly if the source path leads where the sink is created. -/
theorem overlap_iff {x : Entry} {k : Location} (hx : t.entry c.source.path = .ok x)
    (hw : t.walk c.sink.path = .ok k) (hd : t.get? k ≠ some .directory) :
    Overlap t c ↔ t.locate c.source.path = .ok k := by
  constructor
  · rintro ⟨l,_,h,_,hw'⟩
    rw [hw] at hw'
    cases hw'
    exact h
  · intro h
    obtain ⟨bytes,hg⟩ := exists_file_of_entry hx h hd
    exact ⟨k,bytes,h,hg,hw⟩

/-- A pipeline leaves its source as it is unless both ends are one file. -/
theorem entry_run (h : c.validate = .ok () → ¬ Overlap t c) :
    (run t c s cancelled).tree.entry c.source.path = t.entry c.source.path := by
  rcases run_cases t c s cancelled with ht | ⟨k,x,hv,hx,hw,ha⟩
  · rw [ht]
  · obtain ⟨l,hl,_⟩ := FileTree.entry_eq_ok_iff.mp hx
    refine ha.entry hl ?_
    rintro rfl
    exact h hv ((overlap_iff hx hw ha.not_directory).mpr hl)

/-- The sink is created on the file of the source exactly if both ends are one file, and that file
is then empty. -/
theorem created_on_source_iff {source : Source} {sink : FileSink} {after : FileTree}
    (hs : Source.ofEndpoint t c.source c.inference s.inference cancelled = .ok source)
    (hk : FileSink.ofEndpoint t c.sink source.layout c.parquet = (.ok sink, after)) :
    (t.locate c.source.path = .ok sink.location ↔ Overlap t c) ∧
    (Overlap t c → after.entry c.source.path = .ok (.file [])) := by
  obtain ⟨x,hx⟩ := entry_of_source hs
  rcases FileSink.ofEndpoint_cases hk with ⟨⟨_,hn⟩,_⟩ | ⟨k,hc,hl⟩
  · cases hn
  obtain ⟨hw,hd,rfl⟩ := FileTree.create_eq_ok hc
  obtain rfl := hl sink rfl
  have hiff := overlap_iff hx hw hd
  refine ⟨hiff.symm,fun ho => ?_⟩
  refine (FileTree.altered_put hd (.file [])).entry_file (hiff.mp ho) ?_
  rw [FileTree.get?_put hd, if_pos rfl]

/-- What becomes of the source of a pipeline, whatever the run comes to. Nothing changes but what is
where the sink path leads. The source is left as it is unless validated settings let both paths
lead to one file; they never do so when neither path has a `..` and both begin alike. In the other
case the sink is created on the file of the source, and that file is emptied. -/
theorem source_kept_unless_overlap (t : FileTree) (c : Config) (s : Surroundings)
    (cancelled : Bool) :
    (∀ l, t.walk c.sink.path ≠ .ok l → (run t c s cancelled).tree.get? l = t.get? l) ∧
    ((c.validate = .ok () → ¬ Overlap t c) →
      (run t c s cancelled).tree.entry c.source.path = t.entry c.source.path) ∧
    (.parent ∉ c.source.path.components → .parent ∉ c.sink.path.components →
      c.source.path.lead = c.sink.path.lead → c.validate = .ok () → ¬ Overlap t c) ∧
    (∀ source sink after,
      Source.ofEndpoint t c.source c.inference s.inference cancelled = .ok source →
      FileSink.ofEndpoint t c.sink source.layout c.parquet = (.ok sink, after) →
      (t.locate c.source.path = .ok sink.location ↔ Overlap t c) ∧
      (Overlap t c → after.entry c.source.path = .ok (.file []))) := by
  refine ⟨fun l hl => ?_,entry_run,not_overlap_of_validate,fun _ _ _ => created_on_source_iff⟩
  rcases run_cases t c s cancelled with ht | ⟨k,_,_,_,hw,ha⟩
  · rw [ht]
  · refine ha.get?_eq l ?_
    rintro rfl
    exact hl hw

/-- A file with one record, `{"a":1}` and a line feed. -/
def oneRecord : FileTree :=
  { entries := [(["in.json"],.file [0x7b, 0x22, 0x61, 0x22, 0x3a, 0x31, 0x7d, 0x0a])] }

def copyTo (path : String) : Config where
  source := ⟨⟨"in.json"⟩,some .ndjson⟩
  sink := ⟨⟨path⟩,some .ndjson⟩

theorem source_kept_otherName :
    (copyTo "out.json").validate = .ok () ∧
    (run oneRecord (copyTo "out.json") ⟨⟨1,"now"⟩,⟨0,0⟩,⟨1,0⟩⟩ false).tree.entry ⟨"in.json"⟩ =
      oneRecord.entry ⟨"in.json"⟩ := by
  have hv : (copyTo "out.json").validate = .ok () := rfl
  have h := source_kept_unless_overlap oneRecord (copyTo "out.json") ⟨⟨1,"now"⟩,⟨0,0⟩,⟨1,0⟩⟩ false
  exact ⟨hv,h.2.1 (h.2.2.1 (by decide) (by decide) rfl)⟩

/-- Settings that pass and still lose their source: with a dot in front, the sink path is another
one to validation and the same one to the file tree. The file is emptied, and nothing is copied. -/
theorem other_spelling_empties_source :
    (copyTo "./in.json").validate = .ok () ∧
    oneRecord.entry (copyTo "./in.json").source.path =
      .ok (.file [0x7b, 0x22, 0x61, 0x22, 0x3a, 0x31, 0x7d, 0x0a]) ∧
    (run oneRecord (copyTo "./in.json") ⟨⟨1,"now"⟩,⟨0,0⟩,⟨1,0⟩⟩ false).tree.entry
      (copyTo "./in.json").source.path = .ok (.file []) := by
  refine ⟨rfl,rfl,?_⟩
  -- only the location is evaluated; that the source path still leads there follows from the frame
  have hg : (run oneRecord (copyTo "./in.json") ⟨⟨1,"now"⟩,⟨0,0⟩,⟨1,0⟩⟩ false).tree.get?
      ["in.json"] = some (.file []) := by decide +kernel
  rcases run_cases oneRecord (copyTo "./in.json") ⟨⟨1,"now"⟩,⟨0,0⟩,⟨1,0⟩⟩ false with
    ht | ⟨k,_,_,_,hw,ha⟩
  · rw [ht] at hg
    cases hg
  · obtain rfl : ["in.json"] = k := Except.ok.inj hw
    exact ha.entry_file rfl hg

end Pipeline
end Tabular
