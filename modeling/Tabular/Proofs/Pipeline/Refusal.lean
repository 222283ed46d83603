import Tabular.Proofs.Pipeline.Schedule
import Tabular.Proofs.Transfer.Closings

/-! # Pipelines that fail

Validation comes first, and what passes it is not found invalid later: every other failure of a
pipeline is one of its files, of their content, of the transfer, or a cancellation. The sink is
touched only when the source is open, so up to then a failure leaves all files as they are.
-/
namespace Tabular
open Delimited (Reading)
open Transfer

abbrev Unblamed {α : Type} (x : Except Error α) : Prop := FailsAs (·.isValidation = false) x

/-! ## Opening the source -/

theorem FileTree.unblamed_openEntry (t : FileTree) (p : Path) : Unblamed (t.openEntry p) := by
  unfold FileTree.openEntry
  split
  · exact .ok _
  · exact .error rfl
  · exact .error rfl

namespace Inference

theorem Sample.unblamed_handOut {rest : Sample} (h : Unblamed rest.outcome) (fired : Bool)
    (batch : List Row) : Unblamed (handOut fired batch rest).outcome := by
  cases fired with
  | true => exact .error rfl
  | false => exact h

theorem Sample.unblamed_finish (fired : Bool) (pending : List Row) (count : Nat) :
    Unblamed (finish fired pending count).outcome := by
  unfold finish
  split
  · exact .ok _
  · exact unblamed_handOut (.ok _) _ _

theorem Sample.unblamed_takeFrom (width batchSize left : Nat) (pending : List Row)
    (room count : Nat) (fired : Bool) (rs : List Reading) :
    Unblamed (takeFrom width batchSize left pending room count fired rs).outcome := by
  induction rs generalizing left pending room count fired with
  | nil => cases left <;> exact unblamed_finish _ _ _
  | cons r rs ih =>
    cases left with
    | zero => exact unblamed_finish _ _ _
    | succ left =>
      simp only [takeFrom]
      split
      · exact unblamed_finish _ _ _
      · exact .error rfl
      · exact .error rfl
      · split
        · split
          · exact unblamed_handOut (ih _ _ _ _ _) _ _
          · exact ih _ _ _ _ _
        · exact .error rfl

theorem unblamed_sampleRecords (o : Options) (rs : List Reading) :
    Unblamed (sampleRecords o rs) := by
  unfold sampleRecords
  split
  · exact .ok _
  · split
    · exact .ok _
    · exact .error rfl
    · exact .error rfl
    · exact .ok _

theorem unblamed_inferRecords (o : Options) (s : Surroundings) (rs : List Reading) :
    Unblamed (inferRecords o s rs) := by
  unfold inferRecords
  split
  · next e h => exact .error (unblamed_sampleRecords o rs e h)
  · exact .ok _
  · next names sample h =>
    have hsample : Unblamed sample.outcome := by
      unfold sampleRecords at h
      split at h
      · cases h
      · split at h
        · cases h
        · cases h
        · cases h
        · cases h
          exact Sample.unblamed_takeFrom _ _ _ _ _ _ _ _
    unfold settle
    cases hx : sample.outcome with
    | error e => exact .error (hsample e hx)
    | ok rows => exact .ok _

end Inference

namespace Feed
variable {batchSize : Nat} {p : Path}

theorem unblamed_contentOf {fault : Error} (h : fault.isValidation = false) (x : Entry) :
    Unblamed (contentOf fault x) := by
  cases x with
  | directory => exact .error h
  | file bytes => exact .ok _

theorem unblamed_ndjsonOfPath (t : FileTree) : Unblamed (ndjsonOfPath t none batchSize p) := by
  refine .bind (t.unblamed_openEntry p) fun entry _ => ?_
  refine .bind (unblamed_contentOf rfl entry) fun bytes _ => ?_
  split
  · exact .ok _
  · exact .error rfl

theorem unblamed_parquetOfPath (t : FileTree) : Unblamed (parquetOfPath t batchSize p) := by
  refine .bind (t.unblamed_openEntry p) fun entry _ => ?_
  refine .bind (unblamed_contentOf rfl entry) fun bytes _ => ?_
  unfold Columnar.Parquet.feed
  split
  · exact .ite (fun _ => .error rfl) fun _ => .ok _
  · exact .error rfl

theorem unblamed_ipcOfPath (t : FileTree) : Unblamed (ipcOfPath t p) := by
  refine .bind (t.unblamed_openEntry p) fun entry _ => ?_
  refine .bind (unblamed_contentOf rfl entry) fun bytes _ => ?_
  unfold Columnar.Ipc.feed
  split
  · exact .ok _
  · exact .error rfl

end Feed

/-! ## Creating and closing the sink -/

namespace FileSink

theorem unblamed_create {encoder : Except Error FileEncoder} (h : Unblamed encoder) (t : FileTree)
    (p : Path) : Unblamed (create t p encoder).1 := by
  unfold create
  split
  · exact .error rfl
  · split
    · next e => exact .error (h e rfl)
    · exact .ok _

theorem unblamed_ofEndpoint {e : Endpoint} {f : Format} (hf : e.resolve = .ok f) (t : FileTree)
    (layout : Layout) (o : ParquetOptions) : Unblamed (ofEndpoint t e layout o).1 := by
  unfold ofEndpoint
  rw [hf]
  cases f with
  | csv | ndjson | ipc => exact unblamed_create (.ok _) t e.path
  | parquet =>
    refine unblamed_create ?_ t e.path
    unfold Columnar.Parquet.Writer.ofLayout
    split
    · exact .error rfl
    · exact .ok _

theorem unblamed_close (s : FileSink) : Unblamed s.close.1 := by
  have hparquet : ∀ w : Columnar.Parquet.Writer, Unblamed w.finish.1 := by
    intro w
    unfold Columnar.Parquet.Writer.finish
    split
    · exact .error rfl
    · exact .ok ()
  have hfinish : ∀ e : FileEncoder, Unblamed (Encoder.finish e).1 := by
    intro e
    cases e with
    | delimited | lines | ipc => exact .ok ()
    | parquet w => exact hparquet w
  have hclose : Unblamed s.sink.close.1 := by
    unfold EncodingSink.close
    split
    · exact .ok ()
    · exact hfinish _
  exact hclose

end FileSink

/-! ## The transfer -/

theorem Transfer.Run.Moves.closeError_eq {r r' : Run} {e : Event} (hm : Moves r e r')
    (he : e.closed? = none) : r'.closeError = r.closeError := by
  cases hm <;> first | rfl | cases he

namespace Transfer.Scene
variable {s s' : Scene Source FileSink} {e : Event}

def ClosesUnblamed (s : Scene Source FileSink) : Prop :=
  ∀ err, s.run.closeError = some err → err.isValidation = false

theorem ClosesUnblamed.of_same (hs : s.ClosesUnblamed)
    (h : s'.run.closeError = s.run.closeError) : s'.ClosesUnblamed := by
  intro err herr
  exact hs err (h.symm.trans herr)

theorem Goes.closesUnblamed (h : s.Goes e s') (hs : s.ClosesUnblamed) : s'.ClosesUnblamed := by
  have hm := Run.Moves.of_step h.step
  cases h with
  | moves he => exact hs.of_same (hm.closeError_eq (by cases e <;> first | rfl | cases he))
  | reads | writes => exact hs.of_same (hm.closeError_eq rfl)
  | closesSource =>
    intro err herr
    have hnone : none = some err := by
      cases hm
      exact herr
    cases hnone
  | closesSink =>
    intro err herr
    have hclose : s.run.closeError.or (errorOf? s.sink.close.1) = some err := by
      cases hm
      exact herr
    rcases Option.or_eq_some_iff.mp hclose with hbefore | ⟨_,hsink⟩
    · exact hs err hbefore
    · cases hc : s.sink.close.1 with
      | ok _ =>
        rw [hc] at hsink
        cases hsink
      | error err' =>
        rw [hc] at hsink
        cases hsink
        exact s.sink.unblamed_close err hc

end Transfer.Scene

theorem Transfer.Run.unblamed_result {r : Run}
    (h : ∀ err, r.closeError = some err → err.isValidation = false) : Unblamed r.result := by
  unfold result
  split
  · exact .error rfl
  · split
    · exact .error rfl
    · split
      · next err herr => exact .error (h err herr)
      · exact .ok ()

namespace Pipeline
variable {t : FileTree} {c : Config} {s : Surroundings} {k : Course} {out : Outcome}

theorem unblamed_transfer {source : Source} {sink : FileSink} {last : Scene Source FileSink}
    {result : Except Error Metrics} {rest : Engine Source FileSink} (hv : c.validate = .ok ())
    (ha : (opening c k source sink).Along k.events last)
    (h : (engine c source sink).startAlong k.fired k.events s.startedAt s.finishedAt =
      some (result, rest)) : Unblamed result := by
  obtain ⟨_,hresult⟩ := result_of_startAlong hv ha h
  have hclose : last.ClosesUnblamed :=
    ha.keeps (P := Scene.ClosesUnblamed) (fun _ he => nomatch he) fun hs hg => hg.closesUnblamed hs
  have hrun := Run.unblamed_result hclose
  rw [hresult]
  cases hx : last.run.result with
  | ok _ => exact .ok _
  | error err => exact .error (hrun err hx)

/-- Why the source of a pipeline is not opened, although its settings have passed. -/
inductive Unopened (t : FileTree) (c : Config) (s : Inference.Surroundings) (k : Course) :
    Error → Prop
  | unreadable {err} (h : t.openEntry c.source.path = .error err) : Unopened t c s k err
  | cancelled {x} (hf : c.source.resolve = .ok .csv) (hx : t.openEntry c.source.path = .ok x)
    (hk : k.cancelled = true) : Unopened t c s k .cancelled
  | uninferred {x delimiter err} (hf : c.source.resolve = .ok .csv)
    (hx : t.openEntry c.source.path = .ok x) (hk : k.cancelled = false)
    (hd : (c.inference.forPath c.source.path).delimiterByte = .ok delimiter)
    (h : Inference.inferRecords (c.inference.forPath c.source.path) s
      (interrupted k.whileSampling (Delimited.readings delimiter x.chunks)) = .error err) :
    Unopened t c s k err
  | undecodable {f err} (hf : c.source.resolve = .ok f) (hn : f ≠ .csv)
    (h : Source.ofEndpoint t c.source c.inference s k.cancelled = .error err) : Unopened t c s k err

theorem Unopened.unblamed {i : Inference.Surroundings} {err : Error} (h : Unopened t c i k err) :
    err.isValidation = false := by
  cases h with
  | unreadable h => exact t.unblamed_openEntry _ err h
  | cancelled => rfl
  | uninferred _ _ _ _ h => exact Inference.unblamed_inferRecords _ _ _ err h
  | @undecodable f _ hf hn h =>
    have hopen : Unblamed (Source.ofEndpoint t c.source c.inference i k.cancelled) := by
      refine .bind (by rw [hf]; exact .ok _) fun g hg => ?_
      obtain rfl := Except.ok.inj (hf.symm.trans hg)
      cases f with
      | csv => exact absurd rfl hn
      | ndjson => exact .bind (Feed.unblamed_ndjsonOfPath t) fun _ _ => .ok _
      | parquet => exact .bind (Feed.unblamed_parquetOfPath t) fun _ _ => .ok _
      | ipc => exact .bind (Feed.unblamed_ipcOfPath t) fun _ _ => .ok _
    exact hopen err h

/-- An opening that fails does so for one of the reasons there are. -/
theorem unopened_of_openAlong {i : Inference.Surroundings} {err : Error} (hv : c.validate = .ok ())
    (h : openAlong t c.source c.inference i k = some (.error err)) : Unopened t c i k err := by
  obtain ⟨⟨f,hf⟩,_,_,hi,_⟩ := Config.validate_eq_ok_iff.mp hv
  have hvalid := Options.validate_forPath hi c.source.path
  obtain ⟨delimiter,hd⟩ := Options.delimiterByte_of_validate hvalid
  unfold openAlong at h
  -- the options have passed, so what is left to fail is the file, its content or the caller
  cases f with
  | ndjson | parquet | ipc =>
    simp only [hf, Option.some.injEq] at h
    exact .undecodable hf (by simp) h
  | csv =>
    simp only [hf] at h
    cases hx : t.openEntry c.source.path with
    | error err' =>
      simp only [hx, Option.some.injEq, Except.error.injEq] at h
      exact h ▸ .unreadable hx
    | ok x =>
      cases hk : k.cancelled with
      | true =>
        simp only [hx, hk, Inference.check, hvalid] at h
        cases h
        exact .cancelled hf hx hk
      | false =>
        simp only [hx, hk, Inference.check_forPath hi hd] at h
        obtain ⟨y,hy,hopen⟩ := Option.map_eq_some_iff.mp h
        have hinfer := Inference.inferRecords_of_along hy
        cases y with
        | error err' =>
          cases hopen
          exact .uninferred hf hx hk hd hinfer.symm
        | ok inferred =>
          obtain ⟨d,hpath,_⟩ := exists_ofPath hvalid hd hx hinfer.symm
          simp only [bind, Except.bind, hpath] at hopen
          cases hopen

/-- For each of the reasons an opening fails, whatever the workers of the inference do. -/
theorem openAlong_of_unopened {i : Inference.Surroundings} {err : Error} {r : Except Error Source}
    (hv : c.validate = .ok ()) (h : openAlong t c.source c.inference i k = some r)
    (hu : Unopened t c i k err) : r = .error err := by
  have hsound := Config.validate_eq_ok_iff.mp hv
  unfold openAlong at h
  cases hu with
  | unreadable he =>
    obtain ⟨f,hf⟩ := hsound.source
    cases f with
    | csv =>
      simp only [hf, he] at h
      cases h
      rfl
    | ndjson | parquet | ipc =>
      simp only [hf] at h
      cases h
      simp [Source.ofEndpoint, hf, Feed.ndjsonOfPath, Feed.parquetOfPath, Feed.ipcOfPath, he, bind,
        Except.bind]
  | cancelled hf hx hk =>
    have hvalid := Options.validate_forPath hsound.inference c.source.path
    simp only [hf, hx, hk, Inference.check, hvalid] at h
    cases h
    rfl
  | uninferred hf hx hk hd he =>
    simp only [hf, hx, hk, Inference.check_forPath hsound.inference hd] at h
    obtain ⟨y,hy,rfl⟩ := Option.map_eq_some_iff.mp h
    rw [Inference.inferRecords_of_along hy, he]
    rfl
  | @undecodable f _ hf hn he =>
    cases f with
    | csv => exact absurd rfl hn
    | ndjson | parquet | ipc =>
      simp only [hf, he, Option.some.injEq] at h
      exact h.symm

def Opens (t : FileTree) (c : Config) (i : Inference.Surroundings) (k : Course) : Prop :=
  c.validate = .ok () ∧ ∃ source, openAlong t c.source c.inference i k = some (.ok source)

/-- A course that does not come to an open source leaves the file tree as it was. -/
theorem RunsTo.of_not_opens (h : RunsTo t c s k out) (hn : ¬ Opens t c s.inference k) :
    out.tree = t ∧ ∃ err, out.result = .error err ∧
      (c.validate = .error err ∨ c.validate = .ok () ∧ Unopened t c s.inference k err) := by
  cases h with
  | @refused err hv => exact ⟨rfl,err,rfl,.inl hv⟩
  | @unopened err hv ho => exact ⟨rfl,err,rfl,.inr ⟨hv,unopened_of_openAlong hv ho⟩⟩
  | uncreated hv hs => exact absurd ⟨hv,_,hs⟩ hn
  | transferred hv hs => exact absurd ⟨hv,_,hs⟩ hn

/-- What passed validation never comes to a validation error. -/
theorem RunsTo.unblamed (h : RunsTo t c s k out) (hv : c.validate = .ok ()) :
    Unblamed out.result := by
  cases h with
  | refused he =>
    rw [hv] at he
    cases he
  | unopened _ ho => exact .error (unopened_of_openAlong hv ho).unblamed
  | @uncreated source err after _ _ hk =>
    obtain ⟨f,hf⟩ := (Config.validate_eq_ok_iff.mp hv).sink
    have hcreate := FileSink.unblamed_ofEndpoint hf t source.layout c.parquet
    rw [hk] at hcreate
    exact .error (hcreate err rfl)
  | transferred _ _ _ ha hstart => exact unblamed_transfer hv ha hstart

theorem RunsTo.eq_of_refused {err : Error} (h : RunsTo t c s k out) (hv : c.validate = .error err) :
    out = ⟨.error err,t⟩ := by
  cases h with
  | refused he =>
    rw [hv] at he
    cases he
    rfl
  | unopened he | uncreated he | transferred he =>
    rw [hv] at he
    cases he

/-- Settings are judged before anything is done, and nothing is touched before the source is open.
Along every course, whenever the caller cancels, a pipeline comes to a validation error exactly if
its settings are refused, and to the same error; a source whose format cannot be told is refused so.
What is looked at again later is fine if the settings have passed: the formats, the options with the
delimiter of the path, and the settings of the transfer. A course that does not come to an open
source leaves the file tree as it was, and it fails for its settings, or because the file is missing
or cannot be read, the caller has cancelled, the text is malformed or ragged or its sampling is
cancelled, or the content cannot be decoded; each of these is such a failure. The moves of an
inference can always go on to a result, and the run of a pipeline is one of its courses. -/
theorem validates_before_touching (t : FileTree) (c : Config) (s : Surroundings) :
    (∀ k out, RunsTo t c s k out →
      (∀ err, c.validate = .error err ↔ out.result = .error err ∧ err.isValidation = true) ∧
      (¬ Opens t c s.inference k → out.tree = t ∧ ∃ err, out.result = .error err ∧
        (c.validate = .error err ∨ c.validate = .ok () ∧ Unopened t c s.inference k err))) ∧
    (∀ err, c.validate = .error err → ∀ k out, RunsTo t c s k out ↔ out = ⟨.error err,t⟩) ∧
    (∀ err, c.source.resolve = .error err → c.validate = .error err) ∧
    (c.validate = .ok () →
      (∃ f, c.source.resolve = .ok f) ∧ (∃ f, c.sink.resolve = .ok f) ∧
      (c.inference.forPath c.source.path).validate = .ok () ∧
      (∃ d, (c.inference.forPath c.source.path).delimiterByte = .ok d) ∧
      (∀ source sink, (engine c source sink).check = .ok (source, sink)) ∧
      ∀ k, (∃ moves r, openAlong t c.source c.inference s.inference { k with moves } = some r) ∧
        ∀ err, Unopened t c s.inference k err →
          ∀ r, openAlong t c.source c.inference s.inference k = some r →
            r = .error err ∧ RunsTo t c s k ⟨.error err,t⟩) ∧
    ∀ cancelled, ∃ k, k.fired = cancelled ∧ .callerCancels ∉ k.events ∧
      RunsTo t c s k (run t c s cancelled) := by
  refine ⟨fun k out h => ⟨fun err => ⟨fun hv => ?_,?_⟩,h.of_not_opens⟩,?_,?_,?_,
    exists_course_run t c s⟩
  · rw [h.eq_of_refused hv]
    exact ⟨rfl,c.failsAs_validate err hv⟩
  · rintro ⟨hresult,hvalidation⟩
    cases hv : c.validate with
    | ok _ =>
      rw [h.unblamed hv err hresult] at hvalidation
      cases hvalidation
    | error err' =>
      rw [h.eq_of_refused hv] at hresult
      cases hresult
      rfl
  · intro err hv k out
    refine ⟨fun h => h.eq_of_refused hv,?_⟩
    rintro rfl
    exact .refused hv
  · intro err hf
    rw [Config.validate, hf]
    rfl
  · intro hv
    have hsound := Config.validate_eq_ok_iff.mp hv
    have hvalid := Options.validate_forPath hsound.inference c.source.path
    refine ⟨hsound.source,hsound.sink,hvalid,Options.delimiterByte_of_validate hvalid,
      check_engine hv,fun k => ⟨?_,?_⟩⟩
    · exact exists_openAlong (k := { k with moves := [] }) fun _ _ _ _ =>
        Inference.canMove_nil _ _ _
    · intro err hu r hr
      obtain rfl := openAlong_of_unopened hv hr hu
      exact ⟨rfl,.unopened hv hr⟩

/-- A text whose second row is too short, and a file where the sink is to be. -/
def raggedText : FileTree :=
  { entries := [(["in.csv"],.file [97, 44, 98, 10, 49, 10]),(["out.csv"],.file [120])] }

def copyText : Config where
  source := ⟨⟨"in.csv"⟩,some .csv⟩
  sink := ⟨⟨"out.csv"⟩,some .csv⟩

theorem validates_before_touching_ragged :
    let k : Course := { moves := [.close,.leave 0] }
    copyText.validate = .ok () ∧
    Unopened raggedText copyText ⟨1,"now"⟩ k (.rowArity 2 2 1) ∧
    RunsTo raggedText copyText ⟨⟨1,"now"⟩,⟨0,0⟩,⟨1,0⟩⟩ k ⟨.error (.rowArity 2 2 1),raggedText⟩ := by
  intro k
  have hv : copyText.validate = .ok () := rfl
  have ho : openAlong raggedText copyText.source copyText.inference ⟨1,"now"⟩ k =
      some (.error (.rowArity 2 2 1)) := by
    have hforPath : copyText.inference.forPath copyText.source.path = {} := by cbv
    have hresolve : copyText.source.resolve = .ok .csv := rfl
    simp only [openAlong, hresolve, hforPath]
    rfl
  have hu := unopened_of_openAlong hv ho
  have h := validates_before_touching raggedText copyText ⟨⟨1,"now"⟩,⟨0,0⟩,⟨1,0⟩⟩
  obtain ⟨_,_,_,_,_,hcourses⟩ := h.2.2.2.1 hv
  exact ⟨hv,hu,((hcourses k).2 _ hu _ ho).2⟩

end Pipeline
end Tabular
