import Tabular.Sink.File
import Tabular.Sink.Memory
import Mathlib.Algebra.GroupWithZero.Nat
import Mathlib.Data.List.Induction

/-! # The contract of sinks

A sink is written to and closed, in any order and any number of times, and its encoder may fail at
every one of these calls. The rows it counts are those of the writes that it answered with success.
Its first close is its last: whatever that call came to, later writes are refused, later closes
succeed, and neither leaves a trace.
-/
namespace Tabular

inductive Sink (ε : Type) where
  | memory (s : MemorySink)
  | encoding (s : EncodingSink ε)

namespace Sink

inductive Call where
  | write (b : Batch)
  | close

/-- Calls with what the sink answered. -/
abbrev History := List (Call × Except Error Unit)

/-- The batches whose writes succeeded, in order. -/
def taken (h : History) : List Batch :=
  h.filterMap fun
    | (.write b, .ok _) => some b
    | _ => none

def Closes (h : History) : Prop := ∃ answer, (Call.close, answer) ∈ h

variable {ε : Type}

inductive New : Sink ε → Prop
  | memory : New (memory {})
  | encoding (label : String) (encoder : ε) : New (encoding { label, encoder })

def label : Sink ε → String
  | memory _ => "memory"
  | encoding s => s.label

def closed : Sink ε → Bool
  | memory s => s.closed
  | encoding s => s.closed

/-- The rows that a sink counts; one in memory counts those of its batches. -/
def rows : Sink ε → Nat
  | memory s => s.rows
  | encoding s => s.rowsWritten

variable [Encoder ε]

def call : Sink ε → Call → Except Error Unit × Sink ε
  | memory s, .write b => let (r, s) := s.write b; (r, memory s)
  | memory s, .close => (.ok (), memory s.close)
  | encoding s, .write b => let (r, s) := s.write b; (r, encoding s)
  | encoding s, .close => let (r, s) := s.close; (r, encoding s)

def after (s : Sink ε) (cs : List Call) : Sink ε := cs.foldl (fun s c => (s.call c).2) s

def history (s : Sink ε) : List Call → History
  | [] => []
  | c :: cs => (c, (s.call c).1) :: history (s.call c).2 cs

variable {s : Sink ε} {c : Call} {cs : List Call} {h : History}

theorem after_concat (s : Sink ε) (cs : List Call) (c : Call) :
    s.after (cs ++ [c]) = ((s.after cs).call c).2 := by
  simp [after]

theorem history_concat (s : Sink ε) (cs : List Call) (c : Call) :
    s.history (cs ++ [c]) = s.history cs ++ [(c, ((s.after cs).call c).1)] := by
  induction cs generalizing s with
  | nil => rfl
  | cons d cs ih => simp [history, after, ih]

theorem taken_append (h h' : History) : taken (h ++ h') = taken h ++ taken h' :=
  List.filterMap_append

theorem label_call (s : Sink ε) (c : Call) : (s.call c).2.label = s.label := by
  cases s with
  | memory s => cases c <;> rfl
  | encoding s =>
    cases c with
    | write b =>
      simp only [call, EncodingSink.write]
      split
      · rfl
      · split <;> rfl
    | close =>
      simp only [call, EncodingSink.close]
      split <;> rfl

theorem label_after (s : Sink ε) (cs : List Call) : (s.after cs).label = s.label := by
  induction cs using List.reverseRecOn with
  | nil => rfl
  | append_singleton cs c ih => rw [after_concat, label_call, ih]

/-- A closed sink refuses a write, closes once more, and stays as it is. -/
theorem call_of_closed (hs : s.closed = true) :
    (∀ b, s.call (.write b) = (.error (.sink (.closed s.label)), s)) ∧
      s.call .close = (.ok (), s) := by
  cases s with
  | memory s =>
    have hclosed : s.closed = true := hs
    refine ⟨fun b => ?_,?_⟩
    · simp only [call, MemorySink.write, hclosed, if_true, label]
    · obtain ⟨written,closed⟩ := s
      obtain rfl : closed = true := hclosed
      rfl
  | encoding s =>
    have hclosed : s.closed = true := hs
    refine ⟨fun b => ?_,?_⟩
    · simp only [call, EncodingSink.write, hclosed, if_true, label]
    · simp only [call, EncodingSink.close, hclosed, if_true]

/-- A close closes, whether the encoder fails at it or not. -/
theorem closed_close (s : Sink ε) : (s.call .close).2.closed = true := by
  cases s with
  | memory s => rfl
  | encoding s =>
    simp only [call, EncodingSink.close]
    split
    · assumption
    · rfl

/-- A write that succeeds adds the rows of its batch, one that fails adds none; neither closes. -/
theorem write_cases (s : Sink ε) (b : Batch) :
    ((s.call (.write b)).2.closed = s.closed) ∧
      ((s.call (.write b)).1 = .ok () → (s.call (.write b)).2.rows = s.rows + b.rows) ∧
      ∀ e, (s.call (.write b)).1 = .error e → (s.call (.write b)).2.rows = s.rows := by
  cases s with
  | memory s =>
    simp only [call, MemorySink.write]
    split
    · exact ⟨rfl,nofun,fun _ _ => rfl⟩
    · refine ⟨rfl,fun _ => ?_,nofun⟩
      simp only [rows, MemorySink.rows, List.map_cons, List.foldr_cons]
      omega
  | encoding s =>
    simp only [call, EncodingSink.write]
    split
    · exact ⟨rfl,nofun,fun _ _ => rfl⟩
    · split
      · exact ⟨rfl,fun _ => rfl,nofun⟩
      · exact ⟨rfl,nofun,fun _ _ => rfl⟩

/-- A close leaves the count. -/
theorem rows_close (s : Sink ε) : (s.call .close).2.rows = s.rows := by
  cases s with
  | memory s => rfl
  | encoding s =>
    simp only [call, EncodingSink.close]
    split <;> rfl

/-- What a history says of the sink it has led to. -/
structure Tells (h : History) (s : Sink ε) : Prop where
  rows_eq : s.rows = ((taken h).map Batch.rows).sum
  batches_eq : ∀ m, s = .memory m → m.batches = taken h
  closed_iff : s.closed = true ↔ Closes h

omit [Encoder ε] in
theorem New.tells (hs : s.New) : Tells [] s := by
  cases hs with
  | memory =>
    refine ⟨rfl,fun m hm => ?_,by simp [closed, Closes]⟩
    cases hm
    rfl
  | encoding => exact ⟨rfl,nofun,by simp [closed, Closes]⟩

/-- In memory a write keeps its batch exactly if it succeeds. -/
theorem batches_write {m m' : MemorySink} {b : Batch}
    (hm : ((memory m : Sink ε).call (.write b)).2 = memory m') :
    m'.batches = m.batches ++ taken [(.write b, ((memory m : Sink ε).call (.write b)).1)] := by
  simp only [call, MemorySink.write] at hm ⊢
  split at hm
  · next hclosed =>
    cases hm
    simp [hclosed, taken]
  · next hopen =>
    cases hm
    simp [hopen, taken, MemorySink.batches]

/-- A call goes on to the sink that the longer history tells of. -/
theorem Tells.call (ht : Tells h s) (c : Call) : Tells (h ++ [(c, (s.call c).1)]) (s.call c).2 := by
  cases c with
  | close =>
    have hnone : taken [(Call.close, (s.call .close).1)] = [] := rfl
    refine ⟨?_,fun m hm => ?_,?_⟩
    · rw [rows_close, ht.rows_eq, taken_append, hnone, List.append_nil]
    · rw [taken_append, hnone, List.append_nil]
      cases s with
      | memory s =>
        cases hm
        exact ht.batches_eq s rfl
      | encoding s => cases hm
    · exact iff_of_true (closed_close s) ⟨_,List.mem_append_right _ (List.mem_singleton_self _)⟩
  | write b =>
    obtain ⟨hclosed,hadds,hkeeps⟩ := write_cases s b
    refine ⟨?_,fun m hm => ?_,?_⟩
    · rw [taken_append, List.map_append, List.sum_append, ← ht.rows_eq]
      cases hr : (s.call (.write b)).1 with
      | ok _ => simpa [taken] using hadds hr
      | error e => simpa [taken] using hkeeps e hr
    · cases s with
      | memory s => rw [taken_append, ← ht.batches_eq s rfl, batches_write hm]
      | encoding s => cases hm
    · rw [hclosed, ht.closed_iff]
      simp [Closes]

/-- So the history of a new sink tells of it after any calls. -/
theorem tells_history (hs : s.New) (cs : List Call) : Tells (s.history cs) (s.after cs) := by
  induction cs using List.reverseRecOn with
  | nil => exact hs.tells
  | append_singleton cs c ih =>
    rw [history_concat, after_concat]
    exact ih.call c

theorem closes_history_iff : Closes (s.history cs) ↔ .close ∈ cs := by
  induction cs generalizing s with
  | nil => simp [history, Closes]
  | cons c cs ih =>
    rw [List.mem_cons, ← @ih (s.call c).2]
    simp only [Closes, history, List.mem_cons, Prod.mk.injEq, exists_or]
    exact or_congr_left ⟨fun ⟨_,hc,_⟩ => hc,fun hc => ⟨_,hc,rfl⟩⟩

/-- Once it is closed, a sink stays as it is whatever is called. -/
theorem after_of_closed (hs : s.closed = true) (cs : List Call) : s.after cs = s := by
  obtain ⟨hwrite,hclose⟩ := call_of_closed hs
  induction cs with
  | nil => rfl
  | cons c cs ih =>
    have hc : (s.call c).2 = s := by
      cases c with
      | write b => rw [hwrite]
      | close => rw [hclose]
    rw [after, List.foldl_cons, hc]
    exact ih

end Sink

/-! ## Sinks into files -/

namespace FileSink

def toSink (s : FileSink) : Sink FileEncoder := .encoding s.sink

def call (s : FileSink) : Sink.Call → Except Error Unit × FileSink
  | .write b => s.write b
  | .close => s.close

def after (s : FileSink) (cs : List Sink.Call) : FileSink := cs.foldl (fun s c => (s.call c).2) s

theorem call_toSink (s : FileSink) (c : Sink.Call) :
    s.toSink.call c = ((s.call c).1, (s.call c).2.toSink) := by
  cases c <;> rfl

theorem after_toSink (s : FileSink) (cs : List Sink.Call) :
    s.toSink.after cs = (s.after cs).toSink := by
  induction cs generalizing s with
  | nil => rfl
  | cons c cs ih =>
    rw [Sink.after, List.foldl_cons, call_toSink]
    exact ih (s.call c).2

theorem new_of_create {t t' : FileTree} {p : Path} {encoder : Except Error FileEncoder}
    {s : FileSink} (h : create t p encoder = (.ok s, t')) : s.toSink.New := by
  unfold create at h
  split at h
  · cases h
  · split at h
    · cases h
    · cases h
      exact .encoding _ _

theorem new_of_ofEndpoint {t t' : FileTree} {e : Endpoint} {layout : Layout} {o : ParquetOptions}
    {s : FileSink} (h : ofEndpoint t e layout o = (.ok s, t')) : s.toSink.New := by
  unfold ofEndpoint at h
  split at h
  · cases h
  all_goals exact new_of_create h

end FileSink

namespace Sink

/-- What every sink keeps to, at every point of every sequence of calls. The rows it counts are
those of the writes that succeeded, and in memory these are the batches that it shows, in order. A
write that fails leaves the count. After a first close, also one that failed, every write is refused
and every close succeeds, and nothing changes any more. The sinks into files are such sinks,
whatever their format: they answer every call and count their rows as those do. -/
theorem counts_until_closed {ε : Type} [Encoder ε] {s : Sink ε} (hs : s.New) (cs : List Call) :
    let now := s.after cs
    now.rows = ((taken (s.history cs)).map Batch.rows).sum ∧
    (∀ m, now = .memory m → m.batches = taken (s.history cs)) ∧
    (∀ b e, (now.call (.write b)).1 = .error e → (now.call (.write b)).2.rows = now.rows) ∧
    (.close ∈ cs →
      (∀ b, now.call (.write b) = (.error (.sink (.closed s.label)), now)) ∧
      now.call .close = (.ok (), now) ∧ ∀ more, s.after (cs ++ more) = now) ∧
    ∀ (t t' : FileTree) (e : Endpoint) (layout : Layout) (o : ParquetOptions) (f : FileSink),
      FileSink.ofEndpoint t e layout o = (.ok f, t') → f.toSink.New ∧
        ∀ ds c, f.toSink.after ds = (f.after ds).toSink ∧
          ((f.after ds).toSink.call c).1 = ((f.after ds).call c).1 ∧
          (f.after ds).toSink.rows = (f.after ds).rowsWritten := by
  intro now
  have ht : Tells (s.history cs) now := tells_history hs cs
  refine ⟨ht.rows_eq,ht.batches_eq,fun b => (write_cases now b).2.2,fun hc => ?_,?_⟩
  · have hclosed : now.closed = true := ht.closed_iff.mpr (closes_history_iff.mpr hc)
    obtain ⟨hwrite,hclose⟩ := call_of_closed hclosed
    have hlabel : now.label = s.label := label_after s cs
    rw [hlabel] at hwrite
    refine ⟨hwrite,hclose,fun more => ?_⟩
    have hafter : s.after (cs ++ more) = now.after more := List.foldl_append
    rw [hafter, after_of_closed hclosed]
  · intro t t' e layout o f hf
    refine ⟨FileSink.new_of_ofEndpoint hf,fun ds c => ⟨f.after_toSink ds,?_,rfl⟩⟩
    rw [FileSink.call_toSink]

/-- An encoder that succeeds or fails as it is told, and succeeds when it is told no more. -/
structure Told where
  answers : List (Except Error Unit)

def Told.next (e : Told) : Except Error Unit × Told :=
  (e.answers.headD (.ok ()), ⟨e.answers.tail⟩)

instance : Encoder Told where
  write e _ := e.next
  finish e := e.next

def bareRows (n : Nat) : Batch :=
  { (default : Batch) with rows := n, length_eq := fun _ hc => absurd hc List.not_mem_nil }

theorem counts_until_closed_failingClose :
    let s : Sink Told := .encoding ⟨"CSV",⟨[.ok (),.error .parquet,.ok (),.error .parquet]⟩,false,0⟩
    let cs := [Call.write (bareRows 2),.write (bareRows 3),.write (bareRows 5),.close,
      .write (bareRows 7),.close]
    s.New ∧ .close ∈ cs ∧
    (s.history cs).map Prod.snd = [.ok (),.error .parquet,.ok (),.error .parquet,
      .error (.sink (.closed "CSV")),.ok ()] ∧
    (s.after cs).rows = 7 ∧
    (s.after cs).call .close = (.ok (), s.after cs) := by
  intro s cs
  have hs : s.New := .encoding _ _
  have hc : .close ∈ cs := by simp [cs]
  obtain ⟨hrows,_,_,hclosed,_⟩ := counts_until_closed hs cs
  have htaken : ((taken (s.history cs)).map Batch.rows).sum = 7 := rfl
  exact ⟨hs,hc,rfl,hrows.trans htaken,(hclosed hc).2.1⟩

end Sink
end Tabular
