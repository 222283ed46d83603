import Tabular.Proofs.Delimited.Records
import Tabular.Proofs.Delimited.Typed
import Tabular.Proofs.Files.Tree
import Tabular.Proofs.Machine.Size
import Tabular.Source.File
import Mathlib.Data.List.Induction

/-! # The contract of sources

A source is read, asked for its layout and closed, in any order and any number of times, while its
reader may fail or panic at every read. Its layout never changes and is that of all its batches.
What shuts it is a close, a panic of its reader, or a size of its batches for which there cannot be
room, and nothing else; a source that was shut refuses every read. Behind the end of a source there
are no batches.
-/
namespace Tabular.Source
open Delimited (AtEnd Begins)

inductive Call where
  | read
  | layout
  | close
  deriving DecidableEq

/-- What a source answers to a call. Nothing goes wrong with a close. -/
inductive Answer where
  | read (result : Except Error (Option Batch))
  | layout (l : Layout)
  | closed

def call (s : Source) : Call → Answer × Source
  | .read => let (r, s) := s.read; (.read r, s)
  | .layout => (.layout s.layout, s)
  | .close => (.closed, s.close)

def after (s : Source) (cs : List Call) : Source := cs.foldl (fun s c => (s.call c).2) s

def label : Source → String
  | memory _ => "memory"
  | delimited _ => "CSV"
  | feed f => f.format.name

def isOpen : Source → Bool
  | memory s => !s.closed
  | delimited d => d.records.isSome
  | feed f => f.items.isSome

/-- The next read of a source panics. Its reader does so if a panic follows fewer rows than the read
asks for, or if it is what a feed yields next; and before its reader is asked for anything, the read
does so itself if there cannot be room for its rows. -/
inductive Panics (text : String) : Source → Prop
  | delimited {d rs rows r rest} (hroom : d.batchSize < 2 ^ 60) (hrs : d.records = some rs)
    (h : Begins d.schema.width (r :: rest) rs rows) (hi : r.item = .panic text)
    (hlt : rows.length < d.batchSize) : Panics text (delimited d)
  | crowded {d rs} (hlarge : 2 ^ 60 ≤ d.batchSize) (hrs : d.records = some rs)
    (ht : text = "capacity overflow") : Panics text (delimited d)
  | feed {f rest} (h : f.items = some (.panic text :: rest)) : Panics text (feed f)

def Shuts (s : Source) : Call → Prop
  | .read => ∃ text, s.Panics text
  | .layout => False
  | .close => True

/-- A source as it is made: of batches in memory, over a text, perhaps with another size of its
batches, or over a reader all of whose batches have the layout that it declares. -/
inductive Opened : Source → Prop
  | ofLayout {l batches m} (h : MemorySource.ofLayout l batches = .ok m) : Opened (memory m)
  | ofBatches {batches m} (h : MemorySource.ofBatches batches = .ok m) : Opened (memory m)
  | ofInput {schema o input d} (h : DelimitedSource.ofInput schema o input = .ok d) :
    Opened (delimited d)
  | withBatchSize {schema o input d} (h : DelimitedSource.ofInput schema o input = .ok d)
    (n : Nat) : Opened (delimited (d.withBatchSize n))
  | ofItems (format : Format) (l : Layout) {items : List FeedItem} (last : Option Error)
    (h : ∀ b, .batch b ∈ items → b.layout = l) :
    Opened (feed { Feed.ofItems format l items with last })

/-- What all calls keep of a source: the batches it has carry its layout, and it asks for a row at
least. -/
def Sound : Source → Prop
  | memory s => ∀ b ∈ s.batches, b.layout = s.layout
  | delimited d => 0 < d.batchSize
  | feed f => ∀ items, f.items = some items → ∀ b, .batch b ∈ items → b.layout = f.layout

def Exhausted : Source → Prop
  | memory s => s.batches = []
  | delimited d => ∀ rs, d.records = some rs → AtEnd rs
  | feed f => ∀ items, f.items = some items → items = []

variable {s s' : Source} {cs : List Call} {c : Call}

theorem after_append (s : Source) (cs ds : List Call) :
    s.after (cs ++ ds) = (s.after cs).after ds :=
  List.foldl_append

theorem after_concat (s : Source) (cs : List Call) (c : Call) :
    s.after (cs ++ [c]) = ((s.after cs).call c).2 := by
  rw [after_append]
  rfl

/-! ## One call -/

/-- All that a read of an open source can do. -/
inductive Reads (s : Source) : Except Error (Option Batch) → Source → Prop
  | gives {b : Batch} {next : Source} (hn : ¬ s.Shuts .read) (ho : next.isOpen = true)
    (hb : b.layout = s.layout) : Reads s (.ok (some b)) next
  | ends {next : Source} (hn : ¬ s.Shuts .read) (ho : next.isOpen = true) (he : next.Exhausted) :
    Reads s (.ok none) next
  | fails {e : Error} {next : Source} (hn : ¬ s.Shuts .read) (ho : next.isOpen = true) :
    Reads s (.error e) next
  | panics {text : String} {next : Source} (hp : s.Panics text) (hc : next.isOpen = false) :
    Reads s (.error (.source (.taskFailed s.label text))) next

theorem panics_delimited_iff {d : DelimitedSource} {rs : List Delimited.Reading}
    (hrs : d.records = some rs) (text : String) : (delimited d).Panics text ↔
      (d.stretch rs).segment = .panicked text := by
  rcases Nat.lt_or_ge d.batchSize (2 ^ 60) with hroom | hlarge
  · rw [DelimitedSource.stretch_of_lt hroom, takeSegment_panicked_iff]
    constructor
    · intro h
      cases h with
      | delimited _ hrs' h hi hlt =>
        obtain rfl := Option.some.inj (hrs.symm.trans hrs')
        exact ⟨_,_,_,h,hi,hlt⟩
      | crowded hlarge => exact absurd hroom (Nat.not_lt.mpr hlarge)
    · rintro ⟨rows,r,rest,h,hi,hlt⟩
      exact .delimited hroom hrs h hi hlt
  · rw [DelimitedSource.stretch_of_le hlarge]
    constructor
    · intro h
      cases h with
      | delimited hroom => exact absurd hroom (Nat.not_lt.mpr hlarge)
      | crowded _ _ ht => rw [ht]
    · intro h
      exact .crowded hlarge hrs (Segment.panicked.inj h).symm

/-- The rows of a segment become a batch, or the first of them that cannot is the error; in both
cases the source goes on behind them. -/
theorem reads_rows {d next : DelimitedSource} {rows : List (List String)} {fired : Bool}
    (hn : ¬ (delimited d).Shuts .read) (ho : next.records.isSome = true) :
    let answer : Except Error (Option Batch) × DelimitedSource × Bool :=
      match Delimited.batch d.options d.schema rows with
      | .ok b => (.ok (some b), next, fired)
      | .error e => (.error e, next, fired)
    (delimited d).Reads answer.1 (delimited answer.2.1) := by
  cases hb : Delimited.batch d.options d.schema rows with
  | ok b => exact .gives hn ho (Delimited.layout_of_batch hb)
  | error e => exact .fails hn ho

theorem reads_delimited {d : DelimitedSource} (hd : 0 < d.batchSize)
    (ho : d.records.isSome = true) : (delimited d).Reads d.read.1 (delimited d.read.2) := by
  obtain ⟨rs,hrs⟩ := Option.isSome_iff_exists.mp ho
  have hpanics := panics_delimited_iff hrs
  rcases d.stretch_cases rs with hstretch | ⟨hlarge,_⟩
  · obtain ⟨rows,mid,_,_,hstops⟩ := takeSegment_stops d.schema.width d.batchSize [] false rs
    simp only [DelimitedSource.read, DelimitedSource.readWatching, hrs]
    rw [hstretch] at hpanics ⊢
    generalize takeSegment d.schema.width d.batchSize [] false rs = t at hpanics hstops
    obtain ⟨segment,rest,fired⟩ := t
    dsimp only at hpanics hstops ⊢
    have hquiet : (∀ text, segment ≠ .panicked text) → ¬ (delimited d).Shuts .read := by
      rintro hne ⟨text,hp⟩
      exact hne text ((hpanics text).mp hp)
    cases hstops with
    | panics hl hi => exact .panics ((hpanics _).mpr rfl) rfl
    | fault hl hi => exact .fails (hquiet (by simp)) rfl
    | uneven hl hi hw => exact .fails (hquiet (by simp)) rfl
    | full hl =>
      -- a read asks for a row at least, so a full segment has one
      cases rows with
      | nil => exact absurd hl (Nat.ne_of_gt hd)
      | cons row more => exact reads_rows (hquiet (by simp)) rfl
    | ended hl he hrest =>
      cases rows with
      | nil => exact .ends (hquiet (by simp)) rfl (by rintro _ ⟨⟩; exact hrest)
      | cons row more => exact reads_rows (hquiet (by simp)) rfl
  · rw [DelimitedSource.read_of_le hlarge hrs]
    exact .panics (.crowded hlarge hrs rfl) rfl

theorem reads_memory {m : MemorySource} (hm : ∀ b ∈ m.batches, b.layout = m.layout)
    (ho : m.closed = false) : (memory m).Reads m.read.1 (memory m.read.2) := by
  have hn : ¬ (memory m).Shuts .read := fun ⟨_,h⟩ => nomatch h
  unfold MemorySource.read
  rw [if_neg (by simp [ho])]
  split
  · next hb => exact .ends hn (by simp [isOpen, ho]) hb
  · next b bs hb =>
    exact .gives hn (by simp [isOpen, ho]) (hm b (by simp [hb]))

theorem reads_feed {f : Feed}
    (hf : ∀ items, f.items = some items → ∀ b, .batch b ∈ items → b.layout = f.layout)
    (ho : f.items.isSome = true) : (feed f).Reads f.read.1 (feed f.read.2) := by
  have hquiet : (∀ text rest, f.items ≠ some (.panic text :: rest)) → ¬ (feed f).Shuts .read := by
    rintro hne ⟨text,h⟩
    cases h with
    | feed h => exact hne _ _ h
  unfold Feed.read
  split
  · next hi => simp [hi] at ho
  · next hi =>
    have hn := hquiet (by simp [hi])
    split
    · exact .ends hn (by simp [isOpen, hi]) fun items h => by simpa [hi] using h.symm
    · exact .fails hn (by simp [isOpen, hi])
  · next b rest hi => exact .gives (hquiet (by simp [hi])) rfl (hf _ hi b List.mem_cons_self)
  · next e rest hi => exact .fails (hquiet (by simp [hi])) rfl
  · next text rest hi => exact .panics (.feed hi) rfl

theorem reads (hs : s.Sound) (ho : s.isOpen = true) : s.Reads s.read.1 s.read.2 := by
  cases s with
  | memory m => exact reads_memory hs (by simpa [isOpen] using ho)
  | delimited d => exact reads_delimited hs ho
  | feed f => exact reads_feed hs ho

/-- A source that was shut refuses a read and stays as it is. -/
theorem read_of_shut (ho : s.isOpen = false) :
    s.read = (.error (.source (.closed s.label)), s) := by
  cases s with
  | memory m =>
    have hclosed : m.closed = true := by simpa [isOpen] using ho
    simp [read, MemorySource.read, hclosed, label]
  | delimited d =>
    have hrecords : d.records = none := by simpa [isOpen] using ho
    simp [read, DelimitedSource.read, DelimitedSource.readWatching, hrecords, label]
  | feed f =>
    have hitems : f.items = none := by simpa [isOpen] using ho
    simp [read, Feed.read, hitems, label]

theorem isOpen_close (s : Source) : s.close.isOpen = false := by
  cases s <;> rfl

/-! ## What calls keep -/

/-- What a source can have become: the same source with less to be read, or nothing. -/
inductive Later : Source → Source → Prop
  | memory {m : MemorySource} (closed : Bool) {front batches : List Batch}
    (h : m.batches = front ++ batches) : Later (memory m) (memory { m with batches, closed })
  | delimited {d : DelimitedSource} {records : Option (List Delimited.Reading)} (rowsRead : Nat)
    (h : ∀ rs, records = some rs → ∃ rs₀, d.records = some rs₀ ∧ (AtEnd rs₀ → AtEnd rs)) :
    Later (delimited d) (delimited { d with records, rowsRead })
  | feed {f : Feed} {items : Option (List FeedItem)}
    (h : ∀ rest, items = some rest → ∃ front, f.items = some (front ++ rest)) :
    Later (feed f) (feed { f with items })

namespace Later

theorem refl (s : Source) : s.Later s := by
  cases s with
  | memory m => exact .memory m.closed (List.nil_append _).symm
  | delimited d => exact .delimited d.rowsRead fun rs hrs => ⟨rs,hrs,id⟩
  | feed f => exact .feed fun rest hrest => ⟨[],hrest⟩

theorem trans {s₁ s₂ s₃ : Source} (h : s₁.Later s₂) (h' : s₂.Later s₃) : s₁.Later s₃ := by
  cases h with
  | @memory m closed front batches h =>
    cases h' with
    | @memory _ closed' front' batches' h' =>
      obtain rfl : batches = front' ++ batches' := h'
      exact .memory closed' (h.trans (List.append_assoc ..).symm)
  | @delimited d records rowsRead h =>
    cases h' with
    | @delimited _ records' rowsRead' h' =>
      refine .delimited rowsRead' fun rs hrs => ?_
      obtain ⟨rs₁,hrs₁,hend⟩ := h' rs hrs
      obtain ⟨rs₀,hrs₀,hend₀⟩ := h rs₁ hrs₁
      exact ⟨rs₀,hrs₀,hend ∘ hend₀⟩
  | @feed f items h =>
    cases h' with
    | @feed _ items' h' =>
      refine .feed fun rest hrest => ?_
      obtain ⟨front',hfront'⟩ := h' rest hrest
      obtain ⟨front,hfront⟩ := h _ hfront'
      exact ⟨front ++ front',by rw [hfront, List.append_assoc]⟩

variable (h : s.Later s')
include h

theorem layout_eq : s'.layout = s.layout := by
  cases h <;> rfl

theorem label_eq : s'.label = s.label := by
  cases h <;> rfl

theorem sound (hs : s.Sound) : s'.Sound := by
  cases h with
  | memory closed h => exact fun b hb => hs b (by rw [h]; exact List.mem_append_right _ hb)
  | delimited rowsRead h => exact hs
  | feed h =>
    intro rest hrest b hb
    obtain ⟨front,hfront⟩ := h rest hrest
    exact hs _ hfront b (List.mem_append_right _ hb)

theorem exhausted (hs : s.Exhausted) : s'.Exhausted := by
  cases h with
  | memory closed h => exact (List.append_eq_nil_iff.mp (h.symm.trans hs)).2
  | delimited rowsRead h =>
    intro rs hrs
    obtain ⟨rs₀,hrs₀,hend⟩ := h rs hrs
    exact hend (hs rs₀ hrs₀)
  | feed h =>
    intro rest hrest
    obtain ⟨front,hfront⟩ := h rest hrest
    exact (List.append_eq_nil_iff.mp (hs _ hfront)).2

end Later

theorem later_memory (m : MemorySource) : (memory m).Later (memory m.read.2) := by
  unfold MemorySource.read
  split
  · exact .refl _
  · split
    · exact .refl _
    · next b bs hb => exact .memory m.closed (hb.trans List.singleton_append.symm)

theorem later_delimited (d : DelimitedSource) : (delimited d).Later (delimited d.read.2) := by
  simp only [DelimitedSource.read, DelimitedSource.readWatching]
  split
  · exact .refl _
  · next rs hrs =>
    -- at the end of the records a segment stays there, whatever it comes to
    have hrest : ∀ rest,
        some (d.stretch rs).rest = some rest →
        ∃ rs₀, d.records = some rs₀ ∧ (AtEnd rs₀ → AtEnd rest) := by
      rintro _ ⟨⟩
      refine ⟨rs,hrs,fun he => ?_⟩
      rcases d.stretch_cases rs with heq | ⟨_,heq⟩ <;> rw [heq]
      · exact (takeSegment_finished he _ _ [] false).2
      · exact he
    split
    · exact .delimited _ (by simp)
    · exact .delimited _ hrest
    · exact .delimited _ hrest
    · split <;> exact .delimited _ hrest

theorem later_feed (f : Feed) : (feed f).Later (feed f.read.2) := by
  unfold Feed.read
  split
  · exact .refl _
  · split <;> exact .refl _
  · next b rest hi => exact .feed fun _ hrest => ⟨[.batch b],by cases hrest; exact hi⟩
  · next e rest hi => exact .feed fun _ hrest => ⟨[.error e],by cases hrest; exact hi⟩
  · exact .feed nofun

theorem later_call (s : Source) (c : Call) : s.Later (s.call c).2 := by
  cases c with
  | read =>
    cases s with
    | memory m => exact later_memory m
    | delimited d => exact later_delimited d
    | feed f => exact later_feed f
  | layout => exact .refl s
  | close =>
    cases s with
    | memory m => exact .memory true (List.append_nil _).symm
    | delimited d => exact .delimited _ nofun
    | feed f => exact .feed nofun

theorem later_after (s : Source) (cs : List Call) : s.Later (s.after cs) := by
  induction cs using List.reverseRecOn with
  | nil => exact .refl s
  | append_singleton cs c ih =>
    rw [after_concat]
    exact ih.trans (later_call _ c)

/-- Behind its end a source has no batch. -/
theorem read_of_exhausted (hs : s.Exhausted) (b : Batch) : s.read.1 ≠ .ok (some b) := by
  cases s with
  | memory m =>
    have hbatches : m.batches = [] := hs
    simp only [read, MemorySource.read, hbatches]
    split <;> simp
  | delimited d =>
    simp only [read, DelimitedSource.read, DelimitedSource.readWatching]
    split
    · simp
    · next rs hrs =>
      rcases d.stretch_cases rs with heq | ⟨_,heq⟩ <;> rw [heq]
      · rw [(takeSegment_finished (hs rs hrs) d.schema.width d.batchSize [] false).1]
        simp
      · simp
  | feed f =>
    simp only [read, Feed.read]
    split
    · simp
    · split <;> simp
    all_goals
      next hi => cases hs _ hi

theorem read_of_panics {text : String} (hp : s.Panics text) :
    s.read.1 = .error (.source (.taskFailed s.label text)) := by
  have hdelimited (d : DelimitedSource) (rs : List Delimited.Reading) (hrs : d.records = some rs)
      (hp : (delimited d).Panics text) :
      d.read.1 = .error (.source (.taskFailed "CSV" text)) := by
    have hsegment := (panics_delimited_iff hrs _).mp hp
    simp [DelimitedSource.read, DelimitedSource.readWatching, hrs, hsegment]
  cases hp with
  | delimited hroom hrs h hi hlt => exact hdelimited _ _ hrs (.delimited hroom hrs h hi hlt)
  | crowded hlarge hrs ht => exact hdelimited _ _ hrs (.crowded hlarge hrs ht)
  | feed h => simp [read, Feed.read, h, label]

theorem isOpen_call_iff (hs : s.Sound) :
    (s.call c).2.isOpen = true ↔ s.isOpen = true ∧ ¬ s.Shuts c := by
  cases c with
  | layout => simp [call, Shuts]
  | close => simp [call, Shuts, isOpen_close]
  | read =>
    change s.read.2.isOpen = true ↔ _
    cases ho : s.isOpen with
    | false => simp [read_of_shut ho, ho]
    | true =>
      have h := reads hs ho
      generalize s.read = answer at h ⊢
      obtain ⟨result,next⟩ := answer
      cases h with
      | gives hn ho' => exact iff_of_true ho' ⟨rfl,hn⟩
      | ends hn ho' => exact iff_of_true ho' ⟨rfl,hn⟩
      | fails hn ho' => exact iff_of_true ho' ⟨rfl,hn⟩
      | panics hp hc => exact iff_of_false (by simp [hc]) fun h => h.2 ⟨_,hp⟩

/-! ## Calls in a row -/

def ShutBy (s : Source) (cs : List Call) : Prop :=
  ∃ before c, before ++ [c] <+: cs ∧ (s.after before).Shuts c

def EndedBy (s : Source) (cs : List Call) : Prop :=
  ∃ before, before ++ [.read] <+: cs ∧ (s.after before).read.1 = .ok none

theorem shutBy_concat_iff : s.ShutBy (cs ++ [c]) ↔ s.ShutBy cs ∨ (s.after cs).Shuts c := by
  constructor
  · rintro ⟨before,d,hbefore,hd⟩
    rcases List.prefix_concat_iff.mp hbefore with heq | hbefore
    · obtain ⟨rfl,h⟩ := List.append_inj' heq rfl
      cases h
      exact .inr hd
    · exact .inl ⟨before,d,hbefore,hd⟩
  · rintro (⟨before,d,hbefore,hd⟩ | hc)
    · exact ⟨before,d,hbefore.trans (List.prefix_append _ _),hd⟩
    · exact ⟨cs,c,List.prefix_rfl,hc⟩

/-- A source is open until a call shuts it. -/
theorem isOpen_after_iff (hs : s.Sound) (ho : s.isOpen = true) :
    (s.after cs).isOpen = true ↔ ¬ s.ShutBy cs := by
  induction cs using List.reverseRecOn with
  | nil =>
    refine iff_of_true ho ?_
    rintro ⟨before,c,hbefore,_⟩
    simpa using List.prefix_nil.mp hbefore
  | append_singleton cs c ih =>
    rw [after_concat, isOpen_call_iff ((later_after s cs).sound hs), ih, shutBy_concat_iff, not_or]

theorem exhausted_of_endedBy (hs : s.Sound) (he : s.EndedBy cs) : (s.after cs).Exhausted := by
  obtain ⟨before,⟨more,rfl⟩,hread⟩ := he
  have hsound := (later_after s before).sound hs
  cases ho : (s.after before).isOpen with
  | false => simp [read_of_shut ho] at hread
  | true =>
    have h := reads hsound ho
    rw [hread] at h
    rw [after_append, after_concat]
    cases h with
    | ends _ _ he => exact (later_after _ more).exhausted he

/-! ## Sources as they are made -/

theorem opened_memory {l : Layout} {batches : List Batch} {m : MemorySource}
    (h : MemorySource.ofLayout l batches = .ok m) :
    (memory m).Sound ∧ (memory m).isOpen = true := by
  unfold MemorySource.ofLayout at h
  split at h
  · next hall =>
    cases h
    exact ⟨fun b hb => by simpa using List.all_eq_true.mp hall b hb,rfl⟩
  · cases h

theorem opened_delimited {schema : Schema} {o : Options} {input : List Delimited.Chunk}
    {d : DelimitedSource} (h : DelimitedSource.ofInput schema o input = .ok d) :
    (delimited d).Sound ∧ (delimited d).isOpen = true := by
  obtain ⟨_,_,h⟩ := bind_eq_ok_iff.mp h
  obtain ⟨delimiter,_,h⟩ := bind_eq_ok_iff.mp h
  unfold DelimitedSource.ofRecords at h
  split at h
  all_goals
    obtain ⟨rs,_,h⟩ := bind_eq_ok_iff.mp h
    cases h
    exact ⟨Nat.succ_pos _,rfl⟩

/-- A source as it is made is sound and open. -/
theorem Opened.sound (hs : s.Opened) : s.Sound ∧ s.isOpen = true := by
  cases hs with
  | ofLayout h => exact opened_memory h
  | @ofBatches batches m h =>
    cases batches with
    | nil => cases h
    | cons b bs => exact opened_memory h
  | ofInput h => exact opened_delimited h
  | withBatchSize h n => exact ⟨Nat.le_max_right _ 1,(opened_delimited h).2⟩
  | ofItems format l last h => exact ⟨fun items hi b hb => by cases hi; exact h b hb,rfl⟩

theorem opened_ndjson (l : Layout) (batchSize : Nat) (bytes : List UInt8) :
    (feed (Ndjson.feed l batchSize bytes)).Opened := by
  have hitems : ∀ (values : List (List Json)) (b : Batch),
      .batch b ∈ (Ndjson.items l values).1 → b.layout = l := by
    intro values
    induction values with
    | nil => nofun
    | cons first rest ih =>
      intro b hb
      simp only [Ndjson.items] at hb
      split at hb
      · cases hb
      · next c hc =>
        rcases List.mem_cons.mp hb with heq | hb
        · cases heq
          simp only [Ndjson.batch] at hc
          split at hc
          · cases hc
          · split at hc
            · next hcolumns =>
              cases hc
              exact (Batch.layout_of_ofColumns hcolumns).1
            · cases hc
        · exact ih b hb
  exact .ofItems .ndjson l _ (hitems _)

theorem opened_parquet {batchSize : Nat} {bytes : List UInt8} {f : Feed}
    (h : Columnar.Parquet.feed batchSize bytes = .ok f) : (feed f).Opened := by
  unfold Columnar.Parquet.feed at h
  split at h
  · split at h
    · cases h
    · cases h
      refine .ofItems .parquet _ none fun b hb => ?_
      obtain ⟨⟨n,columns⟩,_,hitem⟩ := List.mem_map.mp hb
      dsimp only [Columnar.Parquet.item] at hitem
      split at hitem
      · next hcolumns =>
        cases hitem
        exact (Batch.layout_of_ofColumns hcolumns).1
      · cases hitem
  · cases h

theorem opened_ipc {bytes : List UInt8} {f : Feed} (h : Columnar.Ipc.feed bytes = .ok f) :
    (feed f).Opened := by
  unfold Columnar.Ipc.feed at h
  split at h
  · cases h
    refine .ofItems .ipc _ none fun b hb => ?_
    obtain ⟨part,_,hitem⟩ := List.mem_map.mp hb
    unfold Columnar.Ipc.item at hitem
    split at hitem
    · cases hitem
    · split at hitem
      · next hcolumns =>
        cases hitem
        exact (Batch.layout_of_ofColumns hcolumns).1
      · cases hitem
  · cases h

/-- A source that is opened on a file is one of those. -/
theorem opened_ofEndpoint {t : FileTree} {e : Endpoint} {o : Options} {a : Inference.Surroundings}
    {cancelled : Bool} (h : ofEndpoint t e o a cancelled = .ok s) : s.Opened := by
  rw [ofEndpoint, bind_eq_ok_iff] at h
  obtain ⟨format,_,h⟩ := h
  cases format with
  | csv =>
    obtain ⟨outcome,_,h⟩ := bind_eq_ok_iff.mp h
    obtain ⟨d,hd,h⟩ := bind_eq_ok_iff.mp h
    obtain ⟨x,_,hd⟩ := bind_eq_ok_iff.mp hd
    cases h
    exact .ofInput hd
  | ndjson =>
    obtain ⟨f,hf,h⟩ := bind_eq_ok_iff.mp h
    obtain ⟨x,_,hf⟩ := bind_eq_ok_iff.mp hf
    obtain ⟨bytes,_,hf⟩ := bind_eq_ok_iff.mp hf
    cases h
    split at hf
    · cases hf
      exact opened_ndjson ..
    · cases hf
  | parquet =>
    obtain ⟨f,hf,h⟩ := bind_eq_ok_iff.mp h
    obtain ⟨x,_,hf⟩ := bind_eq_ok_iff.mp hf
    obtain ⟨bytes,_,hf⟩ := bind_eq_ok_iff.mp hf
    cases h
    exact opened_parquet hf
  | ipc =>
    obtain ⟨f,hf,h⟩ := bind_eq_ok_iff.mp h
    obtain ⟨x,_,hf⟩ := bind_eq_ok_iff.mp hf
    obtain ⟨bytes,_,hf⟩ := bind_eq_ok_iff.mp hf
    cases h
    exact opened_ipc hf

/-- What every source keeps to, at every point of every sequence of calls. It answers its one
layout, and a batch that it gives carries that layout. A close goes well. Once some call has shut
it, by a close or by a panic, it refuses every read and stays as it is. Until then it is open: a
panic is the error of its read, and a read with any other error leaves it open. Once a read has come
to the end, there are no batches. The sources opened on files are such sources. -/
theorem open_until_shut (hs : s.Opened) (cs : List Call) :
    let now := s.after cs
    now.call .layout = (.layout s.layout, now) ∧
    (∀ b, now.read.1 = .ok (some b) → b.layout = s.layout) ∧
    (now.call .close).1 = .closed ∧
    (now.isOpen = true ↔ ¬ s.ShutBy cs) ∧
    (s.ShutBy cs → now.read = (.error (.source (.closed s.label)), now)) ∧
    (∀ text, now.Panics text → now.read.1 = .error (.source (.taskFailed s.label text))) ∧
    (∀ e, ¬ s.ShutBy cs → now.read.1 = .error e → (∀ text, ¬ now.Panics text) →
      now.read.2.isOpen = true) ∧
    (s.EndedBy cs → ∀ b, now.read.1 ≠ .ok (some b)) ∧
    ∀ t e o a cancelled opened, ofEndpoint t e o a cancelled = .ok opened → opened.Opened := by
  intro now
  obtain ⟨hsound,hopen⟩ := hs.sound
  have hlater : s.Later now := later_after s cs
  have hnow : now.Sound := hlater.sound hsound
  have hiff : now.isOpen = true ↔ ¬ s.ShutBy cs := isOpen_after_iff hsound hopen
  refine ⟨?_,fun b hb => ?_,rfl,hiff,fun hshut => ?_,fun text hp => ?_,fun e hnot he hquiet => ?_,
    fun hended => read_of_exhausted (exhausted_of_endedBy hsound hended),
    fun _ _ _ _ _ _ => opened_ofEndpoint⟩
  · rw [← hlater.layout_eq]
    rfl
  · cases ho : now.isOpen with
    | false => simp [read_of_shut ho] at hb
    | true =>
      have h := reads hnow ho
      rw [hb] at h
      cases h with
      | gives _ _ hlayout => exact hlayout.trans hlater.layout_eq
  · rw [← hlater.label_eq]
    exact read_of_shut (Bool.eq_false_iff.mpr fun ho => hiff.mp ho hshut)
  · rw [← hlater.label_eq]
    exact read_of_panics hp
  · have hread : ¬ now.Shuts .read := fun ⟨text,hp⟩ => hquiet text hp
    exact (isOpen_call_iff hnow).mpr ⟨hiff.mpr hnot,hread⟩

def numbers : Schema := ⟨[{ name := "n", tag := .int64 }],.empty⟩

/-- A batch, a value that is no number, and a panic. -/
theorem open_until_shut_boom :
    let input : List Delimited.Chunk := [.bytes [110,10,49,10,120,10],.panic "boom"]
    ∃ d, DelimitedSource.ofInput numbers {} input = .ok d ∧
      let s := delimited (d.withBatchSize 1)
      s.Opened ∧
      (s.after [.read]).read.1 = .error (.schema (.unreadable "n" "x" .int64)) ∧
      (s.after [.read,.read]).isOpen = true ∧ ¬ s.ShutBy [.read,.read] ∧
      (s.after [.read,.read]).Panics "boom" ∧ s.ShutBy [.read,.read,.read] ∧
      (s.after [.read,.read,.read]).read.1 = .error (.source (.closed "CSV")) := by
  intro input
  have hd : ∃ d, DelimitedSource.ofInput numbers {} input = .ok d ∧
      ((delimited (d.withBatchSize 1)).after [.read]).read.1 =
        .error (.schema (.unreadable "n" "x" .int64)) ∧
      ((delimited (d.withBatchSize 1)).after [.read,.read]).isOpen = true ∧
      ((delimited (d.withBatchSize 1)).after [.read,.read]).Panics "boom" :=
    ⟨_,rfl,rfl,rfl,(panics_delimited_iff rfl _).mpr rfl⟩
  obtain ⟨d,hd,hbad,hopen,hpanics⟩ := hd
  refine ⟨d,hd,?_⟩
  intro s
  have hs : s.Opened := .withBatchSize hd 1
  have hshut : s.ShutBy [.read,.read,.read] := ⟨[.read,.read],.read,List.prefix_rfl,"boom",hpanics⟩
  obtain ⟨_,_,_,hiff,_⟩ := open_until_shut hs [.read,.read]
  obtain ⟨_,_,_,_,hrefuses,_⟩ := open_until_shut hs [.read,.read,.read]
  exact ⟨hs,hbad,hopen,hiff.mp hopen,hpanics,hshut,congrArg Prod.fst (hrefuses hshut)⟩

end Tabular.Source
