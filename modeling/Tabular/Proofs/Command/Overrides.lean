import Tabular.Command.Run
import Tabular.Proofs.Text.Utf8

/-! # Arguments over a settings file

`Laid` says part by part what becomes of settings over which the arguments of a conversion are laid.
The settings that come of it are validated, but those of the file are too, before any argument is
looked at. So a value that an argument replaces still counts: it can refuse the whole command.
-/
namespace Tabular.Command

/-- An end of a pipeline over which a path and a format are laid. A path comes without a format; a
format that is given counts for whichever path there is then. -/
structure LaidEnd (path : Option Path) (format : Option Format) (e e' : Endpoint) : Prop where
  path_eq : e'.path = path.getD e.path
  format_given : ∀ f, format = some f → e'.format = some f
  format_fresh : format = none → path.isSome = true → e'.format = none
  format_kept : format = none → path = none → e'.format = e.format

structure LaidReading (r : ReadingFlags) (o o' : Options) : Prop where
  delimiter_given : ∀ c, r.delimiter = some c → o'.delimiter = some c
  delimiter_kept : r.delimiter = none → o'.delimiter = o.delimiter
  hasHeader_iff : o'.hasHeader = true ↔ o.hasHeader = true ∧ r.noHeader = false
  nullValues_eq : o'.nullValues = o.nullValues ++ r.nullValues
  emptyAsNull_iff : o'.emptyAsNull = true ↔ o.emptyAsNull = true ∧ r.keepEmpty = false
  timestampFormat_given : ∀ s, r.timestampFormat = some s → o'.timestampFormat = some s
  timestampFormat_kept : r.timestampFormat = none → o'.timestampFormat = o.timestampFormat
  maxRows_eq : o'.maxRows = r.maxRows.getD o.maxRows
  workers_given : ∀ n, r.workers = some n → o'.workers = some n
  workers_kept : r.workers = none → o'.workers = o.workers
  batchSize_eq : o'.batchSize = o.batchSize

structure Laid (a : ConvertArguments) (c c' : Config) : Prop where
  source : LaidEnd a.input a.inputFormat c.source c'.source
  sink : LaidEnd a.output a.outputFormat c.sink c'.sink
  inference : LaidReading a.reading c.inference c'.inference
  queueCapacity_eq : c'.transfer.queueCapacity = a.queueCapacity.getD c.transfer.queueCapacity
  progressInterval_eq :
    c'.transfer.progressInterval = a.progressInterval.getD c.transfer.progressInterval
  parquet_eq : c'.parquet = c.parquet

variable {a : ConvertArguments} {c c' : Config}

theorem laidEnd_iff {path : Option Path} {format : Option Format} {e e' : Endpoint} :
    LaidEnd path format e e' ↔ e' = e.override path format := by
  constructor
  · rintro ⟨hp,hg,hf,hk⟩
    obtain ⟨p',f'⟩ := e'
    cases path <;> cases format <;> simp_all [Endpoint.override]
  · rintro rfl
    constructor <;> cases path <;> cases format <;> simp [Endpoint.override]

theorem laidReading_iff {r : ReadingFlags} {o o' : Options} :
    LaidReading r o o' ↔ o' = r.apply o := by
  constructor
  · intro h
    obtain ⟨hdg,hdk,hh,hn,he,htg,htk,hm,hwg,hwk,hb⟩ := h
    have hd : o'.delimiter = r.delimiter.or o.delimiter := by
      cases hr : r.delimiter <;> simp_all
    have ht : o'.timestampFormat = r.timestampFormat.or o.timestampFormat := by
      cases hr : r.timestampFormat <;> simp_all
    have hw : o'.workers = r.workers.or o.workers := by
      cases hr : r.workers <;> simp_all
    have hheader : o'.hasHeader = (!r.noHeader && o.hasHeader) := by
      rw [Bool.eq_iff_iff, hh, Bool.and_eq_true, Bool.not_eq_true', and_comm]
    have hempty : o'.emptyAsNull = (!r.keepEmpty && o.emptyAsNull) := by
      rw [Bool.eq_iff_iff, he, Bool.and_eq_true, Bool.not_eq_true', and_comm]
    cases o'
    simp_all [ReadingFlags.apply]
  · rintro rfl
    constructor <;> simp +contextual [ReadingFlags.apply, and_comm]

/-- The settings that arguments make of others are those that `Laid` describes, and no others. -/
theorem laid_iff : Laid a c c' ↔ c' = a.apply c := by
  constructor
  · rintro ⟨hs,hk,hi,hq,hp,hr⟩
    rw [laidEnd_iff] at hs hk
    rw [laidReading_iff] at hi
    obtain ⟨_,_,_,⟨_,_⟩,_⟩ := c'
    simp_all [ConvertArguments.apply]
  · rintro rfl
    exact ⟨laidEnd_iff.mpr rfl,laidEnd_iff.mpr rfl,laidReading_iff.mpr rfl,rfl,rfl,rfl⟩

variable {t : FileTree} {p : Path} {text : String}

/-- Loading a file validates what it holds. -/
theorem ofFile_eq (ht : t.readText p = .ok text)
    (hc : (Yaml.Node.ofText? text).bind Config.decode? = some c) :
    Config.ofFile t p = c.validate.map fun _ => c := by
  simp only [Config.ofFile, ht, Config.ofYaml, hc]

/-- The file's settings come first, those that the arguments make of them second. -/
theorem settings_eq {load : Path → Except Error Config} (hp : a.config = some p)
    (hl : load p = c.validate.map fun _ => c) :
    a.settings load = c.validate.bind fun _ => (a.apply c).validate.map fun _ => a.apply c := by
  simp only [ConvertArguments.settings, hp, hl]
  cases c.validate with
  | error cause => rfl
  | ok u =>
    simp only [Except.map, bind, Except.bind]
    cases (a.apply c).validate <;> rfl

/-- The settings of a conversion that names a settings file. The arguments laid over the file's
settings determine others, field by field. If the file's own settings pass, these others decide:
they are the answer if they pass, and their error is the answer if not. If the file's own settings
are refused, that error is the answer, whatever the arguments put in their place; so the arguments
win over the file exactly as long as it is not refused by an error that they would have mended. -/
theorem settings_of_file (hp : a.config = some p) (ht : t.readText p = .ok text)
    (hc : (Yaml.Node.ofText? text).bind Config.decode? = some c) :
    ∃ m, (∀ c', Laid a c c' ↔ c' = m) ∧
      (c.validate = .ok () →
        (m.validate = .ok () → a.settings (Config.ofFile t) = .ok m) ∧
        ∀ cause, m.validate = .error cause → a.settings (Config.ofFile t) = .error cause) ∧
      (∀ cause, c.validate = .error cause → a.settings (Config.ofFile t) = .error cause) ∧
      (a.settings (Config.ofFile t) = (m.validate.map fun _ => m) ↔
        ∀ cause, c.validate = .error cause → m.validate = .error cause) := by
  have hs := settings_eq hp (ofFile_eq ht hc)
  refine ⟨a.apply c,fun _ => laid_iff,fun hv => ?_,fun cause hv => ?_,?_⟩
  · rw [hs, hv]
    exact ⟨fun hm => by rw [hm]; rfl,fun cause hm => by rw [hm]; rfl⟩
  · rw [hs, hv]
    rfl
  · rw [hs]
    cases hv : c.validate with
    | ok u => simp [Except.bind]
    | error cause => cases (a.apply c).validate <;> simp [Except.bind, Except.map, eq_comm]

/-- Settings for a queue without room, which no pipeline accepts. -/
def withoutRoomText : String :=
  "source: {path: a.csv, format: csv}\nsink: {path: b.csv, format: csv}\n" ++
    "transfer: {queue_capacity: 0}\n"

def withoutRoom : FileTree :=
  { entries := [(["p.yaml"],.file (Text.Utf8.encode withoutRoomText))] }

def settingsWithRoom (capacity : Nat) : Config where
  source := { path := ⟨"a.csv"⟩, format := some .csv }
  sink := { path := ⟨"b.csv"⟩, format := some .csv }
  transfer := { queueCapacity := capacity }

def makingRoom (capacity : Nat) : ConvertArguments :=
  { config := some ⟨"p.yaml"⟩, queueCapacity := some capacity }

theorem holds_withoutRoom :
    ∃ text, withoutRoom.readText ⟨"p.yaml"⟩ = .ok text ∧
      (Yaml.Node.ofText? text).bind Config.decode? = some (settingsWithRoom 0) := by
  refine ⟨withoutRoomText,?_,?_⟩
  · have hentry : withoutRoom.entry ⟨"p.yaml"⟩ =
        .ok (.file (Text.Utf8.encode withoutRoomText)) := rfl
    simp only [FileTree.readText, hentry, Text.Utf8.decode?, Text.Utf8.decode_encode, bind,
      Except.bind]
    rfl
  · decide +kernel

theorem validate_settingsWithRoom_zero :
    (settingsWithRoom 0).validate = .error (.validation (.zero "queue_capacity")) := rfl

theorem settings_of_file_withoutRoom :
    (∃ text, withoutRoom.readText ⟨"p.yaml"⟩ = .ok text ∧
      (Yaml.Node.ofText? text).bind Config.decode? = some (settingsWithRoom 0)) ∧
    (makingRoom 0).settings (Config.ofFile withoutRoom) =
      .error (.validation (.zero "queue_capacity")) := by
  obtain ⟨text,ht,hc⟩ := holds_withoutRoom
  obtain ⟨_,_,_,hrefused,_⟩ := settings_of_file (a := makingRoom 0) rfl ht hc
  exact ⟨⟨text,ht,hc⟩,hrefused _ validate_settingsWithRoom_zero⟩

/-- A command that is refused for the very value it replaces: with the room for five batches that it
asks for, the settings pass, and yet the file's zero is what it is told. -/
theorem replaced_value_refuses :
    Laid (makingRoom 5) (settingsWithRoom 0) (settingsWithRoom 5) ∧
    (settingsWithRoom 5).validate = .ok () ∧
    (makingRoom 5).settings (Config.ofFile withoutRoom) =
      .error (.validation (.zero "queue_capacity")) := by
  have hlaid : settingsWithRoom 5 = (makingRoom 5).apply (settingsWithRoom 0) := by decide +kernel
  obtain ⟨text,ht,hc⟩ := holds_withoutRoom
  refine ⟨laid_iff.mpr hlaid,rfl,?_⟩
  rw [settings_eq rfl (ofFile_eq ht hc), validate_settingsWithRoom_zero]
  rfl

end Tabular.Command
