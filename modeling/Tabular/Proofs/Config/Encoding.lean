import Tabular.Proofs.Config.Members
import Tabular.Proofs.Number.Decimal

/-! # Settings and schemas survive their documents

What is written of settings or of a schema is read as the same again. A member that has a default
may also be left out, at any depth and together with others: the value read then has its default in
that place and is otherwise the one that was written.
-/
namespace Tabular
open Document Json
open Number.Decimal (nat64Max)

/-- Numbers that are words of the machine. -/
structure Options.FitsWords (o : Options) : Prop where
  maxRows : o.maxRows ≤ nat64Max
  batchSize : o.batchSize ≤ nat64Max
  workers : ∀ n, o.workers = some n → n ≤ nat64Max

@[inherit_doc Options.FitsWords]
structure Config.FitsWords (c : Config) : Prop where
  inference : c.inference.FitsWords
  queueCapacity : c.transfer.queueCapacity ≤ nat64Max
  progressInterval : c.transfer.progressInterval ≤ nat64Max
  rowGroupSize : c.parquet.rowGroupSize ≤ nat64Max

/-- A value, or its default if its member is one of those taken out. -/
def Json.Addresses.resetAt {α : Type} (gone : Addresses) (name : String) (value a : α) : α :=
  if gone [.member name] then value else a

/-- Options with some of their members at their defaults. -/
def Options.reset (gone : Addresses) (o : Options) : Options where
  delimiter := gone.resetAt "delimiter" ({} : Options).delimiter o.delimiter
  hasHeader := gone.resetAt "has_header" ({} : Options).hasHeader o.hasHeader
  nullValues := gone.resetAt "null_values" ({} : Options).nullValues o.nullValues
  emptyAsNull := gone.resetAt "empty_as_null" ({} : Options).emptyAsNull o.emptyAsNull
  timestampFormat :=
    gone.resetAt "timestamp_format" ({} : Options).timestampFormat o.timestampFormat
  maxRows := gone.resetAt "max_rows" ({} : Options).maxRows o.maxRows
  batchSize := gone.resetAt "batch_size" ({} : Options).batchSize o.batchSize
  workers := gone.resetAt "workers" ({} : Options).workers o.workers

@[inherit_doc Options.reset]
def Transfer.Settings.reset (gone : Addresses) (t : Transfer.Settings) : Transfer.Settings where
  queueCapacity :=
    gone.resetAt "queue_capacity" ({} : Transfer.Settings).queueCapacity t.queueCapacity
  progressInterval :=
    gone.resetAt "progress_interval" ({} : Transfer.Settings).progressInterval t.progressInterval

@[inherit_doc Options.reset]
def ParquetOptions.reset (gone : Addresses) (p : ParquetOptions) : ParquetOptions where
  compression := gone.resetAt "compression" ({} : ParquetOptions).compression p.compression
  rowGroupSize := gone.resetAt "row_group_size" ({} : ParquetOptions).rowGroupSize p.rowGroupSize
  dictionaryEnabled :=
    gone.resetAt "dictionary_enabled" ({} : ParquetOptions).dictionaryEnabled p.dictionaryEnabled
  statisticsEnabled :=
    gone.resetAt "statistics_enabled" ({} : ParquetOptions).statisticsEnabled p.statisticsEnabled

def Endpoint.reset (gone : Addresses) (e : Endpoint) : Endpoint :=
  { e with format := gone.resetAt "format" none e.format }

def Config.reset (gone : Addresses) (c : Config) : Config where
  source := c.source.reset (gone.under (.member "source"))
  sink := c.sink.reset (gone.under (.member "sink"))
  inference := gone.resetAt "inference" {} (c.inference.reset (gone.under (.member "inference")))
  transfer := gone.resetAt "transfer" {} (c.transfer.reset (gone.under (.member "transfer")))
  parquet := gone.resetAt "parquet" {} (c.parquet.reset (gone.under (.member "parquet")))

def Schema.Field.reset (gone : Addresses) (f : Field) : Field :=
  { f with nullable := gone.resetAt "nullable" false f.nullable }

def Schema.reset (gone : Addresses) (s : Schema) : Schema where
  fields := s.fields.mapIdx fun i f => f.reset ((gone.under (.member "fields")).under (.item i))
  metadata := gone.resetAt "metadata" .empty s.metadata

/-- The members of settings that may be left out: the sections, what is in them, and formats. -/
def Config.MayLack : Address → Prop
  | [.member name] => name ∈ ["inference", "transfer", "parquet"]
  | [.member outer, .member inner] =>
    outer ∈ ["inference", "transfer", "parquet"] ∨ outer ∈ ["source", "sink"] ∧ inner = "format"
  | _ => False

/-- The members of a schema that may be left out. -/
def Schema.MayLack : Address → Prop
  | [.member name] => name = "metadata"
  | [.member outer, .item _, .member inner] => outer = "fields" ∧ inner = "nullable"
  | _ => False

variable {gone : Addresses} {o : Options}

namespace Document

theorem nat?_ofNat {n : Nat} (h : n ≤ nat64Max) : nat? (Json.ofNat n) = some n := by
  change count? (Number.Decimal.ofNat n) = some n
  simp [count?, Number.Decimal.ofNat, Number.Decimal.nat?_digits, h]

theorem optional_ofOption {α : Type} {write : α → Json} {read : Json → Option α} {x : Option α}
    (h : ∀ a, x = some a → isNull ((write a).without gone) = false ∧
      read ((write a).without gone) = some a) :
    optional read ((ofOption write x).without gone) = some x := by
  cases x with
  | none => rfl
  | some a =>
    obtain ⟨hnull,hread⟩ := h a rfl
    simp [ofOption, optional, hnull, hread]

theorem listOf_string (xs : List String) :
    listOf text? ((Json.array (xs.map .string)).without gone) = some xs := by
  change (withoutItems gone 0 (xs.map .string)).mapM text? = some xs
  rw [withoutItems_string]
  induction xs with
  | nil => rfl
  | cons x xs ih =>
    have hx : text? (Json.string x) = some x := rfl
    rw [List.map_cons, List.mapM_cons, ih, hx]
    rfl

end Document

theorem Options.decode?_without (h : o.FitsWords) (gone : Addresses) :
    decode? (o.encode.without gone) = some (o.reset gone) := by
  obtain ⟨f,hf,hleft⟩ := exists_fields?_without (j := o.encode) gone fieldNames rfl (by simp)
  have hdelimiter : f.withDefault "delimiter" none (optional char?) =
      some (o.reset gone).delimiter :=
    hleft.withDefault (by decide) rfl fun _ => optional_ofOption fun c _ =>
      ⟨rfl,by simp [char?, onlyChar?]⟩
  have hheader : f.withDefault "has_header" true flag? = some (o.reset gone).hasHeader :=
    hleft.withDefault (by decide) rfl fun _ => rfl
  have hnulls : f.withDefault "null_values" [] (listOf text?) = some (o.reset gone).nullValues :=
    hleft.withDefault (by decide) rfl fun _ => listOf_string o.nullValues
  have hempty : f.withDefault "empty_as_null" true flag? = some (o.reset gone).emptyAsNull :=
    hleft.withDefault (by decide) rfl fun _ => rfl
  have hformat : f.withDefault "timestamp_format" none (optional text?) =
      some (o.reset gone).timestampFormat :=
    hleft.withDefault (by decide) rfl fun _ => optional_ofOption fun s _ => ⟨rfl,rfl⟩
  have hrows : f.withDefault "max_rows" 1000 nat? = some (o.reset gone).maxRows :=
    hleft.withDefault (by decide) rfl fun _ => nat?_ofNat h.maxRows
  have hsize : f.withDefault "batch_size" 100 nat? = some (o.reset gone).batchSize :=
    hleft.withDefault (by decide) rfl fun _ => nat?_ofNat h.batchSize
  have hworkers : f.withDefault "workers" none (optional nat?) = some (o.reset gone).workers :=
    hleft.withDefault (by decide) rfl fun _ => optional_ofOption fun n hn =>
      ⟨rfl,nat?_ofNat (h.workers n hn)⟩
  simp only [decode?, hf, hdelimiter, hheader, hnulls, hempty, hformat, hrows, hsize, hworkers,
    bind, Option.bind]

theorem Transfer.Settings.decode?_without {t : Transfer.Settings} (hq : t.queueCapacity ≤ nat64Max)
    (hp : t.progressInterval ≤ nat64Max) (gone : Addresses) :
    decode? (t.encode.without gone) = some (t.reset gone) := by
  obtain ⟨f,hf,hleft⟩ := exists_fields?_without (j := t.encode) gone
    ["queue_capacity", "progress_interval"] rfl (by simp)
  have hcapacity : f.withDefault "queue_capacity" 100 nat? = some (t.reset gone).queueCapacity :=
    hleft.withDefault (by decide) rfl fun _ => nat?_ofNat hq
  have hinterval : f.withDefault "progress_interval" 0 nat? =
      some (t.reset gone).progressInterval :=
    hleft.withDefault (by decide) rfl fun _ => nat?_ofNat hp
  simp only [decode?, hf, hcapacity, hinterval, Option.bind_eq_bind, Option.bind_some]

theorem ParquetOptions.decode?_without {p : ParquetOptions} (h : p.rowGroupSize ≤ nat64Max)
    (gone : Addresses) : decode? (p.encode.without gone) = some (p.reset gone) := by
  obtain ⟨f,hf,hleft⟩ := exists_fields?_without (j := p.encode) gone
    ["compression", "row_group_size", "dictionary_enabled", "statistics_enabled"] rfl (by simp)
  have hcompression : f.withDefault "compression" .snappy
      (fun d => (choice? d).bind Compression.ofName?) = some (p.reset gone).compression :=
    hleft.withDefault (by decide) rfl fun _ => Compression.ofName?_name p.compression
  have hsize : f.withDefault "row_group_size" 1048576 nat? = some (p.reset gone).rowGroupSize :=
    hleft.withDefault (by decide) rfl fun _ => nat?_ofNat h
  have hdictionary : f.withDefault "dictionary_enabled" true flag? =
      some (p.reset gone).dictionaryEnabled :=
    hleft.withDefault (by decide) rfl fun _ => rfl
  have hstatistics : f.withDefault "statistics_enabled" true flag? =
      some (p.reset gone).statisticsEnabled :=
    hleft.withDefault (by decide) rfl fun _ => rfl
  simp only [decode?, hf, hcompression, hsize, hdictionary, hstatistics, Option.bind_eq_bind,
    Option.bind_some]

theorem Endpoint.decode?_without (e : Endpoint) (h : gone [.member "path"] = false) :
    decode? (e.encode.without gone) = some (e.reset gone) := by
  obtain ⟨path,format⟩ := e
  have hread : ∃ f, fields? ["path", "format"] ((encode ⟨path,format⟩).without gone) = some f ∧
      f.required "path" text? = some path.text ∧
      f.withDefault "format" none (optional fun d => (choice? d).bind Format.ofName?) =
        some (gone.resetAt "format" none format) := by
    cases format with
    | none =>
      obtain ⟨f,hf,hleft⟩ := exists_fields?_without (j := encode ⟨path,none⟩) gone
        ["path", "format"] rfl (by simp)
      refine ⟨f,hf,hleft.required (by decide) rfl h rfl,?_⟩
      rw [hleft.withDefault_of_absent (by decide) rfl, Addresses.resetAt, ite_self]
    | some format =>
      obtain ⟨f,hf,hleft⟩ := exists_fields?_without (j := encode ⟨path,some format⟩) gone
        ["path", "format"] rfl (by simp)
      refine ⟨f,hf,hleft.required (by decide) rfl h rfl,
        hleft.withDefault (by decide) rfl fun _ => ?_⟩
      have hname : choice? (Json.string format.name) = some format.name := rfl
      rw [without_string, Document.optional, hname, Option.bind_some, Format.ofName?_name]
      rfl
  obtain ⟨f,hf,hpath,hformat⟩ := hread
  simp only [decode?, hf, hpath, hformat, Option.bind_eq_bind, Option.bind_some, reset]

theorem kept_of_not {P : Address → Prop} {a : Address} (h : ∀ a, gone a = true → P a) (ha : ¬ P a) :
    gone a = false := by
  rw [Bool.eq_false_iff]
  exact fun hgone => ha (h a hgone)

theorem Config.decode?_without {c : Config} (h : c.FitsWords)
    (hgone : ∀ a, gone a = true → MayLack a) :
    decode? (c.encode.without gone) = some (c.reset gone) := by
  obtain ⟨f,hf,hleft⟩ := exists_fields?_without (j := c.encode) gone
    ["source", "sink", "inference", "transfer", "parquet"] rfl (by simp)
  have hends : ∀ e ∈ ["source", "sink"], gone [.member e] = false ∧
      gone [.member e, .member "path"] = false := by
    intro e he
    have hnot : e ∉ ["inference", "transfer", "parquet"] := by
      rintro hin
      simp only [List.mem_cons, List.not_mem_nil, or_false] at he hin
      rcases he with rfl | rfl <;> simp at hin
    exact ⟨kept_of_not hgone hnot,kept_of_not hgone (by simp [MayLack, hnot])⟩
  have hsource : f.required "source" Endpoint.decode? = some (c.reset gone).source :=
    hleft.required (by decide) rfl (hends _ (by decide)).1
      (c.source.decode?_without (hends _ (by decide)).2)
  have hsink : f.required "sink" Endpoint.decode? = some (c.reset gone).sink :=
    hleft.required (by decide) rfl (hends _ (by decide)).1
      (c.sink.decode?_without (hends _ (by decide)).2)
  have hinference : f.withDefault "inference" {} Options.decode? = some (c.reset gone).inference :=
    hleft.withDefault (by decide) rfl fun _ => Options.decode?_without h.inference _
  have htransfer : f.withDefault "transfer" {} Transfer.Settings.decode? =
      some (c.reset gone).transfer :=
    hleft.withDefault (by decide) rfl fun _ =>
      Transfer.Settings.decode?_without h.queueCapacity h.progressInterval _
  have hparquet : f.withDefault "parquet" {} ParquetOptions.decode? = some (c.reset gone).parquet :=
    hleft.withDefault (by decide) rfl fun _ => ParquetOptions.decode?_without h.rowGroupSize _
  simp only [decode?, hf, hsource, hsink, hinference, htransfer, hparquet, Option.bind_eq_bind,
    Option.bind_some]

/-! ## Schemas -/

theorem insertSorted_last {k v : String} {r : List (String × String)} (h : ∀ e ∈ r, e.1 < k) :
    insertSorted k v r = r ++ [(k,v)] := by
  induction r with
  | nil => rfl
  | cons e r ih =>
    obtain ⟨first,w⟩ := e
    have hlt : first < k := h (first,w) List.mem_cons_self
    have hnot : ¬ k < first := String.lt_asymm hlt
    have hne : ¬ k = first := fun hk => String.lt_irrefl k (hk ▸ hlt)
    rw [insertSorted, if_neg hnot, if_neg hne, ih fun e he => h e (List.mem_cons_of_mem _ he)]
    rfl

/-- Entries in order, put in one after the other, come behind those that are there. -/
theorem Metadata.foldl_insert {es : List (String × String)} {m : Metadata}
    (h : (m.entries ++ es).Pairwise (·.1 < ·.1)) :
    (es.foldl (fun m e => m.insert e.1 e.2) m).entries = m.entries ++ es := by
  induction es generalizing m with
  | nil => simp
  | cons e es ih =>
    have hlast : (m.insert e.1 e.2).entries = m.entries ++ [e] :=
      insertSorted_last fun e' he' =>
        (List.pairwise_append.mp h).2.2 e' he' e List.mem_cons_self
    have happend : m.entries ++ e :: es = (m.insert e.1 e.2).entries ++ es := by
      rw [hlast, List.append_assoc]
      rfl
    rw [happend] at h ⊢
    exact ih h

theorem Metadata.eq_of_entries {m m' : Metadata} (h : m.entries = m'.entries) : m = m' := by
  cases m
  cases m'
  cases h
  rfl

theorem Metadata.ofList_entries (m : Metadata) : ofList m.entries = m :=
  eq_of_entries (foldl_insert (m := empty) m.sorted)

namespace Schema

theorem Field.decode?_without {f : Field} (hname : gone [.member "name"] = false)
    (htype : gone [.member "type"] = false) :
    decode? (f.encode.without gone) = some (f.reset gone) := by
  obtain ⟨parts,hparts,hleft⟩ := exists_fields?_without (j := f.encode) gone
    ["name", "type", "nullable"] rfl (by simp)
  have hnamed : parts.required "name" text? = some f.name :=
    hleft.required (by decide) rfl hname rfl
  have htag : parts.required "type" Tag.decode? = some f.tag :=
    hleft.required (by decide) rfl htype (Tag.ofName?_name f.tag)
  have hnullable : parts.withDefault "nullable" false flag? = some (f.reset gone).nullable :=
    hleft.withDefault (by decide) rfl fun _ => rfl
  simp only [decode?, hparts, hnamed, htag, hnullable, Option.bind_eq_bind, Option.bind_some, reset]

theorem decodeFields_without {fs : List Field} {i : Nat} (h : ∀ k,
      gone [.item k, .member "name"] = false ∧ gone [.item k, .member "type"] = false) :
    (withoutItems gone i (fs.map Field.encode)).mapM Field.decode? =
      some (fs.mapIdx fun k f => f.reset (gone.under (.item (i + k)))) := by
  induction fs generalizing i with
  | nil => rfl
  | cons f fs ih =>
    have hf : Field.decode? (f.encode.without (gone.under (.item i))) =
        some (f.reset (gone.under (.item i))) := Field.decode?_without (h i).1 (h i).2
    have hshift (k : Nat) : i + 1 + k = i + (k + 1) := by omega
    simp only [List.map_cons, withoutItems, List.mapM_cons, hf, ih, List.mapIdx_cons, hshift,
      Nat.add_zero, Option.bind_eq_bind, Option.bind_some]
    rfl

theorem mapM_text (es : List (String × String)) :
    (es.map fun e => (e.1, Json.string e.2)).mapM
      (fun (k, v) => (text? v).map (k, ·)) = some es := by
  induction es with
  | nil => rfl
  | cons e es ih =>
    rw [List.map_cons, List.mapM_cons, ih]
    rfl

theorem decodeMetadata?_without {m : Metadata} (h : ∀ k, gone [.member k] = false) :
    decodeMetadata? ((encodeMetadata m).without gone) = some m := by
  have hsame : (encodeMetadata m).without gone = encodeMetadata m := by
    rw [encodeMetadata, without, withoutMembers_eq_self h]
    intro member hmember
    obtain ⟨e,_,rfl⟩ := List.mem_map.mp hmember
    rfl
  have hmembers : Document.members? (encodeMetadata m) =
      some (m.entries.map fun e => (e.1, Json.string e.2)) := rfl
  rw [hsame, decodeMetadata?, hmembers]
  simp only [Option.bind_eq_bind, Option.bind_some, mapM_text, Metadata.ofList_entries]

theorem decode?_without {s : Schema} (hgone : ∀ a, gone a = true → MayLack a) :
    decode? (s.encode.without gone) = some (s.reset gone) := by
  obtain ⟨fields,metadata⟩ := s
  have hkept : gone [.member "fields"] = false := kept_of_not hgone (by simp [MayLack])
  have hlist : listOf Field.decode?
      ((Json.array (fields.map Field.encode)).without (gone.under (.member "fields"))) =
        some (reset gone ⟨fields,metadata⟩).fields := by
    have hinside (i : Nat) (k : String) (hk : k ≠ "nullable") :
        gone.under (.member "fields") [.item i, .member k] = false :=
      kept_of_not hgone (a := [.member "fields", .item i, .member k]) (by simp [MayLack, hk])
    have hitems : (withoutItems (gone.under (.member "fields")) 0
        (fields.map Field.encode)).mapM Field.decode? = _ := decodeFields_without fun k =>
      ⟨hinside k "name" (by decide),hinside k "type" (by decide)⟩
    simp only [Nat.zero_add] at hitems
    exact hitems
  have hread : ∃ f, fields? ["fields", "metadata"] ((encode ⟨fields,metadata⟩).without gone) =
        some f ∧ f.required "fields" (listOf Field.decode?) =
          some (reset gone ⟨fields,metadata⟩).fields ∧
      f.withDefault "metadata" .empty decodeMetadata? =
        some (gone.resetAt "metadata" .empty metadata) := by
    by_cases hempty : metadata.isEmpty = true
    · obtain ⟨f,hf,hleft⟩ := exists_fields?_without (j := encode ⟨fields,metadata⟩) gone
        ["fields", "metadata"] (by rw [encode, if_pos hempty]; rfl) (by simp)
      have hnone : metadata = .empty := Metadata.eq_of_entries (List.isEmpty_iff.mp hempty)
      refine ⟨f,hf,hleft.required (by decide) rfl hkept hlist,?_⟩
      rw [hleft.withDefault_of_absent (by decide) rfl, Addresses.resetAt, hnone, ite_self]
    · obtain ⟨f,hf,hleft⟩ := exists_fields?_without (j := encode ⟨fields,metadata⟩) gone
        ["fields", "metadata"] (by rw [encode, if_neg hempty]; rfl) (by simp)
      refine ⟨f,hf,hleft.required (by decide) rfl hkept hlist,?_⟩
      exact hleft.withDefault (by decide) rfl fun _ => decodeMetadata?_without fun k =>
        kept_of_not hgone (a := [.member "metadata", .member k]) (by simp [MayLack])
  obtain ⟨f,hf,hfields,hmetadata⟩ := hread
  simp only [decode?, hf, hfields, hmetadata, Option.bind_eq_bind, Option.bind_some, reset]

end Schema

/-! ## Both -/

theorem Config.reset_noAddress (c : Config) : c.reset noAddress = c := rfl

theorem Schema.reset_noAddress (s : Schema) : s.reset noAddress = s := by
  obtain ⟨fields,metadata⟩ := s
  have hfields : fields.mapIdx (fun _ f => f) = fields := List.ext_getElem (by simp) (by simp)
  exact congrArg (Schema.mk · metadata) hfields

/-- Settings and schemas are read from what is written of them, whatever they hold; the numbers of
settings have to be words of the machine. When members that have a default are left out of what is
written, in any places and any number of them, then what is read has its defaults in these places
and is unchanged in all others. -/
theorem documents_read_back :
    (∀ c : Config, c.FitsWords → Config.decode? c.encode = some c ∧
      ∀ gone : Addresses, (∀ a, gone a = true → Config.MayLack a) →
        Config.decode? (c.encode.without gone) = some (c.reset gone)) ∧
    ∀ s : Schema, Schema.decode? s.encode = some s ∧
      ∀ gone : Addresses, (∀ a, gone a = true → Schema.MayLack a) →
        Schema.decode? (s.encode.without gone) = some (s.reset gone) := by
  refine ⟨fun c hc => ⟨?_,fun gone => Config.decode?_without hc⟩,
    fun s => ⟨?_,fun gone => Schema.decode?_without⟩⟩
  · have h : Config.decode? (c.encode.without noAddress) = some (c.reset noAddress) :=
      Config.decode?_without hc (by simp [noAddress])
    rwa [without_noAddress, c.reset_noAddress] at h
  · have h : Schema.decode? (s.encode.without noAddress) = some (s.reset noAddress) :=
      Schema.decode?_without (by simp [noAddress])
    rwa [without_noAddress, s.reset_noAddress] at h

/-- A format, a delimiter and a whole section are left out, and the nulls of one of two fields of
the same name. -/
theorem documents_read_back_thinned :
    let c : Config := {
      source := ⟨⟨"a.tsv"⟩,some .csv⟩, sink := ⟨⟨"b"⟩,some .ipc⟩
      inference := { delimiter := some ';', nullValues := ["NA", ""], maxRows := nat64Max }
      transfer := { queueCapacity := 7 }, parquet := { compression := .zstd } }
    let gone : Addresses := fun a => [[.member "source", .member "format"],
      [.member "inference", .member "delimiter"], [.member "transfer"]].contains a
    let s : Schema := ⟨[⟨"n",.int64,true⟩,⟨"n",.unset,true⟩],.ofList [("k","v")]⟩
    let bare : Addresses := fun a => a == [.member "fields", .item 1, .member "nullable"]
    c.FitsWords ∧ Config.decode? c.encode = some c ∧
      Config.decode? (c.encode.without gone) = some { c with
        source := ⟨⟨"a.tsv"⟩,none⟩, transfer := {}
        inference := { nullValues := ["NA", ""], maxRows := nat64Max } } ∧
      Schema.decode? (s.encode.without bare) =
        some { s with fields := [⟨"n",.int64,true⟩,⟨"n",.unset,false⟩] } := by
  intro c gone s bare
  have hc : c.FitsWords := ⟨⟨by decide,by decide,by simp [c]⟩,by decide,by decide,by decide⟩
  have hgone : ∀ a, gone a = true → Config.MayLack a := by
    intro a ha
    simp only [gone, List.contains_cons, List.contains_nil, Bool.or_false, Bool.or_eq_true,
      beq_iff_eq] at ha
    rcases ha with rfl | rfl | rfl <;> simp [Config.MayLack]
  have hbare : ∀ a, bare a = true → Schema.MayLack a := by
    intro a ha
    obtain rfl := beq_iff_eq.mp ha
    simp [Schema.MayLack]
  refine ⟨hc,(documents_read_back.1 c hc).1,(documents_read_back.1 c hc).2 gone hgone,?_⟩
  exact (documents_read_back.2 s).2 bare hbare

end Tabular
