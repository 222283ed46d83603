import Tabular.Delimited.Writer
import Tabular.Proofs.Delimited.Records
import Tabular.Proofs.Text.Utf8

/-! # Reading written records

A scan that stands at the start of a record finds in a written line just the fields of that line. A
field is either free of delimiters, quotes and line breaks, or it stands between quotes, where each
quote is doubled; so the scan can tell where it ends.
-/
namespace Tabular.Delimited

structure Separates (delimiter : UInt8) : Prop where
  ascii : delimiter < 0x80
  not_quote : delimiter ≠ quote
  not_end : endsRecord delimiter = false

/-- Where a scan stands: the part of the record that it has behind it. -/
structure Scan.Stands (s : Scan) (mode : Mode) (field : List UInt8) (fields : List (List UInt8)) :
    Prop where
  mode_eq : s.mode = mode
  field_eq : s.field = field
  fields_eq : s.fields = fields

/-- Bytes that a scan goes through without coming to the end of a record. -/
inductive Passes (delimiter : UInt8) : Scan → List UInt8 → Scan → Prop
  | nil {s} : Passes delimiter s [] s
  | cons {s s₁ s' b bs} (hb : (s.count b).step delimiter b = (s₁, false))
    (h : Passes delimiter s₁ bs s') : Passes delimiter s (b :: bs) s'

variable {d b : UInt8} {s s₁ s' : Scan} {bs cs field : List UInt8} {fields : List (List UInt8)}

theorem Passes.append (h : Passes d s bs s₁) (h' : Passes d s₁ cs s') :
    Passes d s (bs ++ cs) s' := by
  induction h with
  | nil => exact h'
  | cons hb _ ih => exact .cons hb (ih h')

theorem Passes.scanBytes (h : Passes d s bs s') (fired : Bool) (more : List UInt8) :
    scanBytes d s fired (bs ++ more) = scanBytes d s' fired more := by
  induction h with
  | nil => rfl
  | cons hb _ ih => simp [Delimited.scanBytes, hb, ih]

/-! ## Single bytes -/

theorem Scan.Stands.count {mode : Mode} (h : s.Stands mode field fields) (b : UInt8) :
    (s.count b).Stands mode field fields :=
  ⟨h.mode_eq,h.field_eq,h.fields_eq⟩

/-- A byte that needs no quotes. -/
def Bare (d b : UInt8) : Prop := b ≠ d ∧ b ≠ quote ∧ endsRecord b = false

theorem needsQuotes_eq_false_iff : needsQuotes d field = false ↔ ∀ b ∈ field, Bare d b := by
  simp [needsQuotes, Bare, and_assoc]

theorem inPlain_bare {mode : Mode} (h : s.Stands mode field fields) (hd : b ≠ d)
    (hend : endsRecord b = false) :
    ∃ s', s.inPlain d b = (s', false) ∧ s'.Stands .plain (b :: field) fields := by
  refine ⟨s.push b,?_,rfl,congrArg (b :: ·) h.field_eq,h.fields_eq⟩
  simp [Scan.inPlain, hd, hend]

theorem step_plain (h : s.Stands .plain field fields) (hb : Bare d b) :
    ∃ s', (s.count b).step d b = (s', false) ∧ s'.Stands .plain (b :: field) fields := by
  obtain ⟨s',hs,hstands⟩ := inPlain_bare (h.count b) hb.1 hb.2.2
  exact ⟨s',by rw [Scan.step, (h.count b).mode_eq, hs],hstands⟩

def Mode.Opens (m : Mode) : Prop := m = .recordStart ∨ m = .fieldStart

theorem step_first {mode : Mode} (h : s.Stands mode [] fields) (hm : mode.Opens) (hb : Bare d b) :
    ∃ s', (s.count b).step d b = (s', false) ∧ s'.Stands .plain [b] fields := by
  obtain ⟨hd,hquote,hend⟩ := hb
  obtain ⟨s',hs,hstands⟩ := inPlain_bare (h.count b) hd hend
  refine ⟨s',?_,hstands⟩
  rcases hm with rfl | rfl
  · simp [Scan.step, (h.count b).mode_eq, hend, Scan.atFieldStart, hquote, hs]
  · simp [Scan.step, (h.count b).mode_eq, Scan.atFieldStart, hquote, hs]

theorem step_open {mode : Mode} (h : s.Stands mode [] fields) (hm : mode.Opens) :
    ∃ s', (s.count quote).step d quote = (s', false) ∧ s'.Stands .quoted [] fields := by
  have hc := h.count quote
  refine ⟨{ s.count quote with mode := .quoted },?_,rfl,hc.field_eq,hc.fields_eq⟩
  have hend : endsRecord quote = false := rfl
  rcases hm with rfl | rfl
  · simp [Scan.step, hc.mode_eq, hend, Scan.atFieldStart]
  · simp [Scan.step, hc.mode_eq, Scan.atFieldStart]

theorem step_quoted (h : s.Stands .quoted field fields) (hb : b ≠ quote) :
    ∃ s', (s.count b).step d b = (s', false) ∧ s'.Stands .quoted (b :: field) fields := by
  have hc := h.count b
  refine ⟨{ s.count b with field := b :: (s.count b).field },?_,hc.mode_eq,?_,hc.fields_eq⟩
  · simp [Scan.step, hc.mode_eq, hb]
  · exact congrArg (b :: ·) hc.field_eq

theorem step_quote (h : s.Stands .quoted field fields) :
    ∃ s', (s.count quote).step d quote = (s', false) ∧ s'.Stands .quoteSeen field fields := by
  have hc := h.count quote
  refine ⟨{ s.count quote with mode := .quoteSeen },?_,rfl,hc.field_eq,hc.fields_eq⟩
  simp [Scan.step, hc.mode_eq]

theorem step_quote_again (h : s.Stands .quoteSeen field fields) :
    ∃ s', (s.count quote).step d quote = (s', false) ∧
      s'.Stands .quoted (quote :: field) fields := by
  have hc := h.count quote
  refine ⟨{ s.count quote with mode := .quoted, field := quote :: (s.count quote).field },
    ?_,rfl,congrArg (quote :: ·) hc.field_eq,hc.fields_eq⟩
  simp [Scan.step, hc.mode_eq]

/-- A delimiter ends every field that is not between quotes. -/
theorem step_delimiter {mode : Mode} (hd : Separates d) (h : s.Stands mode field fields)
    (hm : mode ≠ .quoted) :
    ∃ s', (s.count d).step d d = (s', false) ∧
      s'.Stands .fieldStart [] (field.reverse :: fields) := by
  have hc := h.count d
  refine ⟨(s.count d).closeField,?_,rfl,rfl,?_⟩
  · have hplain : (s.count d).inPlain d d = ((s.count d).closeField, false) := by
      simp [Scan.inPlain]
    cases mode with
    | recordStart =>
      simp [Scan.step, hc.mode_eq, hd.not_end, Scan.atFieldStart, hd.not_quote, hplain]
    | fieldStart => simp [Scan.step, hc.mode_eq, Scan.atFieldStart, hd.not_quote, hplain]
    | plain => simp [Scan.step, hc.mode_eq, hplain]
    | quoted => exact absurd rfl hm
    | quoteSeen => simp [Scan.step, hc.mode_eq, hd.not_quote, hplain]
  · simp only [Scan.closeField, hc.field_eq, hc.fields_eq]

/-- A line feed ends a record of which there is anything, unless it stands between quotes. -/
theorem step_lineFeed {mode : Mode} (hd : Separates d) (h : s.Stands mode field fields)
    (hm : mode ≠ .quoted) (hstart : mode ≠ .recordStart) :
    (s.count lineFeed).step d lineFeed = (s.count lineFeed, true) := by
  have hc := h.count lineFeed
  have hne : lineFeed ≠ d := by
    rintro rfl
    exact absurd hd.not_end (by decide)
  have hend : endsRecord lineFeed = true := rfl
  have hplain : (s.count lineFeed).inPlain d lineFeed = (s.count lineFeed, true) := by
    simp [Scan.inPlain, hne, hend]
  have hquote : lineFeed ≠ quote := by decide
  cases mode with
  | recordStart => exact absurd rfl hstart
  | fieldStart => simp [Scan.step, hc.mode_eq, Scan.atFieldStart, hquote, hplain]
  | plain => simp [Scan.step, hc.mode_eq, hplain]
  | quoted => exact absurd rfl hm
  | quoteSeen => simp [Scan.step, hc.mode_eq, hquote, hplain]

/-! ## Fields -/

theorem passes_plain (h : s.Stands .plain field fields) (hbs : ∀ b ∈ bs, Bare d b) :
    ∃ s', Passes d s bs s' ∧ s'.Stands .plain (bs.reverse ++ field) fields := by
  induction bs generalizing s field with
  | nil => exact ⟨s,.nil,h⟩
  | cons b bs ih =>
    obtain ⟨s₁,hstep,hs₁⟩ := step_plain h (hbs b List.mem_cons_self)
    obtain ⟨s',hpass,hs'⟩ := ih hs₁ fun x hx => hbs x (List.mem_cons_of_mem _ hx)
    exact ⟨s',.cons hstep hpass,by simpa using hs'⟩

theorem passes_quoted (d : UInt8) (h : s.Stands .quoted field fields) (bs : List UInt8) :
    ∃ s', Passes d s (bs.flatMap doubleQuote) s' ∧
      s'.Stands .quoted (bs.reverse ++ field) fields := by
  induction bs generalizing s field with
  | nil => exact ⟨s,.nil,h⟩
  | cons b bs ih =>
    by_cases hb : b = quote
    · subst hb
      obtain ⟨s₁,hstep₁,hs₁⟩ := step_quote (d := d) h
      obtain ⟨s₂,hstep₂,hs₂⟩ := step_quote_again (d := d) hs₁
      obtain ⟨s',hpass,hs'⟩ := ih hs₂
      exact ⟨s',.cons hstep₁ (.cons hstep₂ hpass),by simpa using hs'⟩
    · obtain ⟨s₁,hstep,hs₁⟩ := step_quoted (d := d) h hb
      obtain ⟨s',hpass,hs'⟩ := ih hs₁
      refine ⟨s',?_,by simpa using hs'⟩
      have hdouble : doubleQuote b = [b] := by simp [doubleQuote, hb]
      rw [List.flatMap_cons, hdouble]
      exact .cons hstep hpass

/-- A scan goes through a written field and then has it. It is at the start of a record still only
if there was nothing to go through. -/
theorem passes_encodeField {mode : Mode} (h : s.Stands mode [] fields) (hm : mode.Opens)
    (bs : List UInt8) :
    ∃ s' mode', Passes d s (encodeField d bs) s' ∧ s'.Stands mode' bs.reverse fields ∧
      mode' ≠ .quoted ∧ (mode' = .recordStart → mode = .recordStart ∧ encodeField d bs = []) := by
  unfold encodeField
  split
  · obtain ⟨s₁,hstep₁,hs₁⟩ := step_open (d := d) h hm
    obtain ⟨s₂,hpass,hs₂⟩ := passes_quoted d hs₁ bs
    obtain ⟨s',hstep',hs'⟩ := step_quote (d := d) hs₂
    refine ⟨s',.quoteSeen,.cons hstep₁ (hpass.append (.cons hstep' .nil)),by simpa using hs',
      by simp,by simp⟩
  · next hq =>
    have hbare := needsQuotes_eq_false_iff.mp (by simpa using hq)
    cases bs with
    | nil =>
      refine ⟨s,mode,.nil,h,?_,fun hstart => ⟨hstart,rfl⟩⟩
      rcases hm with rfl | rfl <;> simp
    | cons b bs =>
      obtain ⟨s₁,hstep,hs₁⟩ := step_first h hm (hbare b List.mem_cons_self)
      obtain ⟨s',hpass,hs'⟩ := passes_plain hs₁ fun x hx => hbare x (List.mem_cons_of_mem _ hx)
      exact ⟨s',.plain,.cons hstep hpass,by simpa using hs',by simp,by simp⟩

theorem encodeFields_cons_cons (f g : List UInt8) (fs : List (List UInt8)) :
    encodeFields d (f :: g :: fs) = encodeField d f ++ d :: encodeFields d (g :: fs) := by
  simp [encodeFields]

theorem encodeFields_singleton (f : List UInt8) : encodeFields d [f] = encodeField d f := by
  simp [encodeFields]

/-- A scan goes through written fields and then has them all. -/
theorem passes_encodeFields {mode : Mode} (hd : Separates d) (h : s.Stands mode [] fields)
    (hm : mode.Opens) (f : List UInt8) (fs : List (List UInt8)) :
    ∃ s' mode' field fields', Passes d s (encodeFields d (f :: fs)) s' ∧
      s'.Stands mode' field fields' ∧
      (field.reverse :: fields').reverse = fields.reverse ++ f :: fs ∧ mode' ≠ .quoted ∧
      (mode' = .recordStart → mode = .recordStart ∧ encodeFields d (f :: fs) = []) := by
  induction fs generalizing s mode fields f with
  | nil =>
    obtain ⟨s',mode',hpass,hs',hq,hstart⟩ := passes_encodeField (d := d) h hm f
    rw [encodeFields_singleton]
    exact ⟨s',mode',_,_,hpass,hs',by simp,hq,hstart⟩
  | cons g fs ih =>
    obtain ⟨s₁,mode₁,hpass₁,hs₁,hq₁,_⟩ := passes_encodeField (d := d) h hm f
    obtain ⟨s₂,hstep,hs₂⟩ := step_delimiter hd hs₁ hq₁
    obtain ⟨s',mode',field,fields',hpass,hs',hfields,hq,hstart⟩ := ih hs₂ (.inr rfl) g
    refine ⟨s',mode',field,fields',?_,hs',?_,hq,fun hn => absurd (hstart hn).1 (by simp)⟩
    · rw [encodeFields_cons_cons]
      exact hpass₁.append (.cons hstep hpass)
    · rw [hfields]
      simp

/-! ## Lines -/

def encodeRecord (d : UInt8) (fields : List (List UInt8)) : List UInt8 :=
  (if (encodeFields d fields).isEmpty then [quote, quote] else encodeFields d fields) ++ [lineFeed]

theorem eq_of_encodeFields_eq_nil {f : List UInt8} {fs : List (List UInt8)}
    (h : encodeFields d (f :: fs) = []) : f = [] ∧ fs = [] := by
  cases fs with
  | nil =>
    rw [encodeFields_singleton, encodeField] at h
    split at h
    · cases h
    · exact ⟨h,rfl⟩
  | cons g fs =>
    rw [encodeFields_cons_cons] at h
    simp at h

/-- The scan of a line ends with a record of its fields. -/
theorem scanBytes_encodeRecord (hd : Separates d) (h : s.Stands .recordStart [] []) (f : List UInt8)
    (fs : List (List UInt8)) :
    ∃ s' : Scan, s'.close = f :: fs ∧ ∀ fired more,
      scanBytes d s fired (encodeRecord d (f :: fs) ++ more) =
        (⟨s'.item,fired⟩ :: (scanBytes d s'.next false more).1,
          (scanBytes d s'.next false more).2) := by
  obtain ⟨s₁,mode,field,fields,hpass,hs₁,hclose,hq,hstart⟩ :
      ∃ s' mode field fields,
        Passes d s (if (encodeFields d (f :: fs)).isEmpty then [quote, quote]
          else encodeFields d (f :: fs)) s' ∧ s'.Stands mode field fields ∧
        (field.reverse :: fields).reverse = f :: fs ∧ mode ≠ .quoted ∧ mode ≠ .recordStart := by
    split
    · next hempty =>
      obtain ⟨rfl,rfl⟩ := eq_of_encodeFields_eq_nil (List.isEmpty_iff.mp hempty)
      obtain ⟨s₁,hstep₁,hs₁⟩ := step_open (d := d) h (.inl rfl)
      obtain ⟨s₂,hstep₂,hs₂⟩ := step_quote (d := d) hs₁
      exact ⟨s₂,.quoteSeen,[],[],.cons hstep₁ (.cons hstep₂ .nil),hs₂,rfl,by simp,by simp⟩
    · next hne =>
      obtain ⟨s',mode,field,fields,hpass,hs',hfields,hq,hstart⟩ :=
        passes_encodeFields hd h (.inl rfl) f fs
      refine ⟨s',mode,field,fields,hpass,hs',by simpa using hfields,hq,fun hn => ?_⟩
      exact hne (by rw [(hstart hn).2]; rfl)
  refine ⟨s₁.count lineFeed,?_,fun fired more => ?_⟩
  · have hc := hs₁.count lineFeed
    rw [Scan.close, hc.field_eq, hc.fields_eq, hclose]
  · rw [encodeRecord, List.append_assoc, hpass.scanBytes, List.singleton_append,
      Delimited.scanBytes, step_lineFeed hd hs₁ hq hstart]
    rfl

/-! ## Files -/

variable {width : Nat} {rows : List (List String)}

theorem textsFrom_encode (n : Nat) (texts : List String) :
    textsFrom n (texts.map Text.Utf8.encode) = .ok texts := by
  induction texts generalizing n with
  | nil => rfl
  | cons text texts ih =>
    rw [List.map_cons, textsFrom, Text.Utf8.decode_encode, ih]
    rfl

theorem Scan.row?_of_close {texts : List String} (h : s.close = texts.map Text.Utf8.encode) :
    s.item.row? = some texts := by
  rw [Scan.item, h, textsFrom_encode]
  rfl

def encodeRecords (d : UInt8) (rows : List (List String)) : List UInt8 :=
  rows.flatMap fun row => encodeRecord d (row.map Text.Utf8.encode)

theorem begins_scanBytes (hd : Separates d) (hw : 0 < width)
    (hrows : ∀ row ∈ rows, row.length = width) (h : s.Stands .recordStart [] []) :
    ∃ rs s', scanBytes d s false (encodeRecords d rows) = (rs, s', false) ∧
      s'.Stands .recordStart [] [] ∧ ∀ rest, Begins width rest (rs ++ rest) rows := by
  induction rows generalizing s with
  | nil => exact ⟨[],s,rfl,h,fun rest => .done⟩
  | cons row rows ih =>
    obtain ⟨text,texts,rfl⟩ : ∃ text texts, row = text :: texts := by
      have hlen := hrows row List.mem_cons_self
      cases row with
      | nil => exact absurd hlen (by simp; omega)
      | cons text texts => exact ⟨text,texts,rfl⟩
    obtain ⟨s₁,hclose,hscan⟩ :=
      scanBytes_encodeRecord hd h (Text.Utf8.encode text) (texts.map Text.Utf8.encode)
    obtain ⟨rs,s',hrest,hs',hbegins⟩ := ih (fun row hmem => hrows row (List.mem_cons_of_mem _ hmem))
      (s := s₁.next) ⟨rfl,rfl,rfl⟩
    have hrow : s₁.item.row? = some (text :: texts) := Scan.row?_of_close hclose
    refine ⟨⟨s₁.item,false⟩ :: rs,s',?_,hs',fun rest => ?_⟩
    · have hfile : encodeRecords d ((text :: texts) :: rows) =
          encodeRecord d (Text.Utf8.encode text :: texts.map Text.Utf8.encode) ++
            encodeRecords d rows := rfl
      rw [hfile, hscan, hrest]
    · exact .row hrow (hrows _ List.mem_cons_self) (hbegins rest)

/-- A file begins with a byte order mark only if its first field begins with that character. -/
theorem head_of_mark (hd : Separates d) {text : String} {texts : List String} {r : List UInt8}
    (h : encodeRecords d ((text :: texts) :: rows) = 0xEF :: 0xBB :: 0xBF :: r) :
    text.toList.head? = some '\uFEFF' := by
  obtain ⟨more,hmore,hhead⟩ : ∃ more, encodeField d (Text.Utf8.encode text) ++ more =
      0xEF :: 0xBB :: 0xBF :: r ∧ more.head? ≠ some 0xEF := by
    have hquote : quote ≠ 0xEF := by decide
    have hfeed : lineFeed ≠ 0xEF := by decide
    have hsep : d ≠ 0xEF := by
      rintro rfl
      exact absurd hd.ascii (by decide)
    simp only [encodeRecords, List.flatMap_cons, encodeRecord, List.map_cons] at h
    split at h
    · exact absurd (List.cons.inj h).1 hquote
    · cases texts with
      | nil =>
        rw [List.map_nil, encodeFields_singleton, List.append_assoc] at h
        exact ⟨_,h,by simpa using hfeed⟩
      | cons other texts =>
        rw [List.map_cons, encodeFields_cons_cons, List.append_assoc, List.append_assoc] at h
        exact ⟨_,h,by simpa using hsep⟩
  rw [encodeField] at hmore
  split at hmore
  · exact absurd (List.cons.inj hmore).1 (by decide)
  · rw [Text.Utf8.encode] at hmore
    cases ht : text.toList with
    | nil =>
      rw [ht, List.flatMap_nil, List.nil_append] at hmore
      rw [hmore] at hhead
      exact absurd rfl hhead
    | cons x cs =>
      rw [ht, List.flatMap_cons, List.append_assoc] at hmore
      rw [List.head?_cons, Text.Utf8.eq_of_mark hmore]

/-- The records of a file are the rows that were written to it, and nothing follows them. -/
theorem begins_readings (hd : Separates d) (hw : 0 < width)
    (hrows : ∀ row ∈ rows, row.length = width)
    (hmark : ∀ row ∈ rows.head?, ∀ text ∈ row.head?, text.toList.head? ≠ some '\uFEFF') :
    ∃ rest, AtEnd rest ∧ Begins width rest (readings d [.bytes (encodeRecords d rows)]) rows := by
  have hdrop : dropMark {} (encodeRecords d rows) = ({}, encodeRecords d rows) := by
    unfold dropMark
    split
    · next r h =>
      exfalso
      cases rows with
      | nil => cases h
      | cons row rows =>
        cases row with
        | nil => exact absurd (hrows [] List.mem_cons_self) (by simp; omega)
        | cons text texts => exact hmark _ rfl _ rfl (head_of_mark hd h)
    · rfl
  obtain ⟨rs,s',hscan,hs',hbegins⟩ :=
    begins_scanBytes hd hw hrows (s := {}) ⟨rfl,rfl,rfl⟩
  refine ⟨[⟨.finished,false⟩],fun r hr => by cases hr; rfl,?_⟩
  have hread : readings d [.bytes (encodeRecords d rows)] = rs ++ [⟨.finished,false⟩] := by
    simp only [readings, readingsFrom, if_true, hdrop]
    split
    · next hempty =>
      rw [List.isEmpty_iff.mp hempty] at hscan
      cases hscan
      rfl
    · rw [hscan]
      simp [hs'.mode_eq]
  rw [hread]
  exact hbegins _

end Tabular.Delimited
