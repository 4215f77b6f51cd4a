import InkServer.Failure
import InkServer.Proofs.Mirror.Changes
import InkServer.Proofs.Schema

/-!
# What becomes of a configuration file

Loading is to give a configuration that keeps to the schema, made of values that were of the right kinds
in the file already, or to say that the file is invalid. It does so exactly if the file is laid out in
sections or the schema turns down what was made of it: what is filled in stands in for anything that
counts as absent, and a list of pairs is taken for a section, both before anything is checked.
-/

namespace InkServer

open Work

namespace Value

theorem sameKey_str (k : Value) (s : String) : sameKey k (.str s) = true ↔ k = .str s := by
  cases k <;> simp +contextual [sameKey, keyInt?, Option.isSome_iff_ne_none]

@[simp] theorem entryFor?_putField (key other : String) (v : Value) (entries : List (Value × Value)) :
    entryFor? key (putField other v entries) = if other = key then some v else entryFor? key entries := by
  unfold putField
  induction entries with
  | nil => simp [putEntry, entryFor?]
  | cons e rest ih =>
      obtain ⟨k, w⟩ := e
      by_cases hk : sameKey k (.str other) = true
      · rw [putEntry, if_pos hk, (sameKey_str k other).mp hk]
        by_cases h : other = key <;> simp [entryFor?, h]
      · rw [putEntry, if_neg hk]
        cases k with
        | str s =>
            have hs : s ≠ other := fun h => hk ((sameKey_str _ _).mpr (h ▸ rfl))
            by_cases h : s = key
            · subst h; simp [entryFor?, Ne.symm hs]
            · simp [entryFor?, h, ih]
        | _ => simp [entryFor?, ih]

theorem at?_null {place : List String} {part : Value} (h : at? .null place = some part) : part = .null := by
  cases place with
  | nil => cases h; rfl
  | cons name rest => cases h

theorem at?_single (v : Value) (name : String) : (v.at? [name]).getD .null = v.field name := by
  cases h : v.get? name <;> simp [at?, field, h]

theorem at?_pair (v : Value) (name inner : String) :
    (v.at? [name, inner]).getD .null = (v.field name).field inner := by
  cases h : v.get? name with
  | none => simp only [at?, field, h]; rfl
  | some own => cases hown : own.get? inner <;> simp [at?, field, h, hown]

theorem exists_map_of_get? {v part : Value} {name : String} (h : v.get? name = some part) :
    ∃ entries, v = .map entries ∧ entryFor? name entries = some part := by
  cases v with
  | map entries => exact ⟨entries, rfl, h⟩
  | _ => cases h

theorem isTruthy_of_get? {v part : Value} {name : String} (h : v.get? name = some part) :
    v.isTruthy = true := by
  obtain ⟨entries, rfl, hentry⟩ := exists_map_of_get? h
  cases entries with
  | nil => cases hentry
  | cons e rest => rfl

end Value

namespace FileWork

variable {fs : FileSystem} {path : Path} {content : ByteArray}

theorem returns_read (path : Path) (fs : FileSystem) : returns (read path) fs = about path (fs.read path) := by
  have hget : returns (get : FileWork FileSystem) fs = .ok fs := rfl
  unfold read ask
  rw [returns_bind, hget]
  simp only
  cases about path (fs.read path) <;> rfl

/-- What can be read is there. -/
theorem returns_existsAt_of_read (h : returns (read path) fs = .ok content) :
    returns (existsAt path) fs = .ok true := by
  rw [returns_read] at h
  have hstat : fs.stat path = .ok (.file content) := by
    have hread := about_eq_ok h
    unfold FileSystem.read at hread
    split at hread <;> simp_all
  have hnull : hasNull path = false := by
    unfold about at h
    split at h
    · cases h
    · simp_all
  have hget : returns (get : FileWork FileSystem) fs = .ok fs := rfl
  unfold existsAt holds
  rw [returns_bind, hget]
  simp only [hnull, hstat]
  rfl

end FileWork

namespace Config

/-! ## Filling in -/

theorem entryFor?_withDefault (key other : String) (v : Value) (entries : List (Value × Value)) :
    Value.entryFor? key (withDefault other v entries) =
      if other = key then some ((Value.entryFor? key entries).getD v) else Value.entryFor? key entries := by
  unfold withDefault
  by_cases h : other = key
  · subst h
    cases hentry : Value.entryFor? other entries <;> simp [hentry]
  · cases hentry : Value.entryFor? other entries <;> simp [h]

/-- What is there is not replaced, unless it is `null`. -/
theorem entryFor?_withDefaultForNull {key other : String} {v part : Value} {entries : List (Value × Value)}
    (h : Value.entryFor? key entries = some part) (hnull : part ≠ .null) :
    Value.entryFor? key (withDefaultForNull other v entries) = some part := by
  unfold withDefaultForNull
  by_cases hkey : other = key
  · subst hkey
    cases part <;> simp_all [Value.isNull]
  · split <;> simp [hkey, h]

/-- What counts as present is not replaced. -/
theorem entryFor?_withDefaultForAbsent {key other : String} {v part : Value} {entries : List (Value × Value)}
    (h : Value.entryFor? key entries = some part) (htruthy : other = key → part.isTruthy = true) :
    Value.entryFor? key (withDefaultForAbsent other v entries) = some part := by
  unfold withDefaultForAbsent
  by_cases hkey : other = key
  · simp [hkey, h, htruthy hkey]
  · split <;> simp [hkey, h]

theorem entryFor?_fillCompiler {name : String} {part : Value} {entries : List (Value × Value)}
    (h : Value.entryFor? name entries = some part) (hnull : part ≠ .null) :
    Value.entryFor? name (fillCompiler entries) = some part := by
  apply entryFor?_withDefaultForNull _ hnull
  apply entryFor?_withDefaultForNull _ hnull
  simp [entryFor?_withDefault, h]

theorem entryFor?_fillMirror {name : String} {part : Value} {entries : List (Value × Value)}
    (h : Value.entryFor? name entries = some part) (htruthy : name = "extensions" → part.isTruthy = true) :
    Value.entryFor? name (fillMirror entries) = some part := by
  apply entryFor?_withDefaultForAbsent _ fun hname => htruthy hname.symm
  simp [entryFor?_withDefault, h]

theorem sectionEntries_map (entries : List (Value × Value)) : sectionEntries (.map entries) = .ok entries := by
  cases entries <;> rfl

/-- What filling in comes to: the sections are read and what they leave out is added. -/
theorem fill_eq_ok {entries : List (Value × Value)} {config : Config} (h : fill entries = .ok config) :
    ∃ compiler mirror, sectionEntries ((Value.map entries).field "compiler") = .ok compiler ∧
      sectionEntries ((Value.map entries).field "mirror") = .ok mirror ∧
      config.entries = Value.putField "mirror" (.map (fillMirror mirror))
        (Value.putField "compiler" (.map (fillCompiler compiler)) (withDefault "inkls" (.int 1) entries)) := by
  simp only [fill, bind_eq_ok_iff] at h
  obtain ⟨compiler, hcompiler, mirror, hmirror, hconfig⟩ := h
  cases hconfig
  refine ⟨compiler, mirror, ?_, ?_, rfl⟩
  · simpa [Value.field, Value.get?, entryFor?_withDefault] using hcompiler
  · simpa [Value.field, Value.get?, entryFor?_withDefault] using hmirror

/-- What is deep in a section is in one of the entries that are read from it. -/
theorem entryFor?_of_section {own part : Value} {entries : List (Value × Value)} {name : String}
    {rest : List String} (h : sectionEntries own = .ok entries) (hpart : own.at? (name :: rest) = some part)
    (hnull : part ≠ .null) :
    ∃ value, Value.entryFor? name entries = some value ∧ value.at? rest = some part ∧ value ≠ .null ∧
      (rest = [] ∨ value.isTruthy = true) := by
  obtain ⟨value, hget, hrest⟩ := Option.bind_eq_some_iff.mp hpart
  obtain ⟨own, rfl, hentry⟩ := Value.exists_map_of_get? hget
  rw [sectionEntries_map] at h
  cases h
  refine ⟨value, hentry, hrest, ?_, ?_⟩
  · rintro rfl
    exact hnull (Value.at?_null hrest)
  · cases rest with
    | nil => exact .inl rfl
    | cons inner rest =>
        obtain ⟨_, hinner, _⟩ := Option.bind_eq_some_iff.mp hrest
        exact .inr (Value.isTruthy_of_get? hinner)

/-- Filling in replaces nothing that is there, but for the whole, the two sections, and extensions that
count as absent. -/
theorem at?_of_fill {entries : List (Value × Value)} {config : Config} (h : fill entries = .ok config)
    {place : List String} {part : Value} (hpart : (Value.map entries).at? place = some part)
    (hnull : part ≠ .null) :
    config.toValue.at? place = some part ∨
      place ∈ [[], ["compiler"], ["mirror"], ["mirror", "extensions"]] := by
  obtain ⟨compiler, mirror, hcompiler, hmirror, hentries⟩ := fill_eq_ok h
  match place with
  | [] => simp
  | name :: rest =>
      obtain ⟨own, hown, hat⟩ := Option.bind_eq_some_iff.mp hpart
      have hfield : (Value.map entries).field name = own := by simp [Value.field, hown]
      have hfilled : config.toValue.at? (name :: rest) =
          (Value.entryFor? name config.entries).bind fun part => part.at? rest := rfl
      rw [hfilled, hentries]
      by_cases hc : name = "compiler"
      · subst hc
        cases rest with
        | nil => simp
        | cons inner rest =>
            obtain ⟨value, hvalue, hrest, hne, _⟩ := entryFor?_of_section (hfield ▸ hcompiler) hat hnull
            simp [Value.at?, Value.get?, entryFor?_fillCompiler hvalue hne, hrest]
      by_cases hm : name = "mirror"
      · subst hm
        cases rest with
        | nil => simp
        | cons inner rest =>
            obtain ⟨value, hvalue, hrest, hne, htruthy⟩ := entryFor?_of_section (hfield ▸ hmirror) hat hnull
            by_cases hplace : inner = "extensions" ∧ rest = []
            · simp [hplace]
            · have hkept := entryFor?_fillMirror hvalue fun hinner =>
                htruthy.resolve_left fun hrest => hplace ⟨hinner, hrest⟩
              simp [Value.at?, Value.get?, hkept, hrest]
      · left
        have hentry : Value.entryFor? name entries = some own := hown
        by_cases hi : "inkls" = name <;>
          simp [Ne.symm hc, Ne.symm hm, entryFor?_withDefault, hentry, hi, hat]

/-! ## What loading comes to -/

theorem returns_onFiles {α : Type} (work : FileWork α) (fs : FileSystem) :
    returns (onFiles work) fs = (returns work fs).mapError .file := by
  have hattempt : returns (liftM (FileWork.attempt work).run : ExceptT Error (StateM FileSystem) _) fs =
      .ok (.ok (returns work fs)) := rfl
  unfold onFiles
  rw [returns_bind, hattempt]
  cases returns work fs <;> rfl

theorem leaves_onFiles {α : Type} (work : FileWork α) (fs : FileSystem) :
    leaves (onFiles work) fs = leaves work fs := by
  have hattempt : returns (liftM (FileWork.attempt work).run : ExceptT Error (StateM FileSystem) _) fs =
      .ok (.ok (returns work fs)) := rfl
  unfold onFiles
  rw [leaves_bind, hattempt]
  cases returns work fs <;> rfl

/-- The entries of a document, which has none if it counts as absent. -/
def entriesOf? (document : Value) : Option (List (Value × Value)) :=
  match if document.isTruthy then document else .map [] with
  | .map entries => some entries
  | _ => none

/-- Checks what was filled in. -/
def checked (config : Config) : Except Error Config :=
  match schema.check config.toValue with
  | none => .ok config
  | some violation => .error (.invalid violation)

theorem ofDocument_eq (path : Path) (document : Value) :
    ofDocument path document =
      match entriesOf? document with
      | none => .error (.notAMapping path)
      | some entries => (fill entries).mapError .section_ >>= checked := by
  simp only [ofDocument, entriesOf?]
  generalize (if document.isTruthy = true then document else .map []) = taken
  cases taken <;> rfl

theorem entriesOf?_map (entries : List (Value × Value)) : entriesOf? (.map entries) = some entries := by
  cases entries <;> rfl

/-- What is filled in where nothing is said keeps to the schema. -/
theorem keeps_defaults : schema.Keeps defaults.toValue := by
  have hcheck : (schema.check defaults.toValue).isNone = true := by decide +kernel
  exact Schema.check_eq_none_iff.mp (Option.isNone_iff_eq_none.mp hcheck)

theorem ofDocument_eq_ok_iff {path : Path} {document : Value} {config : Config} :
    ofDocument path document = .ok config ↔
      ∃ entries, entriesOf? document = some entries ∧ fill entries = .ok config ∧
        schema.Keeps config.toValue := by
  rw [ofDocument_eq]
  cases hdocument : entriesOf? document with
  | none => simp
  | some entries =>
      simp only [bind_eq_ok_iff, mapError_eq_ok_iff, checked]
      constructor
      · rintro ⟨filled, hfill, hcheck⟩
        split at hcheck
        · rename_i hnone
          cases hcheck
          exact ⟨entries, rfl, hfill, Schema.check_eq_none_iff.mp hnone⟩
        · cases hcheck
      · rintro ⟨_, hentries, hfill, hkeeps⟩
        cases hentries
        exact ⟨config, hfill, by rw [Schema.check_eq_none_iff.mpr hkeeps]⟩

/-! ## The kinds of what a document says -/

/-- Whatever a document says, `null` apart, is of a kind that the schema allows there. -/
def Agrees (document : Value) : Prop :=
  ∀ place part s, document.at? place = some part → schema.at? place = some s → part ≠ .null →
    s.allowsKind part = true

/-- A mapping, or left out. -/
def IsSection (v : Value) : Prop := v = .null ∨ ∃ entries, v = .map entries

instance (v : Value) : Decidable (IsSection v) :=
  match v with
  | .null => .isTrue (.inl rfl)
  | .map entries => .isTrue (.inr ⟨entries, rfl⟩)
  | .bool _ | .int _ | .float _ | .str _ | .list _ | .other _ => .isFalse (by simp [IsSection])

/-- A list, or left out. -/
def IsListing (v : Value) : Prop := v = .null ∨ ∃ items, v = .list items

instance (v : Value) : Decidable (IsListing v) :=
  match v with
  | .null => .isTrue (.inl rfl)
  | .list items => .isTrue (.inr ⟨items, rfl⟩)
  | .bool _ | .int _ | .float _ | .str _ | .map _ | .other _ => .isFalse (by simp [IsListing])

/-- A document that is laid out in sections: the whole and both sections are mappings as far as they are
there, and the extensions are a list. -/
structure IsLaidOut (document : Value) : Prop where
  whole : IsSection document
  compiler : IsSection (document.field "compiler")
  mirror : IsSection (document.field "mirror")
  extensions : IsListing ((document.field "mirror").field "extensions")

theorem isLaidOut_iff {document : Value} :
    IsLaidOut document ↔ (IsSection document ∧ IsSection (document.field "compiler")) ∧
      IsSection (document.field "mirror") ∧ IsListing ((document.field "mirror").field "extensions") :=
  ⟨fun h => ⟨⟨h.whole, h.compiler⟩, h.mirror, h.extensions⟩, fun h => ⟨h.1.1, h.1.2, h.2.1, h.2.2⟩⟩

instance (document : Value) : Decidable (IsLaidOut document) := decidable_of_iff _ isLaidOut_iff.symm

theorem Agrees.at {document part : Value} {s : Schema} (h : Agrees document) (place : List String)
    (hs : schema.at? place = some s) (hpart : (document.at? place).getD .null = part) :
    part = .null ∨ s.allowsKind part = true := by
  cases hat : document.at? place with
  | none =>
      rw [hat] at hpart
      exact .inl hpart.symm
  | some own =>
      rw [hat] at hpart
      cases hpart
      by_cases hnull : own = .null
      · exact .inl hnull
      · exact .inr (h place own s hat hs hnull)

theorem exists_map_of_allowsKind {rules : List Rule} {v : Value}
    (h : (Schema.rules (.kinds [.object] :: rules)).allowsKind v = true) : ∃ entries, v = .map entries := by
  cases v with
  | map entries => exact ⟨entries, rfl⟩
  | _ => simp [Schema.allowsKind, Schema.kindAdmitted, Kind.admits] at h

theorem exists_list_of_allowsKind {rules : List Rule} {v : Value}
    (h : (Schema.rules (.kinds [.array] :: rules)).allowsKind v = true) : ∃ items, v = .list items := by
  cases v with
  | list items => exact ⟨items, rfl⟩
  | _ => simp [Schema.allowsKind, Schema.kindAdmitted, Kind.admits] at h

theorem isLaidOut_of_agrees {document : Value} (h : Agrees document) : IsLaidOut document where
  whole := (h.at [] rfl rfl).imp_right exists_map_of_allowsKind
  compiler := by
    apply (h.at ["compiler"] rfl _).imp_right exists_map_of_allowsKind
    exact Value.at?_single document _
  mirror := by
    apply (h.at ["mirror"] rfl _).imp_right exists_map_of_allowsKind
    exact Value.at?_single document _
  extensions := by
    apply (h.at ["mirror", "extensions"] rfl _).imp_right exists_list_of_allowsKind
    exact Value.at?_pair document _ _

theorem agrees_of_isLaidOut {path : Path} {document : Value} {config : Config}
    (h : ofDocument path document = .ok config) (hlaid : IsLaidOut document) : Agrees document := by
  intro place part s hpart hs hnull
  obtain ⟨entries, hentries, hfill, hkeeps⟩ := ofDocument_eq_ok_iff.mp h
  obtain rfl | ⟨entries, rfl⟩ := hlaid.whole
  · exact absurd (Value.at?_null hpart) hnull
  rw [entriesOf?_map] at hentries
  cases hentries
  obtain hkept | hplace := at?_of_fill hfill hpart hnull
  · exact (hkeeps.at hs hkept).allowsKind
  · simp only [List.mem_cons, List.not_mem_nil, or_false] at hplace
    obtain rfl | rfl | rfl | rfl := hplace
    · cases hs
      cases hpart
      rfl
    · cases hs
      have hpart : (Value.map entries).field "compiler" = part := by simp [← Value.at?_single, hpart]
      obtain h | ⟨own, h⟩ := hlaid.compiler
      · exact absurd (hpart.symm.trans h) hnull
      · rw [← hpart, h]
        rfl
    · cases hs
      have hpart : (Value.map entries).field "mirror" = part := by simp [← Value.at?_single, hpart]
      obtain h | ⟨own, h⟩ := hlaid.mirror
      · exact absurd (hpart.symm.trans h) hnull
      · rw [← hpart, h]
        rfl
    · cases hs
      have hpart : ((Value.map entries).field "mirror").field "extensions" = part := by
        simp [← Value.at?_pair, hpart]
      obtain h | ⟨own, h⟩ := hlaid.extensions
      · exact absurd (hpart.symm.trans h) hnull
      · rw [← hpart, h]
        rfl

theorem exists_sectionEntries {v : Value} (h : IsSection v) : ∃ entries, sectionEntries v = .ok entries := by
  obtain rfl | ⟨entries, rfl⟩ := h
  · exact ⟨[], rfl⟩
  · exact ⟨entries, sectionEntries_map entries⟩

/-- Sections that are mappings or left out can be filled in. -/
theorem fill_ne_error {entries : List (Value × Value)} (hc : IsSection ((Value.map entries).field "compiler"))
    (hm : IsSection ((Value.map entries).field "mirror")) (e : SectionError) : fill entries ≠ .error e := by
  intro h
  simp only [fill, bind_eq_error_iff] at h
  obtain h | ⟨compiler, _, h | ⟨mirror, _, h⟩⟩ := h
  · obtain ⟨own, hown⟩ := exists_sectionEntries hc
    simp_all [Value.field, Value.get?, entryFor?_withDefault]
  · obtain ⟨own, hown⟩ := exists_sectionEntries hm
    simp_all [Value.field, Value.get?, entryFor?_withDefault]
  · cases h

/-! ## The promise -/

/-- What is promised of loading a document: a configuration that keeps to the schema and replaces nothing
of the wrong kind, or word that the document is invalid. -/
def IsPromised (document : Value) : Except Error (Config × Option String) → Prop
  | .ok (config, _) => schema.Keeps config.toValue ∧ Agrees document
  | .error e => (Failure.config e).kindName = "ValueError" ∧
      "Invalid server config".toList <+: e.message.toList

/-- A document that the schema turns down: it is no mapping, or what was made of it does not keep to the
schema. -/
def IsTurnedDown (document : Value) : Prop :=
  ∀ entries, entriesOf? document = some entries →
    ∃ config, fill entries = .ok config ∧ ¬ schema.Keeps config.toValue

theorem head?_append {s : String} {c : Char} (h : s.toList.head? = some c) (t : String) :
    (s ++ t).toList.head? = some c := by
  rw [String.toList_append, List.head?_append, h]
  rfl

theorem head?_section_message (e : SectionError) : ∃ c, e.message.toList.head? = some c ∧ c ≠ 'I' := by
  cases e with
  | notIterable kind => exact ⟨'\'', head?_append (head?_append rfl _) _, by decide⟩
  | wrongLength index length =>
      exact ⟨'d', head?_append (head?_append (head?_append (head?_append rfl _) _) _) _, by decide⟩
  | notPair index => exact ⟨'c', head?_append (head?_append rfl _) _, by decide⟩
  | unhashable kind => exact ⟨'u', head?_append (head?_append rfl _) _, by decide⟩

/-- No word about a section is word of an invalid file. -/
theorem not_prefix_section_message (e : SectionError) :
    ¬ "Invalid server config".toList <+: e.message.toList := by
  rintro ⟨rest, hrest⟩
  obtain ⟨c, hhead, hc⟩ := head?_section_message e
  rw [← hrest] at hhead
  exact hc (Option.some.inj hhead).symm

theorem prefix_append {promised : String} (said rest : String) (h : promised.toList <+: said.toList) :
    promised.toList <+: (said ++ rest).toList := by
  rw [String.toList_append]
  exact h.trans (List.prefix_append _ _)

theorem prefix_notAMapping (path : Path) :
    "Invalid server config".toList <+: (Error.notAMapping path).message.toList :=
  prefix_append "Invalid server config: expected a mapping in " path.text (by decide +kernel)

theorem prefix_invalid (violation : Violation) :
    "Invalid server config".toList <+: (Error.invalid violation).message.toList :=
  prefix_append "Invalid server config: " violation.message (by decide +kernel)

theorem not_keeps_of_check {config : Config} {violation : Violation}
    (h : schema.check config.toValue = some violation) : ¬ schema.Keeps config.toValue := by
  intro hkeeps
  rw [Schema.check_eq_none_iff.mpr hkeeps] at h
  cases h

/-- Loading from a file that can be read comes to what its document comes to. -/
theorem loadBy_of_read {read : ByteArray → Except Error Value} {sources : Sources} {fs : FileSystem}
    {content : ByteArray} {document : Value}
    (hcontent : returns (FileWork.read sources.file.1) fs = .ok content)
    (hdocument : read content = .ok document) :
    returns (loadBy read sources) fs = (ofDocument sources.file.1 document).map (·, none) := by
  have hexists := FileWork.returns_existsAt_of_read hcontent
  have hpure : returns (pure document : ExceptT Error (StateM FileSystem) Value) fs = .ok document := rfl
  unfold loadBy
  simp only
  rw [returns_bind, returns_onFiles, hexists, leaves_onFiles, FileWork.existsAt, FileWork.looks_holds]
  simp only [Except.mapError, if_true]
  rw [returns_bind, returns_onFiles, hcontent, leaves_onFiles, FileWork.read, FileWork.looks_ask]
  simp only [Except.mapError, hdocument, loadBy.liftExcept]
  rw [returns_bind, hpure]
  simp only
  cases ofDocument sources.file.1 document <;> rfl

/-- Loading a document that stands in a file keeps the promise exactly if the document is laid out in
sections or the schema turns it down. -/
theorem loading_is_as_promised_iff {read : ByteArray → Except Error Value} {sources : Sources}
    {fs : FileSystem} {content : ByteArray} {document : Value}
    (hcontent : returns (FileWork.read sources.file.1) fs = .ok content)
    (hdocument : read content = .ok document) :
    IsPromised document (returns (loadBy read sources) fs) ↔ IsLaidOut document ∨ IsTurnedDown document := by
  rw [loadBy_of_read hcontent hdocument]
  cases hof : ofDocument sources.file.1 document with
  | ok config =>
      obtain ⟨entries, hentries, hfill, hkeeps⟩ := ofDocument_eq_ok_iff.mp hof
      constructor
      · intro h
        exact .inl (isLaidOut_of_agrees h.2)
      · rintro (hlaid | hdown)
        · exact ⟨hkeeps, agrees_of_isLaidOut hof hlaid⟩
        · obtain ⟨config', hfill', hnot⟩ := hdown entries hentries
          rw [hfill] at hfill'
          cases hfill'
          exact absurd hkeeps hnot
  | error e =>
      rw [ofDocument_eq] at hof
      cases hentries : entriesOf? document with
      | none =>
          rw [hentries] at hof
          cases hof
          exact iff_of_true ⟨rfl, prefix_notAMapping _⟩ (.inr fun entries h => by simp [hentries] at h)
      | some entries =>
          rw [hentries] at hof
          cases hfill : fill entries with
          | error e' =>
              simp only [hfill] at hof
              cases hof
              apply iff_of_false
              · exact fun h => not_prefix_section_message e' h.2
              · rintro (hlaid | hdown)
                · obtain rfl | ⟨own, rfl⟩ := hlaid.whole
                  · cases hentries
                    cases hfill
                  · rw [entriesOf?_map] at hentries
                    cases hentries
                    exact fill_ne_error hlaid.compiler hlaid.mirror e' hfill
                · obtain ⟨config, hfill', _⟩ := hdown entries hentries
                  rw [hfill] at hfill'
                  cases hfill'
          | ok config =>
              simp only [hfill] at hof
              have hchecked : checked config = .error e := hof
              unfold checked at hchecked
              split at hchecked
              · cases hchecked
              · rename_i violation hviolation
                cases hchecked
                refine iff_of_true ⟨rfl, prefix_invalid violation⟩ (.inr ?_)
                intro entries' h
                cases hentries.symm.trans h
                exact ⟨config, hfill, not_keeps_of_check hviolation⟩

/-! ## Two files -/

def sampleSources : Sources := { argument := some "/config.yml", home := Path.ofText "/" }

/-- A disk with one configuration on it. -/
def sampleFile (text : String) : FileSystem := FileSystem.put {} ["config.yml"] (.file text.toUTF8)

theorem returns_read_sampleFile (text : String) :
    returns (FileWork.read sampleSources.file.1) (sampleFile text) = .ok text.toUTF8 := rfl

/-- A file that gives the compiler ten seconds is laid out in sections, and loading it keeps the promise. -/
theorem timeout_is_loaded_as_promised :
    ∃ document, documentOfBytes "compiler:\n  timeout: 10\n".toUTF8 = .ok document ∧
      IsPromised document (returns (load sampleSources) (sampleFile "compiler:\n  timeout: 10\n")) := by
  have hlaid : (documentOfBytes "compiler:\n  timeout: 10\n".toUTF8).toOption.any
      (fun document => decide (IsLaidOut document)) = true := by
    decide +kernel
  cases hdocument : documentOfBytes "compiler:\n  timeout: 10\n".toUTF8 with
  | error e => rw [hdocument] at hlaid; cases hlaid
  | ok document =>
      rw [hdocument] at hlaid
      have hlaid : IsLaidOut document := by simpa [Except.toOption] using hlaid
      exact ⟨document, rfl, (loading_is_as_promised_iff (returns_read_sampleFile _) hdocument).mpr (.inl hlaid)⟩

/-- The kind of the error that loading comes to, if it does. -/
def errorKind? : Except Error (Config × Option String) → Option String
  | .ok _ => none
  | .error e => some (Failure.config e).kindName

theorem IsPromised.errorKind {document : Value} {outcome : Except Error (Config × Option String)}
    (h : IsPromised document outcome) : errorKind? outcome = none ∨ errorKind? outcome = some "ValueError" := by
  cases outcome with
  | ok loaded => exact .inl rfl
  | error e => exact .inr (congrArg some h.1)

/-- A number for a section is in the way of filling in, and what is raised is not what is promised. -/
theorem number_for_section_is_not_told_as_invalid :
    ∃ document, documentOfBytes "compiler: 5\n".toUTF8 = .ok document ∧
      ¬ IsPromised document (returns (load sampleSources) (sampleFile "compiler: 5\n")) := by
  have hsome : (documentOfBytes "compiler: 5\n".toUTF8).toOption.isSome = true := by decide +kernel
  have hkind : errorKind? (returns (load sampleSources) (sampleFile "compiler: 5\n")) = some "TypeError" := by
    decide +kernel
  cases hdocument : documentOfBytes "compiler: 5\n".toUTF8 with
  | error e => rw [hdocument] at hsome; cases hsome
  | ok document =>
      refine ⟨document, rfl, fun hpromised => ?_⟩
      obtain h | h := hpromised.errorKind
      · rw [hkind] at h; cases h
      · rw [hkind] at h; exact absurd (Option.some.inj h) (by decide)

end Config

end InkServer
