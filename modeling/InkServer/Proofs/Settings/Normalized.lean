import InkServer.Proofs.Schema
import InkServer.Settings

/-!
# Settings that an answer stands for

Whatever the client answers, the settings that come out of it keep to the schema. What is merged from a mapping and
the defaults is told key by key, and settings that came out of an answer come out of themselves again.
-/

namespace InkServer

namespace Dict

variable {κ α : Type} [DecidableEq κ]

/-! ## Inserting many entries -/

theorem nodup_keys_foldl_insert (es : List (κ × α)) {d : Dict κ α} (h : d.keys.Nodup) :
    (es.foldl (fun d e => d.insert e.1 e.2) d).keys.Nodup := by
  induction es generalizing d with
  | nil => exact h
  | cons e es ih => exact ih (nodup_keys_insert h e.1 e.2)

theorem keys_foldl_insert {es : List (κ × α)} (h : (es.map Prod.fst).Nodup) (d : Dict κ α) :
    (es.foldl (fun d e => d.insert e.1 e.2) d).keys = d.keys ++ (es.map Prod.fst).filter (· ∉ d.keys) := by
  induction es generalizing d with
  | nil => exact (List.append_nil _).symm
  | cons e es ih =>
      rw [List.map_cons, List.nodup_cons] at h
      rw [List.foldl_cons, ih h.2, keys_insert, List.map_cons]
      by_cases hk : e.1 ∈ d.keys
      · rw [if_pos hk, List.filter_cons_of_neg (by simpa using hk)]
      · rw [if_neg hk, List.filter_cons_of_pos (by simpa using hk), List.append_assoc, List.singleton_append]
        congr 2
        refine List.filter_congr fun k hm => ?_
        have hne : k ≠ e.1 := fun he => h.1 (he ▸ hm)
        simp [hne]

theorem get?_foldl_insert_eq (k : κ) (es : List (κ × α)) (d : Dict κ α) :
    (es.foldl (fun d e => d.insert e.1 e.2) d).get? k = (lookup k es.reverse).or (d.get? k) := by
  induction es using List.reverseRecOn with
  | nil => rfl
  | append_singleton es e ih =>
      rw [List.reverse_append, List.reverse_singleton, List.singleton_append, List.foldl_append, List.foldl_cons,
        List.foldl_nil, get?_insert, ih, lookup]
      split <;> rfl

theorem lookup_eq_some_iff {k : κ} {v : α} {es : List (κ × α)} (h : (es.map Prod.fst).Nodup) :
    lookup k es = some v ↔ (k, v) ∈ es :=
  ⟨mem_of_lookup_eq_some, get?_of_mem (d := ⟨es⟩) h⟩

theorem lookup_reverse {es : List (κ × α)} (h : (es.map Prod.fst).Nodup) (k : κ) :
    lookup k es.reverse = lookup k es := by
  have hreverse : (es.reverse.map Prod.fst).Nodup := by
    rw [List.map_reverse]
    exact List.nodup_reverse.mpr h
  ext v
  rw [lookup_eq_some_iff hreverse, lookup_eq_some_iff h, List.mem_reverse]

theorem lookup_eq_none_of_not_mem {k : κ} {es : List (κ × α)} (h : k ∉ es.map Prod.fst) : lookup k es = none := by
  cases hl : lookup k es with
  | none => rfl
  | some v => exact absurd (mem_keys_of_get? (d := ⟨es⟩) hl) h

theorem eq_of_get? {d d' : Dict κ α} (hkeys : d.keys = d'.keys) (hnodup : d.keys.Nodup)
    (h : ∀ k ∈ d.keys, d.get? k = d'.get? k) : d = d' := by
  obtain ⟨es⟩ := d
  obtain ⟨es'⟩ := d'
  simp only [keys, get?] at hkeys hnodup h
  congr 1
  induction es generalizing es' with
  | nil => exact (List.map_eq_nil_iff.mp hkeys.symm).symm
  | cons e es ih =>
      cases es' with
      | nil => cases hkeys
      | cons e' es' =>
          obtain ⟨a, v⟩ := e
          obtain ⟨a', v'⟩ := e'
          obtain ⟨rfl, hrest⟩ : a = a' ∧ es.map Prod.fst = es'.map Prod.fst := List.cons_eq_cons.mp hkeys
          rw [List.map_cons, List.nodup_cons] at hnodup
          have hv := h a List.mem_cons_self
          rw [lookup, if_pos rfl, lookup, if_pos rfl] at hv
          rw [Option.some.inj hv, ih hnodup.2 es' hrest fun k hk => ?_]
          have hk' := h k (List.mem_cons_of_mem _ hk)
          have hne : a ≠ k := fun he => hnodup.1 (he ▸ hk)
          rwa [lookup, if_neg hne, lookup, if_neg hne] at hk'

/-- Where no key comes twice, inserting the entries one after the other gives them back. -/
theorem ofList_of_nodup {es : List (κ × α)} (h : (es.map Prod.fst).Nodup) : ofList es = ⟨es⟩ := by
  refine eq_of_get? ?_ (nodup_keys_foldl_insert es List.nodup_nil) fun k _ => ?_
  · rw [ofList, keys_foldl_insert h]
    exact List.filter_eq_self.mpr fun _ _ => rfl
  · rw [ofList, get?_foldl_insert_eq, lookup_reverse h, get?_empty, Option.or_none]
    rfl

end Dict

namespace Settings

open Value

/-- Settings that keep to the schema. -/
def IsUsable (s : Settings) : Prop := schema.Keeps s.toValue

/-- What a mapping says about a key: its last value, unless that is `null`. -/
def given? (entries : List (Value × Value)) (key : String) : Option Value :=
  (entryFor? key entries.reverse).filter fun v => !v.isNull

def given (fields : List (String × Value)) : List (String × Value) := fields.filter fun e => !e.2.isNull

/-! ## Merging -/

theorem override_eq (s : Settings) (d : Dict String Value) :
    s.override d = ⟨(given d.entries).foldl (fun d e => d.insert e.1 e.2) s.fields⟩ := by
  unfold override given
  rw [List.foldl_filter]
  congr 2
  funext d e
  cases e.2.isNull <;> rfl

theorem nodup_given {fields : List (String × Value)} (h : (fields.map Prod.fst).Nodup) :
    ((given fields).map Prod.fst).Nodup :=
  h.sublist (List.filter_sublist.map _)

theorem lookup_given {fields : List (String × Value)} (h : (fields.map Prod.fst).Nodup) (key : String) :
    Dict.lookup key (given fields) = (Dict.lookup key fields).filter fun v => !v.isNull := by
  ext v
  rw [Dict.lookup_eq_some_iff (nodup_given h), Option.filter_eq_some_iff, Dict.lookup_eq_some_iff h]
  exact List.mem_filter

theorem get?_override {d : Dict String Value} (h : d.keys.Nodup) (s : Settings) (key : String) :
    (s.override d).get? key = ((d.get? key).filter fun v => !v.isNull).or (s.get? key) := by
  rw [override_eq]
  show Dict.get? _ _ = _
  rw [Dict.get?_foldl_insert_eq, Dict.lookup_reverse (nodup_given h), lookup_given h]
  rfl

theorem keys_override {d : Dict String Value} (h : d.keys.Nodup) (s : Settings) :
    (s.override d).fields.keys = s.fields.keys ++ ((given d.entries).map Prod.fst).filter (· ∉ s.fields.keys) := by
  rw [override_eq]
  exact Dict.keys_foldl_insert (nodup_given h) s.fields

theorem nodup_override {s : Settings} (h : s.fields.keys.Nodup) (d : Dict String Value) :
    (s.override d).fields.keys.Nodup := by
  rw [override_eq]
  exact Dict.nodup_keys_foldl_insert _ h

/-- Overriding by what is not `null` is left alone when it is done again. -/
theorem get?_override_self {s : Settings} (hs : s.fields.keys.Nodup) {d : Dict String Value} (h : d.keys.Nodup)
    (key : String) : (s.override (s.override d).fields).get? key = (s.override d).get? key := by
  rw [get?_override (nodup_override hs d)]
  show (((s.override d).get? key).filter _).or _ = _
  rw [get?_override h]
  cases hg : (d.get? key).filter fun v => !v.isNull with
  | some v =>
      rw [Option.some_or, Option.filter_some, if_pos (Option.filter_eq_some_iff.mp hg).2, Option.some_or]
  | none =>
      rw [Option.none_or]
      cases hv : s.get? key with
      | none => rfl
      | some v =>
          rw [Option.filter_some]
          split <;> rfl

theorem not_isNull_of_not_mem {s : Settings} {d : Dict String Value} (hs : s.fields.keys.Nodup) (h : d.keys.Nodup)
    {e : String × Value} (he : e ∈ (s.override d).fields.entries) (hk : e.1 ∉ s.fields.keys) : e.2.isNull = false := by
  have hv : (s.override d).get? e.1 = some e.2 := Dict.get?_of_mem (nodup_override hs d) he
  have hnone : s.get? e.1 = none := Dict.lookup_eq_none_of_not_mem hk
  rw [get?_override h, hnone, Option.or_none, Option.filter_eq_some_iff] at hv
  exact Bool.not_eq_true' _ ▸ hv.2

/-- What overrode settings once overrides them no further. -/
theorem override_override {s : Settings} (hs : s.fields.keys.Nodup) {d : Dict String Value} (h : d.keys.Nodup) :
    s.override (s.override d).fields = s.override d := by
  have hnodup := nodup_override hs d
  have hnew : ((given (s.override d).fields.entries).map Prod.fst).filter (· ∉ s.fields.keys) =
      (s.override d).fields.keys.filter (· ∉ s.fields.keys) := by
    show _ = ((s.override d).fields.entries.map Prod.fst).filter _
    rw [List.filter_map, List.filter_map, given, List.filter_filter]
    refine congrArg _ (List.filter_congr fun e he => ?_)
    by_cases hk : e.1 ∈ s.fields.keys
    · simp [hk]
    · simp [hk, not_isNull_of_not_mem hs h he hk]
  have hkeys : (s.override (s.override d).fields).fields.keys = (s.override d).fields.keys := by
    rw [keys_override hnodup, hnew, keys_override h, List.filter_append,
      List.filter_eq_nil_iff.mpr fun k hk => by simpa using hk, List.nil_append, List.filter_filter]
    simp only [Bool.and_self]
  have hfields : (s.override (s.override d).fields).fields = (s.override d).fields :=
    Dict.eq_of_get? hkeys (hkeys ▸ hnodup) fun k _ => get?_override_self hs h k
  exact congrArg Settings.mk hfields

/-! ## Mappings -/

theorem text?_ofList (entries : List (Value × Value)) (key : String) :
    Dict.lookup key (entries.filterMap fun (k, v) => k.text?.map fun k => (k, v)) = entryFor? key entries := by
  induction entries with
  | nil => rfl
  | cons e rest ih =>
      obtain ⟨k, v⟩ := e
      cases k with
      | str k =>
          show Dict.lookup key ((k, v) :: _) = _
          rw [Dict.lookup, entryFor?, ih]
      | _ => exact ih

theorem get?_ofEntries (entries : List (Value × Value)) (key : String) :
    (ofEntries entries).get? key = entryFor? key entries.reverse := by
  show Dict.get? (Dict.ofList _) key = _
  rw [Dict.ofList, Dict.get?_foldl_insert_eq, Dict.get?_empty, Option.or_none, ← List.filterMap_reverse, text?_ofList]

theorem nodup_ofEntries (entries : List (Value × Value)) : (ofEntries entries).fields.keys.Nodup :=
  Dict.nodup_keys_foldl_insert _ List.nodup_nil

theorem nodup_defaults : defaults.fields.keys.Nodup := by decide

theorem ofEntries_object {fields : List (String × Value)} (h : (fields.map Prod.fst).Nodup) :
    ofEntries (fields.map fun (k, v) => (.str k, v)) = ⟨⟨fields⟩⟩ := by
  unfold ofEntries
  rw [List.filterMap_map]
  have hfields : fields.filterMap (fun e => some e) = fields := List.filterMap_some
  exact congrArg Settings.mk ((congrArg Dict.ofList hfields).trans (Dict.ofList_of_nodup h))

/-- An empty mapping and one that is absent are the same. -/
theorem normalize_map (entries : List (Value × Value)) :
    normalize (.map entries) = .ok (merge (ofEntries entries).fields) := by
  cases entries <;> rfl

theorem normalize_object {fields : List (String × Value)} (h : (fields.map Prod.fst).Nodup) :
    normalize (.object fields) = .ok (merge ⟨fields⟩) := by
  rw [object, normalize_map, ofEntries_object h]

/-! ## What comes out -/

theorem isUsable_defaults : defaults.IsUsable := Schema.check_eq_none_iff.mp (by decide +kernel)

theorem merge_settings (d : Dict String Value) :
    (defaults.override d).IsUsable ∧ merge d = ⟨defaults.override d, none⟩ ∨
      ¬(defaults.override d).IsUsable ∧ (merge d).settings = defaults := by
  rw [IsUsable, ← Schema.check_eq_none_iff]
  show (defaults.override d).check = none ∧ _ ∨ ¬(defaults.override d).check = none ∧ _
  unfold merge
  dsimp only
  cases (defaults.override d).check with
  | none => exact .inl ⟨rfl, rfl⟩
  | some violation => exact .inr ⟨nofun, rfl⟩

theorem isUsable_merge (d : Dict String Value) : (merge d).settings.IsUsable := by
  rcases merge_settings d with ⟨husable, hm⟩ | ⟨-, hm⟩
  · rw [hm]
    exact husable
  · rw [hm]
    exact isUsable_defaults

theorem normalize_defaults : normalize defaults.toValue = .ok ⟨defaults, none⟩ := rfl

theorem normalize_merge {d : Dict String Value} (h : d.keys.Nodup) :
    normalize (merge d).settings.toValue = .ok ⟨(merge d).settings, none⟩ := by
  rcases merge_settings d with ⟨husable, hm⟩ | ⟨-, hm⟩
  · have hagain := override_override nodup_defaults h
    have hmerge := merge_settings (defaults.override d).fields
    rw [hagain] at hmerge
    rw [hm, toValue, normalize_object (nodup_override nodup_defaults d)]
    exact congrArg _ (hmerge.resolve_right fun hnot => hnot.1 husable).2
  · rw [hm, normalize_defaults]

/-- Whatever settings come out, they were merged from something. -/
theorem exists_merge {answer : Value} {n : Normalized} (h : normalize answer = .ok n) :
    ∃ d : Dict String Value, d.keys.Nodup ∧ n = merge d ∧ ((∀ entries, answer ≠ .map entries) → d = {}) := by
  unfold normalize at h
  split at h
  · split at h
    · rename_i entries _
      cases h
      exact ⟨_, nodup_ofEntries entries, rfl, fun hnot => absurd rfl (hnot entries)⟩
    · cases h
  · cases h
    exact ⟨{}, List.nodup_nil, rfl, fun _ => rfl⟩

theorem isUsable_of_normalize {answer : Value} {n : Normalized} (h : normalize answer = .ok n) :
    n.settings.IsUsable := by
  obtain ⟨d, -, rfl, -⟩ := exists_merge h
  exact isUsable_merge d

/-- A mapping sets what it gives and leaves the defaults for the rest, as long as that keeps to the schema. -/
theorem exists_merged (entries : List (Value × Value)) : ∃ merged n, normalize (.map entries) = .ok n ∧
    (∀ key, merged.get? key = (given? entries key).or (defaults.get? key)) ∧
    (merged.IsUsable ∧ n.settings = merged ∨ ¬merged.IsUsable ∧ n.settings = defaults) := by
  refine ⟨defaults.override (ofEntries entries).fields, _, normalize_map entries, fun key => ?_, ?_⟩
  · rw [get?_override (nodup_ofEntries entries)]
    exact congrArg (fun v => Option.or (Option.filter _ v) _) (get?_ofEntries entries key)
  · exact (merge_settings _).imp_left fun ⟨husable, hm⟩ => ⟨husable, congrArg Normalized.settings hm⟩

/-- Nothing but a mapping sets anything. -/
theorem eq_defaults_of_normalize {answer : Value} {n : Normalized} (hnot : ∀ entries, answer ≠ .map entries)
    (h : normalize answer = .ok n) : n.settings = defaults := by
  obtain ⟨d, -, rfl, hd⟩ := exists_merge h
  rw [hd hnot]
  rfl

/-- What came out comes out of itself. -/
theorem normalize_idempotent {answer : Value} {n : Normalized} (h : normalize answer = .ok n) :
    normalize n.settings.toValue = .ok ⟨n.settings, none⟩ := by
  obtain ⟨d, hd, rfl, -⟩ := exists_merge h
  exact normalize_merge hd

/-- Keys that are `null` make no difference. -/
theorem normalize_given {fields : List (String × Value)} (h : (fields.map Prod.fst).Nodup) :
    normalize (.object fields) = normalize (.object (given fields)) := by
  have hgiven : given (given fields) = given fields := by
    unfold given
    rw [List.filter_filter]
    simp only [Bool.and_self]
  rw [normalize_object h, normalize_object (nodup_given h), merge, merge, override_eq, override_eq, hgiven]

end Settings

end InkServer
