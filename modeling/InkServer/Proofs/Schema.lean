import InkServer.Schema
import Mathlib

/-!
# What it is to keep to a schema

A value keeps to a schema if it does what every rule asks of it as a whole, its fields keep to the schemas
that the rules give them, and so do the items of a list. `check` finds nothing to report exactly then.
-/

namespace InkServer

namespace Schema

/-- What a rule asks of a value as a whole. -/
def Asks (v : Value) : Rule → Prop
  | .kinds allowed => ∃ kind ∈ allowed, kind.admits v = true
  | .oneOf numbers => isListed numbers v = true
  | .required names => ∀ entries, v = .map entries → ∀ name ∈ names, ∃ part, v.get? name = some part
  | .noOthers names => ∀ entries, v = .map entries → ∀ e ∈ entries, ∃ name ∈ names, e.1 = .str name
  | .positive => notPositive v = false
  | .nonEmpty => v ≠ .list [] ∧ v ≠ .str ""
  | .dotted => ∀ s, v = .str s → isDotted s = true
  | .fields _ => True
  | .items _ => True

/-- Keeping to a schema. -/
inductive Keeps : Schema → Value → Prop
  | rules {all : List Rule} {v : Value} (whole : ∀ r ∈ all, Asks v r)
      (fields : ∀ schemas, Rule.fields schemas ∈ all → ∀ f ∈ schemas, ∀ part, v.get? f.1 = some part →
        Keeps f.2 part)
      (items : ∀ schema, Rule.items schema ∈ all → ∀ item ∈ v.items, Keeps schema item) :
      Keeps (.rules all) v

/-! ## No violations -/

theorem otherKeys_eq_nil_iff {names : List String} {entries : List (Value × Value)} :
    otherKeys names entries = [] ↔ ∀ e ∈ entries, ∃ name ∈ names, e.1 = .str name := by
  rw [← List.length_eq_zero_iff, otherKeys, List.length_mergeSort, List.length_eq_zero_iff,
    List.filter_eq_nil_iff]
  constructor
  · intro h e he
    have hkey := h e.1 (List.mem_map_of_mem he)
    cases hk : e.1 <;> simp_all
  · intro h k hk
    obtain ⟨e, he, rfl⟩ := List.mem_map.mp hk
    obtain ⟨name, hname, hkey⟩ := h e he
    simp [hkey, hname]

theorem departures_eq_nil_iff {v : Value} {r : Rule} : departures v r = [] ↔ Asks v r := by
  cases r with
  | kinds allowed => simp [departures, Asks]
  | oneOf numbers => simp [departures, Asks]
  | required names => cases v <;> simp [departures, Asks, Value.get?, Option.ne_none_iff_exists']
  | noOthers names => cases v <;> simp [departures, Asks, otherKeys_eq_nil_iff]
  | fields schemas => simp [departures, Asks]
  | items schema => simp [departures, Asks]
  | positive => simp [departures, Asks]
  | nonEmpty => simp only [departures, Asks]; split <;> simp_all
  | dotted => cases v <;> simp [departures, Asks]

theorem ruleViolations_eq_nil_iff {all : List Rule} {place : List Descent} {v : Value} {admitted : Bool} :
    ruleViolations all place v admitted = [] ↔ ∀ r ∈ all, Asks v r ∧ partViolations r place v = [] := by
  induction all with
  | nil => simp [ruleViolations]
  | cons r rest ih => simp [ruleViolations, ih, departures_eq_nil_iff, and_assoc]

theorem fieldViolations_eq_nil_iff {schemas : List (String × Schema)} {place : List Descent} {v : Value} :
    fieldViolations schemas place v = [] ↔
      ∀ f ∈ schemas, ∀ part, v.get? f.1 = some part → violations f.2 (place ++ [.field f.1]) part = [] := by
  induction schemas with
  | nil => simp [fieldViolations]
  | cons f rest ih =>
      cases hf : v.get? f.1 with
      | none => simp [fieldViolations, ih, hf]
      | some part => simp [fieldViolations, ih, hf]

theorem keeps_of_violations (schema : Schema) {place : List Descent} {v : Value}
    (h : violations schema place v = []) : schema.Keeps v := by
  match schema with
  | .rules all =>
      rw [violations, ruleViolations_eq_nil_iff] at h
      refine .rules (fun r hr => (h r hr).1) ?_ ?_
      · intro schemas hmem f hf part hpart
        have hfields := (h _ hmem).2
        rw [partViolations, fieldViolations_eq_nil_iff] at hfields
        exact keeps_of_violations f.2 (hfields f hf part hpart)
      · intro schema hmem item hitem
        have hitems := (h _ hmem).2
        rw [partViolations, List.flatMap_eq_nil_iff] at hitems
        obtain ⟨i, hi⟩ := List.mem_iff_getElem?.mp hitem
        exact keeps_of_violations schema (hitems (item, i) (List.mem_zipIdx_iff_getElem?.mpr hi))
termination_by sizeOf schema
decreasing_by
  · have hschemas := List.sizeOf_lt_of_mem hmem
    have hfield := List.sizeOf_lt_of_mem hf
    have hpair : sizeOf f = 1 + sizeOf f.1 + sizeOf f.2 := rfl
    simp only [Schema.rules.sizeOf_spec, Rule.fields.sizeOf_spec] at *
    omega
  · have hschemas := List.sizeOf_lt_of_mem hmem
    simp only [Schema.rules.sizeOf_spec, Rule.items.sizeOf_spec] at *
    omega

theorem violations_of_keeps {schema : Schema} {v : Value} (h : schema.Keeps v) :
    ∀ place, violations schema place v = [] := by
  induction h with
  | @rules all v whole _ _ fields items =>
      intro place
      rw [violations, ruleViolations_eq_nil_iff]
      intro r hr
      refine ⟨whole r hr, ?_⟩
      cases r with
      | fields schemas =>
          rw [partViolations, fieldViolations_eq_nil_iff]
          exact fun f hf part hpart => fields schemas hr f hf part hpart _
      | items schema =>
          rw [partViolations, List.flatMap_eq_nil_iff]
          rintro ⟨item, i⟩ hitem
          exact items schema hr item (List.mem_of_getElem? (List.mem_zipIdx_iff_getElem?.mp hitem)) _
      | _ => rfl

/-- There is nothing to report about a value exactly if it keeps to the schema. -/
theorem check_eq_none_iff {schema : Schema} {v : Value} : schema.check v = none ↔ schema.Keeps v := by
  have hworst : schema.check v = none ↔ violations schema [] v = [] := by
    unfold check
    cases violations schema [] v <;> simp [worst?]
  rw [hworst]
  exact ⟨keeps_of_violations schema, fun h => violations_of_keeps h []⟩

/-! ## Places -/

/-- The schema of a field. -/
def field? : Schema → String → Option Schema
  | .rules all, name =>
    all.findSome? fun
      | .fields schemas => Dict.lookup name schemas
      | _ => none

/-- The schema at a place, which is named by the fields that lead there. -/
def at? (schema : Schema) : List String → Option Schema
  | [] => some schema
  | name :: rest => (schema.field? name).bind fun s => s.at? rest

/-- Whether a value is of a kind that a schema allows. -/
def allowsKind : Schema → Value → Bool
  | .rules all, v => kindAdmitted all v

theorem Keeps.allowsKind {schema : Schema} {v : Value} (h : schema.Keeps v) : schema.allowsKind v = true := by
  cases h with
  | @rules all v whole _ _ =>
      simp only [Schema.allowsKind, kindAdmitted, List.all_eq_true]
      intro r hr
      have hasks := whole r hr
      cases r <;> simp_all [Asks]

theorem Keeps.field {schema s : Schema} {v part : Value} {name : String} (h : schema.Keeps v)
    (hs : schema.field? name = some s) (hpart : v.get? name = some part) : s.Keeps part := by
  cases h with
  | @rules all v _ fields _ =>
      obtain ⟨r, hr, hname⟩ := List.exists_of_findSome?_eq_some hs
      cases r with
      | fields schemas => exact fields schemas hr (name, s) (Dict.mem_of_lookup_eq_some hname) part hpart
      | _ => cases hname

end Schema

namespace Value

/-- The part of a value at a place. -/
def at? (v : Value) : List String → Option Value
  | [] => some v
  | name :: rest => (v.get? name).bind fun part => part.at? rest

end Value

theorem Schema.Keeps.at {place : List String} {schema s : Schema} {v part : Value} (h : schema.Keeps v)
    (hs : schema.at? place = some s) (hpart : v.at? place = some part) : s.Keeps part := by
  induction place generalizing schema v with
  | nil => cases hs; cases hpart; exact h
  | cons name rest ih =>
      obtain ⟨s', hs', hs⟩ := Option.bind_eq_some_iff.mp hs
      obtain ⟨part', hpart', hpart⟩ := Option.bind_eq_some_iff.mp hpart
      exact ih (h.field hs' hpart') hs hpart

end InkServer
