/-!
# Dictionaries in order of insertion

A dictionary lists its keys in the order in which they first came in; giving a known key a new value
leaves it where it is. The lemmas say what each operation does to `get?` and to the keys, and after
them nobody needs to look inside.
-/

namespace InkServer

/-- A dictionary from `κ` to `α`. -/
structure Dict (κ α : Type) where
  entries : List (κ × α) := []
  deriving DecidableEq, Repr, Inhabited

namespace Dict

variable {κ α β : Type} [DecidableEq κ]

/-- The keys in order of insertion. -/
def keys (d : Dict κ α) : List κ := d.entries.map Prod.fst

/-- The values in the order of their keys. -/
def values (d : Dict κ α) : List α := d.entries.map Prod.snd

def size (d : Dict κ α) : Nat := d.entries.length

def isEmpty (d : Dict κ α) : Bool := d.entries.isEmpty

/-- The value of `k` in a list of entries. -/
def lookup (k : κ) : List (κ × α) → Option α
  | [] => none
  | (k', v) :: rest => if k' = k then some v else lookup k rest

/-- The value of a key. -/
def get? (d : Dict κ α) (k : κ) : Option α := lookup k d.entries

def contains (d : Dict κ α) (k : κ) : Bool := (d.get? k).isSome

/-- Overwrites the value of `k` where it stands, or adds it at the end. -/
def put (k : κ) (v : α) : List (κ × α) → List (κ × α)
  | [] => [(k, v)]
  | (k', v') :: rest => if k' = k then (k', v) :: rest else (k', v') :: put k v rest

/-- Gives a key a value. -/
def insert (d : Dict κ α) (k : κ) (v : α) : Dict κ α := ⟨put k v d.entries⟩

/-- Drops a key. -/
def erase (d : Dict κ α) (k : κ) : Dict κ α := ⟨d.entries.filter fun e => e.1 ≠ k⟩

/-- Changes the value of a key if it has one. -/
def modify (d : Dict κ α) (k : κ) (f : α → α) : Dict κ α :=
  match d.get? k with
  | some v => d.insert k (f v)
  | none => d

/-- Inserts entries one after the other. -/
def ofList (es : List (κ × α)) : Dict κ α := es.foldl (fun d e => d.insert e.1 e.2) {}

/-! ## What the operations do to `get?` -/

@[simp] theorem get?_empty (k : κ) : ({} : Dict κ α).get? k = none := rfl

theorem lookup_put (k k' : κ) (v : α) (es : List (κ × α)) :
    lookup k' (put k v es) = if k = k' then some v else lookup k' es := by
  induction es with
  | nil => by_cases h : k = k' <;> simp [put, lookup, h]
  | cons e es ih =>
    obtain ⟨a, b⟩ := e
    by_cases ha : a = k
    · subst ha
      by_cases h : a = k' <;> simp [put, lookup, h]
    · by_cases h : a = k'
      · subst h
        simp [put, lookup, ha, Ne.symm ha]
      · simp [put, lookup, ha, h, ih]

theorem get?_insert (d : Dict κ α) (k k' : κ) (v : α) :
    (d.insert k v).get? k' = if k = k' then some v else d.get? k' :=
  lookup_put k k' v d.entries

@[simp] theorem get?_insert_self (d : Dict κ α) (k : κ) (v : α) :
    (d.insert k v).get? k = some v := by
  simp [get?_insert]

theorem get?_insert_of_ne (d : Dict κ α) {k k' : κ} (v : α) (h : k ≠ k') :
    (d.insert k v).get? k' = d.get? k' := by
  simp [get?_insert, h]

theorem get?_foldl_insert {k : κ} {v : α} {es : List (κ × α)} {d : Dict κ α}
    (hm : (k, v) ∈ es ∨ d.get? k = some v) (h : ∀ v', (k, v') ∈ es → v' = v) :
    (es.foldl (fun d e => d.insert e.1 e.2) d).get? k = some v := by
  induction es generalizing d with
  | nil => exact hm.resolve_left List.not_mem_nil
  | cons e es ih =>
    refine ih ?_ fun v' hv => h v' (List.mem_cons_of_mem _ hv)
    by_cases he : e.1 = k
    · rw [← he, get?_insert_self, h e.2 (he ▸ List.mem_cons_self)]
      exact .inr rfl
    · rw [get?_insert_of_ne _ _ he]
      exact hm.imp_left fun hm => (List.mem_cons.mp hm).resolve_left fun hk => he (congrArg Prod.fst hk).symm

/-- Where all entries of a key have the same value, that is the value of the key. -/
theorem get?_ofList {k : κ} {v : α} {es : List (κ × α)} (hm : (k, v) ∈ es) (h : ∀ v', (k, v') ∈ es → v' = v) :
    (ofList es).get? k = some v :=
  get?_foldl_insert (.inl hm) h

/-- Dropping the entries of some keys changes nothing for the others. -/
theorem lookup_filter (k : κ) (q : κ → Bool) (es : List (κ × α)) :
    lookup k (es.filter fun e => q e.1) = if q k then lookup k es else none := by
  induction es with
  | nil => simp [lookup]
  | cons e es ih =>
    obtain ⟨a, b⟩ := e
    by_cases ha : a = k
    · subst ha
      cases hq : q a
      · simpa [List.filter, lookup, hq] using ih
      · simp [List.filter, lookup, hq]
    · cases hq : q a
      · simpa [List.filter, lookup, hq, ha] using ih
      · simpa [List.filter, lookup, hq, ha] using ih

theorem get?_erase (d : Dict κ α) (k k' : κ) :
    (d.erase k).get? k' = if k = k' then none else d.get? k' := by
  show lookup k' (d.entries.filter fun e => decide (e.1 ≠ k)) = _
  rw [lookup_filter k' (fun a => decide (a ≠ k))]
  by_cases h : k = k'
  · simp [h]
  · simp [h, Ne.symm h, get?]

@[simp] theorem get?_erase_self (d : Dict κ α) (k : κ) : (d.erase k).get? k = none := by
  simp [get?_erase]

theorem get?_erase_of_ne (d : Dict κ α) {k k' : κ} (h : k ≠ k') :
    (d.erase k).get? k' = d.get? k' := by
  simp [get?_erase, h]

theorem ne_of_lookup_eq_none {k : κ} {es : List (κ × α)} (h : lookup k es = none) :
    ∀ e ∈ es, e.1 ≠ k := by
  induction es with
  | nil => exact fun _ he => absurd he List.not_mem_nil
  | cons e es ih =>
    obtain ⟨a, b⟩ := e
    simp only [lookup] at h
    split at h
    · cases h
    · rename_i ha
      intro e he
      rcases List.mem_cons.mp he with rfl | he
      · exact ha
      · exact ih h e he

/-- Dropping a key that is not there changes nothing. -/
theorem erase_of_get?_eq_none {d : Dict κ α} {k : κ} (h : d.get? k = none) : d.erase k = d := by
  obtain ⟨es⟩ := d
  simp only [erase, mk.injEq, List.filter_eq_self, decide_eq_true_eq]
  exact ne_of_lookup_eq_none h

theorem mem_of_lookup_eq_some {k : κ} {v : α} {es : List (κ × α)} (h : lookup k es = some v) : (k, v) ∈ es := by
  induction es with
  | nil => cases h
  | cons e es ih =>
    obtain ⟨a, b⟩ := e
    simp only [lookup] at h
    split at h
    · rename_i ha
      cases h
      exact ha ▸ List.mem_cons_self
    · exact List.mem_cons_of_mem _ (ih h)

/-! ## What the operations do to the keys -/

/-- What has a value is a key. -/
theorem mem_keys_of_get? {d : Dict κ α} {k : κ} {v : α} (h : d.get? k = some v) : k ∈ d.keys :=
  List.mem_map.mpr ⟨(k, v), mem_of_lookup_eq_some h, rfl⟩

/-- A new key comes last; a known one stays where it is. -/
theorem keys_insert (d : Dict κ α) (k : κ) (v : α) :
    (d.insert k v).keys = if k ∈ d.keys then d.keys else d.keys ++ [k] := by
  obtain ⟨es⟩ := d
  simp only [keys, insert]
  induction es with
  | nil => simp [put]
  | cons e es ih =>
    obtain ⟨a, b⟩ := e
    by_cases ha : a = k
    · simp [put, ha]
    · by_cases hk : k ∈ es.map Prod.fst
      · simp [put, ha, ih, hk]
      · simp [put, ha, ih, hk, Ne.symm ha]

theorem mem_keys_insert {d : Dict κ α} {k k' : κ} {v : α} : k' ∈ (d.insert k v).keys ↔ k' = k ∨ k' ∈ d.keys := by
  rw [keys_insert]
  split
  · rename_i hk
    exact ⟨.inr, fun h => h.elim (fun he => he ▸ hk) id⟩
  · rw [List.mem_append, List.mem_singleton]
    exact or_comm

theorem nodup_keys_insert {d : Dict κ α} (h : d.keys.Nodup) (k : κ) (v : α) : (d.insert k v).keys.Nodup := by
  rw [keys_insert]
  split
  · exact h
  · rename_i hk
    rw [List.nodup_append]
    refine ⟨h, List.pairwise_singleton _ _, fun a ha b hb he => hk ?_⟩
    rw [← List.mem_singleton.mp hb, ← he]
    exact ha

/-- Where no key comes twice, every entry counts. -/
theorem get?_of_mem {d : Dict κ α} (h : d.keys.Nodup) {k : κ} {v : α} (hm : (k, v) ∈ d.entries) :
    d.get? k = some v := by
  obtain ⟨es⟩ := d
  simp only [keys, get?] at h hm ⊢
  induction es with
  | nil => cases hm
  | cons e es ih =>
    rw [List.map_cons, List.nodup_cons] at h
    rcases List.mem_cons.mp hm with rfl | hm
    · exact if_pos rfl
    · have hne : e.1 ≠ k := fun he => h.1 (he ▸ List.mem_map.mpr ⟨(k, v), hm, rfl⟩)
      exact (if_neg hne).trans (ih h.2 hm)

theorem keys_erase (d : Dict κ α) (k : κ) : (d.erase k).keys = d.keys.filter (· ≠ k) := by
  obtain ⟨es⟩ := d
  simp only [keys, erase]
  induction es with
  | nil => rfl
  | cons e es ih =>
    by_cases he : e.1 = k <;> simp_all

end Dict

end InkServer
