import InkServer.Proofs.Settings.Desk

/-!
# How tasks stand at the desk

`Orderly` says what holds at all times of those who look settings up and of the requests that they wait for: a
request without an outcome is under way and knows who waits for it, a look-up that waits is woken when its request
has an outcome and not before, and a task that has not begun is woken once. It is kept by every step.
-/

namespace InkServer

open Function (update)

/-! ## Wake-ups -/

namespace Wake

/-- The wake-ups of a task, in order. -/
def toRun (ready : List Wake) (t : TaskId) : List Wake := ready.filter fun w => w.task = t

/-- Whether one of some wake-ups is more than a call to give up. -/
def AnyGoesOn (ws : List Wake) : Prop := ∃ w ∈ ws, w.signal = .go

variable {ready rest : List Wake} {t f : TaskId} {w : Wake}

theorem toRun_append (ready more : List Wake) (t : TaskId) : toRun (ready ++ more) t = toRun ready t ++ toRun more t :=
  List.filter_append ready more

theorem toRun_cons_self (w : Wake) (rest : List Wake) : toRun (w :: rest) w.task = w :: toRun rest w.task :=
  List.filter_cons_of_pos (by simp)

theorem toRun_cons_of_ne (h : w.task ≠ t) (rest : List Wake) : toRun (w :: rest) t = toRun rest t :=
  List.filter_cons_of_neg (by simpa using h)

theorem toRun_concat_self (ready : List Wake) (t : TaskId) (signal : Signal) (turns : Nat) :
    toRun (ready ++ [⟨t, signal, turns⟩]) t = toRun ready t ++ [⟨t, signal, turns⟩] := by
  rw [toRun_append, toRun_cons_self ⟨t, signal, turns⟩]
  rfl

theorem toRun_concat_of_ne (h : f ≠ t) (ready : List Wake) (signal : Signal) (turns : Nat) :
    toRun (ready ++ [⟨f, signal, turns⟩]) t = toRun ready t := by
  rw [toRun_append, toRun_cons_of_ne h]
  exact List.append_nil _

theorem toRun_giveUp_self (ready : List Wake) (t : TaskId) : toRun (Act.giveUp ready t) t = [⟨t, .cancelled, 0⟩] := by
  unfold Act.giveUp
  rw [toRun_concat_self]
  simp [toRun]

theorem toRun_giveUp_of_ne (ready : List Wake) (h : t ≠ f) : toRun (Act.giveUp ready f) t = toRun ready t := by
  unfold Act.giveUp
  rw [toRun_concat_of_ne (Ne.symm h)]
  unfold toRun
  rw [List.filter_filter]
  refine List.filter_congr fun w _ => ?_
  by_cases hw : w.task = t <;> simp [hw, h]

/-- Who is woken together with others is woken to go on. -/
theorem toRun_map_go (waiting : List TaskId) (t : TaskId) :
    toRun (waiting.map fun t' => ⟨t', .go, 1⟩) t = (waiting.filter (· = t)).map fun t' => ⟨t', .go, 1⟩ := by
  unfold toRun
  rw [List.filter_map]
  rfl

theorem mem_toRun : w ∈ toRun ready t ↔ w ∈ ready ∧ w.task = t := by
  simp [toRun]

theorem toRun_eq_nil : toRun ready t = [] ↔ ∀ w ∈ ready, w.task ≠ t := by
  simp [toRun]

end Wake

namespace SettingsDesk

open Wake

/-! ## What holds at all times -/

/-- How a look-up stands that waits for a request. -/
structure LooksUp (d : SettingsDesk) (t : TaskId) (F : SettingsFetch) : Prop where
  /-- While the request has no outcome the look-up stands in its line, and is woken only to give up. -/
  waits : F.outcome = none → t ∈ F.waiting ∧ ¬AnyGoesOn (toRun d.ready t)
  /-- Once it has one the look-up is woken. -/
  woken : F.outcome ≠ none → toRun d.ready t ≠ []

/-- How a task stands. -/
def Stands (source : SettingsSource) (d : SettingsDesk) (t : TaskId) : Suspended Operation Waiting → Prop
  | .created (.resolveSettings _) => d.fetch? t = none ∧ (toRun d.ready t).length ≤ 1
  | .created (.fetchSettings uri) => d.IsOutstanding t uri ∧ (toRun d.ready t).length ≤ 1
  | .waiting (.fetching (.held uri)) => d.IsOutstanding t uri ∧ ∃ byUri, source = .answers byUri
  | .waiting (.fetching .asking) =>
    (∃ uri, d.IsOutstanding t uri) ∧ source = .client ∧ (AnyGoesOn (toRun d.ready t) → d.answer? t ≠ none)
  | .waiting (.lookingUp state) =>
    d.fetch? t = none ∧ ∃ F, d.fetch? state.fetch = some F ∧ F.uri = state.uri ∧ d.LooksUp t F
  | _ => False

/-- Whether a task is a request that has begun. -/
def HasAsked (d : SettingsDesk) (t : TaskId) : Prop :=
  d.fetch? t ≠ none ∧ ∀ operation, d.task? t ≠ some (.created operation)

/-- What holds of a desk at all times. -/
structure Orderly (source : SettingsSource) (d : SettingsDesk) : Prop where
  unused : ∀ t, d.next ≤ t → d.task? t = none ∧ d.result? t = none ∧ d.fetch? t = none
  ready : ∀ w ∈ d.ready, w.task < d.next
  tasks : ∀ t x, d.task? t = some x → d.Stands source t x
  results : ∀ t r, d.result? t = some r → d.task? t = none
  /-- A request without an outcome is under way, and who stands in its line waits for it. -/
  outstanding : ∀ f F, d.fetch? f = some F → F.outcome = none → d.task? f ≠ none ∧
    ∀ t ∈ F.waiting, d.task? t = some (.waiting (.lookingUp ⟨F.uri, f⟩))
  current : ∀ uri f, d.current? uri = some f → (d.fetch? f).map SettingsFetch.uri = some uri
  atGates : ∀ t ∈ d.atGates, d.HasAsked t ∧ ∃ byUri, source = .answers byUri
  requests : ∀ r ∈ d.requests, d.HasAsked r.task

variable {source : SettingsSource} {d d' : SettingsDesk}

theorem Orderly.lt_of_task? (h : d.Orderly source) {t : TaskId} (ht : d.task? t ≠ none) : t < d.next :=
  Nat.lt_of_not_le fun hle => ht (h.unused t hle).1

theorem Orderly.lt_of_fetch? (h : d.Orderly source) {t : TaskId} (ht : d.fetch? t ≠ none) : t < d.next :=
  Nat.lt_of_not_le fun hle => ht (h.unused t hle).2.2

/-! ## Tasks that a step does not run -/

/-- What a step leaves of the situation of a task. -/
structure Leaves (d d' : SettingsDesk) (t : TaskId) (x : Suspended Operation Waiting) : Prop where
  unasked : d.fetch? t = none → d'.fetch? t = none
  outstanding : ∀ uri, d.IsOutstanding t uri → d'.IsOutstanding t uri
  once : (∃ operation, x = .created operation) → (toRun d.ready t).length ≤ 1 → (toRun d'.ready t).length ≤ 1
  answered : x = .waiting (.fetching .asking) → (AnyGoesOn (toRun d.ready t) → d.answer? t ≠ none) →
    AnyGoesOn (toRun d'.ready t) → d'.answer? t ≠ none
  looksUp : ∀ state F, x = .waiting (.lookingUp state) → d.fetch? state.fetch = some F → d.LooksUp t F →
    ∃ F', d'.fetch? state.fetch = some F' ∧ F'.uri = F.uri ∧ d'.LooksUp t F'

theorem Stands.leaves {t : TaskId} {x : Suspended Operation Waiting} (h : d.Stands source t x)
    (hl : d.Leaves d' t x) : d'.Stands source t x := by
  unfold Stands at h ⊢
  split at h
  · exact ⟨hl.unasked h.1, hl.once ⟨_, rfl⟩ h.2⟩
  · exact ⟨hl.outstanding _ h.1, hl.once ⟨_, rfl⟩ h.2⟩
  · exact ⟨hl.outstanding _ h.1, h.2⟩
  · exact ⟨h.1.imp hl.outstanding, h.2.1, hl.answered rfl h.2.2⟩
  · obtain ⟨hn, F, hF, hu, hlooks⟩ := h
    obtain ⟨F', hF', hu', hlooks'⟩ := hl.looksUp _ F rfl hF hlooks
    exact ⟨hl.unasked hn, F', hF', hu'.trans hu, hlooks'⟩
  · exact h.elim

/-- What becomes of requests while none ends. -/
structure Requests (d d' : SettingsDesk) (t : TaskId) : Prop where
  unasked : d.fetch? t = none → d'.fetch? t = none
  fetches : ∀ f F, d.fetch? f = some F → ∃ F', d'.fetch? f = some F' ∧ F'.uri = F.uri ∧ F'.outcome = F.outcome ∧
    (t ∈ F.waiting → t ∈ F'.waiting)
  answers : d.answer? t ≠ none → d'.answer? t ≠ none

theorem Requests.of_eq {t : TaskId} (hf : d'.fetch? = d.fetch?) (ha : d'.answer? = d.answer?) : Requests d d' t :=
  ⟨fun hn => hf ▸ hn, fun _ F hF => ⟨F, hf ▸ hF, rfl, rfl, id⟩, fun h => ha ▸ h⟩

/-- A task that is woken no more often than before, and as long as it was. -/
theorem Requests.leaves {t : TaskId} {x : Suspended Operation Waiting} (h : Requests d d' t)
    (honce : (∃ operation, x = .created operation) →
      (toRun d.ready t).length ≤ 1 → (toRun d'.ready t).length ≤ 1)
    (hgo : AnyGoesOn (toRun d'.ready t) → AnyGoesOn (toRun d.ready t))
    (hwoken : toRun d.ready t ≠ [] → toRun d'.ready t ≠ []) : d.Leaves d' t x where
  unasked := h.unasked
  outstanding := fun uri ⟨F, hF, hu, ho⟩ => by
    obtain ⟨F', hF', hu', ho', -⟩ := h.fetches t F hF
    exact ⟨F', hF', hu'.trans hu, ho'.trans ho⟩
  once := honce
  answered _ ha hg := h.answers (ha (hgo hg))
  looksUp := fun state F _ hF hl => by
    obtain ⟨F', hF', hu', ho', hm⟩ := h.fetches state.fetch F hF
    refine ⟨F', hF', hu', fun ho => ?_, fun ho => hwoken (hl.woken (ho' ▸ ho))⟩
    obtain ⟨hw, hn⟩ := hl.waits (ho' ▸ ho)
    exact ⟨hm hw, fun hg => hn (hgo hg)⟩

/-- A task whose wake-ups are left alone. -/
theorem Requests.leaves_of_eq {t : TaskId} {x : Suspended Operation Waiting} (h : Requests d d' t)
    (hw : toRun d'.ready t = toRun d.ready t) : d.Leaves d' t x :=
  h.leaves (fun _ hl => hw ▸ hl) (fun hg => hw ▸ hg) fun hn => hw ▸ hn

/-! ## Wake-ups that come and go -/

/-- Only wake-ups change, and what is known of answers. -/
theorem Orderly.rewoken (h : d.Orderly source) {ready : List Wake} {atGates : List TaskId}
    {requests : List ClientRequest} {answer? : TaskId → Option (Except Failure Value)}
    (hready : ∀ w ∈ ready, w.task < d.next) (hg : atGates ⊆ d.atGates) (hr : requests ⊆ d.requests)
    (hw : ∀ t x, d.task? t = some x → d.Leaves { d with ready, atGates, requests, answer? } t x) :
    Orderly source { d with ready, atGates, requests, answer? } where
  unused := h.unused
  ready := hready
  tasks t x hx := (h.tasks t x hx).leaves (hw t x hx)
  results := h.results
  outstanding := h.outstanding
  current := h.current
  atGates t ht := h.atGates t (hg ht)
  requests r hm := h.requests r (hr hm)

variable {w : Wake} {rest : List Wake}

theorem Orderly.postpones (h : d.Orderly source) (hr : d.ready = w :: rest) (n : Nat) :
    Orderly source { d with ready := rest ++ [⟨w.task, w.signal, n⟩] } := by
  have hready : ∀ w' ∈ rest ++ [⟨w.task, w.signal, n⟩], w'.task < d.next := fun w' hw => by
    rcases List.mem_append.mp hw with hw | hw
    · exact h.ready w' (hr ▸ List.mem_cons_of_mem w hw)
    · rw [List.mem_singleton.mp hw]
      exact h.ready w (hr ▸ List.mem_cons_self)
  refine h.rewoken hready (List.Subset.refl _) (List.Subset.refl _) fun t x _ => ?_
  have hsame : Requests d { d with ready := rest ++ [⟨w.task, w.signal, n⟩] } t := .of_eq rfl rfl
  by_cases ht : w.task = t
  · subst ht
    have hnew := toRun_concat_self rest w.task w.signal n
    have hold : toRun d.ready w.task = w :: toRun rest w.task := by rw [hr, toRun_cons_self]
    refine hsame.leaves (fun _ hl => ?_) ?_ fun _ => ?_
    · rw [hnew]
      rw [hold] at hl
      simpa using hl
    · rw [hnew, hold]
      rintro ⟨w', hw, hs⟩
      rcases List.mem_append.mp hw with hw | hw
      · exact ⟨w', List.mem_cons_of_mem w hw, hs⟩
      · rw [List.mem_singleton.mp hw] at hs
        exact ⟨w, List.mem_cons_self, hs⟩
    · rw [hnew]
      simp
  · refine hsame.leaves_of_eq ?_
    rw [hr, toRun_cons_of_ne ht]
    exact toRun_concat_of_ne ht rest w.signal n

theorem Orderly.idles (h : d.Orderly source) (hr : d.ready = w :: rest) (ht : d.task? w.task = none) :
    Orderly source { d with ready := rest } := by
  refine h.rewoken (fun w' hw => h.ready w' (hr ▸ List.mem_cons_of_mem w hw)) (List.Subset.refl _)
    (List.Subset.refl _) fun t x hx => Requests.leaves_of_eq (.of_eq rfl rfl) ?_
  have hne : w.task ≠ t := fun he => by
    rw [he, hx] at ht
    cases ht
  rw [hr, toRun_cons_of_ne hne]

theorem Orderly.cancels (h : d.Orderly source) {task : TaskId} (hlt : task < d.next) :
    Orderly source { d with ready := Act.giveUp d.ready task, atGates := d.atGates.filter (· ≠ task) } := by
  have hready : ∀ w ∈ Act.giveUp d.ready task, w.task < d.next := fun w hw => by
    rcases List.mem_append.mp hw with hw | hw
    · exact h.ready w (List.mem_filter.mp hw).1
    · rw [List.mem_singleton.mp hw]
      exact hlt
  refine h.rewoken hready (List.filter_subset_self _) (List.Subset.refl _) fun t x _ => ?_
  have hsame : Requests d { d with ready := Act.giveUp d.ready task, atGates := d.atGates.filter (· ≠ task) } t :=
    .of_eq rfl rfl
  by_cases ht : t = task
  · subst ht
    have hnew := toRun_giveUp_self d.ready t
    refine hsame.leaves (fun _ _ => ?_) ?_ fun _ => ?_
    · rw [hnew]
      exact Nat.le_refl 1
    · rw [hnew]
      rintro ⟨w, hw, hs⟩
      rw [List.mem_singleton.mp hw] at hs
      cases hs
    · rw [hnew]
      exact List.cons_ne_nil _ _
  · exact hsame.leaves_of_eq (toRun_giveUp_of_ne _ ht)

/-- A request that has begun is woken once more. -/
theorem Orderly.wakes (h : d.Orderly source) {task : TaskId} {signal : Signal} {atGates : List TaskId}
    {requests : List ClientRequest} {answer? : TaskId → Option (Except Failure Value)} (hasked : d.HasAsked task)
    (hg : atGates ⊆ d.atGates) (hr : requests ⊆ d.requests) (hmore : ∀ t, d.answer? t ≠ none → answer? t ≠ none)
    (ha : source = .client → answer? task ≠ none) :
    Orderly source { d with ready := d.ready ++ [⟨task, signal, 0⟩], atGates, requests, answer? } := by
  have hready : ∀ w ∈ d.ready ++ [⟨task, signal, 0⟩], w.task < d.next := fun w hw => by
    rcases List.mem_append.mp hw with hw | hw
    · exact h.ready w hw
    · rw [List.mem_singleton.mp hw]
      exact h.lt_of_fetch? hasked.1
  refine h.rewoken hready hg hr fun t x hx => ?_
  have hsame : Requests d { d with ready := d.ready ++ [⟨task, signal, 0⟩], atGates, requests, answer? } t :=
    ⟨id, fun _ F hF => ⟨F, hF, rfl, rfl, id⟩, hmore t⟩
  by_cases ht : task = t
  · subst ht
    have hstands := h.tasks task x hx
    refine ⟨id, fun _ => id, fun ⟨operation, hop⟩ => absurd (hop ▸ hx) (hasked.2 operation), fun hasking _ _ => ?_,
      fun state _ hlooks _ _ => ?_⟩
    · rw [hasking] at hstands
      exact ha hstands.2.1
    · rw [hlooks] at hstands
      exact absurd hstands.1 hasked.1
  · exact hsame.leaves_of_eq (toRun_concat_of_ne ht d.ready signal 0)

/-- Fewer requests hold. -/
theorem Orderly.drops (h : d.Orderly source) {current? : String → Option TaskId}
    (hc : ∀ uri f, current? uri = some f → d.current? uri = some f) : Orderly source { d with current? } where
  unused := h.unused
  ready := h.ready
  tasks t x hx := (h.tasks t x hx).leaves (Requests.leaves_of_eq (.of_eq rfl rfl) rfl)
  results := h.results
  outstanding := h.outstanding
  current uri f hf := h.current uri f (hc uri f hf)
  atGates := h.atGates
  requests := h.requests

/-! ## Tasks that come, go on and end -/

theorem Orderly.asks (h : d.Orderly source) {uri : String}
    (ht : d'.task? = update d.task? d.next (some (.created (.resolveSettings uri))))
    (hready : d'.ready = d.ready ++ [⟨d.next, .go, 0⟩]) (hnext : d'.next = d.next + 1) (hr : d'.result? = d.result?)
    (hfetch : d'.fetch? = d.fetch?) (hcurrent : d'.current? = d.current?) (ha : d'.answer? = d.answer?)
    (hg : d'.atGates = d.atGates) (hq : d'.requests = d.requests) : d'.Orderly source := by
  simp only [funext_iff, Function.update_apply] at ht hr
  have hunused := h.unused
  refine ⟨?_, ?_, fun t x hx => ?_, ?_, ?_, ?_, ?_, ?_⟩
  · grind
  · have := h.ready
    grind
  · by_cases hn : t = d.next
    · subst hn
      rw [ht, if_pos rfl] at hx
      cases hx
      refine ⟨?_, ?_⟩
      · rw [hfetch]
        exact (h.unused _ (Nat.le_refl _)).2.2
      · rw [hready, toRun_concat_self, toRun_eq_nil.mpr fun w hw => Nat.ne_of_lt (h.ready w hw)]
        exact Nat.le_refl 1
    · rw [ht, if_neg hn] at hx
      refine (h.tasks t x hx).leaves (Requests.leaves_of_eq (.of_eq hfetch ha) ?_)
      rw [hready, toRun_concat_of_ne (Ne.symm hn)]
  · have := h.results
    grind
  · rw [hfetch]
    have := h.outstanding
    grind
  · rw [hcurrent, hfetch]
    exact h.current
  · rw [hg]
    have := h.atGates
    grind [HasAsked]
  · rw [hq]
    have := h.requests
    grind [HasAsked]

theorem Orderly.ready_rest (h : d.Orderly source) (hr : d.ready = w :: rest) : ∀ w' ∈ rest, w'.task < d.next :=
  fun w' hw => h.ready w' (hr ▸ List.mem_cons_of_mem w hw)

/-- A task that had not begun is not run again before it is woken. -/
theorem toRun_rest_eq_nil {d : SettingsDesk} {w : Wake} {rest : List Wake} (hr : d.ready = w :: rest) (h : (toRun d.ready w.task).length ≤ 1) : toRun rest w.task = [] := by
  rw [hr, toRun_cons_self] at h
  exact List.eq_nil_of_length_eq_zero (Nat.le_zero.mp (Nat.le_of_succ_le_succ h))

/-- A task whose wake-up comes first is woken. -/
theorem anyGoesOn_of_head (hr : d.ready = w :: rest) (hs : w.signal = .go) : AnyGoesOn (toRun d.ready w.task) :=
  ⟨w, mem_toRun.mpr ⟨hr ▸ List.mem_cons_self, rfl⟩, hs⟩

/-- A look-up ends. -/
theorem Orderly.ends (h : d.Orderly source) {x : Suspended Operation Waiting} {r : Except Failure Result}
    (hw : d.ready = w :: rest) (hx : d.task? w.task = some x) (hcall : d.fetch? w.task = none)
    (hready : d'.ready = rest) (ht : d'.task? = update d.task? w.task none)
    (hr : d'.result? = update d.result? w.task (some r)) (hnext : d'.next = d.next)
    (hcurrent : ∀ uri f, d'.current? uri = some f → d.current? uri = some f)
    (hfetch : ∀ f, d'.fetch? f = d.fetch? f ∨
      ∃ F, d.fetch? f = some F ∧ d'.fetch? f = some { F with waiting := F.waiting.filter (· ≠ w.task) })
    (hline : ∀ f F, d'.fetch? f = some F → F.outcome = none → w.task ∉ F.waiting) (ha : d'.answer? = d.answer?)
    (hg : d'.atGates = d.atGates) (hq : d'.requests = d.requests) : d'.Orderly source := by
  simp only [funext_iff, Function.update_apply] at ht hr
  have hunused := h.unused
  refine ⟨?_, ?_, fun t y hy => ?_, ?_, ?_, ?_, ?_, ?_⟩
  · grind
  · rw [hready, hnext]
    exact h.ready_rest hw
  · have hn : t ≠ w.task := by grind
    rw [ht, if_neg hn] at hy
    have hsame : Requests d d' t := ⟨by grind, by grind, by grind⟩
    refine (h.tasks t y hy).leaves (hsame.leaves_of_eq ?_)
    rw [hready, hw, toRun_cons_of_ne (Ne.symm hn)]
  · have := h.results
    grind
  · have := h.outstanding
    grind
  · have := h.current
    grind
  · have := h.atGates
    grind [HasAsked]
  · have := h.requests
    grind [HasAsked]

/-- A look-up stands in the line of a request. -/
theorem Orderly.joins (h : d.Orderly source) {uri : String} {f : TaskId} {F : SettingsFetch}
    (hw : d.ready = w :: rest) (hx : d.task? w.task = some (.created (.resolveSettings uri)))
    (hF : d.fetch? f = some F) (hu : F.uri = uri) (ho : F.outcome = none)
    (hready : d'.ready = rest) (ht : d'.task? = update d.task? w.task (some (.waiting (.lookingUp ⟨uri, f⟩))))
    (hfetch : d'.fetch? = update d.fetch? f (some { F with waiting := F.waiting ++ [w.task] }))
    (hr : d'.result? = d.result?) (hnext : d'.next = d.next) (hcurrent : d'.current? = d.current?)
    (ha : d'.answer? = d.answer?) (hg : d'.atGates = d.atGates) (hq : d'.requests = d.requests) :
    d'.Orderly source := by
  simp only [funext_iff, Function.update_apply] at ht hfetch hcurrent hr
  have hunused := h.unused
  obtain ⟨hn, honce⟩ := h.tasks _ _ hx
  have hgone := toRun_rest_eq_nil hw honce
  refine ⟨?_, ?_, fun t y hy => ?_, ?_, ?_, ?_, ?_, ?_⟩
  · grind
  · rw [hready, hnext]
    exact h.ready_rest hw
  · by_cases he : t = w.task
    · subst he
      rw [ht, if_pos rfl] at hy
      cases hy
      refine ⟨by grind, { F with waiting := F.waiting ++ [w.task] }, by grind, hu, fun _ => ⟨by grind, ?_⟩, ?_⟩
      · rw [hready, hgone]
        rintro ⟨_, hm, _⟩
        cases hm
      · exact fun hn => absurd ho hn
    · rw [ht, if_neg he] at hy
      have hsame : Requests d d' t := ⟨by grind, by grind, by grind⟩
      refine (h.tasks t y hy).leaves (hsame.leaves_of_eq ?_)
      rw [hready, hw, toRun_cons_of_ne (Ne.symm he)]
  · have := h.results
    grind
  · have := h.outstanding
    grind
  · have := h.current
    grind
  · have := h.atGates
    grind [HasAsked]
  · have := h.requests
    grind [HasAsked]

/-- A look-up makes a request. -/
theorem Orderly.asksAnew (h : d.Orderly source) {uri : String} (hw : d.ready = w :: rest)
    (hx : d.task? w.task = some (.created (.resolveSettings uri)))
    (hready : d'.ready = rest ++ [⟨d.next, .go, 0⟩]) (hnext : d'.next = d.next + 1)
    (ht : d'.task? = update (update d.task? d.next (some (.created (.fetchSettings uri)))) w.task
      (some (.waiting (.lookingUp ⟨uri, d.next⟩))))
    (hcurrent : d'.current? = update d.current? uri (some d.next))
    (hfetch : d'.fetch? = update d.fetch? d.next (some { uri, waiting := [w.task] }))
    (hr : d'.result? = d.result?) (ha : d'.answer? = d.answer?) (hg : d'.atGates = d.atGates)
    (hq : d'.requests = d.requests) : d'.Orderly source := by
  simp only [funext_iff, Function.update_apply] at ht hfetch hcurrent hr
  have hunused := h.unused
  have hrest := h.ready_rest hw
  obtain ⟨hn, honce⟩ := h.tasks _ _ hx
  have hlt : w.task < d.next := h.ready w (hw ▸ List.mem_cons_self)
  have hgone : toRun d'.ready w.task = [] := by
    rw [hready, toRun_concat_of_ne (Ne.symm (Nat.ne_of_lt hlt)), toRun_rest_eq_nil hw honce]
  have hnew : toRun d'.ready d.next = [⟨d.next, .go, 0⟩] := by
    rw [hready, toRun_concat_self, toRun_eq_nil.mpr fun w' hm => Nat.ne_of_lt (hrest w' hm)]
    rfl
  refine ⟨?_, ?_, fun t y hy => ?_, ?_, ?_, ?_, ?_, ?_⟩
  · grind
  · grind
  · by_cases he : t = w.task
    · subst he
      rw [ht, if_pos rfl] at hy
      cases hy
      refine ⟨by grind, { uri, waiting := [w.task] }, by grind, rfl, fun _ => ⟨List.mem_singleton_self _, ?_⟩, ?_⟩
      · rw [hgone]
        rintro ⟨_, hm, _⟩
        cases hm
      · exact fun hn => absurd rfl hn
    · by_cases hen : t = d.next
      · subst hen
        rw [ht, if_neg he, if_pos rfl] at hy
        cases hy
        refine ⟨⟨{ uri, waiting := [w.task] }, by grind, rfl, rfl⟩, ?_⟩
        rw [hnew]
        exact Nat.le_refl 1
      · rw [ht, if_neg he, if_neg hen] at hy
        have hsame : Requests d d' t := ⟨by grind, by grind, by grind⟩
        refine (h.tasks t y hy).leaves (hsame.leaves_of_eq ?_)
        rw [hready, hw, toRun_cons_of_ne (Ne.symm he), toRun_concat_of_ne (Ne.symm hen)]
  · have := h.results
    grind
  · have := h.outstanding
    grind
  · have := h.current
    grind
  · have := h.atGates
    grind [HasAsked]
  · have := h.requests
    grind [HasAsked]

/-- A request begins and has to wait. -/
theorem Orderly.begins (h : d.Orderly source) {uri : String} {state : SettingsRequest} (hw : d.ready = w :: rest)
    (hx : d.task? w.task = some (.created (.fetchSettings uri)))
    (hstands : toRun d'.ready w.task = [] → d'.IsOutstanding w.task uri →
      d'.Stands source w.task (.waiting (.fetching state)))
    (hready : d'.ready = rest) (ht : d'.task? = update d.task? w.task (some (.waiting (.fetching state))))
    (hg : ∀ t ∈ d'.atGates, t ∈ d.atGates ∨ t = w.task ∧ ∃ byUri, source = .answers byUri)
    (hq : ∀ r ∈ d'.requests, r ∈ d.requests ∨ r.task = w.task)
    (hfetch : d'.fetch? = d.fetch?) (hr : d'.result? = d.result?) (hnext : d'.next = d.next)
    (hcurrent : d'.current? = d.current?) (ha : d'.answer? = d.answer?) : d'.Orderly source := by
  simp only [funext_iff, Function.update_apply] at ht hcurrent hr
  have hunused := h.unused
  obtain ⟨⟨F, hF, hu, ho⟩, honce⟩ := h.tasks _ _ hx
  refine ⟨?_, ?_, fun t y hy => ?_, ?_, ?_, ?_, ?_, ?_⟩
  · grind
  · rw [hready, hnext]
    exact h.ready_rest hw
  · by_cases he : t = w.task
    · subst he
      rw [ht, if_pos rfl] at hy
      cases hy
      refine hstands ?_ ⟨F, hfetch ▸ hF, hu, ho⟩
      rw [hready]
      exact toRun_rest_eq_nil hw honce
    · rw [ht, if_neg he] at hy
      refine (h.tasks t y hy).leaves ((Requests.of_eq hfetch ha).leaves_of_eq ?_)
      rw [hready, hw, toRun_cons_of_ne (Ne.symm he)]
  · have := h.results
    grind
  · have := h.outstanding
    grind
  · have := h.current
    grind
  · have := h.atGates
    grind [HasAsked]
  · have := h.requests
    grind [HasAsked]

/-- A task that is a request has no outcome. -/
theorem Stands.outcome_eq_none {t : TaskId} {x : Suspended Operation Waiting} {F : SettingsFetch}
    (h : d.Stands source t x) (hF : d.fetch? t = some F) : F.outcome = none := by
  unfold Stands IsOutstanding at h
  split at h <;> grind

/-- A request ends, and who waits for it is woken. -/
theorem Orderly.finishes (h : d.Orderly source) {x : Suspended Operation Waiting} {F : SettingsFetch}
    {outcome : Except Failure Settings} {r : Except Failure Result} (hw : d.ready = w :: rest)
    (hx : d.task? w.task = some x) (hF : d.fetch? w.task = some F)
    (hready : d'.ready = rest ++ F.waiting.map fun t => ⟨t, .go, 1⟩) (ht : d'.task? = update d.task? w.task none)
    (hr : d'.result? = update d.result? w.task (some r)) (hnext : d'.next = d.next)
    (hfetch : d'.fetch? = update d.fetch? w.task (some { F with outcome := some outcome, waiting := [] }))
    (hq : d'.requests.map (·.task) = d.requests.map (·.task)) (hcurrent : d'.current? = d.current?)
    (ha : d'.answer? = d.answer?) (hg : d'.atGates = d.atGates) : d'.Orderly source := by
  simp only [funext_iff, Function.update_apply] at ht hr hfetch hcurrent
  have hunused := h.unused
  have hrest := h.ready_rest hw
  have ho := (h.tasks _ _ hx).outcome_eq_none hF
  obtain ⟨-, hline⟩ := h.outstanding _ _ hF ho
  have hwakes : ∀ t, t ≠ w.task → toRun d'.ready t = toRun d.ready t ++ (F.waiting.filter (· = t)).map fun t => ⟨t, .go, 1⟩ :=
    fun t hn => by rw [hready, hw, toRun_append, toRun_cons_of_ne (Ne.symm hn), toRun_map_go]
  have hnone : ∀ t, t ∉ F.waiting → F.waiting.filter (· = t) = [] := fun t hm =>
    List.filter_eq_nil_iff.mpr fun t' ht' he => hm ((decide_eq_true_iff.mp he) ▸ ht')
  refine ⟨?_, ?_, fun t y hy => ?_, ?_, ?_, ?_, ?_, ?_⟩
  · grind
  · have := fun t ht => h.lt_of_task? (t := t) (by rw [hline t ht]; exact Option.some_ne_none _)
    grind
  · have hn : t ≠ w.task := by grind
    rw [ht, if_neg hn] at hy
    by_cases hm : t ∈ F.waiting
    · cases (hline t hm).symm.trans hy
      refine ⟨by have := (h.tasks t _ hy).1; grind, _, (hfetch _).trans (if_pos rfl), rfl, nofun, fun _ => ?_⟩
      rw [hwakes t hn]
      intro he
      obtain ⟨-, he⟩ := List.append_eq_nil_iff.mp he
      exact List.filter_eq_nil_iff.mp (List.map_eq_nil_iff.mp he) t hm (decide_eq_true rfl)
    · have hsame : toRun d'.ready t = toRun d.ready t := by rw [hwakes t hn, hnone t hm, List.map_nil, List.append_nil]
      refine (h.tasks t y hy).leaves ⟨by grind, ?_, ?_, ?_, ?_⟩
      · unfold IsOutstanding
        grind
      · grind
      · grind
      · rintro state G rfl hG hlooks
        by_cases hs : state.fetch = w.task
        · rw [hs, hF] at hG
          cases hG
          exact absurd (hlooks.waits ho).1 hm
        · refine ⟨G, by grind, rfl, fun hgo => ?_, fun hgo => ?_⟩
          · rw [hsame]
            exact hlooks.waits hgo
          · rw [hsame]
            exact hlooks.woken hgo
  · have := h.results
    grind
  · have hnot : ∀ state, d.task? w.task ≠ some (.waiting (.lookingUp state)) := fun state he => by
      rw [(h.tasks _ _ he).1] at hF
      cases hF
    have := h.outstanding
    grind
  · have := h.current
    grind
  · have := h.atGates
    grind [HasAsked]
  · intro r hm
    have hm' := List.mem_map_of_mem (f := (·.task)) hm
    rw [hq] at hm'
    obtain ⟨r', hm', he⟩ := List.mem_map.mp hm'
    have := h.requests r' hm'
    grind [HasAsked]

/-! ## Every step -/

theorem keptAfter_le {current? : String → Option TaskId} {uri uri' : String} {f f' : TaskId}
    {outcome : Except Failure Settings} (h : keptAfter current? uri f outcome uri' = some f') :
    current? uri' = some f' := by
  unfold keptAfter at h
  split at h
  · rw [Function.update_apply] at h
    split at h
    · cases h
    · exact h
  · exact h

theorem update_none_le {current? : String → Option TaskId} {uri uri' : String} {f : TaskId}
    (h : update current? uri none uri' = some f) : current? uri' = some f := by
  rw [Function.update_apply] at h
  split at h
  · cases h
  · exact h

/-- Whatever happens, tasks and requests are in order. -/
theorem Orderly.step (h : d.Orderly source) {move : Session.Move External} (hs : Step source d move d') :
    d'.Orderly source := by
  cases hs with
  | rests => exact h
  | postpones hr hn => exact h.postpones hr _
  | idles hr ht => exact h.idles hr ht
  | cancels ht => exact h.cancels (h.lt_of_task? ht)
  | passes hg signal =>
      obtain ⟨hasked, byUri, hsource⟩ := h.atGates _ hg
      exact h.wakes hasked (List.filter_subset_self _) (List.Subset.refl _) (fun _ => id) fun hc => by
        rw [hsource] at hc
        cases hc
  | asks uri => exact h.asks rfl rfl rfl rfl rfl rfl rfl rfl rfl
  | closes hc => exact h.drops fun _ _ => update_none_le
  | closesOutstanding hc =>
      have hlt := h.lt_of_fetch? fun hn => by
        have hu := h.current _ _ hc
        rw [hn] at hu
        cases hu
      exact (h.cancels hlt).drops fun _ _ => update_none_le
  | invalidates => exact h.drops nofun
  | dismisses index answer =>
      exact h.rewoken h.ready (List.Subset.refl _) (List.eraseIdx_subset ..) fun t x _ =>
        Requests.leaves_of_eq (.of_eq rfl rfl) rfl
  | answers hi answer =>
      refine h.wakes (h.requests _ (List.mem_of_getElem? hi)) (List.Subset.refl _) (List.eraseIdx_subset ..)
        (fun t ht => ?_) fun _ => ?_
      · rw [Function.update_apply]
        split
        · exact Option.some_ne_none _
        · exact ht
      · rw [Function.update_self]
        exact Option.some_ne_none _
  | refuses hr ht hs =>
      refine h.ends hr ht (h.tasks _ _ ht).1 rfl rfl rfl rfl (fun _ _ => id) (fun _ => .inl rfl) (fun f F hF ho hm => ?_)
        rfl rfl rfl
      cases ht.symm.trans ((h.outstanding f F hF ho).2 _ hm)
  | joins hr ht hc hf ho =>
      refine h.joins hr ht hf ?_ ho rfl rfl rfl rfl rfl rfl rfl rfl rfl
      have hu := h.current _ _ hc
      rw [hf] at hu
      exact Option.some.inj hu
  | asksAnew hr ht hc => exact h.asksAnew hr ht rfl rfl rfl rfl rfl rfl rfl rfl rfl
  | @concludes w rest uri f F outcome hr ht hf ho =>
      have hends : ∀ x, d.task? w.task = some x → d.fetch? w.task = none →
          (∀ g G, d.fetch? g = some G → G.outcome = none → w.task ∉ G.waiting) → Orderly source { d with
            ready := rest
            task? := update d.task? w.task none
            result? := update d.result? w.task (some (.ok (.settings (settingsOf outcome))))
            current? := keptAfter d.current? uri f outcome } := fun x hx hn hline =>
        h.ends hr hx hn rfl rfl rfl rfl (fun _ _ => keptAfter_le) (fun _ => .inl rfl) hline rfl rfl rfl
      rcases ht with ⟨ht, -⟩ | ht
      · refine hends _ ht (h.tasks _ _ ht).1 fun g G hG hgo hm => ?_
        cases ht.symm.trans ((h.outstanding g G hG hgo).2 _ hm)
      · refine hends _ ht (h.tasks _ _ ht).1 fun g G hG hgo hm => ?_
        cases ht.symm.trans ((h.outstanding g G hG hgo).2 _ hm)
        rw [hf] at hG
        cases hG
        rw [ho] at hgo
        cases hgo
  | @raises w rest uri f F hr ht hs hf =>
      refine h.ends hr ht (h.tasks _ _ ht).1 rfl rfl rfl rfl (fun _ _ => id) (fun g => ?_) (fun g G hG hgo hm => ?_)
        rfl rfl rfl
      · by_cases hg : g = f
        · subst hg
          exact .inr ⟨F, hf, Function.update_self ..⟩
        · exact .inl (Function.update_of_ne hg _ _)
      · change update d.fetch? f _ g = some G at hG
        rw [Function.update_apply] at hG
        split at hG
        · cases hG
          simp at hm
        · rename_i hg
          cases ht.symm.trans ((h.outstanding g G hG hgo).2 _ hm)
          exact hg rfl
  | holds hr ht hs hsource =>
      refine h.begins hr ht ?_ rfl rfl (fun t hm => ?_) (fun _ => .inl) rfl rfl rfl rfl rfl
      · exact fun _ ho => ⟨ho, _, hsource⟩
      · rcases List.mem_append.mp hm with hm | hm
        · exact .inl hm
        · exact .inr ⟨List.mem_singleton.mp hm, _, hsource⟩
  | sends hr ht hs hsource =>
      refine h.begins hr ht ?_ rfl rfl (fun _ => .inl) (fun r hm => ?_) rfl rfl rfl rfl rfl
      · refine fun hn ho => ⟨⟨_, ho⟩, hsource, fun ⟨w, hw, _⟩ => ?_⟩
        rw [hn] at hw
        cases hw
      · rcases List.mem_append.mp hm with hm | hm
        · exact .inl hm
        · exact .inr (by rw [List.mem_singleton.mp hm])
  | finishes hr ht hf hq hs hv => exact h.finishes hr ht hf rfl rfl rfl rfl rfl hq rfl rfl rfl

end SettingsDesk

end InkServer
