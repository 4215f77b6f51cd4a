import InkServer.Proofs.Settings.Moves

/-!
# Sharing the settings of a document

Whoever needs the settings of a document waits for the request that others wait for already, unless it was
dropped. What everybody gets, and when the client is asked again, is read off the moves of a run: first what one
step makes of a request, of what holds and of a look-up, then what a whole run makes of them.
-/

namespace InkServer

open Function (update)

namespace SettingsDesk

open Wake

variable {source : SettingsSource} {d d' : SettingsDesk} {move : Session.Move External}

/-- A move after which the settings of a document no longer hold. -/
def Drops (uri : String) (move : Session.Move External) : Prop :=
  move = .outside (.closes uri) ∨ move = .outside .invalidates

/-- A request that came to nothing otherwise than by being given up. -/
def HasFailed (d : SettingsDesk) (f : TaskId) : Prop :=
  ∃ F outcome, d.fetch? f = some F ∧ F.outcome = some outcome ∧ isFailure outcome = true

/-- A request is made for a document. -/
def Makes (d d' : SettingsDesk) (uri : String) (f : TaskId) : Prop :=
  d.fetch? f = none ∧ (d'.fetch? f).map SettingsFetch.uri = some uri

/-! ## What one step makes of requests -/

/-- A request stays that of its document, and its outcome stays. -/
theorem Step.fetch? (hs : Step source d move d') (h : d.Orderly source) {f : TaskId} {F : SettingsFetch}
    (hF : d.fetch? f = some F) : ∃ F', d'.fetch? f = some F' ∧ F'.uri = F.uri ∧
      ∀ outcome, F.outcome = some outcome → F'.outcome = some outcome := by
  have hupdate : ∀ {g : TaskId} {G G' : SettingsFetch}, d.fetch? g = some G → G'.uri = G.uri →
      (∀ outcome, G.outcome = some outcome → G'.outcome = some outcome) →
      ∃ F', update d.fetch? g (some G') f = some F' ∧ F'.uri = F.uri ∧
        ∀ outcome, F.outcome = some outcome → F'.outcome = some outcome := by
    intro g G G' hG hu ho
    rw [Function.update_apply]
    split
    · rename_i hfg
      rw [hfg, hG] at hF
      cases hF
      exact ⟨G', rfl, hu, ho⟩
    · exact ⟨F, hF, rfl, fun _ => id⟩
  cases hs with
  | joins hr ht hc hf ho => exact hupdate hf rfl fun _ => id
  | raises hr ht hs hf => exact hupdate hf rfl fun _ => id
  | finishes hr ht hf hq hs hv =>
      refine hupdate hf rfl fun outcome ho => ?_
      cases ((h.tasks _ _ ht).outcome_eq_none hf).symm.trans ho
  | asksAnew hr ht hc =>
      refine ⟨F, ?_, rfl, fun _ => id⟩
      rw [← hF]
      refine Function.update_of_ne (fun hn => ?_) _ _
      rw [hn, (h.unused _ (Nat.le_refl _)).2.2] at hF
      cases hF
  | _ => exact ⟨F, hF, rfl, fun _ => id⟩

/-- What failed has failed. -/
theorem HasFailed.step {f : TaskId} (hf : d.HasFailed f) (h : d.Orderly source) (hs : Step source d move d') :
    d'.HasFailed f := by
  obtain ⟨F, outcome, hF, ho, hfailure⟩ := hf
  obtain ⟨F', hF', -, ho'⟩ := hs.fetch? h hF
  exact ⟨F', outcome, hF', ho' outcome ho, hfailure⟩

/-- What holds goes on to hold unless it is dropped or has failed. -/
theorem Step.current? (hs : Step source d move d') {uri : String} {f : TaskId} (hc : d.current? uri = some f)
    (hd : ¬Drops uri move) : d'.current? uri = some f ∨ d.HasFailed f := by
  cases hs with
  | @closes uri' hc' | @closesOutstanding uri' _ hc' =>
      left
      refine (Function.update_of_ne (fun he => ?_) _ _).trans hc
      exact hd (.inl (he ▸ rfl))
  | invalidates => exact absurd (.inr rfl) hd
  | @asksAnew _ _ uri' hr ht hc' =>
      left
      refine (Function.update_of_ne (fun he => ?_) _ _).trans hc
      rw [← he, hc] at hc'
      cases hc'
  | @concludes w rest uri' f' F outcome hr ht hf ho =>
      show keptAfter d.current? uri' f' outcome uri = some f ∨ _
      unfold keptAfter
      split
      · rename_i hkept
        by_cases he : uri = uri'
        · rw [he, hkept.2] at hc
          cases hc
          exact .inr ⟨F, outcome, hf, ho, hkept.1⟩
        · exact .inl ((Function.update_of_ne he _ _).trans hc)
      · exact .inl hc
  | _ => exact .inl hc

/-- What holds was made just now, or held before and was not dropped. -/
theorem Step.of_current? (hs : Step source d move d') (h : d.Orderly source) {uri : String} {f : TaskId}
    (hc : d'.current? uri = some f) : Makes d d' uri f ∨ d.current? uri = some f ∧ ¬Drops uri move := by
  have hturn : ¬Drops uri .turn := fun hd => by rcases hd with hd | hd <;> cases hd
  cases hs with
  | rests hm =>
      refine .inr ⟨hc, fun hd => ?_⟩
      rcases hd with hd | hd <;> obtain ⟨_, _, he⟩ := hm _ hd <;> cases he
  | cancels | passes | asks | dismisses | answers =>
      refine .inr ⟨hc, fun hd => ?_⟩
      rcases hd with hd | hd <;> cases hd
  | @closes uri' hc' | @closesOutstanding uri' _ hc' =>
      refine .inr ⟨update_none_le hc, fun hd => ?_⟩
      rcases hd with hd | hd
      · cases hd
        cases (Function.update_self (β := fun _ => _) uri none d.current?).symm.trans hc
      · cases hd
  | invalidates => cases hc
  | @asksAnew w rest uri' hr ht hc' =>
      change update d.current? uri' (some d.next) uri = some f at hc
      rw [Function.update_apply] at hc
      split at hc
      · rename_i he
        cases hc
        refine .inl ⟨(h.unused _ (Nat.le_refl _)).2.2, ?_⟩
        show (update d.fetch? d.next _ d.next).map _ = _
        rw [Function.update_self, he]
        rfl
      · exact .inr ⟨hc, hturn⟩
  | concludes => exact .inr ⟨keptAfter_le hc, hturn⟩
  | _ => exact .inr ⟨hc, hturn⟩

/-- A request is made when none holds, and holds from then on. -/
theorem Makes.current? {uri : String} {f : TaskId} (hm : Makes d d' uri f) (hs : Step source d move d') :
    d.current? uri = none ∧ d'.current? uri = some f := by
  obtain ⟨hn, hu⟩ := hm
  have hupdate : ∀ {g : TaskId} {G G' : SettingsFetch}, d.fetch? g = some G →
      (update d.fetch? g (some G') f).map SettingsFetch.uri ≠ some uri := by
    intro g G G' hG he
    rw [Function.update_apply] at he
    split at he
    · rename_i hfg
      rw [hfg, hG] at hn
      cases hn
    · rw [hn] at he
      cases he
  have hsame : d'.fetch? f = d.fetch? f → False := fun he => by
    rw [he, hn] at hu
    cases hu
  cases hs with
  | joins hr ht hc hf ho => exact (hupdate hf hu).elim
  | raises hr ht hs hf => exact (hupdate hf hu).elim
  | finishes hr ht hf hq hs hv => exact (hupdate hf hu).elim
  | @asksAnew w rest uri' hr ht hc =>
      change (update d.fetch? d.next _ f).map _ = _ at hu
      rw [Function.update_apply] at hu
      split at hu
      · rename_i he
        cases hu
        exact ⟨hc, he ▸ Function.update_self ..⟩
      · rw [hn] at hu
        cases hu
  | _ => exact (hsame rfl).elim

/-! ## What one step makes of a look-up -/

/-- A look-up has ended with the outcome of a request. One that failed no longer holds. -/
def Answered (d : SettingsDesk) (t : TaskId) (uri : String) (f : TaskId) : Prop :=
  ∃ F outcome, d.fetch? f = some F ∧ F.uri = uri ∧ F.outcome = some outcome ∧
    d.result? t = some (.ok (.settings (settingsOf outcome))) ∧
      (isFailure outcome = true → ∀ uri', d.current? uri' ≠ some f)

/-- A look-up has given up because it was told to. -/
def GivesUp (d d' : SettingsDesk) (t : TaskId) : Prop :=
  (∃ w ∈ d.ready, w.task = t ∧ w.signal ≠ .go) ∧ d.fetch? t = none ∧ d'.result? t = some (.error .cancelled)

/-- Results stay. -/
theorem Step.result? (hs : Step source d move d') (h : d.Orderly source) {t : TaskId} {r : Except Failure Result}
    (hr : d.result? t = some r) : d'.result? t = some r := by
  have hupdate : ∀ {w : TaskId} {x : Suspended Operation Waiting} {r' : Except Failure Result}, d.task? w = some x →
      update d.result? w (some r') t = some r := by
    intro w x r' hx
    refine (Function.update_of_ne (fun he => ?_) _ _).trans hr
    cases (h.results t r hr).symm.trans (he ▸ hx)
  cases hs with
  | refuses _ ht => exact hupdate ht
  | concludes _ ht => rcases ht with ⟨ht, -⟩ | ht <;> exact hupdate ht
  | raises _ ht => exact hupdate ht
  | finishes _ ht => exact hupdate ht
  | _ => exact hr

/-- A request that failed does not hold once somebody heard of it. -/
theorem keptAfter_ne_of_isFailure {current? : String → Option TaskId} {uri : String} {f : TaskId}
    {outcome : Except Failure Settings} (hf : isFailure outcome = true)
    (hu : ∀ uri', current? uri' = some f → uri' = uri) (uri' : String) :
    keptAfter current? uri f outcome uri' ≠ some f := by
  intro hc
  have he := hu uri' (keptAfter_le hc)
  subst he
  unfold keptAfter at hc
  split at hc
  · rw [Function.update_self] at hc
    cases hc
  · rename_i hn
    exact hn ⟨hf, hc⟩

theorem Orderly.uri_of_current? (h : d.Orderly source) {uri : String} {f : TaskId} {F : SettingsFetch}
    (hF : d.fetch? f = some F) (hc : d.current? uri = some f) : F.uri = uri := by
  have hu := h.current uri f hc
  rw [hF] at hu
  exact Option.some.inj hu

/-- A look-up that ends with an outcome. -/
theorem answered_of_concludes (h : d.Orderly source) {t : TaskId} {ready : List Wake} {uri : String} {f : TaskId}
    {F : SettingsFetch} {outcome : Except Failure Settings} (hF : d.fetch? f = some F) (hu : F.uri = uri)
    (ho : F.outcome = some outcome) :
    Answered { d with
      ready
      task? := update d.task? t none
      result? := update d.result? t (some (.ok (.settings (settingsOf outcome))))
      current? := keptAfter d.current? uri f outcome } t uri f := by
  refine ⟨F, outcome, hF, hu, ho, Function.update_self .., fun hf => ?_⟩
  exact keptAfter_ne_of_isFailure hf fun uri' hc => (h.uri_of_current? hF hc).symm.trans hu

/-- A look-up that has not begun waits on, gives up, or takes the request that holds or a new one. -/
theorem Step.of_call (hs : Step source d move d') (h : d.Orderly source) {t : TaskId} {uri : String}
    (ht : d.task? t = some (.created (.resolveSettings uri))) :
    d'.task? t = some (.created (.resolveSettings uri)) ∨ GivesUp d d' t ∨
      ∃ f, (Makes d d' uri f ∨ d.current? uri = some f) ∧
        (d'.task? t = some (.waiting (.lookingUp ⟨uri, f⟩)) ∨ d'.Answered t uri f) := by
  have hn := (h.tasks t _ ht).1
  have hother : ∀ {w : TaskId} {x : Option (Suspended Operation Waiting)}, t ≠ w →
      update d.task? w x t = some (.created (.resolveSettings uri)) := fun hne =>
    (Function.update_of_ne hne _ _).trans ht
  have hfetch : ∀ {w : TaskId} {F : SettingsFetch}, d.fetch? w = some F → t ≠ w := fun hF he => by
    rw [← he, hn] at hF
    cases hF
  cases hs with
  | asks uri' =>
      exact .inl (hother (Nat.ne_of_lt (h.lt_of_task? (by rw [ht]; exact Option.some_ne_none _))))
  | @refuses w rest uri' hr ht' hs =>
      by_cases he : t = w.task
      · subst he
        exact .inr (.inl ⟨⟨w, hr ▸ List.mem_cons_self, rfl, hs⟩, hn, Function.update_self ..⟩)
      · exact .inl (hother he)
  | @joins w rest uri' f F hr ht' hc hf ho =>
      by_cases he : t = w.task
      · subst he
        cases ht.symm.trans ht'
        exact .inr (.inr ⟨f, .inr hc, .inl (Function.update_self ..)⟩)
      · exact .inl (hother he)
  | @asksAnew w rest uri' hr ht' hc =>
      by_cases he : t = w.task
      · subst he
        cases ht.symm.trans ht'
        refine .inr (.inr ⟨d.next, .inl ⟨(h.unused _ (Nat.le_refl _)).2.2, ?_⟩, .inl (Function.update_self ..)⟩)
        show (update d.fetch? d.next _ d.next).map _ = _
        rw [Function.update_self]
        rfl
      · refine .inl ((Function.update_of_ne he _ _).trans (hother ?_))
        exact Nat.ne_of_lt (h.lt_of_task? (by rw [ht]; exact Option.some_ne_none _))
  | @concludes w rest uri' f F outcome hr ht' hf ho =>
      by_cases he : t = w.task
      · subst he
        rcases ht' with ⟨ht', hc⟩ | ht'
        · cases ht.symm.trans ht'
          exact .inr (.inr ⟨f, .inr hc, .inr (answered_of_concludes h hf (h.uri_of_current? hf hc) ho)⟩)
        · cases ht.symm.trans ht'
      · exact .inl (hother he)
  | @raises w rest uri' f F hr ht' hs hf =>
      refine .inl (hother fun he => ?_)
      cases ht.symm.trans (he ▸ ht')
  | @holds w rest uri' byUri hr ht' =>
      obtain ⟨⟨F, hF, -⟩, -⟩ := h.tasks _ _ ht'
      exact .inl (hother (hfetch hF))
  | @sends w rest uri' hr ht' =>
      obtain ⟨⟨F, hF, -⟩, -⟩ := h.tasks _ _ ht'
      exact .inl (hother (hfetch hF))
  | finishes hr ht' hf => exact .inl (hother (hfetch hf))
  | _ => exact .inl ht

/-- A look-up that waits for a request waits on, gives up, or ends with the outcome. -/
theorem Step.of_lookingUp (hs : Step source d move d') (h : d.Orderly source) {t : TaskId} {uri : String} {f : TaskId}
    (ht : d.task? t = some (.waiting (.lookingUp ⟨uri, f⟩))) :
    d'.task? t = some (.waiting (.lookingUp ⟨uri, f⟩)) ∨ GivesUp d d' t ∨ d'.Answered t uri f := by
  obtain ⟨hn, F₀, hF₀, hu, -⟩ := h.tasks t _ ht
  have hother : ∀ {w : TaskId} {x : Option (Suspended Operation Waiting)}, t ≠ w →
      update d.task? w x t = some (.waiting (.lookingUp ⟨uri, f⟩)) := fun hne => (Function.update_of_ne hne _ _).trans ht
  have hfetch : ∀ {w : TaskId} {F : SettingsFetch}, d.fetch? w = some F → t ≠ w := fun hF he => by
    rw [← he, hn] at hF
    cases hF
  have hcreated : ∀ {w : TaskId} {operation : Operation}, d.task? w = some (.created operation) → t ≠ w := fun hw he => by
    cases ht.symm.trans (he ▸ hw)
  have hlt := h.lt_of_task? (t := t) (by rw [ht]; exact Option.some_ne_none _)
  cases hs with
  | asks uri' => exact .inl (hother (Nat.ne_of_lt hlt))
  | refuses hr ht' hs => exact .inl (hother (hcreated ht'))
  | joins hr ht' hc hf ho => exact .inl (hother (hcreated ht'))
  | asksAnew hr ht' hc =>
      exact .inl ((Function.update_of_ne (hcreated ht') _ _).trans (hother (Nat.ne_of_lt hlt)))
  | @concludes w rest uri' f' F outcome hr ht' hf ho =>
      by_cases he : t = w.task
      · subst he
        rcases ht' with ⟨ht', hc⟩ | ht'
        · cases ht.symm.trans ht'
        · cases ht.symm.trans ht'
          cases hF₀.symm.trans hf
          exact .inr (.inr (answered_of_concludes h hf hu ho))
      · exact .inl (hother he)
  | @raises w rest uri' f' F hr ht' hs hf =>
      by_cases he : t = w.task
      · subst he
        exact .inr (.inl ⟨⟨w, hr ▸ List.mem_cons_self, rfl, hs⟩, hn, Function.update_self ..⟩)
      · exact .inl (hother he)
  | holds hr ht' => exact .inl (hother (hcreated ht'))
  | sends hr ht' => exact .inl (hother (hcreated ht'))
  | finishes hr ht' hf => exact .inl (hother (hfetch hf))
  | _ => exact .inl ht

/-- What somebody was answered stays so. -/
theorem Answered.step {t : TaskId} {uri : String} {f : TaskId} (ha : d.Answered t uri f) (h : d.Orderly source)
    (hs : Step source d move d') : d'.Answered t uri f := by
  obtain ⟨F, outcome, hF, hu, ho, hr, hgone⟩ := ha
  obtain ⟨F', hF', hu', ho'⟩ := hs.fetch? h hF
  refine ⟨F', outcome, hF', hu'.trans hu, ho' outcome ho, hs.result? h hr, fun hf uri' hc => ?_⟩
  rcases hs.of_current? h hc with ⟨hn, -⟩ | ⟨hc, -⟩
  · cases hn.symm.trans hF
  · exact hgone hf uri' hc

/-! ## Who is told to give up, and what the client answers -/

/-- A move that calls a task off. -/
inductive CallsOff (d : SettingsDesk) : Session.Move External → TaskId → Prop where
  | cancels (t : TaskId) : CallsOff d (.cancels t) t
  /-- A document is closed while the request for its settings holds. -/
  | closes {uri : String} {f : TaskId} (hc : d.current? uri = some f) : CallsOff d (.outside (.closes uri)) f
  /-- A request that was held back is not let go. -/
  | passes {f : TaskId} {signal : Signal} (hg : f ∈ d.atGates) (hs : signal ≠ .go) : CallsOff d (.passes f signal) f

/-- Who is no request is called off only by being cancelled. -/
theorem CallsOff.eq_cancels {t : TaskId} (hc : d.CallsOff move t) (h : d.Orderly source) (hn : d.fetch? t = none) :
    move = .cancels t := by
  cases hc with
  | cancels => rfl
  | closes hc =>
      have hu := h.current _ _ hc
      rw [hn] at hu
      cases hu
  | passes hg => exact absurd hn (h.atGates _ hg).1.1

/-- Whoever is told to give up was called off. -/
theorem Step.of_not_go (hs : Step source d move d') {w : Wake} (hw : w ∈ d'.ready) (hgo : w.signal ≠ .go) :
    (∃ w' ∈ d.ready, w'.task = w.task ∧ w'.signal ≠ .go) ∨ d.CallsOff move w.task := by
  have hrest : ∀ {w' : Wake} {rest : List Wake}, d.ready = w' :: rest → w ∈ rest →
      ∃ w' ∈ d.ready, w'.task = w.task ∧ w'.signal ≠ .go := fun hr hw =>
    ⟨w, hr ▸ List.mem_cons_of_mem _ hw, rfl, hgo⟩
  have hgivenUp : ∀ {task : TaskId}, w ∈ Act.giveUp d.ready task →
      (∃ w' ∈ d.ready, w'.task = w.task ∧ w'.signal ≠ .go) ∨ task = w.task := fun hw => by
    rcases List.mem_append.mp hw with hw | hw
    · exact .inl ⟨w, (List.mem_filter.mp hw).1, rfl, hgo⟩
    · rw [List.mem_singleton.mp hw]
      exact .inr rfl
  cases hs with
  | @postpones w' rest n hr hn' =>
      rcases List.mem_append.mp hw with hw | hw
      · exact .inl (hrest hr hw)
      · rw [List.mem_singleton.mp hw] at hgo ⊢
        exact .inl ⟨w', hr ▸ List.mem_cons_self, rfl, hgo⟩
  | cancels ht =>
      refine (hgivenUp hw).imp_right fun he => ?_
      subst he
      exact .cancels _
  | passes hg signal =>
      rcases List.mem_append.mp hw with hw | hw
      · exact .inl ⟨w, hw, rfl, hgo⟩
      · rw [List.mem_singleton.mp hw] at hgo ⊢
        exact .inr (.passes hg hgo)
  | asks uri =>
      rcases List.mem_append.mp hw with hw | hw
      · exact .inl ⟨w, hw, rfl, hgo⟩
      · rw [List.mem_singleton.mp hw] at hgo
        exact absurd rfl hgo
  | closesOutstanding hc =>
      refine (hgivenUp hw).imp_right fun he => ?_
      subst he
      exact .closes hc
  | answers hi answer =>
      rcases List.mem_append.mp hw with hw | hw
      · exact .inl ⟨w, hw, rfl, hgo⟩
      · rw [List.mem_singleton.mp hw] at hgo
        exact absurd rfl hgo
  | asksAnew hr ht hc =>
      rcases List.mem_append.mp hw with hw | hw
      · exact .inl (hrest hr hw)
      · rw [List.mem_singleton.mp hw] at hgo
        exact absurd rfl hgo
  | finishes hr ht hf hq hs hv =>
      rcases List.mem_append.mp hw with hw | hw
      · exact .inl (hrest hr hw)
      · obtain ⟨t, -, rfl⟩ := List.mem_map.mp hw
        exact absurd rfl hgo
  | idles hr | refuses hr | joins hr | concludes hr | raises hr | holds hr | sends hr => exact .inl (hrest hr hw)
  | _ => exact .inl ⟨w, hw, rfl, hgo⟩

/-- An answer is that of the client to the request. -/
theorem Step.of_answer? (hs : Step source d move d') {t : TaskId} {answer : Except Failure Value}
    (ha : d'.answer? t = some answer) : d.answer? t = some answer ∨
      ∃ index, move = .outside (.reply index answer) ∧ (d.requests[index]?).map ClientRequest.task = some t := by
  cases hs with
  | @answers index r hi answer' =>
      change update d.answer? r.task (some answer') t = _ at ha
      rw [Function.update_apply] at ha
      split at ha
      · rename_i he
        cases ha
        refine .inr ⟨index, rfl, ?_⟩
        rw [hi, he]
        rfl
      · exact .inl ha
  | _ => exact .inl ha

/-- What a request comes back with is that it was given up, or what it found. -/
theorem Step.of_outcome (hs : Step source d move d') {f : TaskId} {F' : SettingsFetch}
    {outcome : Except Failure Settings} (hF' : d'.fetch? f = some F') (hv : F'.outcome = some outcome) :
    (∃ F, d.fetch? f = some F ∧ F.uri = F'.uri ∧ F.outcome = some outcome) ∨
      ((∃ w ∈ d.ready, w.task = f ∧ w.signal ≠ .go) ∧ outcome = .error .cancelled ∨
        ∃ answer, Finds source d f F'.uri answer ∧ outcome = answer >>= SettingsRequest.ofAnswer) := by
  have hupdate : ∀ {g : TaskId} {G G' : SettingsFetch}, update d.fetch? g (some G') f = some F' →
      d.fetch? g = some G → G'.uri = G.uri → G'.outcome = G.outcome →
      ∃ F, d.fetch? f = some F ∧ F.uri = F'.uri ∧ F.outcome = some outcome := by
    intro g G G' hF' hG hu ho
    rw [Function.update_apply] at hF'
    split at hF'
    · rename_i hfg
      cases hF'
      exact ⟨G, hfg ▸ hG, hu.symm, ho ▸ hv⟩
    · exact ⟨F', hF', rfl, hv⟩
  cases hs with
  | joins hr ht hc hf ho => exact .inl (hupdate hF' hf rfl rfl)
  | raises hr ht hs hf => exact .inl (hupdate hF' hf rfl rfl)
  | asksAnew hr ht hc =>
      change update d.fetch? d.next _ f = _ at hF'
      rw [Function.update_apply] at hF'
      split at hF'
      · cases hF'
        cases hv
      · exact .inl ⟨F', hF', rfl, hv⟩
  | @finishes w rest x F outcome' requests hr ht hf hq hs hfinds =>
      change update d.fetch? w.task _ f = _ at hF'
      rw [Function.update_apply] at hF'
      split at hF'
      · rename_i he
        subst he
        cases hF'
        cases hv
        by_cases hgo : w.signal = .go
        · exact .inr (.inr (hfinds hgo))
        · exact .inr (.inl ⟨⟨w, hr ▸ List.mem_cons_self, rfl, hgo⟩, hs hgo⟩)
      · exact .inl ⟨F', hF', rfl, hv⟩
  | _ => exact .inl ⟨F', hF', rfl, hv⟩

/-! ## Requests that are closed -/

/-- A request that has been given up, or is about to. -/
def IsDoomed (d : SettingsDesk) (f : TaskId) : Prop :=
  ∃ F, d.fetch? f = some F ∧ (F.outcome = some (.error .cancelled) ∨
    F.outcome = none ∧ (toRun d.ready f).head? = some ⟨f, .cancelled, 0⟩)

/-- A request that is on its way when its document is closed is given up. -/
theorem Step.isDoomed (hs : Step source d move d') {uri : String} {f : TaskId} {F : SettingsFetch}
    (hm : move = .outside (.closes uri)) (hc : d.current? uri = some f) (hF : d.fetch? f = some F)
    (ho : F.outcome = none) : d'.IsDoomed f := by
  subst hm
  cases hs with
  | rests hm =>
      obtain ⟨_, _, he⟩ := hm _ rfl
      cases he
  | closes hc' => exact absurd ho (hc' f F hc hF)
  | closesOutstanding hc' =>
      cases hc.symm.trans hc'
      refine ⟨F, hF, .inr ⟨ho, ?_⟩⟩
      show (toRun (Act.giveUp d.ready f) f).head? = _
      rw [toRun_giveUp_self]
      rfl

/-- Whoever is told to give up is told so first. -/
theorem IsDoomed.step {f : TaskId} (hd : d.IsDoomed f) (h : d.Orderly source) (hs : Step source d move d') :
    d'.IsDoomed f := by
  obtain ⟨F, hF, ho | ⟨ho, hhead⟩⟩ := hd
  · obtain ⟨F', hF', -, ho'⟩ := hs.fetch? h hF
    exact ⟨F', hF', .inl (ho' _ ho)⟩
  obtain ⟨hpending, -⟩ := h.outstanding f F hF ho
  -- as long as neither the request nor its place among the wake-ups changes
  have hsame : ∀ {F' : SettingsFetch}, d'.fetch? f = some F' → F'.outcome = F.outcome →
      (toRun d'.ready f).head? = (toRun d.ready f).head? → d'.IsDoomed f := fun hF' ho' hready =>
    ⟨_, hF', .inr ⟨ho'.trans ho, hready.trans hhead⟩⟩
  have happend : ∀ more, (toRun (d.ready ++ more) f).head? = (toRun d.ready f).head? := fun more => by
    rw [toRun_append, List.head?_append, hhead]
    rfl
  have hrest : ∀ {w : Wake} {rest : List Wake}, d.ready = w :: rest → w.task ≠ f →
      ∀ more, (toRun (rest ++ more) f).head? = (toRun d.ready f).head? := fun hr hne more => by
    rw [← happend more, hr, List.cons_append, toRun_cons_of_ne hne]
  have hfirst : ∀ {w : Wake} {rest : List Wake}, d.ready = w :: rest → w.task = f → w = ⟨f, .cancelled, 0⟩ :=
    fun hr he => by
      rw [hr, ← he, toRun_cons_self, he] at hhead
      exact Option.some.inj hhead
  have hgivenUp : ∀ task, (toRun (Act.giveUp d.ready task) f).head? = (toRun d.ready f).head? := fun task => by
    by_cases he : f = task
    · rw [← he, toRun_giveUp_self, hhead]
      rfl
    · rw [toRun_giveUp_of_ne _ he]
  have hcall : ∀ {t : TaskId}, d.fetch? t = none → t ≠ f := fun hn he => by
    rw [he, hF] at hn
    cases hn
  have hgone : ∀ {w : Wake} {rest : List Wake}, d.ready = w :: rest → w.task ≠ f →
      (toRun rest f).head? = (toRun d.ready f).head? := fun hr hne => by rw [hr, toRun_cons_of_ne hne]
  have hupdate : ∀ {g : TaskId} {G G' : SettingsFetch}, d'.fetch? = update d.fetch? g (some G') →
      d.fetch? g = some G → G'.outcome = G.outcome → (toRun d'.ready f).head? = (toRun d.ready f).head? →
      d'.IsDoomed f := by
    intro g G G' hd' hG ho' hready
    by_cases hfg : f = g
    · rw [← hfg, hF] at hG
      cases hG
      exact hsame (by rw [hd', hfg, Function.update_self]) ho' hready
    · exact hsame (by rw [hd', Function.update_of_ne hfg, hF]) rfl hready
  cases hs with
  | @postpones w rest n hr hn =>
      by_cases he : w.task = f
      · rw [hfirst hr he] at hn
        cases hn
      · exact hsame hF rfl (hrest hr he _)
  | idles hr ht => exact hsame hF rfl (hgone hr fun he => hpending (he ▸ ht))
  | cancels ht => exact hsame hF rfl (hgivenUp _)
  | passes hg signal => exact hsame hF rfl (happend _)
  | asks uri => exact hsame hF rfl (happend _)
  | closesOutstanding hc => exact hsame hF rfl (hgivenUp _)
  | answers hi answer => exact hsame hF rfl (happend _)
  | refuses hr ht hs => exact hsame hF rfl (hgone hr (hcall (h.tasks _ _ ht).1))
  | joins hr ht hc hf ho' => exact hupdate rfl hf rfl (hgone hr (hcall (h.tasks _ _ ht).1))
  | asksAnew hr ht hc =>
      refine hsame ((Function.update_of_ne (fun he => ?_) _ _).trans hF) rfl (hrest hr (hcall (h.tasks _ _ ht).1) _)
      exact hcall (h.unused _ (Nat.le_refl _)).2.2 he.symm
  | @concludes w rest uri g G outcome hr ht hf ho' =>
      have hn : d.fetch? w.task = none := by
        rcases ht with ⟨ht, -⟩ | ht <;> exact (h.tasks _ _ ht).1
      exact hsame hF rfl (hgone hr (hcall hn))
  | raises hr ht hs hf => exact hupdate rfl hf rfl (hgone hr (hcall (h.tasks _ _ ht).1))
  | holds hr ht hgo hsource | sends hr ht hgo hsource =>
      refine hsame hF rfl (hgone hr fun he => ?_)
      rw [hfirst hr he] at hgo
      cases hgo
  | @finishes w rest x G outcome requests hr ht hf hq hgo hv =>
      by_cases he : w.task = f
      · have hcancelled := hgo (by rw [hfirst hr he]; nofun)
        subst he
        exact ⟨_, Function.update_self .., .inl (congrArg some hcancelled)⟩
      · exact hsame ((Function.update_of_ne (Ne.symm he) _ _).trans hF) rfl (hrest hr he _)
  | _ => exact hsame hF rfl rfl

end SettingsDesk

end InkServer
