import InkServer.Proofs.Settings.Normalized
import InkServer.Proofs.Settings.Runs

/-!
# Settings can always be used

Whatever the client answers when it is asked for the settings of a document, be it a failure, whoever looks them up
gets settings that keep to the schema. Nobody is kept waiting but by a request that is held back or that the client
has yet to answer.
-/

namespace InkServer

open Function (update)

/-! ## Requests that have not come back -/

namespace SettingsDesk

open Wake

variable {source : SettingsSource} {d d' : SettingsDesk} {move : Session.Move External}

/-- A request that is to be run, is held back or is still to be answered by the client. -/
def IsAttended (d : SettingsDesk) (f : TaskId) : Prop :=
  toRun d.ready f ≠ [] ∨ f ∈ d.atGates ∨ (⟨f, false⟩ : ClientRequest) ∈ d.requests

/-- Nobody loses sight of a request without an outcome. -/
def AttendsToAll (d : SettingsDesk) : Prop :=
  ∀ f F, d.fetch? f = some F → F.outcome = none → d.IsAttended f

theorem IsAttended.mono {f : TaskId} (ha : d.IsAttended f) (hready : toRun d.ready f ≠ [] → toRun d'.ready f ≠ [])
    (hgates : f ∈ d.atGates → f ∈ d'.atGates)
    (hrequests : (⟨f, false⟩ : ClientRequest) ∈ d.requests → (⟨f, false⟩ : ClientRequest) ∈ d'.requests) :
    d'.IsAttended f :=
  ha.imp hready (Or.imp hgates hrequests)

theorem toRun_ne_nil_append {ready : List Wake} {f : TaskId} (h : toRun ready f ≠ []) (more : List Wake) :
    toRun (ready ++ more) f ≠ [] := by
  rw [toRun_append]
  exact List.append_ne_nil_of_left_ne_nil h _

theorem toRun_concat_ne_nil (ready : List Wake) (f : TaskId) (signal : Signal) (turns : Nat) :
    toRun (ready ++ [⟨f, signal, turns⟩]) f ≠ [] := by
  rw [toRun_concat_self]
  exact List.append_ne_nil_of_right_ne_nil _ (List.cons_ne_nil _ _)

theorem toRun_ne_nil_of_cons {ready rest : List Wake} {w : Wake} {f : TaskId} (hr : ready = w :: rest)
    (hne : w.task ≠ f) (h : toRun ready f ≠ []) : toRun rest f ≠ [] := by
  rwa [hr, toRun_cons_of_ne hne] at h

theorem mem_eraseIdx_of_getElem?_ne {requests : List ClientRequest} {r : ClientRequest} {index : Nat}
    (hr : r ∈ requests) (hi : requests[index]? ≠ some r) : r ∈ requests.eraseIdx index := by
  obtain ⟨j, hj⟩ := List.mem_iff_getElem?.mp hr
  exact List.mem_eraseIdx_iff_getElem?.mpr ⟨j, fun he => hi (he ▸ hj), hj⟩

/-- Who is given up is to be run; nobody else is touched. -/
theorem IsAttended.givenUp {f task : TaskId} (ha : d.IsAttended f) (hready : d'.ready = Act.giveUp d.ready task)
    (hgates : d'.atGates = d.atGates.filter (· ≠ task)) (hrequests : d'.requests = d.requests) :
    d'.IsAttended f := by
  by_cases he : f = task
  · refine .inl ?_
    rw [hready, he, toRun_giveUp_self]
    exact List.cons_ne_nil _ _
  · refine ha.mono (fun hrun => ?_) (fun hg => ?_) fun hr => hrequests ▸ hr
    · rwa [hready, toRun_giveUp_of_ne _ he]
    · rw [hgates]
      exact List.mem_filter.mpr ⟨hg, decide_eq_true he⟩

/-- A request that is changed without getting an outcome was without one before. -/
theorem AttendsToAll.of_update (ha : d.AttendsToAll) {f g : TaskId} {F' G G' : SettingsFetch}
    (hF' : update d.fetch? g (some G') f = some F') (hG : d.fetch? g = some G) (ho : G'.outcome = G.outcome)
    (ho' : F'.outcome = none) : d.fetch? f ≠ none ∧ d.IsAttended f := by
  rw [Function.update_apply] at hF'
  split at hF'
  · rename_i hfg
    cases hF'
    subst hfg
    exact ⟨hG ▸ Option.some_ne_none G, ha f G hG (ho ▸ ho')⟩
  · exact ⟨hF' ▸ Option.some_ne_none F', ha f F' hF' ho'⟩

/-- Every step attends to the requests that it leaves without an outcome. -/
theorem Step.attendsToAll (hs : Step source d move d') (h : d.Orderly source) (ha : d.AttendsToAll) :
    d'.AttendsToAll := by
  intro f F' hF' ho'
  -- Most steps leave the request as it is or only change who waits for it; then it was attended to before.
  have hsame : d.fetch? f = some F' → d.fetch? f ≠ none ∧ d.IsAttended f := fun hF =>
    ⟨hF ▸ Option.some_ne_none F', ha f F' hF ho'⟩
  have hcall : ∀ {t : TaskId}, d.fetch? t = none → d.fetch? f ≠ none → t ≠ f := fun hn hF he => hF (he ▸ hn)
  cases hs with
  | rests | invalidates | closes => exact (hsame hF').2
  | @postpones w rest n hr hn =>
      by_cases he : w.task = f
      · exact .inl (he ▸ toRun_concat_ne_nil rest w.task w.signal n)
      · exact (hsame hF').2.mono (fun hrun => toRun_ne_nil_append (toRun_ne_nil_of_cons hr he hrun) _) id id
  | @idles w rest hr ht =>
      have hne : w.task ≠ f := fun he => (h.outstanding f F' hF' ho').1 (he ▸ ht)
      exact (hsame hF').2.mono (toRun_ne_nil_of_cons hr hne) id id
  | cancels ht => exact (hsame hF').2.givenUp rfl rfl rfl
  | closesOutstanding hc => exact (hsame hF').2.givenUp rfl rfl rfl
  | @passes task hg signal =>
      by_cases he : f = task
      · exact .inl (he ▸ toRun_concat_ne_nil d.ready task signal 0)
      · refine (hsame hF').2.mono (fun hrun => toRun_ne_nil_append hrun _) (fun hg => ?_) id
        exact List.mem_filter.mpr ⟨hg, decide_eq_true he⟩
  | asks uri => exact (hsame hF').2.mono (fun hrun => toRun_ne_nil_append hrun _) id id
  | dismisses index answer hi =>
      refine (hsame hF').2.mono id id fun hr => mem_eraseIdx_of_getElem?_ne hr fun hi' => ?_
      cases hi _ hi'
  | @answers index r hi answer =>
      by_cases he : r.task = f
      · exact .inl (he ▸ toRun_concat_ne_nil d.ready r.task .go 0)
      · refine (hsame hF').2.mono (fun hrun => toRun_ne_nil_append hrun _) id fun hr =>
          mem_eraseIdx_of_getElem?_ne hr fun hi' => he ?_
        cases hi.symm.trans hi'
        rfl
  | refuses hr ht hs =>
      obtain ⟨hF, hattended⟩ := hsame hF'
      exact hattended.mono (toRun_ne_nil_of_cons hr (hcall (h.tasks _ _ ht).1 hF)) id id
  | joins hr ht hc hf ho =>
      obtain ⟨hF, hattended⟩ := ha.of_update hF' hf rfl ho'
      exact hattended.mono (toRun_ne_nil_of_cons hr (hcall (h.tasks _ _ ht).1 hF)) id id
  | raises hr ht hs hf =>
      obtain ⟨hF, hattended⟩ := ha.of_update hF' hf rfl ho'
      exact hattended.mono (toRun_ne_nil_of_cons hr (hcall (h.tasks _ _ ht).1 hF)) id id
  | @asksAnew w rest uri hr ht hc =>
      by_cases he : f = d.next
      · exact .inl (he ▸ toRun_concat_ne_nil rest d.next .go 0)
      · obtain ⟨hF, hattended⟩ := hsame ((Function.update_of_ne he _ _).symm.trans hF')
        have hne := hcall (h.tasks _ _ ht).1 hF
        exact hattended.mono (fun hrun => toRun_ne_nil_append (toRun_ne_nil_of_cons hr hne hrun) _) id id
  | @concludes w rest uri g G outcome hr ht hf ho =>
      obtain ⟨hF, hattended⟩ := hsame hF'
      have hn : d.fetch? w.task = none := by
        rcases ht with ⟨ht, -⟩ | ht <;> exact (h.tasks _ _ ht).1
      exact hattended.mono (toRun_ne_nil_of_cons hr (hcall hn hF)) id id
  | @holds w rest uri byUri hr ht hgo hsource =>
      by_cases he : w.task = f
      · exact .inr (.inl (he ▸ List.mem_append_right _ (List.mem_singleton_self _)))
      · exact (hsame hF').2.mono (toRun_ne_nil_of_cons hr he) (List.mem_append_left _) id
  | @sends w rest uri hr ht hgo hsource =>
      by_cases he : w.task = f
      · exact .inr (.inr (he ▸ List.mem_append_right _ (List.mem_singleton_self _)))
      · exact (hsame hF').2.mono (toRun_ne_nil_of_cons hr he) id (List.mem_append_left _)
  | @finishes w rest x G outcome requests hr ht hf hq hgo hv hk =>
      change update d.fetch? w.task _ f = some F' at hF'
      by_cases he : f = w.task
      · rw [he, Function.update_self] at hF'
        cases hF'
        cases ho'
      · have hattended := (hsame ((Function.update_of_ne he _ _).symm.trans hF')).2
        have hne : w.task ≠ f := Ne.symm he
        exact hattended.mono (fun hrun => toRun_ne_nil_append (toRun_ne_nil_of_cons hr hne hrun) _) id fun hr =>
          hk _ hr he

end SettingsDesk

/-- The settings that somebody is left with when this is answered, be it a failure. -/
def settingsFor (answer : Except Failure Value) : Settings := settingsOf (answer >>= SettingsRequest.ofAnswer)

theorem settingsFor_cases (answer : Except Failure Value) : settingsFor answer = .defaults ∨
    ∃ raw n, answer = .ok raw ∧ Settings.normalize raw = .ok n ∧ settingsFor answer = n.settings := by
  unfold settingsFor
  cases h : answer >>= SettingsRequest.ofAnswer with
  | error => exact .inl rfl
  | ok v =>
      obtain ⟨raw, n, hraw, hn, rfl⟩ := SettingsRequest.exists_of_bind_ofAnswer h
      exact .inr ⟨raw, n, hraw, hn, rfl⟩

theorem settingsFor_of_normalize {raw : Value} {n : Settings.Normalized} (h : Settings.normalize raw = .ok n) :
    settingsFor (.ok raw) = n.settings := by
  show settingsOf (SettingsRequest.ofAnswer raw) = _
  rw [SettingsRequest.ofAnswer, h]
  rfl

theorem isUsable_settingsFor (answer : Except Failure Value) : (settingsFor answer).IsUsable := by
  rcases settingsFor_cases answer with h | ⟨raw, n, -, hn, h⟩
  · rw [h]
    exact Settings.isUsable_defaults
  · rw [h]
    exact Settings.isUsable_of_normalize hn

namespace Server

open SettingsDesk

variable (s : ServerState) (moves : List (Session.Move External))

/-- What somebody has come to after some moves who began in one of them to look up the settings of a document. -/
inductive Settles (n i : Nat) (uri : String) (t : TaskId) : Prop where
  /-- Nobody else is refused but who was cancelled. -/
  | givesUp (hc : IsCancelled moves n t) (hr : (stage s moves n).result? t = some (.error .cancelled))
  /-- Who still waits once everybody has had their turns waits for a request that is held back or that the client has
  yet to answer. -/
  | waits {f : TaskId} (hf : IsShared s moves i uri f)
    (ht : (stage s moves n).task? t = some (.waiting (.lookingUp ⟨uri, f⟩)))
    (ha : (stage s moves n).ready = [] →
      f ∈ (stage s moves n).atGates ∨ (⟨f, false⟩ : ClientRequest) ∈ (stage s moves n).requests)
  /-- The settings are those of what the request was answered. -/
  | gets {f : TaskId} {answer : Except Failure Value} (hf : IsShared s moves i uri f)
    (ha : IsAnswered s moves n f uri answer)
    (hr : (stage s moves n).result? t = some (.ok (.settings (settingsFor answer))))
  /-- A request that was called off leaves the defaults. -/
  | isLeft {f : TaskId} (hf : IsShared s moves i uri f) (hc : IsCalledOff s moves n f)
    (hr : (stage s moves n).result? t = some (.ok (.settings .defaults)))

/-- The settings that a run comes to can be used. -/
structure HasUsableSettings : Prop where
  /-- Everybody who looks settings up comes to something. -/
  settles : ∀ i n uri t, i < n → BeginsAt s moves i uri t → Settles s moves n i uri t
  /-- After some more turns everybody has had theirs. -/
  rests : ∃ turns, (of (run s (moves ++ List.replicate turns .turn))).ready = []
  /-- Where nobody can be asked the defaults hold at once. -/
  unasked : ∀ (l : Loop ServerState Operation) uri, SettingsLookup.canAsk l.state.settings = false →
    (SettingsLookup.start uri).returns l = .done .defaults
  usable : ∀ answer, (settingsFor answer).IsUsable
  /-- A mapping overrides the defaults by what it gives, as long as that keeps to the schema. -/
  mapping : ∀ entries, ∃ merged : Settings,
    (∀ key, merged.get? key = (Settings.given? entries key).or (Settings.defaults.get? key)) ∧
      (merged.IsUsable ∧ settingsFor (.ok (.map entries)) = merged ∨
        ¬merged.IsUsable ∧ settingsFor (.ok (.map entries)) = .defaults)
  /-- Any other answer, and any failure, leaves the defaults. -/
  noMapping : ∀ answer, (∀ entries, answer ≠ .ok (.map entries)) → settingsFor answer = .defaults
  /-- Settings that came out of an answer come out of themselves. -/
  again : ∀ answer normalized, Settings.normalize answer = .ok normalized →
    Settings.normalize normalized.settings.toValue = .ok ⟨normalized.settings, none⟩
  /-- Keys that are `null` make no difference. -/
  nulls : ∀ fields : List (String × Value), (fields.map Prod.fst).Nodup →
    Settings.normalize (.object fields) = Settings.normalize (.object (Settings.given fields))

variable {s moves} {i n : Nat} {uri : String} {t : TaskId}

theorem Serves.exists_turns (h : Serves s.settings.source (run s moves)) :
    ∃ turns, (of (run s (moves ++ List.replicate turns .turn))).ready = [] := by
  obtain ⟨turns, hrest⟩ := h.exists_rest
  refine ⟨turns, ?_⟩
  unfold run
  rw [Session.after_append]
  exact hrest

section

variable (h : HasAskedNothing s) (hm : ∀ move ∈ moves, IsOfSettings move)
include h hm

theorem attendsToAll_stage (n : Nat) : (stage s moves n).AttendsToAll := by
  refine stage_keeps (s := s) (p := fun _ d => d.AttendsToAll) (i := 0) (fun f F hF _ => ?_) (fun _ _ => id)
    (fun n _ _ hmove ih => (step_stage h hm hmove).attendsToAll (orderly_stage h hm n) ih) n (Nat.zero_le n)
  rw [stage_zero] at hF
  change s.settings.fetches.get? f = some F at hF
  rw [h.fetches] at hF
  cases hF

theorem settles_of_beginsAt (hb : BeginsAt s moves i uri t) (hn : i < n) : Settles s moves n i uri t := by
  cases comes_of_beginsAt h hm hb hn with
  | givesUp hc hr => exact .givesUp hc hr
  | @waits f hf ht ho =>
      refine .waits hf ht fun hrest => ?_
      obtain ⟨-, F, hF, -⟩ := (orderly_stage h hm n).tasks t _ ht
      have hF : (stage s moves n).fetch? f = some F := hF
      have hnone := ho hrest
      rw [hF] at hnone
      refine (attendsToAll_stage h hm n f F hF hnone).resolve_left fun hrun => hrun ?_
      rw [hrest]
      rfl
  | gets hf ha =>
      obtain ⟨F, outcome, hF, rfl, ho, hr, -⟩ := ha
      rcases outcome_cases h hm hF ho with ⟨hoff, rfl⟩ | ⟨answer, hanswer, rfl⟩
      · exact .isLeft hf hoff hr
      · exact .gets hf hanswer hr

/-- Whatever is answered and whatever fails, whoever looks settings up has settings that can be used, and those of a
mapping are what it gives over the defaults. -/
theorem settings_are_always_usable : HasUsableSettings s moves where
  settles i n uri t hn hb := settles_of_beginsAt h hm hb hn
  rests := by
    have hserves := serves_run_take h hm moves.length
    rw [List.take_length] at hserves
    exact hserves.exists_turns
  unasked l uri hcan := by
    rw [SettingsLookup.start, Act.returns_bind, Act.returns_state, Act.leaves_state, hcan]
    rfl
  usable := isUsable_settingsFor
  mapping entries := by
    obtain ⟨merged, n, hn, hkeys, hcases⟩ := Settings.exists_merged entries
    refine ⟨merged, hkeys, ?_⟩
    rw [settingsFor_of_normalize hn]
    exact hcases
  noMapping answer hnot := by
    rcases settingsFor_cases answer with hdefaults | ⟨raw, n, rfl, hn, hv⟩
    · exact hdefaults
    · rw [hv]
      exact Settings.eq_defaults_of_normalize (fun entries he => hnot entries (congrArg _ he)) hn
  again _ _ := Settings.normalize_idempotent
  nulls _ := Settings.normalize_given

end

/-- The client is asked for the settings of a document and answers with a mapping that has a key that is `null`, one
that is set and one that nobody knows. -/
def answeredMoves : List (Session.Move External) :=
  [.outside (.asks (.resolveSettings "file:///p/a.ink")), .turn, .turn,
    .outside (.reply 0 (.ok (.list [.object [(Settings.mainStoryKey, .null), (Settings.monoKey, .bool true),
      ("theme", .str "dark")]]))), .turn, .turn, .turn]

theorem answered_lookup_has_usable_settings :
    HasAskedNothing asking ∧ (∀ move ∈ answeredMoves, IsOfSettings move) ∧
      (BeginsAt asking answeredMoves 1 "file:///p/a.ink" 0 ∧
        (stage asking answeredMoves 7).result? 0 = some (.ok (.settings ⟨⟨[(Settings.mainStoryKey, .str "main.ink"),
          (Settings.executableKey, .null), (Settings.monoKey, .bool true), ("theme", .str "dark")]⟩⟩))) ∧
      HasUsableSettings asking answeredMoves := by
  have hasked : HasAskedNothing asking := ⟨rfl, rfl, rfl, rfl, rfl⟩
  have hmoves : ∀ move ∈ answeredMoves, IsOfSettings move := by simp [answeredMoves, IsOfSettings]
  exact ⟨hasked, hmoves, ⟨⟨rfl, fun h => by cases h⟩, rfl⟩, settings_are_always_usable hasked hmoves⟩

end Server

end InkServer
