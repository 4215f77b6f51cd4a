import InkServer.Proofs.Settings.Rest
import InkServer.Proofs.Settings.Sharing

/-!
# Runs of a server that looks settings up

Look-ups begin, requests come back with values or failures, callers are cancelled, documents are closed and the
configuration changes, in any order. A document has one request at a time, everybody who waits for it gets what it
comes back with, and a request that failed or was closed leaves all of them with the defaults.
-/

namespace InkServer.Server

open SettingsDesk

/-- A server that can ask for settings and has not asked for any. -/
structure HasAskedNothing (s : ServerState) : Prop where
  canAsk : SettingsLookup.canAsk s.settings = true
  current : s.settings.current = {}
  fetches : s.settings.fetches = {}
  requests : s.client.requests = []
  answers : s.client.answers = {}

variable (s : ServerState) (moves : List (Session.Move External))

/-- What look-ups work with after the first moves of a run. -/
def stage (n : Nat) : SettingsDesk := of (run s (moves.take n))

/-! ## What happens in a run -/

/-- In a move of a run a request for the settings of a document is made. -/
def MakesAt (k : Nat) (uri : String) (f : TaskId) : Prop := Makes (stage s moves k) (stage s moves (k + 1)) uri f

/-- Between two moves of a run the document is closed or the configuration changes. -/
def DropsBetween (i j : Nat) (uri : String) : Prop :=
  ∃ k move, i < k ∧ k < j ∧ moves[k]? = some move ∧ Drops uri move

/-- In a move of a run somebody begins to look up the settings of a document. -/
def BeginsAt (i : Nat) (uri : String) (t : TaskId) : Prop :=
  (stage s moves i).task? t = some (.created (.resolveSettings uri)) ∧
    (stage s moves (i + 1)).task? t ≠ some (.created (.resolveSettings uri))

/-- A request for a document that was made by then and that nothing had dropped before. -/
def IsShared (i : Nat) (uri : String) (f : TaskId) : Prop :=
  ∃ k ≤ i, MakesAt s moves k uri f ∧ ¬DropsBetween moves k i uri

/-- Somebody has been cancelled. -/
def IsCancelled (n : Nat) (t : TaskId) : Prop := ∃ k < n, moves[k]? = some (.cancels t)

/-- What a request for a document has been given: the answer that is known beforehand, or what the client replied
to that very request. -/
def IsGiven (n : Nat) (f : TaskId) (uri : String) (raw : Value) : Prop :=
  match s.settings.source with
  | .nobody => False
  | .answers byUri => SettingsRequest.answerFor byUri uri = .ok raw
  | .client => ∃ k index answer, k < n ∧ moves[k]? = some (.outside (.reply index (.ok answer))) ∧
    ((stage s moves k).requests[index]?).map ClientRequest.task = some f ∧ raw = SettingsRequest.firstItem answer

/-- What a request for a document has been answered, be it a failure. -/
def IsAnswered (n : Nat) (f : TaskId) (uri : String) (answer : Except Failure Value) : Prop :=
  match s.settings.source with
  | .nobody => False
  | .answers byUri => answer = SettingsRequest.answerFor byUri uri
  | .client => ∃ k index reply, k < n ∧ moves[k]? = some (.outside (.reply index reply)) ∧
    ((stage s moves k).requests[index]?).map ClientRequest.task = some f ∧
      answer = reply.map SettingsRequest.firstItem

/-- Somebody has been called off. -/
def IsCalledOff (n : Nat) (t : TaskId) : Prop :=
  ∃ k move, k < n ∧ moves[k]? = some move ∧ (stage s moves k).CallsOff move t

/-- How somebody stands after some moves who began in one of them to look up the settings of a document. -/
inductive Comes (n i : Nat) (uri : String) (t : TaskId) : Prop where
  /-- Who was cancelled may have given up. -/
  | givesUp (hc : IsCancelled moves n t) (hr : (stage s moves n).result? t = some (.error .cancelled))
  /-- Who still waits does so for a request that has not come back, once everybody has had their turns. -/
  | waits {f : TaskId} (hf : IsShared s moves i uri f)
    (ht : (stage s moves n).task? t = some (.waiting (.lookingUp ⟨uri, f⟩)))
    (ho : (stage s moves n).ready = [] → ((stage s moves n).fetch? f).bind SettingsFetch.outcome = none)
  /-- All others have what the request came back with, or the defaults. -/
  | gets {f : TaskId} (hf : IsShared s moves i uri f) (ha : (stage s moves n).Answered t uri f)

/-- The requests for settings in a run are shared. -/
structure SharesRequests : Prop where
  /-- A document is asked for again only if it was dropped or the request failed. -/
  once : ∀ i j uri f g, i < j → MakesAt s moves i uri f → MakesAt s moves j uri g →
    DropsBetween moves i j uri ∨ (stage s moves j).HasFailed f
  /-- Everybody who looks settings up comes to something. -/
  comes : ∀ i n uri t, i < n → BeginsAt s moves i uri t → Comes s moves n i uri t
  /-- Settings are those that the request was given. -/
  given : ∀ n f F v, (stage s moves n).fetch? f = some F → F.outcome = some (.ok v) →
    ∃ raw normalized, IsGiven s moves n f F.uri raw ∧ Settings.normalize raw = .ok normalized ∧
      v = normalized.settings
  /-- A request that is on its way when its document is closed is given up. -/
  closed : ∀ i n uri f F, i < n → moves[i]? = some (.outside (.closes uri)) →
    (stage s moves i).current? uri = some f → (stage s moves i).fetch? f = some F → F.outcome = none →
    ∃ F', (stage s moves n).fetch? f = some F' ∧ (F'.outcome = some (.error .cancelled) ∨
      F'.outcome = none ∧ (stage s moves n).ready ≠ [])
  /-- Everybody has had their turns after some more. -/
  rests : ∃ turns, (of (run s (moves ++ List.replicate turns .turn))).ready = []

/-! ## The steps of a run -/

variable {s moves} {i j n : Nat} {move : Session.Move External} {uri : String} {f t : TaskId}

theorem stage_zero : stage s moves 0 = of (Session.ofState s) := by
  unfold stage
  rw [List.take_zero]
  rfl

theorem run_take_succ (hm : moves[n]? = some move) :
    run s (moves.take (n + 1)) = (run s (moves.take n)).advance serverMachine External.act move := by
  unfold run
  rw [List.take_add_one, hm, Session.after_append]
  rfl

theorem stage_succ_of_none (hm : moves[n]? = none) : stage s moves (n + 1) = stage s moves n := by
  unfold stage
  rw [List.take_add_one, hm, Option.toList_none, List.append_nil]

theorem HasAskedNothing.serves (h : HasAskedNothing s) : Serves s.settings.source (Session.ofState s) := by
  have hfetch : ∀ t, s.settings.fetches.get? t = none := fun t => by rw [h.fetches]; rfl
  have htask : ∀ t, (Session.ofState s : Server).task? t = none := fun _ => rfl
  have hresult : ∀ t, (Session.ofState s : Server).result? t = none := fun _ => rfl
  refine ⟨⟨rfl, rfl, rfl, h.canAsk⟩, ⟨fun t _ => ⟨htask t, hresult t, hfetch t⟩,
    fun _ hw => absurd hw List.not_mem_nil, fun t x hx => ?_, fun t r hr => ?_, fun f F hF => ?_, fun uri f hc => ?_,
    fun _ ht => absurd ht List.not_mem_nil, fun r hr => ?_⟩⟩
  · cases (htask t).symm.trans hx
  · cases (hresult t).symm.trans hr
  · cases (hfetch f).symm.trans hF
  · change s.settings.current.get? uri = some f at hc
    rw [h.current] at hc
    cases hc
  · change r ∈ s.client.requests at hr
    rw [h.requests] at hr
    cases hr

/-- What every step keeps is kept by the rest of a run. -/
theorem stage_keeps {p : Nat → SettingsDesk → Prop} (hi : p i (stage s moves i))
    (later : ∀ n d, p n d → p (n + 1) d)
    (step : ∀ n move, i ≤ n → moves[n]? = some move → p n (stage s moves n) → p (n + 1) (stage s moves (n + 1))) :
    ∀ n, i ≤ n → p n (stage s moves n) := by
  intro n hn
  induction n, hn using Nat.le_induction with
  | base => exact hi
  | succ n hn ih =>
      cases hmove : moves[n]? with
      | none =>
          rw [stage_succ_of_none hmove]
          exact later n _ ih
      | some move => exact step n move hn hmove ih

theorem IsAnswered.isGiven {raw : Value} (ha : IsAnswered s moves n f uri (.ok raw)) : IsGiven s moves n f uri raw := by
  unfold IsAnswered at ha
  unfold IsGiven
  split at ha
  · exact ha
  · exact ha.symm
  · obtain ⟨k, index, reply, hk, hmove, hrequest, hanswer⟩ := ha
    cases reply with
    | error => cases hanswer
    | ok answer => exact ⟨k, index, answer, hk, hmove, hrequest, Except.ok.inj hanswer⟩

theorem IsCalledOff.succ (hoff : IsCalledOff s moves n t) : IsCalledOff s moves (n + 1) t :=
  let ⟨k, move, hk, hoff⟩ := hoff
  ⟨k, move, Nat.lt_succ_of_lt hk, hoff⟩

theorem DropsBetween.mono {j' : Nat} (hd : DropsBetween moves i j uri) (hj : j ≤ j') : DropsBetween moves i j' uri := by
  obtain ⟨k, move, hi, hk, hmove, hdrop⟩ := hd
  exact ⟨k, move, hi, Nat.lt_of_lt_of_le hk hj, hmove, hdrop⟩

section

variable (h : HasAskedNothing s) (hm : ∀ move ∈ moves, IsOfSettings move)
include h hm

theorem serves_run_take (n : Nat) : Serves s.settings.source (run s (moves.take n)) := by
  induction n with
  | zero => exact h.serves
  | succ n ih =>
      cases hn : moves[n]? with
      | none =>
          rw [List.take_add_one, hn, Option.toList_none, List.append_nil]
          exact ih
      | some move =>
          rw [run_take_succ hn]
          exact (ih.goes (hm move (List.mem_of_getElem? hn))).serves ih

theorem orderly_stage (n : Nat) : (stage s moves n).Orderly s.settings.source := (serves_run_take h hm n).orderly

/-- Every move of a run is a step. -/
theorem step_stage (hn : moves[n]? = some move) :
    SettingsDesk.Step s.settings.source (stage s moves n) move (stage s moves (n + 1)) := by
  have hgoes := (serves_run_take h hm n).goes (hm move (List.mem_of_getElem? hn))
  rw [← run_take_succ hn] at hgoes
  exact hgoes.step

/-! ## One request at a time -/

theorem MakesAt.current? (hmakes : MakesAt s moves i uri f) :
    (stage s moves i).current? uri = none ∧ (stage s moves (i + 1)).current? uri = some f := by
  cases hi : moves[i]? with
  | none =>
      obtain ⟨hn, hu⟩ := hmakes
      rw [stage_succ_of_none hi, hn] at hu
      cases hu
  | some move => exact Makes.current? hmakes (step_stage h hm hi)

/-- A request that was made holds until it is dropped or fails. -/
theorem MakesAt.holds (hmakes : MakesAt s moves i uri f) (hj : i < j) :
    (stage s moves j).current? uri = some f ∨ DropsBetween moves i j uri ∨ (stage s moves j).HasFailed f := by
  refine stage_keeps (p := fun j d => d.current? uri = some f ∨ DropsBetween moves i j uri ∨ d.HasFailed f)
    (.inl (hmakes.current? h hm).2) (fun n d => ?_) (fun n move hin hn ih => ?_) j hj
  · rintro (hc | hd | hf)
    · exact .inl hc
    · exact .inr (.inl (hd.mono (Nat.le_succ n)))
    · exact .inr (.inr hf)
  · have hstep := step_stage h hm hn
    rcases ih with hc | hd | hf
    · by_cases hdrop : Drops uri move
      · exact .inr (.inl ⟨n, move, hin, Nat.lt_succ_self n, hn, hdrop⟩)
      · refine (hstep.current? hc hdrop).imp_right fun hf => .inr (hf.step (orderly_stage h hm n) hstep)
    · exact .inr (.inl (hd.mono (Nat.le_succ n)))
    · exact .inr (.inr (hf.step (orderly_stage h hm n) hstep))

/-- What holds was made before and was not dropped since. -/
theorem exists_makesAt_of_current? (hc : (stage s moves n).current? uri = some f) :
    ∃ k < n, MakesAt s moves k uri f ∧ ¬DropsBetween moves k n uri := by
  induction n with
  | zero =>
      rw [stage_zero] at hc
      change s.settings.current.get? uri = some f at hc
      rw [h.current] at hc
      cases hc
  | succ n ih =>
      cases hn : moves[n]? with
      | none =>
          rw [stage_succ_of_none hn] at hc
          obtain ⟨k, hk, hmakes, hd⟩ := ih hc
          refine ⟨k, Nat.lt_succ_of_lt hk, hmakes, fun ⟨l, move, hkl, hl, hmove, hdrop⟩ => ?_⟩
          rcases Nat.lt_succ_iff_lt_or_eq.mp hl with hl | rfl
          · exact hd ⟨l, move, hkl, hl, hmove, hdrop⟩
          · cases hn.symm.trans hmove
      | some move =>
          rcases (step_stage h hm hn).of_current? (orderly_stage h hm n) hc with hmakes | ⟨hc, hdrop⟩
          · refine ⟨n, Nat.lt_succ_self n, hmakes, fun ⟨l, _, hnl, hl, _⟩ => ?_⟩
            exact Nat.lt_irrefl _ (Nat.lt_of_lt_of_le hnl (Nat.le_of_lt_succ hl))
          · obtain ⟨k, hk, hmakes, hd⟩ := ih hc
            refine ⟨k, Nat.lt_succ_of_lt hk, hmakes, fun ⟨l, move', hkl, hl, hmove, hdrop'⟩ => ?_⟩
            rcases Nat.lt_succ_iff_lt_or_eq.mp hl with hl | rfl
            · exact hd ⟨l, move', hkl, hl, hmove, hdrop'⟩
            · cases hn.symm.trans hmove
              exact hdrop hdrop'

/-! ## What look-ups come to -/

/-- Who is no request and is to give up was cancelled. -/
theorem isCancelled_of_wake {w : Wake} (hw : w ∈ (stage s moves n).ready) (hn : (stage s moves n).fetch? w.task = none)
    (hgo : w.signal ≠ .go) : IsCancelled moves n w.task := by
  induction n generalizing w with
  | zero => cases hw
  | succ n ih =>
      have hlater : IsCancelled moves n w.task → IsCancelled moves (n + 1) w.task := fun ⟨k, hk, hmove⟩ =>
        ⟨k, Nat.lt_succ_of_lt hk, hmove⟩
      cases hmove : moves[n]? with
      | none =>
          rw [stage_succ_of_none hmove] at hw hn
          exact hlater (ih hw hn hgo)
      | some move =>
          have hstep := step_stage h hm hmove
          have hn : (stage s moves n).fetch? w.task = none := by
            cases hF : (stage s moves n).fetch? w.task with
            | none => rfl
            | some F =>
                obtain ⟨F', hF', -⟩ := hstep.fetch? (orderly_stage h hm n) hF
                cases hn.symm.trans hF'
          rcases hstep.of_not_go hw hgo with ⟨w', hw', he, hgo'⟩ | hoff
          · rw [← he] at hn hlater ⊢
            exact hlater (ih hw' hn hgo')
          · exact ⟨n, Nat.lt_succ_self n, hoff.eq_cancels (orderly_stage h hm n) hn ▸ hmove⟩

theorem IsCancelled.of_givesUp (hg : GivesUp (stage s moves n) (stage s moves (n + 1)) t) :
    IsCancelled moves (n + 1) t ∧ (stage s moves (n + 1)).result? t = some (.error .cancelled) := by
  obtain ⟨⟨w, hw, rfl, hgo⟩, hn, hr⟩ := hg
  obtain ⟨k, hk, hmove⟩ := isCancelled_of_wake h hm hw hn hgo
  exact ⟨⟨k, Nat.lt_succ_of_lt hk, hmove⟩, hr⟩

/-- Who waits while everybody has had their turns waits for a request without an outcome. -/
theorem outcome_eq_none_at_rest (ht : (stage s moves n).task? t = some (.waiting (.lookingUp ⟨uri, f⟩)))
    (hr : (stage s moves n).ready = []) : ((stage s moves n).fetch? f).bind SettingsFetch.outcome = none := by
  obtain ⟨-, F, hF, -, hlooks⟩ := (orderly_stage h hm n).tasks t _ ht
  change (stage s moves n).fetch? f = some F at hF
  rw [hF, Option.bind_some]
  by_contra ho
  refine hlooks.woken ho ?_
  rw [hr]
  rfl

/-- Somebody who began to look settings up gives up, waits, or has what a shared request came back with. -/
theorem comes_of_beginsAt (hb : BeginsAt s moves i uri t) (hn : i < n) : Comes s moves n i uri t := by
  obtain ⟨ht, hbegun⟩ := hb
  cases hi : moves[i]? with
  | none =>
      rw [stage_succ_of_none hi] at hbegun
      exact absurd ht hbegun
  | some move =>
      have hfirst := (step_stage h hm hi).of_call (orderly_stage h hm i) ht
      have hall := stage_keeps (s := s) (i := i + 1)
        (p := fun n d => (IsCancelled moves n t ∧ d.result? t = some (.error .cancelled)) ∨ ∃ f,
          IsShared s moves i uri f ∧ (d.task? t = some (.waiting (.lookingUp ⟨uri, f⟩)) ∨ d.Answered t uri f))
        ?_ (fun n d => ?_) (fun n move hin (hmove : moves[n]? = some move) ih => ?_) n hn
      · rcases hall with ⟨hc, hr⟩ | ⟨f, hf, ht | ha⟩
        · exact .givesUp hc hr
        · exact .waits hf ht (outcome_eq_none_at_rest h hm ht)
        · exact .gets hf ha
      · rcases hfirst with hsame | hgives | ⟨f, hf, hcomes⟩
        · exact absurd hsame hbegun
        · exact .inl (IsCancelled.of_givesUp h hm hgives)
        · refine .inr ⟨f, ?_, hcomes⟩
          rcases hf with hmakes | hc
          · refine ⟨i, Nat.le_refl i, hmakes, fun ⟨k, _, hik, hki, _⟩ => ?_⟩
            exact Nat.lt_irrefl _ (Nat.lt_trans hik hki)
          · obtain ⟨k, hk, hmakes, hd⟩ := exists_makesAt_of_current? h hm hc
            exact ⟨k, Nat.le_of_lt hk, hmakes, hd⟩
      · exact Or.imp_left fun ⟨⟨k, hk, hmove⟩, hr⟩ => ⟨⟨k, Nat.lt_succ_of_lt hk, hmove⟩, hr⟩
      · have hstep := step_stage h hm hmove
        have horderly := orderly_stage h hm n
        rcases ih with ⟨⟨k, hk, hmove⟩, hr⟩ | ⟨f, hf, ht | ha⟩
        · exact .inl ⟨⟨k, Nat.lt_succ_of_lt hk, hmove⟩, hstep.result? horderly hr⟩
        · rcases hstep.of_lookingUp horderly ht with ht | hgives | ha
          · exact .inr ⟨f, hf, .inl ht⟩
          · exact .inl (IsCancelled.of_givesUp h hm hgives)
          · exact .inr ⟨f, hf, .inr ha⟩
        · exact .inr ⟨f, hf, .inr (ha.step horderly hstep)⟩

/-! ## What requests are given -/

/-- Answers are those that the client replied. -/
theorem exists_reply_of_answer? {answer : Except Failure Value} (ha : (stage s moves n).answer? t = some answer) :
    ∃ k index, k < n ∧ moves[k]? = some (.outside (.reply index answer)) ∧
      ((stage s moves k).requests[index]?).map ClientRequest.task = some t := by
  induction n with
  | zero =>
      rw [stage_zero] at ha
      change s.client.answers.get? t = some answer at ha
      rw [h.answers] at ha
      cases ha
  | succ n ih =>
      have hlater : (stage s moves n).answer? t = some answer → ∃ k index, k < n + 1 ∧
          moves[k]? = some (.outside (.reply index answer)) ∧
            ((stage s moves k).requests[index]?).map ClientRequest.task = some t := fun ha => by
        obtain ⟨k, index, hk, hmove⟩ := ih ha
        exact ⟨k, index, Nat.lt_succ_of_lt hk, hmove⟩
      cases hmove : moves[n]? with
      | none =>
          rw [stage_succ_of_none hmove] at ha
          exact hlater ha
      | some move =>
          rcases (step_stage h hm hmove).of_answer? ha with ha | ⟨index, rfl, hrequest⟩
          · exact hlater ha
          · exact ⟨n, index, Nat.lt_succ_self n, hmove, hrequest⟩

/-- What a request finds is what it has been answered. -/
theorem IsAnswered.of_finds {answer : Except Failure Value}
    (hf : Finds s.settings.source (stage s moves n) f uri answer) : IsAnswered s moves n f uri answer := by
  unfold IsAnswered
  cases hsource : s.settings.source with
  | nobody =>
    rw [hsource] at hf
    exact hf.elim
  | answers byUri =>
    rw [hsource] at hf
    exact hf
  | client =>
    rw [hsource] at hf
    obtain ⟨reply, hreply, hanswer⟩ := hf
    obtain ⟨k, index, hk, hmove, hrequest⟩ := exists_reply_of_answer? h hm hreply
    exact ⟨k, index, reply, hk, hmove, hrequest, hanswer⟩

/-- Who is told to give up was called off. -/
theorem isCalledOff_of_wake {w : Wake} (hw : w ∈ (stage s moves n).ready) (hgo : w.signal ≠ .go) :
    IsCalledOff s moves n w.task := by
  induction n generalizing w with
  | zero => cases hw
  | succ n ih =>
      cases hmove : moves[n]? with
      | none =>
          rw [stage_succ_of_none hmove] at hw
          exact (ih hw hgo).succ
      | some move =>
          rcases (step_stage h hm hmove).of_not_go hw hgo with ⟨w', hw', he, hgo'⟩ | hoff
          · exact he ▸ (ih hw' hgo').succ
          · exact ⟨n, move, Nat.lt_succ_self n, hmove, hoff⟩

end

theorem IsAnswered.succ {answer : Except Failure Value} (ha : IsAnswered s moves n f uri answer) :
    IsAnswered s moves (n + 1) f uri answer := by
  unfold IsAnswered at ha ⊢
  split at ha
  · exact ha
  · exact ha
  · obtain ⟨k, index, reply, hk, hrest⟩ := ha
    exact ⟨k, index, reply, Nat.lt_succ_of_lt hk, hrest⟩

section

variable (h : HasAskedNothing s) (hm : ∀ move ∈ moves, IsOfSettings move)
include h hm

/-- What a request came back with is that it was called off, or what it was answered. -/
theorem outcome_cases {F : SettingsFetch} {outcome : Except Failure Settings}
    (hF : (stage s moves n).fetch? f = some F) (ho : F.outcome = some outcome) :
    IsCalledOff s moves n f ∧ outcome = .error .cancelled ∨
      ∃ answer, IsAnswered s moves n f F.uri answer ∧ outcome = answer >>= SettingsRequest.ofAnswer := by
  induction n generalizing F with
  | zero =>
      rw [stage_zero] at hF
      change s.settings.fetches.get? f = some F at hF
      rw [h.fetches] at hF
      cases hF
  | succ n ih =>
      have hlater : ∀ {G}, (stage s moves n).fetch? f = some G → G.uri = F.uri → G.outcome = some outcome →
          IsCalledOff s moves (n + 1) f ∧ outcome = .error .cancelled ∨ ∃ answer,
            IsAnswered s moves (n + 1) f F.uri answer ∧ outcome = answer >>= SettingsRequest.ofAnswer :=
        fun hG hu hv => (ih hG hv).imp (fun ⟨hoff, ho⟩ => ⟨hoff.succ, ho⟩) fun ⟨answer, ha, ho⟩ =>
          ⟨answer, hu ▸ ha.succ, ho⟩
      cases hmove : moves[n]? with
      | none =>
          rw [stage_succ_of_none hmove] at hF
          exact hlater hF rfl ho
      | some move =>
          rcases (step_stage h hm hmove).of_outcome hF ho with ⟨G, hG, hu, hv⟩ | ⟨⟨w, hw, rfl, hgo⟩, ho⟩ | hfinds
          · exact hlater hG hu hv
          · exact .inl ⟨(isCalledOff_of_wake h hm hw hgo).succ, ho⟩
          · obtain ⟨answer, hfinds, ho⟩ := hfinds
            exact .inr ⟨answer, (IsAnswered.of_finds h hm hfinds).succ, ho⟩

/-- Settings that a request came back with are those that it was given. -/
theorem exists_isGiven {F : SettingsFetch} {v : Settings} (hF : (stage s moves n).fetch? f = some F)
    (hv : F.outcome = some (.ok v)) : ∃ raw normalized, IsGiven s moves n f F.uri raw ∧
      Settings.normalize raw = .ok normalized ∧ v = normalized.settings := by
  rcases outcome_cases h hm hF hv with ⟨-, ho⟩ | ⟨answer, ha, ho⟩
  · cases ho
  obtain ⟨raw, normalized, rfl, hn, rfl⟩ := SettingsRequest.exists_of_bind_ofAnswer ho.symm
  exact ⟨raw, normalized, ha.isGiven, hn, rfl⟩

/-- A request that is on its way when its document is closed is given up. -/
theorem isDoomed_of_closes {F : SettingsFetch} (hi : moves[i]? = some (.outside (.closes uri)))
    (hc : (stage s moves i).current? uri = some f) (hF : (stage s moves i).fetch? f = some F) (ho : F.outcome = none)
    (hn : i < n) : (stage s moves n).IsDoomed f :=
  stage_keeps (p := fun _ d => d.IsDoomed f) ((step_stage h hm hi).isDoomed rfl hc hF ho) (fun _ _ => id)
    (fun n _ _ hmove ih => ih.step (orderly_stage h hm n) (step_stage h hm hmove)) n hn

/-- In every run the requests for settings are shared: a document is asked for again only when it has to be, and
everybody who waits for a request gets what it came back with. -/
theorem requests_for_settings_are_shared : SharesRequests s moves where
  once i j uri f g hij hf hg := by
    rcases hf.holds h hm hij with hc | hrest
    · cases ((hg.current? h hm).1).symm.trans hc
    · exact hrest
  comes i n uri t hn hb := comes_of_beginsAt h hm hb hn
  given n f F v hF hv := exists_isGiven h hm hF hv
  closed i n uri f F hn hi hc hF ho := by
    obtain ⟨F', hF', hdoomed⟩ := isDoomed_of_closes h hm hi hc hF ho hn
    refine ⟨F', hF', hdoomed.imp_right fun ⟨ho, hhead⟩ => ⟨ho, fun hr => ?_⟩⟩
    rw [hr] at hhead
    cases hhead
  rests := by
    have hserves := serves_run_take h hm moves.length
    rw [List.take_length] at hserves
    obtain ⟨turns, hrest⟩ := hserves.exists_rest
    refine ⟨turns, ?_⟩
    unfold run
    rw [Session.after_append]
    exact hrest

end

/-- A server whose client knows of settings. -/
def asking : ServerState := { sample [] with settings := { source := .client, isCapable := true } }

/-- Two look-ups of one document share a request that fails, and a third one makes another. -/
def sharingMoves : List (Session.Move External) :=
  [.outside (.asks (.resolveSettings "file:///p/a.ink")), .outside (.asks (.resolveSettings "file:///p/a.ink")),
    .turn, .turn, .turn, .outside (.reply 0 (.error (.runtime "gone"))), .turn, .turn, .turn, .turn, .turn,
    .outside (.asks (.resolveSettings "file:///p/a.ink")), .turn]

theorem two_lookups_share_a_failed_request :
    HasAskedNothing asking ∧ (∀ move ∈ sharingMoves, IsOfSettings move) ∧
      (MakesAt asking sharingMoves 2 "file:///p/a.ink" 2 ∧ MakesAt asking sharingMoves 12 "file:///p/a.ink" 4) ∧
      ((stage asking sharingMoves 13).result? 0 = some (.ok (.settings .defaults)) ∧
        (stage asking sharingMoves 13).result? 1 = some (.ok (.settings .defaults))) ∧
      SharesRequests asking sharingMoves := by
  have hasked : HasAskedNothing asking := ⟨rfl, rfl, rfl, rfl, rfl⟩
  have hmoves : ∀ move ∈ sharingMoves, IsOfSettings move := by simp [sharingMoves, IsOfSettings]
  exact ⟨hasked, hmoves, ⟨⟨rfl, rfl⟩, rfl, rfl⟩, ⟨rfl, rfl⟩, requests_for_settings_are_shared hasked hmoves⟩

end InkServer.Server
