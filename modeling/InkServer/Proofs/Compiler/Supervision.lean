import InkServer.Compiler.Invocation
import InkServer.Proofs.Server.Record

/-!
# No compiler outlives its request

A compiler may end by itself or never, before or after its time is over, or just when it is to be killed, and whoever
waits for it may be called off at any time. `Fate` says how an invocation stands after the signals that it was given
since its process was started. It is kept by every turn, and what becomes of the process is read off it.
-/

namespace InkServer.Invocation

open ServerAct

variable {l : Loop ServerState Operation} {p : CompilerProcess} {signals : List Signal} {expired : Bool}
  {step : Step Invocation CompilerReport} {record : List Event}

/-! ## What an invocation puts on record -/

/-- What is put on record when a process that was given up is put to its end. -/
def ending (p : CompilerProcess) : Event := if p.behaviour.endsFirst then .exited else .killed

theorem records_exit (p : CompilerProcess) : Records (exit p) l fun _ record => record = [.exited] := by
  unfold exit
  refine Records.after rfl (.noting fun l' => ?_)
  split
  · exact .silent rfl rfl
  · exact .pure rfl

theorem records_ended (p : CompilerProcess) : Records (ended p) l fun step record =>
    record = [.exited, .reaped] ∧ (p.limit = none ∧ step = .done (report p) ∨
      p.limit ≠ none ∧ step = .waits (.collecting p)) := by
  unfold ended
  refine (records_exit p).bind fun _ record l₁ he => ?_
  subst he
  refine .noting fun l₂ => ?_
  split
  · rename_i hl
    exact .pure ⟨rfl, .inl ⟨hl, rfl⟩⟩
  · rename_i hl
    rw [records_self]
    refine Records.after rfl (.pure ⟨rfl, .inr ⟨?_, rfl⟩⟩)
    rw [hl]
    exact Option.some_ne_none _

theorem records_stop (p : CompilerProcess) (expired : Bool) : Records (stop p expired) l fun step record =>
    record = [] ∧ step = .waits (.stopping p expired) :=
  Records.after rfl (records_self.mpr (.after rfl (.pure ⟨rfl, rfl⟩)))

theorem records_reap (p : CompilerProcess) (expired : Bool) : Records (reap p expired) l fun step record =>
    record = [.reaped] ∧ step = .fail (failure p expired) :=
  .noting fun _ => .pure ⟨rfl, rfl⟩

theorem records_putToEnd (p : CompilerProcess) : Records (putToEnd p) l fun _ record => record = [ending p] := by
  unfold putToEnd ending
  split
  · exact records_exit p
  · exact records_note rfl

theorem records_kill (p : CompilerProcess) (expired : Bool) : Records (kill p expired) l fun step record =>
    record = [ending p] ∧ step = .waits (.reaping p expired) ∨
      record = [ending p, .reaped] ∧ step = .fail (failure p expired) := by
  refine (records_putToEnd p).bind fun _ record l₁ he => ?_
  subst he
  unfold awaitEnd
  split
  · exact .silent rfl (.inl ⟨rfl, rfl⟩)
  · refine (records_reap p expired).mono fun _ _ ⟨hr, hs⟩ => .inr ⟨?_, hs⟩
    rw [hr]
    rfl

/-! ## The fate of a process -/

/-- The signals by which a process is given up, and whether that is for want of time. -/
inductive IsGivenUp (p : CompilerProcess) : List Signal → Bool → Prop where
  /-- No time was given to it at all. -/
  | late {limit : Seconds} (hl : p.limit = some limit) (hp : limit.hasPassed = true) : IsGivenUp p [] true
  | expired : IsGivenUp p [.timedOut] true
  | calledOff {signal : Signal} (hgo : signal ≠ .go) (ht : signal ≠ .timedOut) : IsGivenUp p [signal] false

/-- The signals by which a process is put to its end, and whether that is for want of time. -/
inductive IsPutToEnd (p : CompilerProcess) : List Signal → Bool → Prop where
  | inTurn {signals : List Signal} {expired : Bool} (h : IsGivenUp p signals expired) :
      IsPutToEnd p (signals ++ [.go]) expired
  /-- Whoever was waiting for the end is called off. -/
  | disturbed {signals : List Signal} {expired : Bool} (h : IsGivenUp p signals expired) {signal : Signal}
      (hs : signal ≠ .go) : IsPutToEnd p (signals ++ [signal]) false
  /-- Without a limit there is nothing between the process and who waits for it. -/
  | atOnce {signal : Signal} (hl : p.limit = none) (hgo : signal ≠ .go) (ht : signal ≠ .timedOut) :
      IsPutToEnd p [signal] false

def HasTime (p : CompilerProcess) : Prop := ∀ limit, p.limit = some limit → limit.hasPassed = false

/-- How an invocation stands after some signals since its process was started, and what is on record since then. -/
inductive Fate (p : CompilerProcess) : List Signal → Step Invocation CompilerReport → List Event → Prop where
  | runs (ht : HasTime p) : Fate p [] (.waits (.running p)) []
  | collects (ht : HasTime p) : Fate p [.go] (.waits (.collecting p)) [.exited, .reaped]
  | reports (ht : HasTime p) {signals : List Signal}
      (hs : signals = [] ∨ ∃ rest, rest.length ≤ 1 ∧ signals = .go :: rest) :
      Fate p signals (.done (report p)) [.exited, .reaped]
  | stops {signals : List Signal} {expired : Bool} (h : IsGivenUp p signals expired) :
      Fate p signals (.waits (.stopping p expired)) []
  | reaps {signals : List Signal} {expired : Bool} (h : IsPutToEnd p signals expired) :
      Fate p signals (.waits (.reaping p expired)) [ending p]
  | fails {signals : List Signal} {expired : Bool}
      (h : IsPutToEnd p signals expired ∨ ∃ before, IsPutToEnd p before expired ∧ signals = before ++ [.go]) :
      Fate p signals (.fail (failure p expired)) [ending p, .reaped]
  /-- Whoever was waiting for the end of the process was called off again. -/
  | abandons {signals : List Signal} {expired : Bool} (h : IsPutToEnd p signals expired) {signal : Signal}
      (hs : signal ≠ .go) : Fate p (signals ++ [signal]) (.fail .cancelled) [ending p]

theorem fate_await (p : CompilerProcess) : Records (await p) l (Fate p []) := by
  unfold await
  rw [records_self]
  split
  · rename_i hl
    have ht : HasTime p := fun limit hl' => by cases hl.symm.trans hl'
    split
    · exact .pure (.runs ht)
    · split
      · exact .silent rfl (.runs ht)
      · refine (records_ended p).mono fun _ _ ⟨hr, hs⟩ => ?_
        rcases hs with ⟨-, rfl⟩ | ⟨hnot, -⟩
        · rw [hr]
          exact .reports ht (.inl rfl)
        · exact absurd hl hnot
  · rename_i limit hl
    split
    · rename_i hp
      refine (records_stop p true).mono fun _ _ ⟨hr, hs⟩ => ?_
      rw [hr, hs]
      exact .stops (.late hl hp)
    · rename_i hp
      have ht : HasTime p := fun limit' hl' => by
        cases hl.symm.trans hl'
        exact Bool.eq_false_iff.mpr hp
      have hruns : ∀ l', Records (if p.behaviour.hangs then pure (.waits (.running p))
          else if p.behaviour.held then Act.waitAt "compile" (.running p)
          else do
            Act.wake l.current .go 0
            pure (.waits (.running p)) : ServerAct (Step Invocation CompilerReport)) l' (Fate p []) := by
        intro l'
        split
        · exact .pure (.runs ht)
        · split
          · exact .silent rfl (.runs ht)
          · exact .after rfl (.pure (.runs ht))
      cases limit.isShort with
      | true => exact Records.after rfl (hruns _)
      | false => exact hruns l

theorem fate_ended (ht : HasTime p) : Records (ended p) l (Fate p [.go]) := by
  refine (records_ended p).mono fun _ _ ⟨hr, hs⟩ => ?_
  rw [hr]
  rcases hs with ⟨-, rfl⟩ | ⟨-, rfl⟩
  · exact .reports ht (.inr ⟨[], Nat.zero_le 1, rfl⟩)
  · exact .collects ht

theorem fate_stop (h : IsGivenUp p signals expired) : Records (stop p expired) l (Fate p signals) := by
  refine (records_stop p expired).mono fun _ _ ⟨hr, hs⟩ => ?_
  rw [hr, hs]
  exact .stops h

theorem fate_kill (h : IsPutToEnd p signals expired) : Records (kill p expired) l (Fate p signals) := by
  refine (records_kill p expired).mono fun _ _ hcases => ?_
  rcases hcases with ⟨hr, hs⟩ | ⟨hr, hs⟩
  · rw [hr, hs]
    exact .reaps h
  · rw [hr, hs]
    exact .fails (.inl h)

theorem fate_calledOff {signal : Signal} (hgo : signal ≠ .go) (ht : signal ≠ .timedOut) :
    Records (resume (.running p) signal) l (Fate p [signal]) := by
  have hresume : resume (.running p) signal = resume (.running p) .cancelled := by
    cases signal with
    | go => exact absurd rfl hgo
    | timedOut => exact absurd rfl ht
    | cancelled | failed => rfl
  rw [hresume]
  unfold resume
  dsimp only
  split
  · rename_i hl
    exact Records.after rfl (fate_kill (.atOnce hl hgo ht))
  · exact fate_stop (.calledOff hgo ht)

theorem Fate.goesOn {state : Invocation} (h : Fate p signals (.waits state) record) (signal : Signal) :
    Records (resume state signal) l fun step more => Fate p (signals ++ [signal]) step (record ++ more) := by
  cases h with
  | runs ht =>
      cases signal with
      | go => exact fate_ended ht
      | timedOut => exact fate_stop .expired
      | cancelled | failed => exact fate_calledOff nofun nofun
  | collects ht => exact .pure (.reports ht (.inr ⟨[signal], Nat.le_refl 1, rfl⟩))
  | stops h =>
      cases signal with
      | go => exact fate_kill (.inTurn h)
      | _ => exact fate_kill (.disturbed h nofun)
  | @reaps _ expired h =>
      cases signal with
      | go =>
          refine (records_reap p expired).mono fun _ _ ⟨hr, hs⟩ => ?_
          rw [hr, hs]
          exact .fails (.inr ⟨_, h, rfl⟩)
      | _ => exact .pure (.abandons h nofun)

/-! ## Starting a process -/

variable {first : Loop ServerState Operation} {mirror : Path} {settings : Settings} {entry output : Option Path}

/-- How an invocation ends that never has a process. -/
inductive NeverStarts (first : Loop ServerState Operation) (mirror : Path) (settings : Settings)
    (entry : Option Path) : Step Invocation CompilerReport → List Event → Prop where
  | noEntry {f : Failure} (h : Compiler.entryPath settings entry = .error f) :
      NeverStarts first mirror settings entry (.fail f) []
  | noCommand {f : Failure} {command : List Value} (h : Compiler.words command = .error f) :
      NeverStarts first mirror settings entry (.fail f) []
  | refused {story : Path} {words : List String} {e : OsError}
      (h : ((nextBehaviour mirror story).returns first).refusal = some e) :
      NeverStarts first mirror settings entry (.fail (.compiler (.notStarted (words.headD "") e)))
        [.spawned words mirror]

/-- The process that an invocation starts. -/
structure Starts (first : Loop ServerState Operation) (mirror : Path) (settings : Settings)
    (entry output : Option Path) (p : CompilerProcess) : Prop where
  entry_eq : Compiler.entryPath settings entry = .ok p.entry
  mirror_eq : p.mirror = mirror
  limit_eq : p.limit = first.state.compiler.timeout
  behaviour_eq : p.behaviour = (nextBehaviour mirror p.entry).returns first
  output_eq : p.output = output.getD (Mirror.outputPath ⟨mirror⟩)
  refusal_eq : p.behaviour.refusal = none

theorem events_nextBehaviour (directory entry : Path) :
    ((nextBehaviour directory entry).leaves l).state.events = l.state.events := by
  unfold nextBehaviour
  rw [Act.leaves_bind, Act.returns_state, Act.leaves_state]
  split <;> rfl

theorem records_start : Records (start mirror settings entry output) first fun step record =>
    NeverStarts first mirror settings entry step record ∨ ∃ words p since,
      record = .spawned words mirror :: since ∧ Starts first mirror settings entry output p ∧ Fate p [] step since := by
  unfold start
  rw [records_state]
  split
  · rename_i f he
    exact .pure (.inl (.noEntry he))
  · rename_i story he
    dsimp only
    split
    · rename_i f hw
      exact .pure (.inl (.noCommand hw))
    · rename_i words hw
      refine Records.after (events_nextBehaviour mirror story) (.noting fun l' => ?_)
      split
      · rename_i e hr
        exact .pure (.inl (.refused hr))
      · rename_i hr
        refine (fate_await _).mono fun step since hf => .inr ⟨words, _, since, rfl, ?_, hf⟩
        exact ⟨he, rfl, rfl, rfl, rfl, hr⟩

/-! ## What becomes of a process -/

/-- The signals of a process whose time is over: there was none from the start, or it ran out first, and nobody was
called off. -/
def IsOverdue (limit : Seconds) (signals : List Signal) : Prop :=
  limit.hasPassed = true ∧ (∀ signal ∈ signals, signal = .go) ∨
    limit.hasPassed = false ∧ ∃ rest, signals = .timedOut :: rest ∧ ∀ signal ∈ rest, signal = .go

/-- A process is looked after until it ends, by itself or because it is put to its end. -/
structure IsSupervised (p : CompilerProcess) (signals : List Signal) (step : Step Invocation CompilerReport)
    (record : List Event) : Prop where
  /-- The invocation does not end before the process has ended or was killed. -/
  ends : ∀ r, step = .ends r → .exited ∈ record ∨ .killed ∈ record
  /-- A process that ends in time is not killed, and its status and what it printed are reported. -/
  inTime : (∀ signal ∈ signals, signal = .go) → HasTime p → .killed ∉ record ∧ ∀ r, step = .ends r → r = .ok
    { output := dropMarks (Text.Utf8.decode p.behaviour.output)
      exitStatus := p.behaviour.status.getD (-1)
      entry := p.entry
      mirror := p.mirror }
  /-- Whoever waits for a process whose time is over is told so. -/
  expires : ∀ limit, p.limit = some limit → IsOverdue limit signals →
    ∀ r, step = .ends r → r = .error (.compiler (.timedOut limit))
  /-- The end of the process is waited for, unless whoever waits for it after it was killed is called off again. -/
  reaped : ∀ r, step = .ends r → .reaped ∈ record ∨ ∃ before expired signal,
    IsPutToEnd p before expired ∧ signal ≠ .go ∧ signals = before ++ [signal]
  /-- Nothing keeps an invocation waiting for longer. -/
  soon : signals.length ≤ 3

theorem mem_of_ending (p : CompilerProcess) (more : List Event) :
    .exited ∈ ending p :: more ∨ .killed ∈ ending p :: more := by
  unfold ending
  split
  · exact .inl List.mem_cons_self
  · exact .inr List.mem_cons_self

theorem IsGivenUp.length_le (h : IsGivenUp p signals expired) : signals.length ≤ 1 := by
  cases h <;> simp

theorem IsPutToEnd.length_le (h : IsPutToEnd p signals expired) : signals.length ≤ 2 := by
  cases h with
  | inTurn h | disturbed h =>
      rw [List.length_append]
      exact Nat.succ_le_succ h.length_le
  | atOnce => exact Nat.le_succ 1

theorem Fate.length_le (h : Fate p signals step record) : signals.length ≤ 3 := by
  cases h with
  | runs | collects => simp
  | reports _ hs =>
      rcases hs with rfl | ⟨rest, hrest, rfl⟩
      · exact Nat.zero_le 3
      · exact Nat.le_succ_of_le (Nat.succ_le_succ hrest)
  | stops h => exact Nat.le_trans h.length_le (by decide)
  | reaps h => exact Nat.le_succ_of_le h.length_le
  | fails h =>
      rcases h with h | ⟨before, h, rfl⟩
      · exact Nat.le_succ_of_le h.length_le
      · rw [List.length_append]
        exact Nat.succ_le_succ h.length_le
  | abandons h hs =>
      rw [List.length_append]
      exact Nat.succ_le_succ h.length_le

theorem IsGivenUp.hasPassed (h : IsGivenUp p signals expired) (hgo : ∀ signal ∈ signals, signal = .go) :
    expired = true ∧ ∃ limit, p.limit = some limit ∧ limit.hasPassed = true := by
  cases h with
  | late hl hp => exact ⟨rfl, _, hl, hp⟩
  | expired => cases hgo _ (List.mem_singleton_self _)
  | calledOff hne => exact absurd (hgo _ (List.mem_singleton_self _)) hne

theorem IsPutToEnd.hasPassed (h : IsPutToEnd p signals expired) (hgo : ∀ signal ∈ signals, signal = .go) :
    expired = true ∧ ∃ limit, p.limit = some limit ∧ limit.hasPassed = true := by
  cases h with
  | inTurn h => exact h.hasPassed fun signal hm => hgo signal (List.mem_append_left _ hm)
  | disturbed h hs => exact absurd (hgo _ (List.mem_append_right _ (List.mem_singleton_self _))) hs
  | atOnce hl hne => exact absurd (hgo _ (List.mem_singleton_self _)) hne

theorem IsPutToEnd.ne_nil (h : IsPutToEnd p signals expired) : signals ≠ [] := by
  cases h <;> simp

/-- Whoever is not called off before the process is put to its end, and has been told that its time is over, has it
given up for want of time. -/
theorem IsPutToEnd.expired_of_isOverdue (h : IsPutToEnd p signals expired) {limit : Seconds}
    (ho : IsOverdue limit signals) (hl : p.limit = some limit) : expired = true := by
  rcases ho with ⟨-, hgo⟩ | ⟨hp, rest, hs, hgo⟩
  · exact (h.hasPassed hgo).1
  cases h with
  | inTurn h =>
      cases h with
      | late => cases hs
      | expired => rfl
      | calledOff _ ht =>
          cases hs
          exact absurd rfl ht
  | disturbed h hne =>
      cases h with
      | late hl' hp' =>
          cases hl.symm.trans hl'
          cases hp.symm.trans hp'
      | expired =>
          cases hs
          exact absurd (hgo _ (List.mem_singleton_self _)) hne
      | calledOff _ ht =>
          cases hs
          exact absurd rfl ht
  | atOnce _ _ ht =>
      cases hs
      exact absurd rfl ht

theorem IsOverdue.of_append {limit : Seconds} {before : List Signal} {signal : Signal}
    (ho : IsOverdue limit (before ++ [signal])) (hne : before ≠ []) : IsOverdue limit before ∧ signal = .go := by
  rcases ho with ⟨hp, hgo⟩ | ⟨hp, rest, hs, hgo⟩
  · exact ⟨.inl ⟨hp, fun s hm => hgo s (List.mem_append_left _ hm)⟩, hgo _ (List.mem_append_right _ (List.mem_singleton_self _))⟩
  · cases before with
    | nil => exact absurd rfl hne
    | cons first more =>
        cases hs
        exact ⟨.inr ⟨hp, more, rfl, fun s hm => hgo s (List.mem_append_left _ hm)⟩,
          hgo _ (List.mem_append_right _ (List.mem_singleton_self _))⟩

theorem Fate.inTime (h : Fate p signals step record) (hgo : ∀ signal ∈ signals, signal = .go) (ht : HasTime p) :
    .killed ∉ record ∧ ∀ r, step = .ends r → r = .ok (report p) := by
  -- Without a call off, what is put to its end was late from the start.
  have hput : ∀ {before : List Signal} {expired : Bool}, IsPutToEnd p before expired →
      ¬∀ signal ∈ before, signal = .go := fun h hgo => by
    obtain ⟨-, limit, hl, hp⟩ := h.hasPassed hgo
    cases (ht limit hl).symm.trans hp
  cases h with
  | runs | collects | stops => exact ⟨by simp, fun _ hr => by cases hr⟩
  | reports => exact ⟨by simp, fun r hr => (Step.ends.inj hr).symm⟩
  | reaps h => exact absurd hgo (hput h)
  | fails h =>
      rcases h with h | ⟨before, h, rfl⟩
      · exact absurd hgo (hput h)
      · exact absurd (fun s hm => hgo s (List.mem_append_left _ hm)) (hput h)
  | abandons h => exact absurd (fun s hm => hgo s (List.mem_append_left _ hm)) (hput h)

theorem Fate.expires (h : Fate p signals step record) {limit : Seconds} (hl : p.limit = some limit)
    (ho : IsOverdue limit signals) : ∀ r, step = .ends r → r = .error (.compiler (.timedOut limit)) := by
  have hfailure : failure p true = .compiler (.timedOut limit) := by
    unfold failure
    rw [hl]
  intro r hr
  cases h with
  | runs | collects | stops | reaps => cases hr
  | reports ht hs =>
      rcases ho with ⟨hp, -⟩ | ⟨-, rest, rfl, -⟩
      · cases (ht limit hl).symm.trans hp
      · rcases hs with hs | ⟨_, _, hs⟩ <;> cases hs
  | fails h =>
      rw [← Step.ends.inj hr]
      rcases h with h | ⟨before, h, rfl⟩
      · rw [h.expired_of_isOverdue ho hl, hfailure]
      · rw [h.expired_of_isOverdue (ho.of_append h.ne_nil).1 hl, hfailure]
  -- A process whose time is over is waited for by nobody who is called off.
  | abandons h hs => exact absurd (ho.of_append h.ne_nil).2 hs

theorem Fate.isSupervised (h : Fate p signals step record) : IsSupervised p signals step record where
  ends r hr := by
    cases h with
    | runs | collects | stops | reaps => cases hr
    | reports => exact .inl List.mem_cons_self
    | fails | abandons => exact mem_of_ending p _
  inTime := h.inTime
  expires _ := h.expires
  reaped r hr := by
    cases h with
    | runs | collects | stops | reaps => cases hr
    | reports | fails => exact .inl (List.mem_cons_of_mem _ (List.mem_singleton_self _))
    | abandons h hs => exact .inr ⟨_, _, _, h, hs, rfl⟩
  soon := h.length_le

/-- A process that never ends by itself and has half a minute. -/
def stuck : CompilerProcess where
  behaviour := { hangs := true, lingers := true }
  output := .ofText "m.json"
  entry := .ofText "main.ink"
  mirror := .ofText "m"
  limit := some (.whole 30)

/-- A server whose next compiler gets stuck. -/
def beforeStuck : Loop ServerState Operation where
  state :=
    { policy := { extensions := [".ink"], tempRoot := .ofText "/m" }
      behaviours := [some stuck.behaviour]
      compiler := { timeout := stuck.limit } }

end InkServer.Invocation
