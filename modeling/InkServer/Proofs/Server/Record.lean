import InkServer.Proofs.Task.Acts
import InkServer.State

/-!
# Calls and what they put on record

Acts add to the record of the server and take nothing from it. What an act adds is told together with what it
returns, so that the record of a call can be put together from its turns.
-/

namespace InkServer.ServerAct

variable {τ α β : Type} {l : Loop ServerState Operation} {post post' : α → List Event → Prop}

/-- What an act adds to the record. -/
def adds (a : ServerAct α) (l : Loop ServerState Operation) : List Event :=
  (a.leaves l).state.events.drop l.state.events.length

/-- A call is its own turns, and between two of them anything may have happened. It has come as far as its last turn
says, and what counts of the record is what its own turns have added. -/
inductive Call (start : ServerAct (Step τ α)) (resume : τ → Signal → ServerAct (Step τ α)) :
    Step τ α → List Event → Loop ServerState Operation → Prop
  | begins (l : Loop ServerState Operation) : Call start resume (start.returns l) (start.adds l) (start.leaves l)
  | goesOn {state : τ} {record : List Event} {l : Loop ServerState Operation}
      (h : Call start resume (.waits state) record l) (signal : Signal) (l' : Loop ServerState Operation) :
      Call start resume ((resume state signal).returns l') (record ++ (resume state signal).adds l')
        ((resume state signal).leaves l')

/-- What a call comes to in a number of turns that follow the first, if others do the same before each of them. -/
def follow (start : ServerAct (Step τ α)) (resume : τ → Signal → ServerAct (Step τ α)) (others : ServerAct Unit)
    (l : Loop ServerState Operation) : Nat → Step τ α × List Event × Loop ServerState Operation
  | 0 => (start.returns l, start.adds l, start.leaves l)
  | n + 1 =>
    match follow start resume others l n with
    | (.waits state, record, l) =>
      let l := others.leaves l
      ((resume state .go).returns l, record ++ (resume state .go).adds l, (resume state .go).leaves l)
    | (.ends r, record, l) => (.ends r, record, l)

theorem call_follow (start : ServerAct (Step τ α)) (resume : τ → Signal → ServerAct (Step τ α))
    (others : ServerAct Unit) (l : Loop ServerState Operation) (n : Nat) :
    Call start resume (follow start resume others l n).1 (follow start resume others l n).2.1
      (follow start resume others l n).2.2 := by
  induction n with
  | zero => exact .begins l
  | succ n ih =>
      unfold follow
      split
      · rename_i he
        rw [he] at ih
        exact ih.goesOn .go _
      · rename_i he
        rw [he] at ih
        exact ih

theorem adds_eq {a : ServerAct α} {record : List Event} (h : (a.leaves l).state.events = l.state.events ++ record) :
    a.adds l = record := by
  unfold adds
  rw [h, List.drop_left]

/-- The course of a call: the signals that it was given, how far it has come and what its own turns have added to the
record. -/
inductive Course (start : ServerAct (Step τ α)) (resume : τ → Signal → ServerAct (Step τ α))
    (first : Loop ServerState Operation) : List Signal → Step τ α → List Event → Prop
  | begins : Course start resume first [] (start.returns first) (start.adds first)
  | goesOn {signals : List Signal} {state : τ} {record : List Event}
      (h : Course start resume first signals (.waits state) record) (signal : Signal)
      (l : Loop ServerState Operation) : Course start resume first (signals ++ [signal])
        ((resume state signal).returns l) (record ++ (resume state signal).adds l)

/-! ## What an act adds -/

/-- What an act returns and what it adds to the record. -/
def Records (a : ServerAct α) (l : Loop ServerState Operation) (post : α → List Event → Prop) : Prop :=
  ∃ record, (a.leaves l).state.events = l.state.events ++ record ∧ post (a.returns l) record

theorem Records.adds {a : ServerAct α} (h : Records a l post) : post (a.returns l) (a.adds l) := by
  obtain ⟨record, he, hp⟩ := h
  rw [adds_eq he]
  exact hp

theorem Records.mono {a : ServerAct α} (h : Records a l post) (hp : ∀ x record, post x record → post' x record) :
    Records a l post' :=
  let ⟨record, he, h⟩ := h
  ⟨record, he, hp _ record h⟩

theorem Records.pure {x : α} (h : post x []) : Records (pure x) l post := ⟨[], (List.append_nil _).symm, h⟩

theorem Records.bind {a : ServerAct β} {f : β → ServerAct α} {m : β → List Event → Prop} (h : Records a l m)
    (hf : ∀ x record l', m x record → Records (f x) l' fun y record' => post y (record ++ record')) :
    Records (a >>= f) l post := by
  obtain ⟨record, he, hm⟩ := h
  obtain ⟨record', he', hp⟩ := hf _ record (a.leaves l) hm
  exact ⟨record ++ record', by rw [Act.leaves_bind, he', he, List.append_assoc], hp⟩

theorem Records.silent {a : ServerAct α} (he : (a.leaves l).state.events = l.state.events) (h : post (a.returns l) []) :
    Records a l post :=
  ⟨[], by rw [he, List.append_nil], h⟩

theorem Records.after {a : ServerAct β} {f : β → ServerAct α} (he : (a.leaves l).state.events = l.state.events)
    (h : Records (f (a.returns l)) (a.leaves l) post) : Records (a >>= f) l post := by
  obtain ⟨record, he', hp⟩ := h
  exact ⟨record, by rw [Act.leaves_bind, he', he], hp⟩

theorem Records.noting {e : Event} {f : Unit → ServerAct α}
    (h : ∀ l', Records (f ()) l' fun x record => post x (e :: record)) : Records (note e >>= f) l post :=
  Records.bind (m := fun _ record => record = [e]) ⟨[e], rfl, rfl⟩ fun _ _ l' he => he ▸ h l'

theorem records_note {e : Event} {post : Unit → List Event → Prop} (h : post () [e]) : Records (note e) l post :=
  ⟨[e], rfl, h⟩

theorem records_state {f : ServerState → ServerAct α} : Records (Act.state >>= f) l post ↔ Records (f l.state) l post :=
  .rfl

theorem records_self {f : TaskId → ServerAct α} : Records (Act.self >>= f) l post ↔ Records (f l.current) l post := .rfl

/-! ## What a turn comes to -/

variable {β υ : Type} {step : Step τ α} {p : Step υ β → List Event → Loop ServerState Operation → Prop}
  {q q' : Step τ α → List Event → Loop ServerState Operation → Prop}

/-- What a turn comes to, what it adds to the record and what it leaves behind, unless it fails. -/
def Gets (a : ServerAct (Step τ α)) (l : Loop ServerState Operation)
    (q : Step τ α → List Event → Loop ServerState Operation → Prop) : Prop :=
  (∃ f, a.returns l = .fail f) ∨
    ∃ record, (a.leaves l).state.events = l.state.events ++ record ∧ q (a.returns l) record (a.leaves l)

theorem Gets.adds {a : ServerAct (Step τ α)} (h : Gets a l q) (hf : ∀ f record l', q (.fail f) record l') :
    q (a.returns l) (a.adds l) (a.leaves l) := by
  rcases h with ⟨f, hr⟩ | ⟨record, he, hq⟩
  · rw [hr]
    exact hf f _ _
  · rw [adds_eq he]
    exact hq

theorem Gets.fails {f : Failure} : Gets (pure (.fail f)) l q := .inl ⟨f, rfl⟩

theorem Gets.pure (h : q step [] l) : Gets (pure step) l q := .inr ⟨[], (List.append_nil _).symm, h⟩

theorem Gets.mono {a : ServerAct (Step τ α)} (h : Gets a l q)
    (hq : ∀ step record l', q step record l' → q' step record l') : Gets a l q' :=
  h.imp_right fun ⟨record, he, h⟩ => ⟨record, he, hq _ record _ h⟩

theorem Gets.after {a : ServerAct β} {f : β → ServerAct (Step τ α)} (record : List Event)
    (he : (a.leaves l).state.events = l.state.events ++ record)
    (h : Gets (f (a.returns l)) (a.leaves l) fun step more l' => q step (record ++ more) l') : Gets (a >>= f) l q :=
  h.imp_right fun ⟨more, he', h⟩ => ⟨record ++ more, by rw [Act.leaves_bind, he', he, List.append_assoc], h⟩

theorem gets_workspace? {id : WorkspaceId} {f : Option Workspace → ServerAct (Step τ α)} :
    Gets (workspace? id >>= f) l q ↔ Gets (f l.state.workspaces[id]?) l q := Iff.rfl

theorem Gets.withWorkspace {id : WorkspaceId} {absent : ServerAct (Step τ α)} {f : Workspace → ServerAct (Step τ α)}
    (ha : Gets absent l q) (hf : ∀ w, l.state.workspaces[id]? = some w → Gets (f w) l q) :
    Gets (withWorkspace id absent f) l q := by
  unfold ServerAct.withWorkspace
  rw [gets_workspace?]
  split
  · rename_i w hw
    exact hf w hw
  · exact ha

/-- A part of an operation, and what comes after it if it succeeds. -/
theorem Gets.andThen {part : ServerAct (Step υ β)} {wrap : υ → τ} {next : β → ServerAct (Step τ α)}
    (h : Gets part l p) (hw : ∀ state record l', p (.waits state) record l' → q (.waits (wrap state)) record l')
    (hn : ∀ x record l', p (.done x) record l' → Gets (next x) l' fun step more l'' => q step (record ++ more) l'') :
    Gets (Act.andThen part wrap next) l q := by
  unfold Act.andThen Act.afterwards
  rcases h with ⟨f, hr⟩ | ⟨record, he, hp⟩
  · unfold Gets
    rw [Act.returns_bind, hr]
    exact .inl ⟨f, rfl⟩
  · refine Gets.after record he ?_
    split
    · rename_i state hr
      rw [hr] at hp
      refine .pure ?_
      rw [List.append_nil]
      exact hw state record _ hp
    · rename_i r hr
      rw [hr] at hp
      cases r with
      | error f => exact .fails
      | ok x => exact hn x record _ hp

end InkServer.ServerAct
