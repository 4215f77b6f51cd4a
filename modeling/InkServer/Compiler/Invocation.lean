import InkServer.State

/-!
# Running the compiler

A compiler is started in a mirror and its report is collected. It is killed when it exceeds its time or
when nobody waits for it any more, and its end is waited for; otherwise the invocation ends when the
process does.
-/

namespace InkServer

open ServerAct

/-- A compiler process that was started: how it behaves, where its output goes, and what its report will
be about. -/
structure CompilerProcess where
  behaviour : Behaviour
  output : Path
  entry : Path
  mirror : Path
  limit : Option Seconds

/-- Where an invocation of the compiler waits. -/
inductive Invocation where
  /-- The process runs. -/
  | running (process : CompilerProcess)
  /-- The process has ended. -/
  | collecting (process : CompilerProcess)
  /-- The process is about to be killed, for want of time or because nobody waits for it. -/
  | stopping (process : CompilerProcess) (expired : Bool)
  /-- The process was given up and its end is waited for. -/
  | reaping (process : CompilerProcess) (expired : Bool)

namespace Invocation

/-- The characters that mark text as Unicode and are no part of it. -/
def dropMarks (text : String) : String :=
  String.ofList (text.toList.dropWhile (· = '\ufeff'))

/-- The report of a process that has ended. -/
def report (p : CompilerProcess) : CompilerReport where
  output := dropMarks (Text.Utf8.decode p.behaviour.output)
  exitStatus := p.behaviour.status.getD (-1)
  entry := p.entry
  mirror := p.mirror

/-- How the next process behaves. -/
def nextBehaviour (directory entry : Path) : ServerAct Behaviour := do
  let s ← Act.state
  match s.behaviours with
  | some b :: rest =>
    Act.setState { s with behaviours := rest }
    pure b
  | rest =>
    let (b, disk) := (Behaviour.ofEntry directory entry).run s.disk
    Act.setState { s with disk, behaviours := rest.drop 1 }
    pure b

/-- No time runs against the process any more. -/
def stopTimer : ServerAct Unit := do
  let task ← Act.self
  Act.modifyState fun s => { s with timers := s.timers.filter (· ≠ task) }

/-- The process ends; a successful one leaves the compiled story behind. -/
def exit (p : CompilerProcess) : ServerAct Unit := do
  stopTimer
  note .exited
  if p.behaviour.status = some 0 then
    Act.modifyState fun s => { s with disk := ((Behaviour.writeOutput p.output).run s.disk).2 }

/-- The process has ended and its report is collected. -/
def ended (p : CompilerProcess) : ServerAct (Step Invocation CompilerReport) := do
  exit p
  note .reaped
  match p.limit with
  | none => pure (.done (report p))
  | some _ =>
    Act.wake (← Act.self) .go 1
    pure (.waits (.collecting p))

/-- What an invocation fails with whose process was given up. -/
def failure (p : CompilerProcess) (expired : Bool) : Failure :=
  match expired, p.limit with
  | true, some limit => .compiler (.timedOut limit)
  | _, _ => .cancelled

/-- The end of a process that was given up has been waited for. -/
def reap (p : CompilerProcess) (expired : Bool) : ServerAct (Step Invocation CompilerReport) := do
  note .reaped
  pure (.fail (failure p expired))

/-- Kills the process unless it is seen to have ended. -/
def putToEnd (p : CompilerProcess) : ServerAct Unit :=
  if p.behaviour.endsFirst then exit p else note .killed

/-- Waits for the end of a process that was given up. -/
def awaitEnd (p : CompilerProcess) (expired : Bool) : ServerAct (Step Invocation CompilerReport) :=
  if p.behaviour.lingers then Act.waitAt "compile" (.reaping p expired) else reap p expired

/-- Puts an end to the process and to the invocation. -/
def kill (p : CompilerProcess) (expired : Bool) : ServerAct (Step Invocation CompilerReport) := do
  putToEnd p
  awaitEnd p expired

/-- Gives the process up. -/
def stop (p : CompilerProcess) (expired : Bool) : ServerAct (Step Invocation CompilerReport) := do
  stopTimer
  Act.wake (← Act.self) .go 2
  pure (.waits (.stopping p expired))

/-- Waits for a process that was started. -/
def await (p : CompilerProcess) : ServerAct (Step Invocation CompilerReport) := do
  let task ← Act.self
  match p.limit with
  | none =>
    if p.behaviour.hangs then pure (.waits (.running p))
    else if p.behaviour.held then Act.waitAt "compile" (.running p)
    else ended p
  | some limit =>
    if limit.hasPassed then stop p true
    else
      if limit.isShort then
        Act.modifyState fun s => { s with timers := s.timers ++ [task] }
      if p.behaviour.hangs then pure (.waits (.running p))
      else if p.behaviour.held then Act.waitAt "compile" (.running p)
      else
        Act.wake task .go 0
        pure (.waits (.running p))

/-- Starts the compiler in a mirror. -/
def start (mirror : Path) (settings : Settings) (entry output : Option Path) :
    ServerAct (Step Invocation CompilerReport) := do
  let compiler := (← Act.state).compiler
  match Compiler.entryPath settings entry with
  | .error f => pure (.fail f)
  | .ok entry =>
    let output := output.getD (Mirror.outputPath ⟨mirror⟩)
    match Compiler.words (compiler.command settings entry output) with
    | .error f => pure (.fail f)
    | .ok words =>
      let behaviour ← nextBehaviour mirror entry
      note (.spawned words mirror)
      match behaviour.refusal with
      | some e => pure (.fail (.compiler (.notStarted (words.headD "") e)))
      | none => await ⟨behaviour, output, entry, mirror, compiler.timeout⟩

/-- Goes on with an invocation after a wait. -/
def resume (state : Invocation) (signal : Signal) : ServerAct (Step Invocation CompilerReport) :=
  match state, signal with
  | .running p, .go => ended p
  | .running p, .timedOut => stop p true
  | .running p, _ =>
    match p.limit with
    | none => do
      stopTimer
      kill p false
    | some _ => stop p false
  | .collecting p, _ => pure (.done (report p))
  | .stopping p expired, .go => kill p expired
  | .stopping p _, _ => kill p false
  | .reaping p expired, .go => reap p expired
  | .reaping _ _, _ => pure (.fail .cancelled)

/-- Ends the time of the process whose limit was set first; says whether there was one. -/
def expireFirst : ServerAct Bool := do
  match (← Act.state).timers with
  | [] => pure false
  | task :: rest =>
    Act.modifyState fun s => { s with timers := rest }
    Act.modifyLoop fun l => { l with atGates := l.atGates.filter fun w => w.2 ≠ task }
    Act.wake task .timedOut 1
    pure true

end Invocation

end InkServer
