import InkServer.Client.Reception
import InkServer.Server.Machine
import InkServer.Task.Control

/-!
# Running the server

The tasks of the server take turns until all of them wait. Only then does time pass: a compiler whose time
limit is short runs into it, and the tasks go on.
-/

namespace InkServer

/-- The server with its tasks. -/
abbrev Server := Session ServerState Operation Waiting Result

namespace Server

/-- Lets the tasks take turns until all wait and no short time limit is left to run into; `expiries`
bounds how many limits that may be. -/
def restFor : Nat → Server → Server
  | 0, s => s.settle serverMachine Session.enough
  | expiries + 1, s =>
    let s := s.settle serverMachine Session.enough
    let (expired, s) := s.act Invocation.expireFirst
    if expired then restFor expiries s else s

/-- Lets the tasks take turns until all wait. -/
def rest (s : Server) : Server := restFor Session.enough s

end Server

end InkServer
