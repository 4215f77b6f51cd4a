import InkServer.Documents

/-!
# Publishing diagnostics

A list of diagnostics replaces the one published before for the same document. What the client has been
told already for the same version is not sent again.
-/

namespace InkServer

/-- What was last published for each document that has diagnostics. Nothing can be published while there
is no server to send it. -/
structure Publisher where
  isConnected : Bool := false
  /-- Whether open documents, and with them their versions, can be seen. -/
  seesDocuments : Bool := true
  last : Dict String (Option Int × List Diagnostic) := {}

/-- A list of diagnostics on its way to the client. -/
structure Publication where
  uri : String
  version : Option Int
  diagnostics : List Diagnostic
  deriving DecidableEq, Repr

namespace Publisher

/-- What was last published for a document. -/
def lastFor (p : Publisher) (uri : String) : Option Int × List Diagnostic :=
  (p.last.get? uri).getD (none, [])

/-- Publishes diagnostics; the version is that of the document if it is open. -/
def publish (p : Publisher) (documents : Documents) (uri : String) (diagnostics : List Diagnostic) :
    Option Publication × Publisher :=
  if !p.isConnected then (none, p)
  else
    let version := if p.seesDocuments then (documents.get? uri).map (·.version) else none
    if !diagnostics.isEmpty && p.last.get? uri = some (version, diagnostics) then (none, p)
    else
      let last := if diagnostics.isEmpty then p.last.erase uri else p.last.insert uri (version, diagnostics)
      (some ⟨uri, version, diagnostics⟩, { p with last })

end Publisher

end InkServer
