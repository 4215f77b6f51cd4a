import InkServer.Failure

/-!
# Open documents

What the client has open, with the text last received for each document. Documents are kept under the URI
that the client uses, in the order in which they were opened; `uriForPath` finds that URI again from a
path.
-/

namespace InkServer

/-- A document that the client sent in full. -/
structure OpenDocument where
  uri : String
  version : Int
  text : String
  deriving DecidableEq, Repr

/-- What is written to a mirror for a document. -/
def OpenDocument.content (d : OpenDocument) : ByteArray := d.text.toUTF8

/-- A document that is open, with its path and the content last received. -/
structure TrackedDocument where
  uri : String
  version : Int
  path : Path
  content : ByteArray

/-- The open documents by URI. -/
structure Documents where
  tracked : Dict String TrackedDocument := {}

namespace Documents

def get? (d : Documents) (uri : String) : Option TrackedDocument := d.tracked.get? uri

/-- Tracks a document, anew if it was tracked already. -/
def open_ (d : Documents) (document : OpenDocument) :
    Except Uri.Error (TrackedDocument × Documents) := do
  let path ← Uri.toPath document.uri
  let t : TrackedDocument := ⟨document.uri, document.version, path, document.content⟩
  pure (t, ⟨d.tracked.insert document.uri t⟩)

/-- Takes over the text of a document. The version never goes back; the text is always the last received. -/
def change (d : Documents) (document : OpenDocument) :
    Except Uri.Error (TrackedDocument × Documents) :=
  match d.get? document.uri with
  | none => d.open_ document
  | some t =>
    let t := { t with version := max t.version document.version, content := document.content }
    .ok (t, ⟨d.tracked.insert document.uri t⟩)

/-- Forgets a document. -/
def close (d : Documents) (uri : String) : Documents := ⟨d.tracked.erase uri⟩

/-- The path and the content of every document. -/
def contents (d : Documents) : List (Path × ByteArray) :=
  d.tracked.values.map fun t => (t.path, t.content)

/-- The URI that the client uses for a path if the document is open, and else the usual one. -/
def uriForPath (d : Documents) (p : Path) : Except Uri.Error String :=
  match d.tracked.values.find? fun t => t.path = p with
  | some t => .ok t.uri
  | none => Uri.ofPath p

end Documents

end InkServer
