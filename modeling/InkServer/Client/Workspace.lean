import InkServer.State

/-!
# What the client has open

The folders and the texts that the client has open, kept under their URIs without escapes, and how the
messages of the client change them.
-/

namespace InkServer.ClientWorkspace

/-- The key under which a folder or a document is kept: its URI without escapes. -/
def key (uri : String) : String := String.ofList (Uri.unescape uri.toList)

/-! ## Texts -/

/-- Takes in the text of a document that was opened. -/
def openText (w : ClientWorkspace) (uri text : String) (version : Option Int) : ClientWorkspace :=
  { w with texts := w.texts.insert (key uri) ⟨text, version⟩ }

/-- Replaces the text of a document by each of several texts in turn; `none` if it is not open. -/
def changeText (w : ClientWorkspace) (uri : String) (texts : List String) (version : Option Int) :
    Option ClientWorkspace :=
  match w.texts.get? (key uri), texts.getLast? with
  | _, none => some w
  | none, some _ => none
  | some _, some text => some { w with texts := w.texts.insert (key uri) ⟨text, version⟩ }

/-- Forgets the text of a document. -/
def closeText (w : ClientWorkspace) (uri : String) : ClientWorkspace :=
  { w with texts := w.texts.erase (key uri) }

/-! ## Folders -/

def addFolder (w : ClientWorkspace) (f : Folder) : ClientWorkspace :=
  { w with folders := w.folders.insert (key f.uri) f }

def removeFolder (w : ClientWorkspace) (f : Folder) : ClientWorkspace :=
  { w with folders := w.folders.erase (key f.uri) }

/-- Adds and removes folders in pairs: the first that is added, the first that is removed, and so on. -/
def changeFolders (w : ClientWorkspace) : List Folder → List Folder → ClientWorkspace
  | [], removed => removed.foldl removeFolder w
  | added, [] => added.foldl addFolder w
  | a :: added, r :: removed => changeFolders ((w.addFolder a).removeFolder r) added removed

/-! ## Reading what the client says -/

/-- A folder as the client writes it. -/
def folderOf (v : Value) : Folder := ⟨(v.field "uri").textD, (v.field "name").textD⟩

def foldersOf (v : Value) : List Folder := v.items.map folderOf

/-- The URI of the client's root; a client that only tells a path means the URI of that path. -/
def rootUriOf (params : Value) : Except Uri.Error (Option String) :=
  match (params.field "rootUri").text?, (params.field "rootPath").text? with
  | some uri, _ => .ok (some uri)
  | none, some path => (Uri.ofPathText path).map some
  | none, none => .ok none

/-- The workspace that a client tells about when it is initialized. -/
def ofParams (params : Value) : Except Uri.Error ClientWorkspace := do
  let rootUri ← rootUriOf params
  pure ((foldersOf (params.field "workspaceFolders")).foldl addFolder { rootUri })

end InkServer.ClientWorkspace
