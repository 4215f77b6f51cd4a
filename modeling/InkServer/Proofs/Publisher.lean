import InkServer.Proofs.Server.Heard

/-!
# Leaving out repeats

A list of diagnostics that the client was told already for the same version is not sent again. The client
cannot see this: what it was told last about a document is what it would have been told if every list were
sent, and what is kept for the document is that list with that version.
-/

namespace InkServer

/-- What happens around a publisher. -/
inductive PublisherEvent where
  | opens (document : OpenDocument)
  | changes (document : OpenDocument)
  | closes (uri : String)
  | publishes (uri : String) (diagnostics : List Diagnostic)

/-- The documents that are open afterwards. One whose URI names no path is not tracked. -/
def Documents.after (documents : Documents) : PublisherEvent → Documents
  | .opens document => match documents.open_ document with
      | .ok (_, opened) => opened
      | .error _ => documents
  | .changes document => match documents.change document with
      | .ok (_, changed) => changed
      | .error _ => documents
  | .closes uri => documents.close uri
  | .publishes _ _ => documents

/-- A publisher among the open documents, with the messages that it sent, the last one first. -/
structure Outlet where
  documents : Documents
  publisher : Publisher := { isConnected := true }
  sent : List Publication := []

/-- What is kept for the document of a message: nothing where there is nothing to report. -/
def Publication.kept (m : Publication) : Option Int × List Diagnostic :=
  if m.diagnostics = [] then (none, []) else (m.version, m.diagnostics)

namespace Outlet

variable {o p : Outlet} {uri u : String} {ds : List Diagnostic}

def step (o : Outlet) : PublisherEvent → Outlet
  | .publishes uri ds => { o with
      publisher := (o.publisher.publish o.documents uri ds).2
      sent := (o.publisher.publish o.documents uri ds).1.toList ++ o.sent }
  | e => { o with documents := o.documents.after e }

/-- The same with a message for every list of diagnostics, whatever was sent before. -/
def stepPlainly (o : Outlet) : PublisherEvent → Outlet
  | .publishes uri ds => { o with sent := ⟨uri, (o.documents.get? uri).map (·.version), ds⟩ :: o.sent }
  | e => { o with documents := o.documents.after e }

def run (o : Outlet) (events : List PublisherEvent) : Outlet := events.foldl step o

def runPlainly (o : Outlet) (events : List PublisherEvent) : Outlet := events.foldl stepPlainly o

/-- What the client was told last about a document. -/
def told? (o : Outlet) (uri : String) : Option Publication := o.sent.find? (·.uri = uri)

theorem told?_of_sent_eq {m : Publication} (h : o.sent = m :: p.sent) (u : String) :
    o.told? u = if m.uri = u then some m else p.told? u := by
  rw [told?, h, List.find?_cons]
  split <;> simp_all [told?]

/-- What the client cannot tell apart: a publisher that leaves out repeats and one that sends everything. What
is kept of a document is what was said about it last, so a list that is known already need not be said. -/
structure Unnoticed (o p : Outlet) : Prop where
  documents : o.documents = p.documents
  isConnected : o.publisher.isConnected
  seesDocuments : o.publisher.seesDocuments
  told : ∀ uri, o.told? uri = p.told? uri
  last : ∀ uri, o.publisher.last.get? uri =
    (o.told? uri).bind fun m => if m.diagnostics = [] then none else some (m.version, m.diagnostics)
  sent : o.sent.Sublist p.sent

namespace Unnoticed

theorem fresh (documents : Documents) : Unnoticed ⟨documents, { isConnected := true }, []⟩
    ⟨documents, { isConnected := true }, []⟩ where
  documents := rfl
  isConnected := rfl
  seesDocuments := rfl
  told _ := rfl
  last _ := rfl
  sent := .refl _

/-- A list for the same version that the client was told last is the last message over again. -/
theorem told_of_last (h : Unnoticed o p) {version : Option Int}
    (hl : o.publisher.last.get? uri = some (version, ds)) : o.told? uri = some ⟨uri, version, ds⟩ := by
  rw [h.last] at hl
  obtain ⟨m, hm, hk⟩ := Option.bind_eq_some_iff.mp hl
  have hu : m.uri = uri := by simpa using List.find?_some hm
  split at hk
  · cases hk
  · obtain ⟨v, d⟩ := m
    cases hk
    rw [hm, ← hu]

theorem publishes (h : Unnoticed o p) (uri : String) (ds : List Diagnostic) :
    Unnoticed (o.step (.publishes uri ds)) (p.stepPlainly (.publishes uri ds)) := by
  have hv : o.publisher.versionOf o.documents uri = (p.documents.get? uri).map (·.version) := by
    rw [Publisher.versionOf, if_pos h.seesDocuments, h.documents]
  have hp := told?_of_sent_eq (o := p.stepPlainly (.publishes uri ds)) rfl
  rcases o.publisher.publish_cases o.documents uri ds with ⟨hc, _⟩ | ⟨hl, he⟩ | he
  · rw [h.isConnected] at hc
    cases hc
  · have hstep : o.step (.publishes uri ds) = o := by
      rw [step, he]
      rfl
    rw [hstep]
    refine { h with told := fun u => ?_, sent := h.sent.cons _ }
    rw [hp]
    split
    · rename_i hu
      cases hu
      rw [h.told_of_last hl, hv]
    · exact h.told u
  · have ho := told?_of_sent_eq (o := o.step (.publishes uri ds)) (p := o)
      (m := ⟨uri, (p.documents.get? uri).map (·.version), ds⟩) (by rw [step, he, hv]; rfl)
    refine ⟨h.documents, ?_, ?_, fun u => ?_, fun u => ?_, ?_⟩
    · rw [step, he]
      exact h.isConnected
    · rw [step, he]
      exact h.seesDocuments
    · rw [ho, hp, h.told]
    · rw [ho, step, he, hv]
      dsimp only
      by_cases hu : uri = u
      · subst hu
        cases ds with
        | nil => simp
        | cons d ds => simp
      · rw [if_neg hu, ← h.last]
        split
        · exact Dict.get?_erase_of_ne _ hu
        · exact Dict.get?_insert_of_ne _ _ hu
    · rw [step, he, hv]
      exact h.sent.cons_cons _

theorem moves (h : Unnoticed o p) (documents : Documents) :
    Unnoticed { o with documents } { p with documents } :=
  { h with documents := rfl }

theorem step (h : Unnoticed o p) (e : PublisherEvent) : Unnoticed (o.step e) (p.stepPlainly e) := by
  cases e with
  | publishes uri ds => exact h.publishes uri ds
  | opens document => simpa [Outlet.step, stepPlainly, h.documents] using h.moves (p.documents.after _)
  | changes document => simpa [Outlet.step, stepPlainly, h.documents] using h.moves (p.documents.after _)
  | closes uri => simpa [Outlet.step, stepPlainly, h.documents] using h.moves (p.documents.after _)

theorem run (h : Unnoticed o p) (events : List PublisherEvent) :
    Unnoticed (o.run events) (p.runPlainly events) := by
  induction events generalizing o p with
  | nil => exact h
  | cons e events ih => exact ih (h.step e)

theorem lastFor_eq (h : Unnoticed o p) (uri : String) :
    o.publisher.lastFor uri = ((p.told? uri).map Publication.kept).getD (none, []) := by
  rw [Publisher.lastFor, h.last, h.told]
  cases p.told? uri with
  | none => rfl
  | some m =>
      dsimp only [Option.bind_some, Option.map_some, Option.getD_some, Publication.kept]
      split <;> rfl

end Unnoticed

/-- However publishing goes along with opening, changing and closing documents, the client was told last about
each document what a publisher that sends everything would have told it, and that is what is kept. -/
theorem run_unnoticed (documents : Documents) (events : List PublisherEvent) (uri : String) :
    (run { documents } events).told? uri = (runPlainly { documents } events).told? uri ∧
    (run { documents } events).publisher.lastFor uri =
      (((runPlainly { documents } events).told? uri).map Publication.kept).getD (none, []) ∧
    (run { documents } events).sent.Sublist (runPlainly { documents } events).sent := by
  have h := (Unnoticed.fresh documents).run events
  exact ⟨h.told uri, h.lastFor_eq uri, h.sent⟩

end Outlet

end InkServer
