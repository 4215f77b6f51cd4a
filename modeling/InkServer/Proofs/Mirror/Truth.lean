import InkServer.Proofs.Mirror.Kept
import InkServer.Proofs.Server.Runs

/-!
# What the index of a mirror is worth

The last call that was about a file decides what the file holds and what the index says of it, as long as
calls that write something succeed. A call that fails after it wrote a file leaves the index with what the
file held before, and a text that the file held then is passed over afterwards.
-/

namespace InkServer

open ServerAct Server

namespace Mirror

variable {root : Path} {id : WorkspaceId} {m : Mirror} {base : Place} {first : List (Path × ByteArray)}
  {s : Server} {t : Tended}

/-! ## The last call wins -/

/-- As long as every call that wrote something succeeded, every file holds what the last call that was about it
was to bring, whether that call wrote it or passed it over, and the index says exactly that. -/
theorem last_call_wins (h : IsKept root id m base first s) (hrun : Tended.Steps root m base ⟨s, []⟩ t)
    (hok : ∀ c ∈ t.calls, c.wrote ≠ [] → c.succeeded)
    (hinj : Set.InjOn Digest.sha256 (involved first t.calls)) (relative : Path) :
    (t.server.state.indexOf m).get? relative =
        (latest relative (wanted first t.calls)).map (.ofContent relative) ∧
      ∀ content, latest relative (wanted first t.calls) = some content →
        m.content? t.server.state.disk.files relative = some content := by
  have hsound := h.sound.steps hrun
  have htouched : ∀ c ∈ t.calls, c.touched relative → c.succeeded := by
    intro c hc ht
    refine hok c hc fun hw => ?_
    rw [Call.touched, hw] at ht
    cases ht
  have hwanted := hsound.fitting.latest_wanted_eq hinj htouched
  have hwritten : latest relative (written first t.calls) = latest relative (onRecord first t.calls) := by
    refine latest_written_eq fun c hc => ?_
    obtain ⟨hmem, ht⟩ := mem_of_lastWriter? hc
    exact htouched c hmem ht
  refine ⟨?_, fun content hl => ?_⟩
  · rw [hwanted]
    exact hsound.tells relative
  · rw [hwanted, ← hwritten] at hl
    exact hsound.holds relative content hl

/-! ## A mirror of two chapters -/

/-- A server on a machine with two chapters in `/p/d`, whose mirrors go to `/m`. -/
def chapters : ServerState where
  disk := { files := ⟨⟨[(["p"], .directory), (["p", "d"], .directory), (["p", "d", "a.ink"], .file "A0".toUTF8),
    (["p", "d", "b.ink"], .file "B".toUTF8), (["m"], .directory)]⟩⟩ }
  policy := { extensions := [".ink"], tempRoot := .ofText "/m" }

/-- The only mirror of the chapters. -/
def chaptersMirror : Mirror := ⟨.ofText "/m/inkls-1"⟩

/-- The first chapter. -/
def firstChapter : Path := .ofText "d/a.ink"

/-- Whether a mirror was made at a path. -/
def isMadeAt (m : Mirror) : Option (Except Failure Result) → Bool
  | some (.ok (.created m' _)) => m' = m
  | _ => false

theorem exists_isKept_chapters : ∃ base,
    IsKept (.ofText "/p") 0 chaptersMirror base (copiedFrom chapters (.ofText "/p"))
      (madeFrom chapters (.ofText "/p")) := by
  have hmade : isMadeAt chaptersMirror ((madeFrom chapters (.ofText "/p")).result? 0) := by decide +kernel
  unfold isMadeAt at hmade
  split at hmade
  · rename_i m index hresult
    rw [decide_eq_true_eq] at hmade
    subst hmade
    exact isKept_of_madeFrom (FileSystem.isClosed_of_all rfl) hresult
  · cases hmade

/-- The mirror of the chapters and the calls so far. -/
def chaptersAfter (moves : List (Session.Move Demand)) : Tended :=
  Tended.after (.ofText "/p") ⟨madeFrom chapters (.ofText "/p"), []⟩ moves

/-- A text is written while the chapters are to be copied and the old text is to be written again. -/
def threeCalls : List (Session.Move Demand) :=
  [.closes "write", .outside (.text (.ofText "/p/d/a.ink") "A1".toUTF8), .outside (.created (.ofText "/p/d")),
    .outside (.text (.ofText "/p/d/a.ink") "A0".toUTF8), .turn, .turn, .turn, .passes 1 .go, .turn, .turn, .turn]

/-- Contents all of which are among some that have different fingerprints. -/
theorem injOn_involved {calls : List Call} (contents : List ByteArray)
    (hall : (written first calls ++ wanted first calls).all fun w => contents.any fun c => w.2 = c)
    (hne : ∀ x ∈ contents, ∀ y ∈ contents, Digest.sha256 x = Digest.sha256 y → x = y) :
    Set.InjOn Digest.sha256 (involved first calls) := by
  have hmem : ∀ x ∈ involved first calls, x ∈ contents := by
    rintro x ⟨relative, hx⟩
    have hx := List.mem_append.mpr hx
    obtain ⟨c, hc, he⟩ := List.any_eq_true.mp (List.all_eq_true.mp hall _ hx)
    have he : x = c := of_decide_eq_true he
    exact he ▸ hc
  exact fun x hx y hy hxy => hne x (hmem x hx) y (hmem y hy) hxy

theorem orderly_threeCalls {base : Place} : ∀ move ∈ threeCalls, ∀ s, Orderly chaptersMirror base s move := by
  intro move hm s
  simp only [threeCalls, List.mem_cons, List.not_mem_nil, or_false] at hm
  rcases hm with rfl | rfl | rfl | rfl | rfl | rfl | rfl | rfl | rfl | rfl | rfl <;> constructor

/-- The old text is what the file holds in the end and what the index says, although the last call did not
write it. -/
theorem old_text_wins_unwritten :
    ∃ base, Tended.Steps (.ofText "/p") chaptersMirror base ⟨madeFrom chapters (.ofText "/p"), []⟩
        (chaptersAfter threeCalls) ∧
      (chaptersAfter threeCalls).calls.map (fun c => c.wrote.length) = [1, 2, 0] ∧
      ((chaptersAfter threeCalls).server.state.indexOf chaptersMirror).get? firstChapter =
        some (.ofContent firstChapter "A0".toUTF8) ∧
      chaptersMirror.content? (chaptersAfter threeCalls).server.state.disk.files firstChapter =
        some "A0".toUTF8 := by
  obtain ⟨base, hkept⟩ := exists_isKept_chapters
  have hrun : Tended.Steps (.ofText "/p") chaptersMirror base ⟨madeFrom chapters (.ofText "/p"), []⟩
      (chaptersAfter threeCalls) := Tended.steps_after _ orderly_threeCalls
  obtain ⟨hall, hlengths, hcontents, hlatest⟩ :
      (chaptersAfter threeCalls).calls.all Call.succeeded ∧
      (chaptersAfter threeCalls).calls.map (fun c => c.wrote.length) = [1, 2, 0] ∧
      ((written (copiedFrom chapters (.ofText "/p")) (chaptersAfter threeCalls).calls ++
        wanted (copiedFrom chapters (.ofText "/p")) (chaptersAfter threeCalls).calls).all fun w =>
          ["A0".toUTF8, "A1".toUTF8, "B".toUTF8].any fun c => w.2 = c) ∧
      latest firstChapter (wanted (copiedFrom chapters (.ofText "/p")) (chaptersAfter threeCalls).calls) =
        some "A0".toUTF8 := by
    decide +kernel
  have hinj := injOn_involved ["A0".toUTF8, "A1".toUTF8, "B".toUTF8] hcontents (by decide +kernel)
  have hwins := last_call_wins hkept hrun (fun c hc _ => List.all_eq_true.mp hall c hc) hinj firstChapter
  refine ⟨base, hrun, hlengths, ?_, hwins.2 _ hlatest⟩
  rw [hwins.1, hlatest, Option.map_some]

/-! ## What the index says -/

/-- Of a file that was last written by a call that succeeded, or by none, the index tells the truth; and a text
that was brought into the mirror just now is what the file holds. -/
theorem index_tells_truth (h : IsKept root id m base first s) (hrun : Tended.Steps root m base ⟨s, []⟩ t)
    {relative : Path} (hlast : ∀ c, lastWriter? relative t.calls = some c → c.succeeded) :
    (∀ e, (t.server.state.indexOf m).get? relative = some e →
      ∃ content, m.content? t.server.state.disk.files relative = some content ∧ e = .ofContent relative content) ∧
    ∀ earlier c content, t.calls = earlier ++ [c] → c.asked = some (relative, content) → c.succeeded →
      Set.InjOn Digest.sha256 (involved first t.calls) →
      m.content? t.server.state.disk.files relative = some content := by
  have hsound := h.sound.steps hrun
  have hwritten : latest relative (written first t.calls) = latest relative (onRecord first t.calls) :=
    latest_written_eq hlast
  refine ⟨fun e he => ?_, fun earlier c content hcalls ha hs hinj => ?_⟩
  · rw [hsound.tells relative, ← hwritten] at he
    obtain ⟨content, hl, rfl⟩ := Option.map_eq_some_iff.mp he
    exact ⟨content, hsound.holds relative content hl, rfl⟩
  · have hfits := (hcalls ▸ hsound.fitting).last
    rw [hcalls] at hinj
    have hrecorded := hfits.latest_onRecord ha hs hinj
    rw [← hcalls, ← hwritten] at hrecorded
    exact hsound.holds relative content hrecorded

/-- The files after somebody changed the first chapter and made a directory of the second one. -/
def revisedFiles : FileSystem :=
  (((madeFrom chapters (.ofText "/p")).state.disk.files.put ["p", "d", "a.ink"] (.file "A1".toUTF8)).put
    ["p", "d", "b.ink"] .directory).put ["p", "d", "b.ink", "c.ink"] (.file "C".toUTF8)

/-- The chapters are revised and copied again, which comes to an end at the second one: the mirror has a file
where it needs a directory. Then a text of the first chapter is to be written. -/
def copyFails (text : String) : List (Session.Move Demand) :=
  .outside (.others revisedFiles none) ::
    [.outside (.created (.ofText "/p/d")), .turn, .outside (.text (.ofText "/p/d/a.ink") text.toUTF8), .turn]

/-- Whether nothing or a file stands at a place. -/
def isOpenPlace (fs : FileSystem) (place : Place) : Bool :=
  match fs.node? place with
  | none | some (.file _) => true
  | _ => false

theorem file_of_isOpenPlace {fs : FileSystem} {place : Place} (h : isOpenPlace fs place) {n : FileNode}
    (hn : fs.node? place = some n) : ∃ c, n = .file c := by
  rw [isOpenPlace, hn] at h
  cases n with
  | file c => exact ⟨c, rfl⟩
  | directory => cases h
  | link target => cases h

/-- The mirror stands where it was made. -/
theorem base_of_standsAt {base : Place}
    (h : chaptersMirror.StandsAt base (madeFrom chapters (.ofText "/p")).state.disk.files) :
    base = ["m", "inkls-1"] := by
  have hwalk : ((madeFrom chapters (.ofText "/p")).state.disk.files.walk true FileSystem.maxLinks []
      chaptersMirror.path.segments).toOption.map Prod.fst = some ["m", "inkls-1"] := by
    decide +kernel
  rw [FileSystem.way_iff.mp h.way] at hwalk
  exact Option.some.inj hwalk

/-- The revision is none of the mirror. -/
theorem spares_revisedFiles {base : Place}
    (h : chaptersMirror.StandsAt base (madeFrom chapters (.ofText "/p")).state.disk.files) :
    chaptersMirror.Spares base (madeFrom chapters (.ofText "/p")).state.disk.files revisedFiles := by
  have hbase := base_of_standsAt h
  have hout : ∀ {rest : List String} {names : List String}, names ≠ [] → "p" :: rest ≠ base ++ names := by
    intro rest names _ he
    rw [hbase] at he
    exact absurd (List.cons.inj he).1 (by decide)
  obtain ⟨hfirst, hsecond, hthird⟩ :
      isOpenPlace (madeFrom chapters (.ofText "/p")).state.disk.files ["p", "d", "a.ink"] ∧
      isOpenPlace ((madeFrom chapters (.ofText "/p")).state.disk.files.put ["p", "d", "a.ink"]
        (.file "A1".toUTF8)) ["p", "d", "b.ink"] ∧
      isOpenPlace (((madeFrom chapters (.ofText "/p")).state.disk.files.put ["p", "d", "a.ink"]
        (.file "A1".toUTF8)).put ["p", "d", "b.ink"] .directory) ["p", "d", "b.ink", "c.ink"] := by
    decide +kernel
  have hone := h.spares_put (List.cons_ne_nil _ _) (fun _ => hout) (fun _ => file_of_isOpenPlace hfirst)
    (.file "A1".toUTF8)
  have htwo := (h.spares hone).spares_put (List.cons_ne_nil _ _) (fun _ => hout)
    (fun _ => file_of_isOpenPlace hsecond) .directory
  have hthree := ((h.spares hone).spares htwo).spares_put (List.cons_ne_nil _ _) (fun _ => hout)
    (fun _ => file_of_isOpenPlace hthird) (.file "C".toUTF8)
  exact (hone.trans htwo).trans hthree

theorem steps_copyFails {base : Place}
    (h : chaptersMirror.StandsAt base (madeFrom chapters (.ofText "/p")).state.disk.files) (text : String) :
    Tended.Steps (.ofText "/p") chaptersMirror base ⟨madeFrom chapters (.ofText "/p"), []⟩
      (chaptersAfter (copyFails text)) := by
  rw [chaptersAfter, copyFails, Tended.after_cons]
  refine .cons (.others none (spares_revisedFiles h)) (Tended.steps_after _ fun move hm s => ?_)
  simp only [List.mem_cons, List.not_mem_nil, or_false] at hm
  rcases hm with rfl | rfl | rfl | rfl <;> constructor

/-- After a copy that failed the index tells the truth again once the file is written. -/
theorem index_true_after_new_text :
    (chaptersAfter (copyFails "A2")).calls.map Call.succeeded = [false, true] ∧
      chaptersMirror.content? (chaptersAfter (copyFails "A2")).server.state.disk.files firstChapter =
        some "A2".toUTF8 ∧
      ∀ e, ((chaptersAfter (copyFails "A2")).server.state.indexOf chaptersMirror).get? firstChapter = some e →
        ∃ content, chaptersMirror.content? (chaptersAfter (copyFails "A2")).server.state.disk.files firstChapter =
          some content ∧ e = .ofContent firstChapter content := by
  obtain ⟨base, hkept⟩ := exists_isKept_chapters
  obtain ⟨hsucceeded, hwriter, hcall, hcontents⟩ :
      (chaptersAfter (copyFails "A2")).calls.map Call.succeeded = [false, true] ∧
      ((lastWriter? firstChapter (chaptersAfter (copyFails "A2")).calls).all Call.succeeded) ∧
      (chaptersAfter (copyFails "A2")).calls.getLast?.map (fun c => (c.asked, c.succeeded)) =
        some (some (firstChapter, "A2".toUTF8), true) ∧
      ((written (copiedFrom chapters (.ofText "/p")) (chaptersAfter (copyFails "A2")).calls ++
        wanted (copiedFrom chapters (.ofText "/p")) (chaptersAfter (copyFails "A2")).calls).all fun w =>
          ["A0".toUTF8, "A1".toUTF8, "A2".toUTF8, "B".toUTF8].any fun c => w.2 = c) := by
    decide +kernel
  have hlast : ∀ c, lastWriter? firstChapter (chaptersAfter (copyFails "A2")).calls = some c → c.succeeded := by
    intro c hc
    rw [hc] at hwriter
    exact hwriter
  have htrue := index_tells_truth hkept (steps_copyFails hkept.standsAt "A2") hlast
  obtain ⟨c, hc, he⟩ := Option.map_eq_some_iff.mp hcall
  obtain ⟨earlier, hcalls⟩ := List.getLast?_eq_some_iff.mp hc
  obtain ⟨hasked, hdone⟩ := Prod.mk.inj he
  have hinj := injOn_involved ["A0".toUTF8, "A1".toUTF8, "A2".toUTF8, "B".toUTF8] hcontents (by decide +kernel)
  exact ⟨hsucceeded, htrue.2 earlier c _ hcalls hasked hdone hinj, htrue.1⟩

/-- The old text of the first chapter is passed over after the copy that failed, and the file does not hold
it: the index still has its fingerprint, although the copy has written the new one. -/
theorem failed_copy_leaves_index_untrue :
    ∃ base, IsKept (.ofText "/p") 0 chaptersMirror base (copiedFrom chapters (.ofText "/p"))
        (madeFrom chapters (.ofText "/p")) ∧
      Tended.Steps (.ofText "/p") chaptersMirror base ⟨madeFrom chapters (.ofText "/p"), []⟩
        (chaptersAfter (copyFails "A0")) ∧
      (chaptersAfter (copyFails "A0")).calls.getLast?.map (fun c => (c.asked, c.succeeded)) =
        some (some (firstChapter, "A0".toUTF8), true) ∧
      ((chaptersAfter (copyFails "A0")).server.state.indexOf chaptersMirror).get? firstChapter =
        some (.ofContent firstChapter "A0".toUTF8) ∧
      chaptersMirror.content? (chaptersAfter (copyFails "A0")).server.state.disk.files firstChapter =
        some "A1".toUTF8 := by
  obtain ⟨base, hkept⟩ := exists_isKept_chapters
  refine ⟨base, hkept, steps_copyFails hkept.standsAt "A0", ?_⟩
  decide +kernel

end Mirror

end InkServer
