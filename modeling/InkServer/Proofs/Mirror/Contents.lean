import InkServer.Proofs.FileSystem.Growth
import InkServer.Proofs.Mirror.Changes
import Mathlib.Data.List.Forall2

/-!
# What the files of a mirror hold

The directory of a mirror stands at a place below which there are no links. Writing a file of the mirror
makes the directories on the way where nothing stands yet and puts the content at the end; every other file
holds what it held, also if the write fails half-way.
-/

namespace InkServer

open Work

/-- The last value that a list of pairs gives to a key. -/
def latest {κ α : Type} [DecidableEq κ] (k : κ) (pairs : List (κ × α)) : Option α :=
  pairs.reverse.findSome? fun p => if p.1 = k then some p.2 else none

section latest

variable {κ α : Type} [DecidableEq κ] {k : κ} {v : α}

@[simp] theorem latest_nil : latest k ([] : List (κ × α)) = none := rfl

@[simp] theorem latest_append (xs ys : List (κ × α)) : latest k (xs ++ ys) = (latest k ys).or (latest k xs) := by
  rw [latest, List.reverse_append, List.findSome?_append]
  rfl

theorem latest_singleton (p : κ × α) : latest k [p] = if p.1 = k then some p.2 else none := by
  rw [latest, List.reverse_singleton, List.findSome?_singleton]

theorem latest_eq_none_iff {pairs : List (κ × α)} : latest k pairs = none ↔ k ∉ pairs.map Prod.fst := by
  simp only [latest, List.findSome?_eq_none_iff, List.mem_reverse, List.mem_map, not_exists, not_and]
  refine forall₂_congr fun p _ => ?_
  split <;> simp [*]

theorem mem_of_latest {pairs : List (κ × α)} (h : latest k pairs = some v) : (k, v) ∈ pairs := by
  obtain ⟨p, hp, he⟩ := List.exists_of_findSome?_eq_some h
  split at he
  · rename_i hk
    cases he
    exact hk ▸ List.mem_reverse.mp hp
  · cases he

end latest

namespace FileSystem

/-! ## New directories -/

/-- Some directories are new below a place; everything else is as it was. -/
structure Sprouts (base : Place) (fs fs' : FileSystem) : Prop where
  stays : ∀ place n, fs.node? place = some n → fs'.node? place = some n
  new : ∀ place n, fs.node? place = none → fs'.node? place = some n →
    n = .directory ∧ ∃ below ≠ [], place = base ++ below

variable {fs fs' fs'' : FileSystem} {base : Place}

theorem Sprouts.refl : Sprouts base fs fs := ⟨fun _ _ h => h, fun _ _ h h' => nomatch h.symm.trans h'⟩

theorem Sprouts.trans (h : Sprouts base fs fs') (h' : Sprouts base fs' fs'') : Sprouts base fs fs'' := by
  refine ⟨fun place n hn => h'.stays _ _ (h.stays _ _ hn), fun place n hnone hn => ?_⟩
  cases hmid : fs'.node? place with
  | none => exact h'.new place n hmid hn
  | some m =>
      rw [h'.stays _ _ hmid] at hn
      cases hn
      exact h.new place _ hnone hmid

theorem Sprouts.keeps (h : Sprouts base fs fs') : fs.Keeps fs' := fun place n hn _ => h.stays place n hn

theorem Sprouts.isPlain (h : Sprouts base fs fs') (hp : fs.IsPlain base) : fs'.IsPlain base := by
  intro below target hb hl
  cases hn : fs.node? (base ++ below) with
  | none => cases (h.new _ _ hn hl).1
  | some n =>
      rw [h.stays _ _ hn] at hl
      exact hp below target hb (hn.trans hl)

theorem sprouts_put {below : List String} (hb : below ≠ []) (hn : fs.node? (base ++ below) = none) :
    Sprouts base fs (fs.put (base ++ below) .directory) := by
  have hne : base ++ below ≠ [] := List.append_ne_nil_of_right_ne_nil _ hb
  refine ⟨fun place n h => ?_, fun place n h h' => ?_⟩
  · rw [node?_put fs _ hne, if_neg fun he => ?_]
    · exact h
    · rw [he, h] at hn
      cases hn
  · rw [node?_put fs _ hne] at h'
    split at h'
    · rename_i he
      cases h'
      exact ⟨rfl, below, hb, he.symm⟩
    · cases h.symm.trans h'

end FileSystem

namespace Mirror

open FileSystem

variable {m : Mirror} {base : Place} {fs fs' : FileSystem} {p : Path} {below : List String}

/-! ## Where a mirror stands -/

/-- The directory of a mirror is a place without links below it. -/
structure StandsAt (m : Mirror) (base : Place) (fs : FileSystem) : Prop where
  way : fs.Way maxLinks [] m.path.segments base
  isPlain : fs.IsPlain base

theorem StandsAt.sprouts (h : m.StandsAt base fs) (hs : Sprouts base fs fs') : m.StandsAt base fs' :=
  ⟨h.way.keeps hs.keeps, hs.isPlain h.isPlain⟩

/-- What a path into a mirror finds. -/
theorem StandsAt.find_eq_ok_iff (h : m.StandsAt base fs) (hp : p.segments = m.path.segments ++ below)
    (hb : below ≠ []) (hup : ".." ∉ below) {follow : Bool} {place : Place} {found : Option FileNode} :
    fs.find follow p = .ok (place, found) ↔
      ¬maxPath ≤ p.text.utf8ByteSize ∧ fs.Opens base below ∧ place = base ++ below ∧ found = fs.node? place := by
  obtain ⟨left, hwalk⟩ := h.way.walk_append hb follow
  rw [FileSystem.find_eq_ok_iff, hp, hwalk, h.isPlain.walk_eq_ok_iff hb hup]

/-- What a path into a mirror reads. -/
theorem StandsAt.read_eq_ok_iff (h : m.StandsAt base fs) (hp : p.segments = m.path.segments ++ below)
    (hb : below ≠ []) (hup : ".." ∉ below) {content : ByteArray} :
    fs.read p = .ok content ↔
      ¬maxPath ≤ p.text.utf8ByteSize ∧ fs.Opens base below ∧
        fs.node? (base ++ below) = some (.file content) := by
  rw [FileSystem.read_eq_ok_iff, stat_eq_ok_iff]
  constructor
  · rintro ⟨place, hf⟩
    obtain ⟨hshort, hopens, rfl, hn⟩ := (h.find_eq_ok_iff hp hb hup).mp hf
    exact ⟨hshort, hopens, hn.symm⟩
  · rintro ⟨hshort, hopens, hn⟩
    exact ⟨_, (h.find_eq_ok_iff hp hb hup).mpr ⟨hshort, hopens, rfl, hn.symm⟩⟩

/-! ## Making directories -/

/-- Making a directory inside a mirror, or the directory of the mirror itself, only lets directories sprout. -/
theorem StandsAt.sprouts_makeDirectory (h : m.StandsAt base fs) (hp : p.segments = m.path.segments ++ below)
    (hup : ".." ∉ below) : Sprouts base fs (leaves (FileWork.change p fun fs => fs.makeDirectory p) fs) := by
  refine reaches_leaves.mp (FileWork.reaches_change.mpr ?_)
  split
  · rename_i fs' hmade
    have hmade := FileWork.about_eq_ok hmade
    unfold makeDirectory at hmade
    split at hmade
    · cases hmade
    · cases hmade
    · rename_i place hfind
      cases hmade
      by_cases hb : below = []
      · obtain ⟨place', n, hthere⟩ := h.way.walk_false
        unfold find at hfind
        rw [hp, hb, List.append_nil, hthere] at hfind
        split at hfind <;> cases hfind
      · obtain ⟨_, _, rfl, hnone⟩ := (h.find_eq_ok_iff hp hb hup).mp hfind
        exact sprouts_put hb hnone.symm
  · exact .refl

/-- After a directory was not made because one above it is missing, it lies strictly inside the mirror. -/
theorem StandsAt.below_ne_nil (h : m.StandsAt base fs) (hp : p.segments = m.path.segments ++ below)
    {e : OsError} (he : e.cause = .noEntry)
    (hf : FileWork.about p (fs.makeDirectory p) = .error (.os e)) : below ≠ [] := by
  rintro rfl
  rw [List.append_nil] at hp
  obtain ⟨place', n, hthere⟩ := h.way.walk_false
  unfold FileWork.about makeDirectory find at hf
  rw [hp, hthere] at hf
  split at hf
  · cases hf
  · by_cases hlong : maxPath ≤ p.text.utf8ByteSize
    · rw [if_pos hlong] at hf
      cases hf
      cases he
    · rw [if_neg hlong] at hf
      cases hf
      cases he

end Mirror

namespace FileWork

open FileSystem Mirror

variable {m : Mirror} {base : Place} {fs : FileSystem} {α β : Type}

/-- Work whose failure is a value goes on from what it left. -/
theorem leaves_attempt_bind (work : FileWork α) (f : Except FileError α → FileWork β) (fs : FileSystem) :
    leaves (attempt work >>= f) fs = leaves (f (returns work fs)) (leaves work fs) := rfl

/-- A question changes nothing. -/
theorem reaches_ask {p : Path} {f : FileSystem → Except Errno α} {ok : α → FileSystem → Prop}
    {error : FileError → FileSystem → Prop} :
    Reaches (ask p f) fs ok error ↔
      match about p (f fs) with
      | .ok a => ok a fs
      | .error e => error e fs := by
  unfold ask
  rw [reaches_get]
  cases about p (f fs) <;> rfl

theorem looks_unlessDirectory (p : Path) (e : FileError) : Looks (unlessDirectory p e) := by
  unfold unlessDirectory
  split
  · exact (looks_holds _ _).bind fun b => by
      split
      · exact looks_pure _
      · exact looks_throw _
  · exact looks_throw _

/-- A change that fails changes nothing. -/
theorem leaves_change_of_error {p : Path} {f : FileSystem → Except Errno FileSystem} {e : FileError}
    (h : returns (change p f) fs = .error e) : about p (f fs) = .error e ∧ leaves (change p f) fs = fs := by
  have hr := reaches_self (change p f) fs
  rw [reaches_change] at hr
  split at hr
  · rw [h] at hr
    cases hr.1
  · rename_i e' he'
    rw [h] at hr
    cases hr.1
    exact ⟨he', hr.2.symm⟩

/-- All that making sure of a directory changes is that it tries to make it. -/
theorem leaves_ensureDirectory (p : Path) (fs : FileSystem) :
    leaves (ensureDirectory p) fs = leaves (change p fun fs => fs.makeDirectory p) fs := by
  unfold ensureDirectory
  rw [leaves_attempt_bind]
  split
  · rfl
  · split
    · rfl
    · exact looks_unlessDirectory _ _ _
  · rfl

/-- Making sure of a directory inside a mirror only lets directories sprout. -/
theorem sprouts_ensureDirectories (depth : Nat) {p : Path} {below : List String} (h : m.StandsAt base fs)
    (hp : p.segments = m.path.segments ++ below) (hup : ".." ∉ below) :
    Sprouts base fs (leaves (ensureDirectories depth p) fs) := by
  induction depth generalizing p below with
  | zero =>
      rw [ensureDirectories, leaves_ensureDirectory]
      exact h.sprouts_makeDirectory hp hup
  | succ depth ih =>
      unfold ensureDirectories
      rw [leaves_attempt_bind]
      have hmade := h.sprouts_makeDirectory hp hup
      split
      · exact hmade
      · rename_i e hreturns
        split
        · rename_i hcause
          obtain ⟨hcannot, hsame⟩ := leaves_change_of_error hreturns
          rw [hsame]
          have hb := h.below_ne_nil hp hcause hcannot
          split
          · exact .refl
          · have hparent : p.parent.segments = m.path.segments ++ below.dropLast := by
              rw [← List.dropLast_append_of_ne_nil hb, ← hp]
              rfl
            have habove := ih hparent fun hm => hup (List.dropLast_subset below hm)
            rw [leaves_bind]
            split
            · rw [leaves_ensureDirectory]
              exact habove.trans ((h.sprouts habove).sprouts_makeDirectory hp hup)
            · exact habove
        · rw [looks_unlessDirectory]
          exact hmade
      · exact hmade

end FileWork

namespace Mirror

open FileSystem DiskWork

variable {m : Mirror} {base : Place} {fs fs' : FileSystem} {d d' d'' : Disk} {relative : Path} {content : ByteArray}

/-! ## What files hold -/

/-- What a file of a mirror holds, if it is there. -/
def content? (m : Mirror) (fs : FileSystem) (relative : Path) : Option ByteArray :=
  (fs.read (m.path / relative)).toOption

theorem content?_eq_some_iff : m.content? fs relative = some content ↔ fs.read (m.path / relative) = .ok content := by
  unfold content?
  cases fs.read (m.path / relative) <;> simp [Except.toOption]

theorem segments_div (hr : relative.IsInner) :
    (m.path / relative).segments = m.path.segments ++ relative.segments := by
  show (Path.join m.path relative).segments = _
  unfold Path.join
  rw [if_neg]
  simp [Path.isAbsolute, hr.start]

/-- A file holds something if the names lead to it and it is a file. -/
theorem StandsAt.content?_eq_some_iff (h : m.StandsAt base fs) (hr : relative.IsInner) :
    m.content? fs relative = some content ↔
      ¬maxPath ≤ (m.path / relative).text.utf8ByteSize ∧ fs.Opens base relative.segments ∧
        fs.node? (base ++ relative.segments) = some (.file content) :=
  Mirror.content?_eq_some_iff.trans (h.read_eq_ok_iff (segments_div hr) hr.ne_nil hr.noUp)

/-- New directories change no file. -/
theorem StandsAt.content?_sprouts (h : m.StandsAt base fs) (hs : Sprouts base fs fs') (hr : relative.IsInner)
    (hc : m.content? fs relative = some content) : m.content? fs' relative = some content := by
  rw [h.content?_eq_some_iff hr] at hc
  rw [(h.sprouts hs).content?_eq_some_iff hr]
  exact ⟨hc.1, hc.2.1.keeps hs.keeps, hs.stays _ _ hc.2.2⟩

theorem segments_injective {p q : Path} (hp : p.IsInner) (hq : q.IsInner) (h : p.segments = q.segments) : p = q :=
  Path.eq_of_segments (hp.start.trans hq.start.symm) h

section put

variable (h : m.StandsAt base fs) (hr : relative.IsInner)
  (hn : fs.node? (base ++ relative.segments) ≠ some .directory)

include h hr hn

/-- A file is put where a file was or nothing, so that directories and links stay. -/
theorem StandsAt.keeps_put (content : ByteArray) :
    fs.Keeps (fs.put (base ++ relative.segments) (.file content)) := by
  intro place n hplace hfile
  rw [node?_put fs _ (List.append_ne_nil_of_right_ne_nil _ hr.ne_nil), if_neg]
  · exact hplace
  · rintro rfl
    cases n with
    | file c => exact hfile c rfl
    | directory => exact hn hplace
    | link target => exact h.isPlain _ target hr.ne_nil hplace

theorem StandsAt.put (content : ByteArray) :
    m.StandsAt base (fs.put (base ++ relative.segments) (.file content)) := by
  refine ⟨h.way.keeps (h.keeps_put hr hn content), fun below target hb => ?_⟩
  rw [node?_put fs _ (List.append_ne_nil_of_right_ne_nil _ hr.ne_nil)]
  split
  · exact nofun
  · exact h.isPlain below target hb

/-- The file that was written holds what was written. -/
theorem StandsAt.content?_put_self (hshort : ¬maxPath ≤ (m.path / relative).text.utf8ByteSize)
    (hopens : fs.Opens base relative.segments) (content : ByteArray) :
    m.content? (fs.put (base ++ relative.segments) (.file content)) relative = some content := by
  rw [(h.put hr hn content).content?_eq_some_iff hr]
  exact ⟨hshort, hopens.keeps (h.keeps_put hr hn content),
    node?_put_self fs _ (List.append_ne_nil_of_right_ne_nil _ hr.ne_nil)⟩

/-- Every other file holds what it held. -/
theorem StandsAt.content?_put_of_ne {other : Path} (ho : other.IsInner) (hne : relative ≠ other)
    (content : ByteArray) {c : ByteArray} (hc : m.content? fs other = some c) :
    m.content? (fs.put (base ++ relative.segments) (.file content)) other = some c := by
  rw [h.content?_eq_some_iff ho] at hc
  rw [(h.put hr hn content).content?_eq_some_iff ho]
  refine ⟨hc.1, hc.2.1.keeps (h.keeps_put hr hn content), ?_⟩
  rw [node?_put fs _ (List.append_ne_nil_of_right_ne_nil _ hr.ne_nil), if_neg]
  · exact hc.2.2
  · exact fun he => hne (segments_injective hr ho (List.append_cancel_left he))

end put

/-! ## Work on the files of a mirror -/

/-- A mirror was filled with contents, one after the other: each of its files holds what it was given last,
or what it held. -/
structure Fills (m : Mirror) (base : Place) (d : Disk) (contents : List (Path × ByteArray)) (d' : Disk) :
    Prop where
  standsAt : m.StandsAt base d'.files
  inner : ∀ w ∈ contents, w.1.IsInner
  holds : ∀ relative c, relative.IsInner →
    (latest relative contents).or (m.content? d.files relative) = some c →
      m.content? d'.files relative = some c
  history : d'.history = d.history ++ contents.map fun w => .wrote m.path w.1 w.2
  scratches : d'.scratches = d.scratches
  outside : ∀ place, (∀ below ≠ [], place ≠ base ++ below) → d'.files.node? place = d.files.node? place

variable {contents contents' : List (Path × ByteArray)}

theorem Fills.refl (h : m.StandsAt base d.files) : m.Fills base d [] d :=
  ⟨h, nofun, fun _ _ _ h => h, (List.append_nil _).symm, rfl, fun _ _ => rfl⟩

theorem Fills.trans (h : m.Fills base d contents d') (h' : m.Fills base d' contents' d'') :
    m.Fills base d (contents ++ contents') d'' := by
  refine ⟨h'.standsAt, fun w hw => (List.mem_append.mp hw).elim (h.inner w) (h'.inner w),
    fun relative c hr hc => h'.holds relative c hr ?_, ?_, h'.scratches.trans h.scratches,
    fun place hp => (h'.outside place hp).trans (h.outside place hp)⟩
  · rw [latest_append, Option.or_assoc] at hc
    cases hl : latest relative contents' with
    | some c' =>
        rw [hl] at hc
        exact hc
    | none =>
        rw [hl] at hc
        rw [Option.none_or] at hc ⊢
        exact h.holds relative c hr hc
  · rw [h'.history, h.history, List.map_append, List.append_assoc]

theorem fills_sprouts (h : m.StandsAt base d.files) (hs : Sprouts base d.files fs') :
    m.Fills base d [] { d with files := fs' } := by
  refine ⟨h.sprouts hs, nofun, fun relative c hr hc => h.content?_sprouts hs hr hc, (List.append_nil _).symm,
    rfl, ?_⟩
  intro place hp
  cases hn : d.files.node? place with
  | some n => exact hs.stays _ _ hn
  | none =>
      cases hn' : fs'.node? place with
      | none => rfl
      | some n =>
          obtain ⟨_, below, hb, he⟩ := hs.new _ _ hn hn'
          exact absurd he (hp below hb)

theorem fills_put (h : m.StandsAt base d.files) (hr : relative.IsInner)
    (hn : d.files.node? (base ++ relative.segments) ≠ some .directory)
    (hshort : ¬maxPath ≤ (m.path / relative).text.utf8ByteSize)
    (hopens : d.files.Opens base relative.segments) (content : ByteArray) :
    m.Fills base d [(relative, content)]
      { d with
        files := d.files.put (base ++ relative.segments) (.file content)
        history := d.history ++ [.wrote m.path relative content] } := by
  refine ⟨h.put hr hn content, fun w hw => List.mem_singleton.mp hw ▸ hr, fun other c ho hc => ?_, rfl, rfl,
    fun place hp => ?_⟩
  · rw [latest_singleton] at hc
    split at hc
    · rename_i he
      cases hc
      exact he ▸ h.content?_put_self hr hn hshort hopens content
    · rename_i hne
      exact h.content?_put_of_ne hr hn ho hne content hc
  · rw [node?_put d.files _ (List.append_ne_nil_of_right_ne_nil _ hr.ne_nil), if_neg]
    exact fun he => hp _ hr.ne_nil he.symm

/-- Writing a file fills it, or leaves every file as it was. -/
theorem writeFile_fills (h : m.StandsAt base d.files) (wrap : FileError → Failure) (hr : relative.IsInner)
    (content : ByteArray) :
    Reaches (m.writeFile wrap relative content) d
      (fun e d' => m.Fills base d [(relative, content)] d' ∧ e = .ofContent relative content)
      fun _ d' => m.Fills base d [] d' := by
  unfold writeFile
  rw [reaches_get]
  split
  · exact .refl h
  · have hparent : (m.path / relative).parent.segments = m.path.segments ++ relative.segments.dropLast := by
      rw [← List.dropLast_append_of_ne_nil hr.ne_nil, ← segments_div hr]
      rfl
    rw [reaches_bind, reaches_telling, reaches_bind]
    have hsprouts : Sprouts base d.files
        (leaves (FileWork.makeDirectories (m.path / relative).parent) d.files) :=
      FileWork.sprouts_ensureDirectories _ h hparent fun hm => hr.noUp (List.dropLast_subset _ hm)
    refine (reaches_self (FileWork.makeDirectories (m.path / relative).parent) d.files).mono
      (fun _ files hf => ?_) fun _ files hf => ?_
    · rw [← hf.2] at hsprouts
      have hmade := fills_sprouts h hsprouts
      refine FileWork.reaches_change.mpr ?_
      split
      · rename_i written hwritten
        have hwritten := FileWork.about_eq_ok hwritten
        unfold FileSystem.write at hwritten
        split at hwritten
        · cases hwritten
        · cases hwritten
        · rename_i place found hnot hfind
          cases hwritten
          obtain ⟨hshort, hopens, rfl, rfl⟩ :=
            (hmade.standsAt.find_eq_ok_iff (segments_div hr) hr.ne_nil hr.noUp).mp hfind
          have hput := fills_put hmade.standsAt hr (fun hd => hnot hd) hshort hopens content
          exact ⟨hmade.trans hput, rfl⟩
      · exact hmade
    · rw [← hf.2] at hsprouts
      exact fills_sprouts h hsprouts

/-- How work fills a mirror when it writes a file for each of some elements: with a content for each, in their
order, unless it fails. -/
def FillsWith {β : Type} (m : Mirror) (base : Place) (xs : List β) (p : β → Path × ByteArray → Prop)
    (w : DiskWork (List MirrorEntry)) (d : Disk) : Prop :=
  Reaches w d
    (fun entries d' => ∃ contents, m.Fills base d contents d' ∧ List.Forall₂ p xs contents ∧
      entries = contents.map fun w => .ofContent w.1 w.2)
    fun _ d' => ∃ contents, m.Fills base d contents d'

theorem mapM_fillsWith {β : Type} {xs : List β} {p : β → Path × ByteArray → Prop} {f : β → DiskWork MirrorEntry}
    (h : m.StandsAt base d.files)
    (hf : ∀ x ∈ xs, ∀ d, m.StandsAt base d.files →
      Reaches (f x) d
        (fun e d' => ∃ w, p x w ∧ m.Fills base d [w] d' ∧ e = .ofContent w.1 w.2)
        fun _ d' => m.Fills base d [] d') :
    m.FillsWith base xs p (xs.mapM f) d := by
  unfold FillsWith
  induction xs generalizing d with
  | nil =>
      rw [List.mapM_nil, reaches_pure]
      exact ⟨[], .refl h, .nil, rfl⟩
  | cons x rest ih =>
      rw [List.mapM_cons, reaches_bind]
      refine (hf x List.mem_cons_self d h).mono (fun e d₁ ⟨w, hw, hfill, he⟩ => ?_)
        fun _ d₁ hfill => ⟨[], hfill⟩
      rw [reaches_bind]
      refine (ih hfill.standsAt fun y hy => hf y (List.mem_cons_of_mem _ hy)).mono
        (fun entries d₂ ⟨contents, hrest, hall, hentries⟩ => ?_)
        fun _ d₂ ⟨contents, hrest⟩ => ⟨w :: contents, hfill.trans hrest⟩
      rw [reaches_pure]
      exact ⟨w :: contents, hfill.trans hrest, .cons hw hall, by rw [he, hentries, List.map_cons]⟩

/-- Copying a file fills it with what was read. -/
theorem copyFile_fills (h : m.StandsAt base d.files) (root : Path) (wrap : FileError → Failure)
    (hr : relative.IsInner) :
    Reaches (m.copyFile root wrap relative) d
      (fun e d' => ∃ w : Path × ByteArray, (w.1 = relative ∧ d.files.read (root / relative) = .ok w.2) ∧
        m.Fills base d [w] d' ∧ e = .ofContent w.1 w.2)
      fun _ d' => m.Fills base d [] d' := by
  unfold copyFile
  rw [reaches_bind, reaches_telling]
  refine FileWork.reaches_ask.mpr ?_
  split
  · rename_i content hread
    exact (writeFile_fills h wrap hr content).mono
      (fun e d' hfill => ⟨(relative, content), ⟨rfl, FileWork.about_eq_ok hread⟩, hfill⟩) fun _ _ h => h
  · exact .refl h

theorem copyFiles_fillsWith (h : m.StandsAt base d.files) (root : Path) (wrap : Path → FileError → Failure)
    {paths : List Path} (hp : ∀ p ∈ paths, p.IsInner) :
    m.FillsWith base paths (fun p w => w.1 = p) (paths.mapM fun p => m.copyFile root (wrap p) p) d := by
  refine mapM_fillsWith h fun p hmem d h => ?_
  exact (copyFile_fills h root (wrap p) (hp p hmem)).mono
    (fun e d' ⟨w, hw, hfill⟩ => ⟨w, hw.1, hfill⟩) fun _ _ h => h

/-- Listing source files changes nothing and finds files inside. -/
theorem sources_reaches (policy : MirrorPolicy) (directory root : Path) (wrap : FileError → Failure) (d : Disk) :
    Reaches (sources policy directory root wrap) d (fun paths d' => d' = d ∧ ∀ p ∈ paths, p.IsInner)
      fun _ d' => d' = d := by
  unfold sources
  rw [reaches_bind]
  refine (looks_telling (FileWork.looks_allFilesBelow directory)).reaches (fun files _ => ⟨rfl, fun p hp => ?_⟩)
    fun _ _ => rfl
  obtain ⟨_, _, hr⟩ := List.mem_filterMap.mp hp
  exact Path.isInner_of_relativeTo? hr

/-- Finding out what a created path stands for changes nothing. -/
theorem createdSources_reaches (policy : MirrorPolicy) (root path : Path) (d : Disk) :
    Reaches (createdSources policy root path) d (fun paths d' => d' = d ∧ ∀ p ∈ paths, p.IsInner)
      fun _ d' => d' = d := by
  unfold createdSources
  rw [reaches_bind]
  refine (looks_telling (FileWork.looks_holds path _)).reaches (fun there _ => ?_) fun _ _ => rfl
  split
  · split
    · exact sources_reaches _ _ _ _ _
    · rfl
  · split
    · rename_i relative hr
      refine ⟨rfl, fun p hp => ?_⟩
      rw [List.mem_singleton.mp hp]
      exact isInner_of_checkedRelative hr
    · rfl

/-- Copying what was created fills the mirror with the files that it stands for. -/
theorem copyCreated_fills (h : m.StandsAt base d.files) (policy : MirrorPolicy) (root path : Path) :
    Reaches (m.copyCreated policy root path) d
      (fun entries d' => ∃ contents, m.Fills base d contents d' ∧
        entries = contents.map fun w => .ofContent w.1 w.2)
      fun _ d' => ∃ contents, m.Fills base d contents d' := by
  unfold copyCreated
  rw [reaches_bind]
  refine (createdSources_reaches policy root path d).mono (fun paths d₁ ⟨hd, hp⟩ => ?_) fun _ d₁ hd => ?_
  · subst hd
    exact (copyFiles_fillsWith h root (fun _ e => .copy (.uncopied path e)) hp).mono
      (fun entries d' ⟨contents, hfill, _, he⟩ => ⟨contents, hfill, he⟩) fun _ _ h => h
  · subst hd
    exact ⟨[], .refl h⟩

end Mirror

end InkServer
