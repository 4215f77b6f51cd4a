import InkServer.Proofs.FileSystem.Cover
import InkServer.Proofs.Mirror.Beside

/-!
# Room in a mirror

A file can be written into a mirror exactly if nothing is in its way: its path is no longer than paths may be, and
where its directories are to stand there is nothing but directories. Writing makes the directories that are missing
and puts the file there; it takes nothing away.
-/

namespace InkServer

open Work

/-! ## The texts of paths -/

namespace Path

theorem exists_intercalate_append {sep : List Char} {xss : List (List Char)} (hxs : xss ≠ [])
    (yss : List (List Char)) : ∃ rest, sep.intercalate (xss ++ yss) = sep.intercalate xss ++ rest := by
  induction xss with
  | nil => exact absurd rfl hxs
  | cons x xss ih =>
      cases xss with
      | nil =>
          cases yss with
          | nil => exact ⟨[], by simp⟩
          | cons y yss => exact ⟨sep ++ sep.intercalate (y :: yss), by simp [List.intercalate_cons_cons]⟩
      | cons x' xss =>
          obtain ⟨rest, hrest⟩ := ih (List.cons_ne_nil _ _)
          refine ⟨rest, ?_⟩
          rw [List.cons_append, List.cons_append, List.intercalate_cons_cons, ← List.cons_append, hrest,
            List.intercalate_cons_cons]
          simp

variable {p q : Path}

/-- The text of a path begins with the text of what is above it, unless that is the working directory. -/
theorem exists_text_append (hs : p.start = q.start) (h : p.segments <+: q.segments)
    (hp : p.start = .relative → p.segments ≠ []) : ∃ rest, q.text = p.text ++ rest := by
  obtain ⟨more, hmore⟩ := h
  have hq : q.start = .relative → q.segments ≠ [] := fun hr =>
    hmore ▸ List.append_ne_nil_of_left_ne_nil (hp (hs.trans hr)) _
  obtain ⟨rest, hrest⟩ : ∃ rest, q.joined = p.joined ++ rest := by
    unfold joined
    rw [← hmore, List.map_append]
    by_cases hnil : p.segments = []
    · exact ⟨_, by rw [hnil]; rfl⟩
    · exact exists_intercalate_append (by simpa using hnil) _
  refine ⟨String.ofList rest, String.toList_inj.mp ?_⟩
  rw [String.toList_append, String.toList_ofList, toList_text hp, toList_text hq, hrest, hs, List.append_assoc]

/-- What is above a path has no longer a text, and a null character only if the path has one. -/
theorem text_above (hs : p.start = q.start) (h : p.segments <+: q.segments) (hq : q.segments ≠ []) :
    p.text.utf8ByteSize ≤ q.text.utf8ByteSize ∧ (FileWork.hasNull q = false → FileWork.hasNull p = false) := by
  by_cases hp : p.start = .relative ∧ p.segments = []
  · have hdot : p.text = "." := if_pos hp
    unfold FileWork.hasNull
    rw [hdot]
    refine ⟨?_, fun _ => by decide⟩
    have hne := text_ne_empty hq
    have hsize : q.text.utf8ByteSize ≠ 0 := fun h => hne (String.utf8ByteSize_eq_zero_iff.mp h)
    exact Nat.one_le_iff_ne_zero.mpr hsize
  · obtain ⟨rest, hrest⟩ := exists_text_append hs h fun hr hn => hp ⟨hr, hn⟩
    unfold FileWork.hasNull
    rw [hrest, String.utf8ByteSize_append, String.toList_append]
    refine ⟨Nat.le_add_right _ _, fun hnull => ?_⟩
    simp only [List.contains_eq_mem, List.mem_append, decide_eq_false_iff_not, not_or] at hnull ⊢
    exact hnull.1

theorem parent_prefix (p : Path) : p.parent.segments <+: p.segments := List.dropLast_prefix _

theorem parent_ne (h : p.segments ≠ []) : p.parent ≠ p := by
  intro he
  have hlength := congrArg (fun q => q.segments.length) he
  have hparent : p.parent.segments.length = p.segments.length - 1 := List.length_dropLast
  have hpos := List.length_pos_iff.mpr h
  omega

/-- What is above a path that leads inwards leads inwards. -/
theorem IsInner.above {relative : Path} (h : relative.IsInner) {names : List String} (hn : names ≠ [])
    (hp : names <+: relative.segments) : ∃ above : Path, above.IsInner ∧ above.segments = names :=
  ⟨⟨.relative, names, fun s hs => relative.valid s (hp.subset hs)⟩, ⟨rfl, hn, fun hup => h.noUp (hp.subset hup)⟩, rfl⟩

end Path

/-! ## Making directories -/

namespace FileWork

open FileSystem

variable {fs fs' : FileSystem} {p : Path} {depth : Nat}

/-- A change whose failure is a value is made as a whole or not at all. -/
theorem reaches_attempt_change {α : Type} {f : FileSystem → Except Errno FileSystem}
    {g : Except FileError Unit → FileWork α} {ok : α → FileSystem → Prop} {error : FileError → FileSystem → Prop} :
    Reaches (attempt (change p f) >>= g) fs ok error ↔
      match about p (f fs) with
      | .ok fs' => Reaches (g (.ok ())) fs' ok error
      | .error e => Reaches (g (.error e)) fs ok error := by
  have hgoes : Reaches (attempt (change p f) >>= g) fs ok error ↔
      Reaches (g (returns (change p f) fs)) (leaves (change p f) fs) ok error := Iff.rfl
  have hself := reaches_self (change p f) fs
  rw [reaches_change] at hself
  rw [hgoes]
  split
  · rename_i fs' hf
    rw [hf] at hself
    rw [hself.1, ← hself.2]
  · rename_i e hf
    rw [hf] at hself
    rw [hself.1, ← hself.2]

theorem clean_of_about {α : Type} {r : Except Errno α} {a : α} (h : about p r = .ok a) : hasNull p = false := by
  unfold about at h
  split at h
  · cases h
  · rename_i hnull
    exact Bool.eq_false_iff.mpr hnull

theorem about_of_clean {α : Type} (hc : hasNull p = false) (r : Except Errno α) :
    about p r = r.mapError fun cause => .os ⟨cause, some p.text⟩ := by
  unfold about
  rw [if_neg (by rw [hc]; exact Bool.false_ne_true)]

theorem reaches_isDirectory_of_directory (hc : hasNull p = false) (hd : fs.stat p = .ok .directory) :
    Reaches (isDirectory p) fs (fun there fs' => there = true ∧ fs' = fs) fun _ _ => False := by
  unfold isDirectory holds
  rw [reaches_get, if_neg (by rw [hc]; exact Bool.false_ne_true), hd]
  exact ⟨rfl, rfl⟩

/-- Where a directory is there, making sure of it changes nothing and succeeds. -/
theorem ensureDirectories_of_directory (hc : hasNull p = false) (hd : fs.stat p = .ok .directory) (depth : Nat) :
    Reaches (ensureDirectories depth p) fs (fun _ fs' => fs' = fs) fun _ _ => False := by
  obtain ⟨place, hfind⟩ := stat_eq_ok_iff.mp hd
  obtain ⟨e, hmake, hcause⟩ := about_makeDirectory_of_way (way_iff.mpr (find_eq_ok_iff.mp hfind).2)
  obtain ⟨e, rfl⟩ : ∃ e', e = .os e' := by
    rw [about_of_clean hc] at hmake
    cases hm : fs.makeDirectory p with
    | ok => rw [hm] at hmake; cases hmake
    | error cause => rw [hm] at hmake; cases hmake; exact ⟨_, rfl⟩
  have hthere : Reaches (unlessDirectory p (.os e)) fs (fun _ fs' => fs' = fs) fun _ _ => False := by
    unfold unlessDirectory
    rw [reaches_bind]
    refine (reaches_isDirectory_of_directory hc hd).mono (fun there fs' ⟨hthere, hsame⟩ => ?_) fun _ _ h => h
    rw [hthere]
    exact hsame
  cases depth with
  | zero =>
      unfold ensureDirectories ensureDirectory
      rw [reaches_attempt_change, hmake]
      dsimp only
      rw [if_neg (hcause e rfl)]
      exact hthere
  | succ depth =>
      unfold ensureDirectories
      rw [reaches_attempt_change, hmake]
      dsimp only
      rw [if_neg (hcause e rfl)]
      exact hthere

/-- Where a directory can be made it is made. -/
theorem ensureDirectories_of_makeDirectory (hc : hasNull p = false) (hm : fs.makeDirectory p = .ok fs')
    (depth : Nat) : Reaches (ensureDirectories depth p) fs (fun _ fs'' => fs'' = fs') fun _ _ => False := by
  cases depth with
  | zero =>
      unfold ensureDirectories ensureDirectory
      rw [reaches_attempt_change, about_of_clean hc, hm]
      rfl
  | succ depth =>
      unfold ensureDirectories
      rw [reaches_attempt_change, about_of_clean hc, hm]
      rfl

/-- Where the directory above is missing that one is made sure of first. -/
theorem ensureDirectories_of_noEntry (hc : hasNull p = false) (hm : fs.makeDirectory p = .error .noEntry)
    (hp : p.segments ≠ []) {ok : Unit → FileSystem → Prop} {error : FileError → FileSystem → Prop}
    (h : Reaches (ensureDirectories depth p.parent) fs
      (fun _ fs' => Reaches (ensureDirectories 0 p) fs' ok error) error) :
    Reaches (ensureDirectories (depth + 1) p) fs ok error := by
  rw [ensureDirectories, reaches_attempt_change, about_of_clean hc, hm]
  dsimp only [Except.mapError]
  rw [if_pos rfl, if_neg (Path.parent_ne hp), reaches_bind]
  exact h

end FileWork

/-! ## What is in the way -/

namespace FileSystem

open Mirror

/-- Below a directory there is room for a file under some names: the names are short enough, and nothing but
directories stands where its directories are to stand, and no directory where the file is to stand. -/
structure HasRoom (fs : FileSystem) (home : Place) (names : List String) : Prop where
  named : ∀ name ∈ names, IsName name
  above : ∀ above, above <+: names → above ≠ [] → above ≠ names →
    fs.node? (home ++ above) = none ∨ fs.node? (home ++ above) = some .directory
  free : fs.node? (home ++ names) ≠ some .directory

/-- Directories were made on the way to something below a directory, as far as they were missing. -/
structure Opened (home : Place) (names : List String) (fs fs' : FileSystem) : Prop where
  within : fs.Within fs'
  new : ∀ place n, fs'.node? place = some n → fs.node? place = some n ∨
    n = .directory ∧ ∃ above, above <+: names ∧ above ≠ [] ∧ place = home ++ above

variable {policy : MirrorPolicy} {mirrors k : Nat} {fs fs' fs'' : FileSystem} {home place : Place} {p : Path}
  {names below : List String} {follow : Bool} {found : Option FileNode}

theorem Opened.refl : Opened home names fs fs := ⟨.refl fs, fun _ _ h => .inl h⟩

/-- One more directory on the way. -/
theorem Opened.put (h : Opened home names fs fs') {above : List String} (ha : above <+: names) (hne : above ≠ [])
    (hn : fs'.node? (home ++ above) = none) : Opened home names fs (fs'.put (home ++ above) .directory) := by
  have hplace : home ++ above ≠ [] := List.append_ne_nil_of_right_ne_nil _ hne
  refine ⟨h.within.trans (within_put hplace hn _), fun place n hp => ?_⟩
  rw [node?_put fs' _ hplace] at hp
  split at hp
  · rename_i he
    cases hp
    exact .inr ⟨rfl, above, ha, hne, he.symm⟩
  · exact h.new place n hp

theorem not_prefix_dropLast (h : names ≠ []) : ¬names <+: names.dropLast := by
  intro hp
  have hle := hp.length_le
  have hpos := List.length_pos_iff.mpr h
  rw [List.length_dropLast] at hle
  omega

/-- What does not stand on the way is as it was. -/
theorem Opened.node?_eq (h : Opened home below fs fs') (hn : ¬names <+: below) :
    fs'.node? (home ++ names) = fs.node? (home ++ names) := by
  cases hold : fs.node? (home ++ names) with
  | some n => exact h.within _ _ hold
  | none =>
      cases hnew : fs'.node? (home ++ names) with
      | none => rfl
      | some n =>
          rcases h.new _ _ hnew with hthere | ⟨_, above, ha, _, he⟩
          · cases hold.symm.trans hthere
          · exact absurd (List.append_cancel_left he ▸ ha) hn

/-- Names lead down to something that stands in a directory. -/
theorem opens_of_directory (hc : fs.IsClosed) (hn : ∀ name ∈ names, IsName name)
    (hd : fs.node? (home ++ names.dropLast) = some .directory) : fs.Opens home names := by
  induction names generalizing home with
  | nil => trivial
  | cons name rest ih =>
      refine ⟨hn name List.mem_cons_self, fun hr => ?_, ?_⟩
      · rw [List.dropLast_cons_of_ne_nil hr] at hd
        by_cases hb : rest.dropLast = []
        · rw [hb] at hd
          exact hd
        · refine hc.directory hb (n := .directory) ?_
          rw [List.append_assoc]
          exact hd
      · by_cases hr : rest = []
        · rw [hr]
          trivial
        · refine ih (fun n hm => hn n (List.mem_cons_of_mem _ hm)) ?_
          rw [List.dropLast_cons_of_ne_nil hr] at hd
          rw [List.append_assoc]
          exact hd

/-- Where names lead down there are directories in front of the last one. -/
theorem Opens.directory (h : fs.Opens home names) {above : List String} (ha : above <+: names) (hne : above ≠ [])
    (hlast : above ≠ names) : fs.node? (home ++ above) = some .directory := by
  induction names generalizing home above with
  | nil => exact absurd (List.prefix_nil.mp ha) hne
  | cons name rest ih =>
      cases above with
      | nil => exact absurd rfl hne
      | cons first more =>
          obtain ⟨rfl, hmore⟩ := List.cons_prefix_cons.mp ha
          by_cases hm : more = []
          · subst hm
            exact h.2.1 fun hr => hlast (by rw [hr])
          · have hrest := ih h.2.2 hmore hm fun he => hlast (by rw [he])
            rw [List.append_assoc] at hrest
            exact hrest

theorem Opens.named (h : fs.Opens home names) : ∀ name ∈ names, IsName name := by
  induction names generalizing home with
  | nil => exact fun _ hm => absurd hm List.not_mem_nil
  | cons name rest ih =>
      intro other hm
      rcases List.mem_cons.mp hm with rfl | hm
      · exact h.1
      · exact ih h.2.2 other hm

/-- Where the way is open after directories were made on it, there was room. -/
theorem Opened.hasRoom (h : Opened home names.dropLast fs fs') (ho : fs'.Opens home names) (hne : names ≠ [])
    (hfree : fs'.node? (home ++ names) ≠ some .directory) : fs.HasRoom home names := by
  refine ⟨ho.named, fun above ha hab hlast => ?_, ?_⟩
  · have hd := ho.directory ha hab hlast
    cases hn : fs.node? (home ++ above) with
    | none => exact .inl rfl
    | some n =>
        rw [h.within _ _ hn] at hd
        exact .inr hd
  · rw [← h.node?_eq (not_prefix_dropLast hne)]
    exact hfree

/-- What a path into a mirror finds, seen from the directory for mirrors. -/
theorem Shelters.find_into (h : Shelters policy mirrors home fs) (h0 : 0 < k) (hk : k ≤ mirrors)
    (hp : p.segments = policy.tempRoot.segments ++ scratchName k :: below) (hup : ".." ∉ below) (follow : Bool) :
    fs.find follow p = .ok (place, found) ↔ ¬maxPath ≤ p.text.utf8ByteSize ∧
      fs.Opens home (scratchName k :: below) ∧ place = home ++ scratchName k :: below ∧ found = fs.node? place := by
  have happend : placeOf home k ++ below = home ++ scratchName k :: below := by simp [placeOf]
  rw [h.find_eq_ok_iff h0 hk hp hup follow, happend]
  refine and_congr_right fun _ => and_congr_left fun _ => ?_
  show _ ↔ IsName (scratchName k) ∧ _
  rw [and_iff_right (h.named k h0 hk)]
  constructor
  · intro hb
    refine ⟨fun hne => (hb hne).1, ?_⟩
    by_cases hne : below = []
    · rw [hne]
      trivial
    · exact (hb hne).2
  · exact fun hb hne => ⟨hb.1 hne, hb.2⟩

/-- Names with nothing but directories in front of the last one lead somewhere, or something is missing. -/
theorem walk_of_above (hn : ∀ name ∈ names, IsName name) (hne : names ≠ [])
    (ha : ∀ above, above <+: names → above ≠ [] → above ≠ names →
      fs.node? (home ++ above) = none ∨ fs.node? (home ++ above) = some .directory) {links : Nat}
    (hmissing : ¬fs.Opens home names) : fs.walk follow links home names = .error .noEntry := by
  induction names generalizing home with
  | nil => exact absurd rfl hne
  | cons name rest ih =>
      have hname := hn name List.mem_cons_self
      by_cases hr : rest = []
      · subst hr
        exact absurd ⟨hname, fun h => absurd rfl h, trivial⟩ hmissing
      · rcases ha [name] (List.prefix_append [name] rest) (List.cons_ne_nil _ _)
          (fun he => hr (List.cons.inj he).2.symm) with hd | hd
        · rw [walk_none hname hd, if_neg (by simpa using hr)]
        · rw [walk_directory hname hd]
          refine ih (fun n hm => hn n (List.mem_cons_of_mem _ hm)) hr (fun above hp hab hlast => ?_) fun hopens => ?_
          · rw [List.append_assoc]
            refine ha (name :: above) ((List.prefix_cons_inj name).mpr hp) (List.cons_ne_nil _ _) fun he => ?_
            exact hlast (List.cons.inj he).2
          · exact hmissing ⟨hname, fun _ => hd, hopens⟩

end FileSystem

namespace FileWork

open FileSystem Mirror

variable {policy : MirrorPolicy} {mirrors k : Nat} {fs fs' : FileSystem} {home : Place} {p : Path}
  {below : List String}

theorem makeDirectory_of_find_none {place : Place} (h : fs.find false p = .ok (place, none)) :
    fs.makeDirectory p = .ok (fs.put place .directory) := by
  unfold makeDirectory
  rw [h]

theorem makeDirectory_of_find_error {e : Errno} (h : fs.find false p = .error e) :
    fs.makeDirectory p = .error e := by
  unfold makeDirectory
  rw [h]

/-- The directory for mirrors and those above it are there already. -/
theorem not_makeDirectory_above (hs : Shelters policy mirrors home fs) (hp : p.segments <+: policy.tempRoot.segments) :
    fs.makeDirectory p ≠ .ok fs' := by
  intro hm
  obtain ⟨place, hfind, -⟩ := find_of_makeDirectory hm
  obtain ⟨base, hway⟩ : ∃ base, fs.Way maxLinks [] p.segments base := by
    obtain ⟨rest, hrest⟩ := hp
    by_cases hr : rest = []
    · rw [hr, List.append_nil] at hrest
      exact ⟨home, hrest ▸ hs.way⟩
    · have hwalk := way_iff.mp hs.way
      rw [← hrest] at hwalk
      exact way_of_walk_append hr hwalk
  obtain ⟨place', n, hthere⟩ := hway.walk_false
  cases (walk_of_find hfind).symm.trans hthere

/-- Where the way to a directory inside a mirror is open the directory is made. -/
theorem ensureDirectories_of_opens (hs : Shelters policy mirrors home fs) (h0 : 0 < k) (hk : k ≤ mirrors)
    (hp : p.segments = policy.tempRoot.segments ++ scratchName k :: below) (hup : ".." ∉ below)
    (hc : hasNull p = false) (hshort : p.text.utf8ByteSize < maxPath) (hopens : fs.Opens home (scratchName k :: below))
    (hn : fs.node? (home ++ scratchName k :: below) = none) (depth : Nat) :
    Reaches (ensureDirectories depth p) fs
      (fun _ fs' => fs'.node? (home ++ scratchName k :: below) = some .directory) fun _ _ => False := by
  have hfind := (hs.find_into h0 hk hp hup false).mpr ⟨Nat.not_le_of_lt hshort, hopens, rfl, rfl⟩
  rw [hn] at hfind
  refine (ensureDirectories_of_makeDirectory hc (makeDirectory_of_find_none hfind) depth).mono
    (fun _ fs' he => ?_) fun _ _ h => h
  rw [he]
  exact node?_put_self fs _ (List.append_ne_nil_of_right_ne_nil _ (List.cons_ne_nil _ _))

variable (ht : fs.IsTidy policy mirrors) (hs : Shelters policy mirrors home fs) (h0 : 0 < k) (hk : k ≤ mirrors)

include ht hs h0 hk

/-- Making sure of a directory inside a mirror opens the way to it. -/
theorem opened_ensureDirectories (hp : p.segments = policy.tempRoot.segments ++ scratchName k :: below)
    (hup : ".." ∉ below) (depth : Nat) :
    Effects policy mirrors fs (leaves (ensureDirectories depth p) fs) ∧
      Opened home (scratchName k :: below) fs (leaves (ensureDirectories depth p) fs) := by
  refine ensureDirectories_keeps
    (q := fun fs' => Effects policy mirrors fs fs' ∧ Opened home (scratchName k :: below) fs fs')
    (fun p => p.segments <+: policy.tempRoot.segments ++ scratchName k :: below)
    (fun p hp => p.parent_prefix.trans hp) (fun fs₁ p fs₂ hp ⟨he, ho⟩ hm => ?_) _ _ (hp ▸ List.prefix_refl _)
    ⟨.refl, .refl⟩
  have htidy := isTidy_effects ht he
  have hshelters := shelters_effects ht hs he
  rcases above_or_inside hp with ha | ⟨below', hb, hp⟩
  · exact absurd hm (not_makeDirectory_above hshelters ha)
  · have hup' : ".." ∉ below' := fun hup' => hup (hb.subset hup')
    refine ⟨he.tail (hshelters.effect_of_inside htidy.tree h0 hk hp hup' hm), ?_⟩
    obtain ⟨place, hfind, rfl⟩ := find_of_makeDirectory hm
    obtain ⟨_, _, rfl, hnone⟩ := (hshelters.find_into h0 hk hp hup' _).mp hfind
    exact ho.put ((List.prefix_cons_inj _).mpr hb) (List.cons_ne_nil _ _) hnone.symm

/-- A directory inside a mirror is made if nothing but directories stands on the way to it. -/
theorem ensureDirectories_reaches {depth : Nat} (hdepth : below.length < depth)
    (hp : p.segments = policy.tempRoot.segments ++ scratchName k :: below) (hup : ".." ∉ below)
    (hc : hasNull p = false) (hshort : p.text.utf8ByteSize < maxPath)
    (hn : ∀ name ∈ scratchName k :: below, IsName name)
    (ha : ∀ above, above <+: scratchName k :: below → above ≠ [] →
      fs.node? (home ++ above) = none ∨ fs.node? (home ++ above) = some .directory) :
    Reaches (ensureDirectories depth p) fs
      (fun _ fs' => fs'.node? (home ++ scratchName k :: below) = some .directory) fun _ _ => False := by
  induction depth generalizing p below with
  | zero => exact absurd hdepth (Nat.not_lt_zero _)
  | succ depth ih =>
      have hne : scratchName k :: below ≠ [] := List.cons_ne_nil _ _
      rcases ha _ (List.prefix_refl _) hne with hnode | hnode
      · by_cases hopens : fs.Opens home (scratchName k :: below)
        · exact ensureDirectories_of_opens hs h0 hk hp hup hc hshort hopens hnode _
        · -- Something above is missing, and it lies inside the mirror as well.
          have hb : below ≠ [] := by
            rintro rfl
            exact hopens ⟨hn _ List.mem_cons_self, fun h => absurd rfl h, trivial⟩
          have hpne : p.segments ≠ [] := hp ▸ List.append_ne_nil_of_right_ne_nil _ hne
          have hfind : fs.find false p = .error .noEntry := by
            obtain ⟨left, hleft⟩ := hs.way.walk_append hne false
            unfold find
            rw [if_neg (Nat.not_le_of_lt hshort), hp, hleft]
            exact walk_of_above hn hne (fun above hp hne _ => ha above hp hne) hopens
          have hdrop : (scratchName k :: below).dropLast = scratchName k :: below.dropLast :=
            List.dropLast_cons_of_ne_nil hb
          have hbegins : scratchName k :: below.dropLast <+: scratchName k :: below := hdrop ▸ List.dropLast_prefix _
          have hparent : p.parent.segments = policy.tempRoot.segments ++ scratchName k :: below.dropLast := by
            show p.segments.dropLast = _
            rw [hp, List.dropLast_append_of_ne_nil hne, hdrop]
          have hup' : ".." ∉ below.dropLast := fun hm => hup (List.dropLast_subset _ hm)
          have hlength : below.dropLast.length < depth := by
            have hpos := List.length_pos_iff.mpr hb
            rw [List.length_dropLast]
            omega
          obtain ⟨hsmall, hclean⟩ := Path.text_above (p := p.parent) (q := p) rfl p.parent_prefix hpne
          obtain ⟨heffects, hopened⟩ := opened_ensureDirectories ht hs h0 hk hparent hup' depth
          have habove := ih hlength hparent hup' (hclean hc) (Nat.lt_of_le_of_lt hsmall hshort)
            (fun n hm => hn n (hbegins.subset hm)) fun above hp hne => ha above (hp.trans hbegins) hne
          refine ensureDirectories_of_noEntry hc (makeDirectory_of_find_error hfind) hpne ?_
          refine (habove.and (reaches_self _ fs)).mono (fun _ fs' ⟨hd, _, he⟩ => ?_) fun _ _ h => h.1
          rw [← he] at heffects hopened
          have ht' := isTidy_effects ht heffects
          have hopens' := opens_of_directory ht'.tree.closed hn (hdrop ▸ hd)
          refine ensureDirectories_of_opens (shelters_effects ht hs heffects) h0 hk hp hup hc hshort hopens' ?_ 0
          rw [hopened.node?_eq (hdrop ▸ not_prefix_dropLast hne)]
          exact hnode
      · have hd : fs.node? (home ++ (scratchName k :: below).dropLast) = some .directory := by
          rw [← List.dropLast_concat_getLast hne, ← List.append_assoc] at hnode
          exact ht.tree.closed _ _ _ hnode
        have hopens := opens_of_directory ht.tree.closed hn hd
        have hfind := (hs.find_into h0 hk hp hup true).mpr ⟨Nat.not_le_of_lt hshort, hopens, rfl, rfl⟩
        rw [hnode] at hfind
        refine (ensureDirectories_of_directory hc (stat_eq_ok_iff.mpr ⟨_, hfind⟩) _).mono (fun _ fs' he => ?_)
          fun _ _ h => h
        rw [he]
        exact hnode

end FileWork

/-! ## Writing files -/

namespace Mirror

open FileSystem DiskWork Disk

variable {policy : MirrorPolicy} {k : Nat} {m : Mirror} {home : Place} {d d' : Disk} {relative : Path}
  {content : ByteArray} {wrap : FileError → Failure}

/-- A file can be written into a mirror: nothing keeps everybody from writing, its path is a proper one and short
enough, and nothing is in its way. -/
structure Admits (m : Mirror) (k : Nat) (home : Place) (d : Disk) (relative : Path) : Prop where
  writable : d.writeFailure = none
  clean : FileWork.hasNull (m.path / relative) = false
  short : (m.path / relative).text.utf8ByteSize < maxPath
  room : d.files.HasRoom home (scratchName k :: relative.segments)

/-- A file was written, or at least some directories on the way to it were made. -/
structure Adds (home : Place) (names : List String) (content : ByteArray) (fs fs' : FileSystem) : Prop where
  covers : fs.Covers fs'
  new : ∀ place n, fs'.node? place = some n → fs.node? place = some n ∨
    (n = .directory ∧ ∃ above, above <+: names ∧ above ≠ [] ∧ above ≠ names ∧ place = home ++ above) ∨
    place = home ++ names ∧ n = .file content

section Adds

variable {fs fs' : FileSystem} {names : List String}

theorem Adds.refl : Adds home names content fs fs := ⟨.refl fs, fun _ _ h => .inl h⟩

theorem adds_of_opened (content : ByteArray) (h : Opened home names.dropLast fs fs') (hne : names ≠ []) :
    Adds home names content fs fs' := by
  refine ⟨fun place n hn => ⟨n, h.within place n hn, rfl⟩, fun place n hn => (h.new place n hn).imp_right fun h => ?_⟩
  obtain ⟨hd, above, ha, hab, hplace⟩ := h
  exact .inl ⟨hd, above, ha.trans (List.dropLast_prefix _), hab, fun he => not_prefix_dropLast hne (he ▸ ha), hplace⟩

/-- A file is put where a file was or nothing. -/
theorem Adds.put (h : Adds home names content fs fs') (hne : names ≠ [])
    (hn : ∀ n, fs'.node? (home ++ names) = some n → ∃ c, n = .file c) :
    Adds home names content fs (fs'.put (home ++ names) (.file content)) := by
  have hput := node?_put fs' (.file content) (List.append_ne_nil_of_right_ne_nil home hne)
  refine ⟨h.covers.trans fun place n hplace => ?_, fun place n hplace => ?_⟩
  · rw [hput]
    split
    · rename_i he
      obtain ⟨c, rfl⟩ := hn n (he ▸ hplace)
      exact ⟨_, rfl, rfl⟩
    · exact ⟨n, hplace, rfl⟩
  · rw [hput] at hplace
    split at hplace
    · rename_i he
      cases hplace
      exact .inr (.inr ⟨he.symm, rfl⟩)
    · exact h.new place n hplace

end Adds

section writeFile

variable (hpath : m.path = policy.tempRoot.child (scratchName k)) (hr : relative.IsInner)

include hpath hr

theorem segments_destination :
    (m.path / relative).segments = policy.tempRoot.segments ++ scratchName k :: relative.segments := by
  rw [segments_div hr, hpath, segments_scratch, List.append_assoc]
  rfl

theorem segments_destination_parent :
    (m.path / relative).parent.segments = policy.tempRoot.segments ++ scratchName k :: relative.segments.dropLast := by
  show (m.path / relative).segments.dropLast = _
  rw [segments_destination hpath hr, List.dropLast_append_of_ne_nil (List.cons_ne_nil _ _),
    List.dropLast_cons_of_ne_nil hr.ne_nil]

variable (ht : d.files.IsTidy policy d.scratches) (hs : Shelters policy d.scratches home d.files) (h0 : 0 < k)
  (hk : k ≤ d.scratches)

include ht hs h0 hk

/-- Writing a file takes nothing away, and where it succeeds the file is there and was admitted. -/
theorem writeFile_adds : Reaches (m.writeFile wrap relative content) d
    (fun e d' => e = .ofContent relative content ∧ m.Admits k home d relative ∧
      d'.files.node? (home ++ scratchName k :: relative.segments) = some (.file content) ∧
      Adds home (scratchName k :: relative.segments) content d.files d'.files)
    fun _ d' => Adds home (scratchName k :: relative.segments) content d.files d'.files := by
  have hne : scratchName k :: relative.segments ≠ [] := List.cons_ne_nil _ _
  have hdrop : (scratchName k :: relative.segments).dropLast = scratchName k :: relative.segments.dropLast :=
    List.dropLast_cons_of_ne_nil hr.ne_nil
  have hopened := FileWork.opened_ensureDirectories ht hs h0 hk (segments_destination_parent hpath hr)
    (fun hup => hr.noUp (List.dropLast_subset _ hup)) (m.path / relative).parent.segments.length
  rw [← hdrop] at hopened
  unfold writeFile
  rw [reaches_get]
  split
  · exact .refl
  rename_i hwritable
  rw [reaches_bind, reaches_telling, reaches_bind]
  refine (reaches_self (FileWork.makeDirectories (m.path / relative).parent) d.files).mono (fun _ files hf => ?_)
    fun _ files hf => ?_
  · obtain ⟨heffects, hopened⟩ : Effects policy d.scratches d.files files ∧ Opened home _ d.files files :=
      hf.2 ▸ hopened
    have hshelters := shelters_effects ht hs heffects
    have hadds := adds_of_opened content hopened hne
    refine FileWork.reaches_change.mpr ?_
    split
    · rename_i written hwritten
      have hclean := FileWork.clean_of_about hwritten
      have hwritten := FileWork.about_eq_ok hwritten
      unfold FileSystem.write at hwritten
      split at hwritten
      · cases hwritten
      · cases hwritten
      rename_i place found hnot hfind
      cases hwritten
      obtain ⟨hshort, hopens, rfl, rfl⟩ :=
        (hshelters.find_into h0 hk (segments_destination hpath hr) hr.noUp _).mp hfind
      have hfile : ∀ n, files.node? (home ++ scratchName k :: relative.segments) = some n → ∃ c, n = .file c := by
        intro n hn
        cases n with
        | file c => exact ⟨c, rfl⟩
        | directory => exact (hnot hn).elim
        | link target =>
            refine absurd ?_ (hshelters.isPlain h0 hk relative.segments target hr.ne_nil)
            rw [placeOf, List.append_assoc]
            exact hn
      refine ⟨rfl, ⟨hwritable, hclean, Nat.lt_of_not_le hshort, hopened.hasRoom hopens hne hnot⟩, ?_,
        hadds.put hne hfile⟩
      exact node?_put_self files _ (List.append_ne_nil_of_right_ne_nil _ hne)
    · exact hadds
  · exact adds_of_opened content (hf.2 ▸ hopened.2) hne

/-- A file that a mirror admits is written. -/
theorem writeFile_of_admits (h : m.Admits k home d relative) :
    Reaches (m.writeFile wrap relative content) d (fun _ _ => True) fun _ _ => False := by
  have hne : scratchName k :: relative.segments ≠ [] := List.cons_ne_nil _ _
  have hdrop : (scratchName k :: relative.segments).dropLast = scratchName k :: relative.segments.dropLast :=
    List.dropLast_cons_of_ne_nil hr.ne_nil
  have hdestination := segments_destination hpath hr
  have hparent := segments_destination_parent hpath hr
  have hup : ".." ∉ relative.segments.dropLast := fun hm => hr.noUp (List.dropLast_subset _ hm)
  have hbegins : scratchName k :: relative.segments.dropLast <+: scratchName k :: relative.segments :=
    hdrop ▸ List.dropLast_prefix _
  obtain ⟨hsmall, hclean⟩ := Path.text_above (p := (m.path / relative).parent) (q := m.path / relative) rfl
    (Path.parent_prefix _) (hdestination ▸ List.append_ne_nil_of_right_ne_nil _ hne)
  have hopened := FileWork.opened_ensureDirectories ht hs h0 hk hparent hup (m.path / relative).parent.segments.length
  have hdepth : relative.segments.dropLast.length < (m.path / relative).parent.segments.length := by
    rw [hparent, List.length_append, List.length_cons]
    omega
  have hmade := FileWork.ensureDirectories_reaches ht hs h0 hk hdepth hparent hup (hclean h.clean)
    (Nat.lt_of_le_of_lt hsmall h.short) (fun n hm => h.room.named n (hbegins.subset hm)) fun above ha hab =>
      h.room.above above (ha.trans hbegins) hab fun he => not_prefix_dropLast hne (hdrop ▸ he ▸ ha)
  unfold writeFile
  rw [reaches_get, h.writable]
  dsimp only
  rw [reaches_bind, reaches_telling, reaches_bind]
  refine (hmade.and (reaches_self _ d.files)).mono (fun _ files ⟨hd, _, hf⟩ => ?_) fun _ _ h => h.1.elim
  rw [← hf] at hopened
  obtain ⟨heffects, hopened⟩ := hopened
  have hopens := opens_of_directory (isTidy_effects ht heffects).tree.closed h.room.named (hdrop ▸ hd)
  have hfree : files.node? (home ++ scratchName k :: relative.segments) ≠ some .directory := by
    rw [hopened.node?_eq (hdrop ▸ not_prefix_dropLast hne)]
    exact h.room.free
  have hfind := ((shelters_effects ht hs heffects).find_into h0 hk hdestination hr.noUp true).mpr
    ⟨Nat.not_le_of_lt h.short, hopens, rfl, rfl⟩
  refine FileWork.reaches_change.mpr ?_
  rw [FileWork.about_of_clean h.clean]
  have hwrite : files.write (m.path / relative) content =
      .ok (files.put (home ++ scratchName k :: relative.segments) (.file content)) := by
    unfold FileSystem.write
    rw [hfind]
    split
    · rename_i he
      cases he
    · rename_i he
      exact absurd (Prod.mk.inj (Except.ok.inj he)).2 hfree
    · rename_i he
      rw [(Prod.mk.inj (Except.ok.inj he)).1]
  rw [hwrite]
  trivial

end writeFile

/-- Writing a file does not keep anybody from writing. -/
theorem writeFailure_writeFile : (leaves (m.writeFile wrap relative content) d).writeFailure = d.writeFailure := by
  refine reaches_leaves (p := fun d' : Disk => d'.writeFailure = d.writeFailure) |>.mp ?_
  unfold writeFile
  rw [reaches_get]
  split
  · rfl
  · rw [reaches_bind, reaches_telling]
    exact (reaches_self _ d.files).mono (fun _ _ _ => rfl) fun _ _ _ => rfl

end Mirror

end InkServer
