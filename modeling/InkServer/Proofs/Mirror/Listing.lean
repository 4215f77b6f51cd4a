import InkServer.Proofs.FileSystem.Growth
import InkServer.Proofs.Mirror.Sources
import InkServer.Proofs.Path.Below

/-!
# The files of a workspace

The listing of a directory goes down through its directories and finds every file there is: what stands below the
directory, is no directory, and is no link to one. However deep a tree is, its listing is never cut short.
-/

namespace InkServer

open Work

/-! ## Paths into a directory -/

namespace Path

variable {p q relative : Path} {name : String}

theorem start_child (h : IsSegment name) (p : Path) : (p.child name).start = p.start :=
  start_join (ofText_of_isSegment h).1

theorem name_join (h : relative.IsInner) (root : Path) : (root / relative).name = relative.name := by
  obtain ⟨init, last, hlast⟩ := (List.eq_nil_or_concat relative.segments).resolve_left h.ne_nil
  unfold name
  rw [segments_join h.start, hlast, List.concat_eq_append, ← List.append_assoc, List.getLastD_concat,
    List.getLastD_concat]

end Path

namespace FileSystem

variable {fs : FileSystem} {follow : Bool} {base : Place} {name : String} {n : FileNode} {p : Path}

/-! ## What stands under a name -/

section child

variable (hw : fs.Way maxLinks [] p.segments base) (hs : IsSegment name) (hup : name ≠ "..")

include hw hs hup

/-- A name in a directory leads to what stands there, unless that is a link to be followed. -/
theorem find_child (hl : follow = true → ∀ target, fs.node? (base ++ [name]) ≠ some (.link target))
    {found : Place × Option FileNode} (h : fs.find follow (p.child name) = .ok found) :
    found = (base ++ [name], fs.node? (base ++ [name])) := by
  obtain ⟨left, hwalk⟩ := hw.walk_append (List.cons_ne_nil name []) follow
  rw [find_eq_ok_iff, Path.segments_child hs, hwalk] at h
  exact walk_last hup hl h.2

/-- A name of a directory leads to that directory only. -/
theorem way_child (hn : fs.node? (base ++ [name]) = some .directory) {place : Place}
    (h : fs.Way maxLinks [] (p.child name).segments place) : place = base ++ [name] := by
  obtain ⟨left, hwalk⟩ := hw.walk_append (List.cons_ne_nil name []) true
  rw [way_iff, Path.segments_child hs, hwalk] at h
  exact (Prod.mk.inj (walk_last hup (fun _ target he => by cases hn.symm.trans he) h)).1

/-- Whoever can follow a link in a directory can find the link itself. -/
theorem find_child_link {target : String} (hn : fs.node? (base ++ [name]) = some (.link target))
    {found : Place × Option FileNode} (h : fs.find true (p.child name) = .ok found) :
    fs.find false (p.child name) = .ok (base ++ [name], some (.link target)) := by
  rw [find_eq_ok_iff, Path.segments_child hs] at h ⊢
  obtain ⟨hshort, h⟩ := h
  obtain ⟨left, hwalk⟩ := hw.walk_append (List.cons_ne_nil name []) true
  obtain ⟨left', hwalk'⟩ := hw.walk_append (List.cons_ne_nil name []) false
  refine ⟨hshort, ?_⟩
  by_cases hname : IsName name
  · rw [hwalk', walk_eq_descend, descend_name hname, hn]
    rfl
  · rw [hwalk, walk_of_not_isName hup hname] at h
    cases h

theorem leadsToDirectory_child_of_file {c : ByteArray} (hn : fs.node? (base ++ [name]) = some (.file c)) :
    fs.leadsToDirectory (p.child name) = false := by
  rw [Bool.eq_false_iff]
  intro h
  obtain ⟨place, hf⟩ := stat_eq_ok_iff.mp (leadsToDirectory_iff.mp h)
  have hfound := find_child hw hs hup (fun _ target he => by cases hn.symm.trans he) hf
  rw [hn] at hfound
  cases hfound

/-- A listing goes down into what is a directory itself. -/
theorem entersName_iff (hfind : fs.find true p = .ok (base, some .directory))
    (hn : fs.node? (base ++ [name]) = some n) :
    (fs.listsDirectory p name && !fs.isLink (p.child name)) = true ↔ n = .directory := by
  unfold listsDirectory
  rw [hfind]
  dsimp only
  rw [hn]
  cases n with
  | directory =>
      rw [Bool.true_and, Bool.not_eq_true', Bool.eq_false_iff]
      refine iff_of_true (fun hlink => ?_) rfl
      obtain ⟨place, target, hf⟩ := isLink_iff.mp hlink
      have hfound := find_child hw hs hup (fun hfollow => absurd hfollow Bool.false_ne_true) hf
      rw [hn] at hfound
      cases hfound
  | file c => exact ⟨nofun, nofun⟩
  | link target =>
      refine ⟨fun h => ?_, nofun⟩
      obtain ⟨hleads, hlink⟩ := Bool.and_eq_true_iff.mp h
      obtain ⟨place, hf⟩ := stat_eq_ok_iff.mp (leadsToDirectory_iff.mp hleads)
      -- A path that is short enough to be followed is short enough to find the link itself.
      rw [Bool.not_eq_true'] at hlink
      refine absurd (isLink_iff.mpr ⟨base ++ [name], target, ?_⟩) (Bool.eq_false_iff.mp hlink)
      exact find_child_link hw hs hup hn hf

/-- A listing has as files what is no directory and no link to one. -/
theorem listsName_iff (hfind : fs.find true p = .ok (base, some .directory)) (hn : fs.node? (base ++ [name]) = some n) :
    (!fs.listsDirectory p name) = true ↔ n ≠ .directory ∧ fs.leadsToDirectory (p.child name) = false := by
  unfold listsDirectory
  rw [hfind]
  dsimp only
  rw [hn]
  cases n with
  | directory => exact ⟨nofun, fun h => absurd rfl h.1⟩
  | file c => exact iff_of_true rfl ⟨nofun, leadsToDirectory_child_of_file hw hs hup hn⟩
  | link target =>
      rw [Bool.not_eq_true']
      exact ⟨fun h => ⟨nofun, h⟩, fun h => h.2⟩

end child

section names

variable (h : fs.IsTree) (hw : fs.Way maxLinks [] p.segments base)
  (hfind : fs.find true p = .ok (base, some .directory))

include h hw hfind

theorem mem_listed_iff :
    name ∈ (Text.inOrder (fs.names base)).filter (fun n => !fs.listsDirectory p n) ↔
      ∃ n, fs.node? (base ++ [name]) = some n ∧ n ≠ .directory ∧ fs.leadsToDirectory (p.child name) = false := by
  rw [List.mem_filter, Text.mem_inOrder, mem_names_iff, ← exists_and_right]
  refine exists_congr fun n => and_congr_right fun hn => ?_
  obtain ⟨hs, hup⟩ := h.plain hn
  exact listsName_iff hw hs hup hfind hn

theorem mem_entered_iff :
    name ∈ (Text.inOrder (fs.names base)).filter (fun n => fs.listsDirectory p n && !fs.isLink (p.child n)) ↔
      fs.node? (base ++ [name]) = some .directory := by
  rw [List.mem_filter, Text.mem_inOrder, mem_names_iff, ← exists_and_right]
  constructor
  · rintro ⟨n, hn, hname⟩
    obtain ⟨hs, hup⟩ := h.plain hn
    rw [← (entersName_iff hw hs hup hfind hn).mp hname]
    exact hn
  · intro hn
    obtain ⟨hs, hup⟩ := h.plain hn
    exact ⟨_, hn, (entersName_iff hw hs hup hfind hn).mpr rfl⟩

end names

end FileSystem

/-! ## The files below a directory -/

namespace FileWork

open FileSystem

variable {fs : FileSystem} {base : Place} {p : Path}

/-- A file below a directory, as it is listed: reached through directories, no directory, no link to one. -/
def IsListed (fs : FileSystem) (p : Path) (base : Place) (q : Path) : Prop :=
  q.start = p.start ∧ fs.leadsToDirectory q = false ∧
    ∃ names n, q.segments = p.segments ++ names ∧ fs.Below base names n ∧ n ≠ .directory

/-- What is listed of a directory is what is listed of it directly and of the directories in it. -/
theorem isListed_iff (h : fs.IsTree) {q : Path} :
    IsListed fs p base q ↔ ∃ name n, fs.node? (base ++ [name]) = some n ∧
      (q = p.child name ∧ n ≠ .directory ∧ fs.leadsToDirectory (p.child name) = false ∨
        n = .directory ∧ IsListed fs (p.child name) (base ++ [name]) q) := by
  constructor
  · rintro ⟨hstart, hleads, names, n, hsegments, hbelow, hn⟩
    cases hbelow with
    | @entry _ name _ hnode =>
        have hs := (h.plain hnode).1
        have hq : q = p.child name := Path.eq_of_segments (hstart.trans (Path.start_child hs p).symm)
          (hsegments.trans (Path.segments_child hs p).symm)
        exact ⟨name, n, hnode, .inl ⟨hq, hn, hq ▸ hleads⟩⟩
    | @inside _ name rest _ hd hrest =>
        have hs := (h.plain hd).1
        refine ⟨name, .directory, hd, .inr ⟨rfl, hstart.trans (Path.start_child hs p).symm, hleads, rest, n, ?_, hrest,
          hn⟩⟩
        rw [hsegments, Path.segments_child hs, List.append_assoc]
        rfl
  · rintro ⟨name, n, hnode, ⟨rfl, hn, hleads⟩ | ⟨rfl, hstart, hleads, names, n, hsegments, hbelow, hn⟩⟩
    · have hs := (h.plain hnode).1
      exact ⟨Path.start_child hs p, hleads, [name], n, Path.segments_child hs p, .entry hnode, hn⟩
    · have hs := (h.plain hnode).1
      refine ⟨hstart.trans (Path.start_child hs p), hleads, name :: names, n, ?_, .inside hnode hbelow, hn⟩
      rw [hsegments, Path.segments_child hs, List.append_assoc]
      rfl

/-- The listing of a directory is complete and lists nothing else, as long as there are fewer nodes than it may go
down. -/
theorem filesBelow_lists (h : fs.IsTree) (depth : Nat)
    (hp : ∀ place, fs.Way maxLinks [] p.segments place → place = base) (hd : fs.node? base = some .directory)
    (hdepth : fs.nodes.size < depth + base.length) :
    Reaches (filesBelow depth p) fs (fun files _ => ∀ q, q ∈ files ↔ IsListed fs p base q) fun _ _ => True := by
  induction depth generalizing p base with
  | zero =>
      have hlength := length_le_size h.closed hd
      omega
  | succ depth ih =>
      unfold filesBelow
      rw [reaches_bind, reaches_ask]
      split
      · rename_i names hask
        obtain ⟨place, hfind, rfl⟩ := list_eq_ok_iff.mp (about_eq_ok hask)
        have hw := way_iff.mpr (find_eq_ok_iff.mp hfind).2
        obtain rfl := hp place hw
        have hchild : ∀ name, fs.node? (place ++ [name]) = some .directory → ∀ files,
            returns (filesBelow depth (p.child name)) fs = .ok files →
            ∀ q, q ∈ files ↔ IsListed fs (p.child name) (place ++ [name]) q := by
          intro name hn files hfiles
          obtain ⟨hs, hup⟩ := h.plain hn
          have hreaches := ih (fun _ hthere => way_child hw hs hup hn hthere) hn
            (by rw [List.length_append, List.length_singleton]; omega)
          exact hreaches.of_ok hfiles
        rw [reaches_get, reaches_bind]
        refine (Looks.mapM fun n => looks_filesBelow depth _).reaches (fun below hbelow => ?_) fun _ _ => trivial
        rw [reaches_pure]
        intro q
        rw [List.mem_append, List.mem_map, isListed_iff h, Looks.mem_flatten_mapM (fun n => looks_filesBelow depth _)
          (fun name hname files => hchild name ((mem_entered_iff h hw hfind).mp hname) files) hbelow]
        constructor
        · rintro (⟨name, hname, rfl⟩ | ⟨name, hname, hq⟩)
          · obtain ⟨n, hn, hlisted⟩ := (mem_listed_iff h hw hfind).mp hname
            exact ⟨name, n, hn, .inl ⟨rfl, hlisted⟩⟩
          · exact ⟨name, .directory, (mem_entered_iff h hw hfind).mp hname, .inr ⟨rfl, hq⟩⟩
        · rintro ⟨name, n, hn, ⟨rfl, hlisted⟩ | ⟨rfl, hq⟩⟩
          · exact .inl ⟨name, (mem_listed_iff h hw hfind).mpr ⟨n, hn, hlisted⟩, rfl⟩
          · exact .inr ⟨name, (mem_entered_iff h hw hfind).mpr hn, hq⟩
      · trivial

/-- A tree is never deeper than it has nodes, so that a listing is never cut short. -/
theorem allFilesBelow_lists (h : fs.IsTree) (hw : fs.Way maxLinks [] p.segments base) :
    Reaches (allFilesBelow p) fs (fun files _ => ∀ q, q ∈ files ↔ IsListed fs p base q) fun _ _ => True := by
  unfold allFilesBelow
  rw [reaches_get]
  exact filesBelow_lists h _ (fun _ hplace => hw.eq hplace) (hw.node? h.closed (node?_nil fs)) (by omega)

end FileWork

/-! ## The sources of a workspace -/

namespace Mirror

open FileSystem DiskWork

variable {policy : MirrorPolicy} {d : Disk} {fs fs' : FileSystem} {root relative : Path} {base : Place}

/-- A source file of the workspace that stands at a place: reached through directories, no directory and no link to
one, with an ending of a source file. -/
structure IsSourceOf (policy : MirrorPolicy) (fs : FileSystem) (root : Path) (base : Place) (relative : Path) :
    Prop where
  start : relative.start = .relative
  stands : ∃ n, fs.Below base relative.segments n ∧ n ≠ .directory
  noDirectory : fs.leadsToDirectory (root / relative) = false
  source : policy.isSource relative

theorem IsSourceOf.isInner (h : IsSourceOf policy fs root base relative) (ht : fs.IsTree) : relative.IsInner := by
  obtain ⟨n, hbelow, _⟩ := h.stands
  refine ⟨h.start, hbelow.ne_nil, fun hup => ?_⟩
  exact (ht.named _ _ hbelow.node? ".." (List.mem_append_right _ hup)).2 rfl

/-- The sources that are copied are those of the workspace, all of them and no others. -/
theorem sources_lists (h : d.files.IsTree) (hw : d.files.Way maxLinks [] root.segments base)
    (wrap : FileError → Failure) :
    Reaches (sources policy root root wrap) d
      (fun paths d' => d' = d ∧ ∀ relative, relative ∈ paths ↔ IsSourceOf policy d.files root base relative)
      fun _ d' => d' = d := by
  unfold sources
  rw [reaches_bind, reaches_telling]
  refine (FileWork.looks_allFilesBelow root).reaches (fun files hfiles => ?_) fun _ _ => rfl
  have hlists := (FileWork.allFilesBelow_lists h hw).of_ok hfiles
  rw [reaches_pure]
  refine ⟨rfl, fun relative => ?_⟩
  rw [List.mem_filterMap]
  constructor
  · rintro ⟨q, hq, hrelative⟩
    obtain ⟨hmem, hsource⟩ := List.mem_filter.mp hq
    obtain ⟨hstart, hleads, names, n, hsegments, hbelow, hn⟩ := (hlists q).mp hmem
    have hplain := h.named _ _ hbelow.node?
    obtain ⟨found, rfl, hinner⟩ : ∃ found : Path, found.segments = names ∧ found.IsInner := by
      refine ⟨⟨.relative, names, fun s hs => (hplain s (List.mem_append_right _ hs)).1⟩, rfl, rfl, hbelow.ne_nil, ?_⟩
      exact fun hup => (hplain _ (List.mem_append_right _ hup)).2 rfl
    obtain rfl : q = root / found := Path.eq_of_segments (hstart.trans (Path.start_join hinner.start).symm)
      (hsegments.trans (Path.segments_join hinner.start).symm)
    rw [Path.relativeTo?_join hinner] at hrelative
    cases hrelative
    have hname := Path.isSource_congr (Path.name_join hinner root) policy.extensions
    exact ⟨hinner.start, ⟨n, hbelow, hn⟩, hleads, hname.symm.trans hsource⟩
  · intro hr
    have hinner := hr.isInner h
    obtain ⟨n, hbelow, hn⟩ := hr.stands
    refine ⟨root / relative, List.mem_filter.mpr ⟨(hlists _).mpr ?_, ?_⟩, Path.relativeTo?_join hinner root⟩
    · exact ⟨Path.start_join hr.start, hr.noDirectory, relative.segments, n, Path.segments_join hr.start, hbelow, hn⟩
    · exact (Path.isSource_congr (Path.name_join hinner root) _).trans hr.source

end Mirror

end InkServer
