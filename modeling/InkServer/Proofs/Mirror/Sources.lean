import InkServer.Proofs.Mirror.Places

/-!
# What is listed as a source

A file is found in a directory under a plain name, and its path relative to the workspace ends in that name.
So what is a source file in the workspace is a source file in the mirror.
-/

namespace InkServer

open Work

namespace Path

theorem resolve_concat {names : List String} {name : String} (h : name ≠ "..") :
    resolve (names ++ [name]) = resolve names ++ [name] := by
  unfold resolve
  rw [List.foldl_append, List.foldl_cons, List.foldl_nil, resolveStep, if_neg h, List.reverse_cons]

/-- A path ends in the same name wherever it is seen from, unless it leads up. -/
theorem name_of_relativeTo? {p root relative : Path} {names : List String} {name : String}
    (hp : p.segments = names ++ [name]) (hup : name ≠ "..") (h : p.relativeTo? root = some relative) :
    relative.name = p.name := by
  have hsegments : p.normalized.segments = resolve names ++ [name] := by
    have habsolute : p.absolute.segments = p.segments := by
      unfold absolute
      split <;> rfl
    show resolve p.absolute.segments = _
    rw [habsolute, hp, resolve_concat hup]
  unfold relativeTo? at h
  simp only at h
  split at h
  · split at h
    · cases h
    · cases h
    · rename_i first rest hb
      cases h
      have hbehind := behind?_eq_some_iff.mp hb
      obtain ⟨init, last, hlast⟩ := (List.eq_nil_or_concat (first :: rest)).resolve_left (List.cons_ne_nil _ _)
      rw [List.concat_eq_append] at hlast
      rw [hsegments, hlast, ← List.append_assoc] at hbehind
      obtain ⟨_, rfl⟩ := List.append_singleton_inj.mp hbehind
      show (first :: rest).getLastD "" = p.segments.getLastD ""
      rw [hlast, hp, List.getLastD_concat, List.getLastD_concat]
  · cases h

/-- Whether a path is that of a source file depends on its name. -/
theorem isSource_congr {p q : Path} (h : p.name = q.name) (extensions : List String) :
    p.isSource extensions = q.isSource extensions := by
  unfold isSource ending
  rw [h]

end Path

namespace FileWork

open FileSystem

variable {fs : FileSystem}

/-- A name that is listed is a plain one. -/
theorem plain_of_mem_list (h : fs.IsTree) {p : Path} {names : List String} (hl : fs.list p = .ok names)
    {name : String} (hn : name ∈ names) : IsSegment name ∧ name ≠ ".." := by
  obtain ⟨place, _, rfl⟩ := list_eq_ok_iff.mp hl
  obtain ⟨n, hnode⟩ := mem_names_iff.mp (Text.mem_inOrder.mp hn)
  exact h.plain hnode

/-- A file that is found stands in some directory under a plain name. -/
def IsFound (p : Path) : Prop :=
  ∃ (directory : Path) (name : String), IsSegment name ∧ name ≠ ".." ∧ p = directory.child name

theorem isFound_of_filesBelow (h : fs.IsTree) (depth : Nat) (p : Path) :
    Reaches (filesBelow depth p) fs (fun files _ => ∀ q ∈ files, IsFound q) fun _ _ => True := by
  induction depth generalizing p with
  | zero => exact fun _ hq => absurd hq List.not_mem_nil
  | succ depth ih =>
      unfold filesBelow
      rw [reaches_bind, reaches_ask]
      split
      · rename_i names hlist
        rw [reaches_get, reaches_bind]
        refine (Looks.mapM fun n => looks_filesBelow depth _).reaches (fun below hbelow => ?_) fun _ _ => trivial
        have hall := Looks.forall_mapM (q := fun files => ∀ q ∈ files, IsFound q)
          (fun n => looks_filesBelow depth (p.child n)) (fun n _ files hfiles => ?_) hbelow
        · intro q hq
          rcases List.mem_append.mp hq with hq | hq
          · obtain ⟨name, hname, rfl⟩ := List.mem_map.mp hq
            obtain ⟨hsegment, hup⟩ := plain_of_mem_list h (about_eq_ok hlist) (List.mem_filter.mp hname).1
            exact ⟨p, name, hsegment, hup, rfl⟩
          · obtain ⟨files, hfiles, hq⟩ := List.mem_flatten.mp hq
            exact hall files hfiles q hq
        · have hn := ih (p.child n)
          unfold Reaches at hn
          rw [hfiles] at hn
          exact hn
      · trivial

end FileWork

namespace Mirror

open DiskWork

variable {policy : MirrorPolicy} {d : Disk}

/-- What is listed as the sources of a directory are source files inside. -/
theorem sources_isSource (h : d.files.IsTree) (directory root : Path) (wrap : FileError → Failure) :
    Reaches (sources policy directory root wrap) d
      (fun paths d' => d' = d ∧ ∀ p ∈ paths, p.IsInner ∧ policy.isSource p) fun _ d' => d' = d := by
  unfold sources
  rw [reaches_bind, reaches_telling]
  have hlooks := FileWork.looks_allFilesBelow directory d.files
  refine (reaches_self (FileWork.allFilesBelow directory) d.files).mono (fun files fs ⟨hfiles, hfs⟩ => ?_)
    fun _ fs ⟨_, hfs⟩ => by rw [hfs, hlooks]
  rw [hfs, hlooks]
  refine ⟨rfl, fun p hp => ?_⟩
  obtain ⟨q, hq, hrelative⟩ := List.mem_filterMap.mp hp
  obtain ⟨hmem, hsource⟩ := List.mem_filter.mp hq
  have hfound := FileWork.isFound_of_filesBelow h (d.files.nodes.size + 1) directory
  unfold Reaches at hfound
  rw [show returns (FileWork.filesBelow (d.files.nodes.size + 1) directory) d.files = .ok files from hfiles] at hfound
  obtain ⟨above, name, hsegment, hup, rfl⟩ := hfound q hmem
  have hname := Path.name_of_relativeTo? (Path.segments_child hsegment above) hup hrelative
  exact ⟨Path.isInner_of_relativeTo? hrelative, (Path.isSource_congr hname _).trans hsource⟩

theorem isSource_of_checkedRelative {root path relative : Path}
    (h : checkedRelative policy root path = .ok relative) : policy.isSource relative := by
  unfold checkedRelative at h
  simp only at h
  split at h
  · cases h
  · split at h
    · rename_i hs
      cases h
      exact hs
    · cases h

theorem isSource_of_mem_overlays {root : Path} {documents : List (Path × ByteArray)} {x : Path × ByteArray}
    (h : x ∈ overlays policy root documents) : policy.isSource x.1 := by
  unfold overlays at h
  obtain ⟨⟨path, content⟩, _, hx⟩ := List.mem_filterMap.mp h
  simp only at hx
  split at hx
  · split at hx
    · rename_i hs
      cases hx
      exact hs
    · cases hx
  · cases hx

/-- The files that a created path stands for are source files inside. -/
theorem createdSources_isSource (h : d.files.IsTree) (root path : Path) :
    Reaches (createdSources policy root path) d
      (fun paths d' => d' = d ∧ ∀ p ∈ paths, p.IsInner ∧ policy.isSource p) fun _ d' => d' = d := by
  unfold createdSources
  rw [reaches_bind]
  refine (looks_telling (FileWork.looks_holds path _)).reaches (fun there _ => ?_) fun _ _ => rfl
  split
  · split
    · exact sources_isSource h _ _ _
    · rfl
  · split
    · rename_i relative hr
      refine ⟨rfl, fun p hp => ?_⟩
      rw [List.mem_singleton.mp hp]
      exact ⟨isInner_of_checkedRelative hr, isSource_of_checkedRelative hr⟩
    · rfl

end Mirror

end InkServer
