import InkServer.Proofs.FileSystem.Growth

/-!
# File systems in which everything is still there

Things are added and files get new contents, but nothing goes away and nothing becomes something else. A path
that leads somewhere still leads there, and a path that nobody can follow because a name is too long can still
not be followed.
-/

namespace InkServer

/-- What a node is, whatever a file holds. -/
def FileNode.kind : FileNode → FileNode
  | .file _ => .file .empty
  | n => n

namespace FileNode

@[simp] theorem kind_eq_directory_iff {n : FileNode} : n.kind = .directory ↔ n = .directory := by
  cases n <;> simp [kind]

@[simp] theorem kind_eq_link_iff {n : FileNode} {target : String} : n.kind = .link target ↔ n = .link target := by
  cases n <;> simp [kind]

theorem kind_eq_file_iff {n : FileNode} {c : ByteArray} : n.kind = (file c).kind ↔ ∃ c', n = file c' := by
  cases n <;> simp [kind]

theorem isDirectory_congr {n n' : FileNode} (h : n'.kind = n.kind) : n'.isDirectory = n.isDirectory := by
  cases n <;> cases n' <;> first | rfl | cases h

end FileNode

namespace FileSystem

/-- Whatever stands in one file system has its like in the other. -/
def Covers (fs fs' : FileSystem) : Prop :=
  ∀ place n, fs.node? place = some n → ∃ n', fs'.node? place = some n' ∧ n'.kind = n.kind

/-- What is found again where more is there: the like of what was found, and what else was in the way. -/
def FoundAgain : Except Errno (Place × Option FileNode) → Except Errno (Place × Option FileNode) → Prop
  | .ok (place, some n), found => ∃ n', found = .ok (place, some n') ∧ n'.kind = n.kind
  | .ok (_, none), _ => True
  | .error e, found => meansAbsent e ∨ found = .error e

variable {fs fs' fs'' : FileSystem} {follow : Bool} {base here place : Place} {xs ys : List String} {links : Nat}
  {n : FileNode} {p : Path}

/-- Names that are followed further lead to a directory. -/
theorem way_of_walk_append (hys : ys ≠ []) {found : Place × Option FileNode}
    (h : fs.walk follow links here (xs ++ ys) = .ok found) : ∃ base, fs.Way links here xs base := by
  have hmore (rest : List String) : (rest ++ ys).isEmpty = false := by simp [hys]
  induction links using Nat.strongRecOn generalizing here xs with
  | ind links ih =>
  induction xs generalizing here with
  | nil => exact ⟨here, .stays links here⟩
  | cons name rest ih' =>
      rw [List.cons_append] at h
      by_cases hup : name = ".."
      · subst hup
        rw [walk_up] at h
        exact (ih' h).imp fun _ => .up
      by_cases hn : IsName name
      · cases hd : fs.node? (here ++ [name]) with
        | none => simp [walk_none hn hd, hmore] at h
        | some n =>
            cases n with
            | directory =>
                rw [walk_directory hn hd] at h
                exact (ih' h).imp fun _ => .enters hn hd
            | file c => simp [walk_file hn hd, hmore] at h
            | link target =>
                rw [walk_link hn hd (by simp [hmore])] at h
                cases links with
                | zero => cases h
                | succ links =>
                    rw [← List.append_assoc] at h
                    exact (ih links (Nat.lt_succ_self _) h).imp fun _ => .follows hn hd
      · rw [walk_of_not_isName hup hn] at h
        cases h

/-- A file is found where it stands. -/
theorem node?_of_walk_file {c : ByteArray} (h : fs.walk follow links here xs = .ok (place, some (.file c))) :
    fs.node? place = some (.file c) := by
  induction links using Nat.strongRecOn generalizing here xs with
  | ind links ih =>
  induction xs generalizing here with
  | nil => simp [walk_nil] at h
  | cons name rest ih' =>
      by_cases hup : name = ".."
      · subst hup
        rw [walk_up] at h
        exact ih' h
      by_cases hn : IsName name
      · cases hd : fs.node? (here ++ [name]) with
        | none =>
            rw [walk_none hn hd] at h
            split at h <;> cases h
        | some n =>
            cases n with
            | directory =>
                rw [walk_directory hn hd] at h
                exact ih' h
            | file c' =>
                rw [walk_file hn hd] at h
                split at h <;> cases h
                exact hd
            | link target =>
                cases hf : rest.isEmpty && !follow with
                | true =>
                    rw [walk_eq_descend, descend_name hn, hd] at h
                    dsimp only at h
                    rw [if_pos hf] at h
                    cases h
                | false =>
                    rw [walk_link hn hd hf] at h
                    cases links with
                    | zero => cases h
                    | succ links => exact ih links (Nat.lt_succ_self _) h
      · rw [walk_of_not_isName hup hn] at h
        cases h

namespace Covers

theorem refl (fs : FileSystem) : fs.Covers fs := fun _ n h => ⟨n, h, rfl⟩

theorem trans (h : fs.Covers fs') (h' : fs'.Covers fs'') : fs.Covers fs'' := by
  intro place n hn
  obtain ⟨n', hn', hkind⟩ := h place n hn
  obtain ⟨n'', hn'', hkind'⟩ := h' place n' hn'
  exact ⟨n'', hn'', hkind'.trans hkind⟩

variable (h : fs.Covers fs')

include h

theorem directory (hd : fs.node? place = some .directory) : fs'.node? place = some .directory := by
  obtain ⟨n', hn', hkind⟩ := h _ _ hd
  rw [hn', FileNode.kind_eq_directory_iff.mp hkind]

theorem link {target : String} (hd : fs.node? place = some (.link target)) :
    fs'.node? place = some (.link target) := by
  obtain ⟨n', hn', hkind⟩ := h _ _ hd
  rw [hn', FileNode.kind_eq_link_iff.mp hkind]

theorem file {c : ByteArray} (hd : fs.node? place = some (.file c)) : ∃ c', fs'.node? place = some (.file c') := by
  obtain ⟨n', hn', hkind⟩ := h _ _ hd
  obtain ⟨c', rfl⟩ := FileNode.kind_eq_file_iff.mp hkind
  exact ⟨c', hn'⟩

theorem keeps : fs.Keeps fs' := by
  intro place n hn hfile
  cases n with
  | file c => exact absurd rfl (hfile c)
  | directory => exact h.directory hn
  | link target => exact h.link hn

/-- Whoever follows a way finds the like of what was found there. -/
theorem walk (links : Nat) (here : Place) (xs : List String) :
    FoundAgain (fs.walk follow links here xs) (fs'.walk follow links here xs) := by
  induction links using Nat.strongRecOn generalizing here xs with
  | ind links ih =>
  induction xs generalizing here with
  | nil => exact walk_nil.symm ▸ walk_nil.symm ▸ ⟨_, rfl, rfl⟩
  | cons name rest ih' =>
      by_cases hup : name = ".."
      · subst hup
        rw [walk_up, walk_up]
        exact ih' _
      by_cases hn : IsName name
      · cases hd : fs.node? (here ++ [name]) with
        | none =>
            rw [walk_none hn hd]
            split
            · trivial
            · exact .inl rfl
        | some n =>
            cases n with
            | directory =>
                rw [walk_directory hn hd, walk_directory hn (h.directory hd)]
                exact ih' _
            | file c =>
                obtain ⟨c', hd'⟩ := h.file hd
                rw [walk_file hn hd, walk_file hn hd']
                split
                · exact ⟨_, rfl, rfl⟩
                · exact .inl rfl
            | link target =>
                have hd' := h.link hd
                cases hf : rest.isEmpty && !follow with
                | true =>
                    rw [walk_eq_descend, descend_name hn, hd, walk_eq_descend, descend_name hn, hd']
                    dsimp only
                    rw [if_pos hf, if_pos hf]
                    exact ⟨_, rfl, rfl⟩
                | false =>
                    rw [walk_link hn hd hf, walk_link hn hd' hf]
                    cases links with
                    | zero => exact .inl rfl
                    | succ links => exact ih links (Nat.lt_succ_self _) _ _
      · rw [walk_of_not_isName hup hn, walk_of_not_isName hup hn]
        exact .inr rfl

theorem foundAgain_find (follow : Bool) (p : Path) : FoundAgain (fs.find follow p) (fs'.find follow p) := by
  unfold FileSystem.find
  split
  · exact .inr rfl
  · exact h.walk _ _ _

theorem find (hf : fs.find follow p = .ok (place, some n)) :
    ∃ n', fs'.find follow p = .ok (place, some n') ∧ n'.kind = n.kind := by
  have hagain := h.foundAgain_find follow p
  rw [hf] at hagain
  exact hagain

theorem stat (hs : fs.stat p = .ok n) : ∃ n', fs'.stat p = .ok n' ∧ n'.kind = n.kind := by
  obtain ⟨place, hf⟩ := stat_eq_ok_iff.mp hs
  obtain ⟨n', hf', hkind⟩ := h.find hf
  exact ⟨n', stat_eq_ok_iff.mpr ⟨place, hf'⟩, hkind⟩

theorem stat_directory (hs : fs.stat p = .ok .directory) : fs'.stat p = .ok .directory := by
  obtain ⟨n', hs', hkind⟩ := h.stat hs
  rw [hs', FileNode.kind_eq_directory_iff.mp hkind]

/-- A path that nobody can follow, for another reason than that something is missing, stays one. -/
theorem stat_error {e : Errno} (he : ¬meansAbsent e) (hs : fs.stat p = .error e) : fs'.stat p = .error e := by
  have hfind : fs.find true p = .error e := by
    unfold FileSystem.stat at hs
    split at hs
    · rename_i hf
      cases hs
      exact hf
    · cases hs
      exact absurd rfl he
    · cases hs
  have hagain := h.foundAgain_find true p
  rw [hfind] at hagain
  unfold FileSystem.stat
  rw [hagain.resolve_left he]

end Covers

/-- What is read is what the path finds. -/
theorem read_eq_ok_iff_find {c : ByteArray} :
    fs.read p = .ok c ↔ ∃ place, fs.find true p = .ok (place, some (.file c)) :=
  read_eq_ok_iff.trans stat_eq_ok_iff

theorem Covers.read (h : fs.Covers fs') {c : ByteArray} (hr : fs.read p = .ok c) : ∃ c', fs'.read p = .ok c' := by
  obtain ⟨n', hs', hkind⟩ := h.stat (read_eq_ok_iff.mp hr)
  obtain ⟨c', rfl⟩ := FileNode.kind_eq_file_iff.mp hkind
  exact ⟨c', read_eq_ok_iff.mpr hs'⟩

end FileSystem

end InkServer
