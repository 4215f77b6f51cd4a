import InkServer.Proofs.FileSystem.Ways
import Mathlib.Data.List.Nodup
import Mathlib.Data.List.Perm.Subperm

/-!
# File systems that grow

As long as things are only added, whatever a path leads to stays where it is. What stands below a directory is
reached from there by entering directories; links are never entered.
-/

namespace InkServer.FileSystem

/-- Whatever stands in one file system stands in the other. -/
def Within (fs fs' : FileSystem) : Prop := ∀ place n, fs.node? place = some n → fs'.node? place = some n

/-- What stands below a directory, reached through directories only. -/
inductive Below (fs : FileSystem) : Place → List String → FileNode → Prop where
  | entry {base : Place} {name : String} {n : FileNode} (h : fs.node? (base ++ [name]) = some n) :
      Below fs base [name] n
  | inside {base : Place} {name : String} {rest : List String} {n : FileNode}
      (hd : fs.node? (base ++ [name]) = some .directory) (h : Below fs (base ++ [name]) rest n) :
      Below fs base (name :: rest) n

variable {fs fs' fs'' : FileSystem} {follow : Bool} {base here place : Place} {name : String} {xs names : List String}
  {links : Nat} {n : FileNode} {p : Path}

/-! ## Single names -/

/-- The last name of a way finds what stands there, unless that is a link to be followed. -/
theorem walk_last (hup : name ≠ "..") (hl : follow = true → ∀ target, fs.node? (here ++ [name]) ≠ some (.link target))
    {found : Place × Option FileNode} (h : fs.walk follow links here [name] = .ok found) :
    found = (here ++ [name], fs.node? (here ++ [name])) := by
  by_cases hn : IsName name
  · cases hd : fs.node? (here ++ [name]) with
    | none =>
        rw [walk_none hn hd] at h
        exact (Except.ok.inj h).symm
    | some n =>
        cases n with
        | directory =>
            rw [walk_directory hn hd, walk_nil] at h
            exact (Except.ok.inj h).symm
        | file c =>
            rw [walk_file hn hd] at h
            exact (Except.ok.inj h).symm
        | link target =>
            cases follow with
            | true => exact absurd hd (hl rfl target)
            | false =>
                rw [walk_eq_descend, descend_name hn, hd] at h
                exact (Except.ok.inj h).symm
  · rw [walk_of_not_isName hup hn] at h
    cases h

/-! ## What is added -/

theorem Within.refl (fs : FileSystem) : fs.Within fs := fun _ _ h => h

theorem Within.trans (h : fs.Within fs') (h' : fs'.Within fs'') : fs.Within fs'' :=
  fun place n hn => h' place n (h place n hn)

theorem Within.keeps (h : fs.Within fs') : fs.Keeps fs' := fun place n hn _ => h place n hn

/-- Where nothing stands something may be put. -/
theorem within_put (hp : place ≠ []) (hn : fs.node? place = none) (n : FileNode) : fs.Within (fs.put place n) := by
  intro q n' hq
  rw [node?_put fs n hp, if_neg]
  · exact hq
  · rintro rfl
    cases hn.symm.trans hq

/-- What a way leads to is still there. -/
theorem Within.walk (h : fs.Within fs') (hw : fs.walk follow links here xs = .ok (place, some n)) :
    fs'.walk follow links here xs = .ok (place, some n) := by
  induction links using Nat.strongRecOn generalizing here xs with
  | ind links ih =>
  induction xs generalizing here with
  | nil =>
      rw [walk_nil] at hw ⊢
      exact hw
  | cons name rest ih' =>
      by_cases hup : name = ".."
      · subst hup
        rw [walk_up] at hw ⊢
        exact ih' hw
      by_cases hn : IsName name
      · cases hd : fs.node? (here ++ [name]) with
        | none =>
            rw [walk_none hn hd] at hw
            split at hw <;> cases hw
        | some n' =>
            have hd' := h _ _ hd
            cases n' with
            | directory =>
                rw [walk_directory hn hd] at hw
                rw [walk_directory hn hd']
                exact ih' hw
            | file c =>
                rw [walk_file hn hd] at hw
                rw [walk_file hn hd']
                exact hw
            | link target =>
                cases hf : rest.isEmpty && !follow with
                | true =>
                    rw [walk_eq_descend, descend_name hn, hd] at hw
                    rw [walk_eq_descend, descend_name hn, hd']
                    dsimp only at hw ⊢
                    rw [if_pos hf] at hw ⊢
                    exact hw
                | false =>
                    rw [walk_link hn hd hf] at hw
                    rw [walk_link hn hd' hf]
                    cases links with
                    | zero => cases hw
                    | succ links => exact ih links (Nat.lt_succ_self _) hw
      · rw [walk_of_not_isName hup hn] at hw
        cases hw

theorem find_eq_ok_iff {found : Place × Option FileNode} :
    fs.find follow p = .ok found ↔
      ¬maxPath ≤ p.text.utf8ByteSize ∧ fs.walk follow maxLinks [] p.segments = .ok found := by
  unfold find
  split
  · rename_i hlong
    exact ⟨nofun, fun h => absurd hlong h.1⟩
  · rename_i hshort
    exact (and_iff_right hshort).symm

theorem stat_eq_ok_iff : fs.stat p = .ok n ↔ ∃ place, fs.find true p = .ok (place, some n) := by
  unfold stat
  split
  · rename_i hf
    simp [hf]
  · rename_i hf
    simp [hf]
  · rename_i hf
    simp [hf]

theorem read_eq_ok_iff {content : ByteArray} : fs.read p = .ok content ↔ fs.stat p = .ok (.file content) := by
  unfold read
  split
  · rename_i hs
    simp [hs]
  · rename_i hs
    simp [hs]
  · rename_i hfile hs
    rw [hs]
    refine ⟨nofun, fun he => ?_⟩
    cases he
    exact absurd rfl (hfile content)

theorem leadsToDirectory_iff : fs.leadsToDirectory p = true ↔ fs.stat p = .ok .directory := by
  unfold leadsToDirectory
  split
  · rename_i hs
    simp [hs]
  · rename_i hs
    exact ⟨nofun, fun he => absurd he hs⟩

theorem isLink_iff : fs.isLink p = true ↔ ∃ place target, fs.find false p = .ok (place, some (.link target)) := by
  unfold isLink
  split
  · rename_i hf
    simp [hf]
  · rename_i hf
    exact ⟨nofun, fun ⟨place, target, he⟩ => absurd he (hf place target)⟩

theorem Within.find (h : fs.Within fs') (hf : fs.find follow p = .ok (place, some n)) :
    fs'.find follow p = .ok (place, some n) := by
  rw [find_eq_ok_iff] at hf ⊢
  exact ⟨hf.1, h.walk hf.2⟩

theorem Within.stat (h : fs.Within fs') (hs : fs.stat p = .ok n) : fs'.stat p = .ok n := by
  rw [stat_eq_ok_iff] at hs ⊢
  exact hs.imp fun _ hf => h.find hf

theorem Within.read (h : fs.Within fs') {content : ByteArray} (hr : fs.read p = .ok content) :
    fs'.read p = .ok content := by
  rw [read_eq_ok_iff] at hr ⊢
  exact h.stat hr

/-! ## Names in a directory -/

theorem mem_names_iff : name ∈ fs.names base ↔ ∃ n, fs.node? (base ++ [name]) = some n := by
  have hne : base ++ [name] ≠ [] := List.append_ne_nil_of_right_ne_nil _ (List.cons_ne_nil _ _)
  unfold names
  rw [List.mem_map]
  constructor
  · rintro ⟨q, hq, rfl⟩
    obtain ⟨hkey, hbelow⟩ := List.mem_filter.mp hq
    rw [Bool.and_eq_true, bne_iff_ne, beq_iff_eq] at hbelow
    obtain ⟨hq0, rfl⟩ := hbelow
    obtain ⟨init, last, hlast⟩ := (List.eq_nil_or_concat q).resolve_left hq0
    rw [List.concat_eq_append] at hlast
    subst hlast
    obtain ⟨entry, hentry, hplace⟩ := List.mem_map.mp hkey
    obtain ⟨n, hn⟩ := Option.ne_none_iff_exists'.mp fun hnone => Dict.ne_of_lookup_eq_none hnone entry hentry hplace
    rw [List.dropLast_concat, List.getLastD_concat]
    exact ⟨n, (if_neg hq0).trans hn⟩
  · rintro ⟨n, hn⟩
    refine ⟨base ++ [name], List.mem_filter.mpr ⟨?_, ?_⟩, List.getLastD_concat⟩
    · exact List.mem_map_of_mem (mem_nodes_of_node? hne hn)
    · rw [Bool.and_eq_true, bne_iff_ne, beq_iff_eq, List.dropLast_concat]
      exact ⟨hne, rfl⟩

theorem list_eq_ok_iff {names : List String} :
    fs.list p = .ok names ↔
      ∃ base, fs.find true p = .ok (base, some .directory) ∧ names = Text.inOrder (fs.names base) := by
  unfold list
  split
  · rename_i hf
    simp [hf]
  · rename_i hf
    simp [hf]
  · rename_i hf
    simp [hf, eq_comm]
  · rename_i n hnot hf
    rw [hf]
    refine ⟨nofun, fun ⟨_, he, _⟩ => ?_⟩
    cases he
    exact absurd rfl hnot

theorem IsTree.plain (h : fs.IsTree) (hn : fs.node? (base ++ [name]) = some n) : IsSegment name ∧ name ≠ ".." :=
  h.named _ _ hn name (List.mem_append_right _ List.mem_cons_self)

/-! ## Below a directory -/

theorem Below.ne_nil (h : fs.Below base names n) : names ≠ [] := by
  cases h <;> exact List.cons_ne_nil _ _

theorem Below.node? (h : fs.Below base names n) : fs.node? (base ++ names) = some n := by
  induction h with
  | entry h => exact h
  | inside _ _ ih =>
      rw [List.append_assoc] at ih
      exact ih

theorem Within.below (h : fs.Within fs') (hb : fs.Below base names n) : fs'.Below base names n := by
  induction hb with
  | entry hn => exact .entry (h _ _ hn)
  | inside hd _ ih => exact .inside (h _ _ hd) ih

/-- Where everything stands in a directory, all that stands below one can be reached. -/
theorem below_iff (hc : fs.IsClosed) : fs.Below base names n ↔ names ≠ [] ∧ fs.node? (base ++ names) = some n := by
  constructor
  · exact fun h => ⟨h.ne_nil, h.node?⟩
  rintro ⟨hne, hn⟩
  induction names generalizing base with
  | nil => exact absurd rfl hne
  | cons name rest ih =>
      by_cases hr : rest = []
      · subst hr
        exact .entry hn
      · have hbelow : fs.node? (base ++ [name] ++ rest) = some n := by
          rw [List.append_assoc]
          exact hn
        exact .inside (hc.directory hr hbelow) (ih hr hbelow)

/-- No place is deeper than there are nodes, since everything on the way to it is one. -/
theorem length_le_size (hc : fs.IsClosed) (h : fs.node? place = some n) : place.length ≤ fs.nodes.size := by
  let above := (List.range place.length).map fun k => place.take (k + 1)
  have hlength : above.length = place.length := by simp [above]
  have hnodup : above.Nodup := by
    refine List.Nodup.map_on (fun k hk k' hk' he => ?_) List.nodup_range
    have hlengths := congrArg List.length he
    rw [List.mem_range] at hk hk'
    rw [List.length_take, List.length_take] at hlengths
    omega
  have hsub : above ⊆ fs.nodes.keys := by
    intro q hq
    obtain ⟨k, hk, rfl⟩ := List.mem_map.mp hq
    rw [List.mem_range] at hk
    obtain ⟨n', hn'⟩ : ∃ n', fs.node? (place.take (k + 1)) = some n' := by
      by_cases hrest : place.drop (k + 1) = []
      · refine ⟨n, ?_⟩
        rw [← List.append_nil (place.take (k + 1)), ← hrest, List.take_append_drop]
        exact h
      · have hthere : fs.node? (place.take (k + 1) ++ place.drop (k + 1)) = some n := by
          rw [List.take_append_drop]
          exact h
        exact ⟨_, hc.directory hrest hthere⟩
    have hne : place.take (k + 1) ≠ [] := by
      intro he
      have hzero := congrArg List.length he
      rw [List.length_take, List.length_nil] at hzero
      omega
    exact List.mem_map_of_mem (mem_nodes_of_node? hne hn')
  have hle := (List.subperm_of_subset hnodup hsub).length_le
  rw [hlength] at hle
  exact Nat.le_trans hle (Nat.le_of_eq (List.length_map ..))

end InkServer.FileSystem
