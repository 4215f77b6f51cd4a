import InkServer.FileSystem
import Mathlib.Data.List.Induction

/-!
# Ways through the file system

A way leads from one directory to another, by names, `..` and links. From the directory that a path leads to
a longer path goes on as its last names do alone, and as long as directories and links stay where they are
ways stay what they are.
-/

namespace InkServer.FileSystem

/-- Whether a name may stand in a directory. -/
structure IsName (name : String) : Prop where
  ne_up : name ≠ ".."
  short : ¬maxName < name.utf8ByteSize

/-- Names lead from a directory to another one, over at most so many links. -/
inductive Way (fs : FileSystem) : Nat → Place → List String → Place → Prop where
  | stays (links : Nat) (here : Place) : Way fs links here [] here
  | up {links : Nat} {here base : Place} {rest : List String} (h : Way fs links here.dropLast rest base) :
      Way fs links here (".." :: rest) base
  | enters {links : Nat} {here base : Place} {name : String} {rest : List String} (hn : IsName name)
      (hd : fs.node? (here ++ [name]) = some .directory) (h : Way fs links (here ++ [name]) rest base) :
      Way fs links here (name :: rest) base
  | follows {links : Nat} {here base : Place} {name target : String} {rest : List String} (hn : IsName name)
      (hd : fs.node? (here ++ [name]) = some (.link target))
      (h : Way fs links (if (Path.ofText target).isAbsolute then [] else here)
        ((Path.ofText target).segments ++ rest) base) :
      Way fs (links + 1) here (name :: rest) base

variable {fs fs' : FileSystem} {follow : Bool} {base here place : Place} {name : String}
  {xs ys rest : List String} {links : Nat}
  {onLink : Place → List String → Except Errno (Place × Option FileNode)}

/-! ## Single places -/

theorem node?_nil (fs : FileSystem) : fs.node? [] = some .directory := if_pos rfl

theorem node?_put (fs : FileSystem) (n : FileNode) (hp : place ≠ []) (q : Place) :
    (fs.put place n).node? q = if place = q then some n else fs.node? q := by
  by_cases hq : q = []
  · subst hq
    rw [if_neg hp]
    rfl
  · simp only [node?, put, if_neg hq]
    exact Dict.get?_insert fs.nodes place q n

theorem node?_put_self (fs : FileSystem) (n : FileNode) (hp : place ≠ []) :
    (fs.put place n).node? place = some n := by
  rw [node?_put fs n hp, if_pos rfl]

/-! ## Single names -/

theorem descend_up : fs.descend follow onLink here (".." :: rest) = fs.descend follow onLink here.dropLast rest := by
  rw [descend, if_pos rfl]

/-- A name that may stand nowhere leads nowhere. -/
theorem descend_of_not_isName (hup : name ≠ "..") (hn : ¬IsName name) :
    fs.descend follow onLink here (name :: rest) = .error .nameTooLong := by
  rw [descend, if_neg hup, if_pos (Decidable.not_not.mp fun hs => hn ⟨hup, hs⟩)]

theorem descend_name (hn : IsName name) :
    fs.descend follow onLink here (name :: rest) =
      match fs.node? (here ++ [name]) with
      | none => if rest.isEmpty then .ok (here ++ [name], none) else .error .noEntry
      | some .directory => fs.descend follow onLink (here ++ [name]) rest
      | some (.file c) =>
        if rest.isEmpty then .ok (here ++ [name], some (.file c)) else .error .notDirectory
      | some (.link target) =>
        if rest.isEmpty && !follow then .ok (here ++ [name], some (.link target))
        else
          onLink (if (Path.ofText target).isAbsolute then [] else here)
            ((Path.ofText target).segments ++ rest) :=
  (if_neg hn.ne_up).trans (if_neg hn.short)

/-- Following names is the same with any number of links left until one is met. -/
theorem walk_eq_descend (fs : FileSystem) (follow : Bool) (links : Nat) :
    fs.walk follow links = fs.descend follow
      (match links with
      | 0 => fun _ _ => .error .tooManyLinks
      | links + 1 => fs.walk follow links) := by
  cases links <;> rfl

theorem walk_nil : fs.walk follow links here [] = .ok (here, some .directory) := by
  rw [walk_eq_descend]
  rfl

theorem walk_up : fs.walk follow links here (".." :: rest) = fs.walk follow links here.dropLast rest := by
  rw [walk_eq_descend, descend_up]

theorem walk_of_not_isName (hup : name ≠ "..") (hn : ¬IsName name) :
    fs.walk follow links here (name :: rest) = .error .nameTooLong := by
  rw [walk_eq_descend, descend_of_not_isName hup hn]

theorem walk_none (hn : IsName name) (hd : fs.node? (here ++ [name]) = none) :
    fs.walk follow links here (name :: rest) =
      if rest.isEmpty then .ok (here ++ [name], none) else .error .noEntry := by
  rw [walk_eq_descend, descend_name hn, hd]

theorem walk_directory (hn : IsName name) (hd : fs.node? (here ++ [name]) = some .directory) :
    fs.walk follow links here (name :: rest) = fs.walk follow links (here ++ [name]) rest := by
  rw [walk_eq_descend, descend_name hn, hd]

theorem walk_file {c : ByteArray} (hn : IsName name) (hd : fs.node? (here ++ [name]) = some (.file c)) :
    fs.walk follow links here (name :: rest) =
      if rest.isEmpty then .ok (here ++ [name], some (.file c)) else .error .notDirectory := by
  rw [walk_eq_descend, descend_name hn, hd]

/-- A link is followed as long as links may be followed, unless it is the last name and is to be looked at
itself. -/
theorem walk_link {target : String} (hn : IsName name) (hd : fs.node? (here ++ [name]) = some (.link target))
    (hf : (rest.isEmpty && !follow) = false) :
    fs.walk follow links here (name :: rest) =
      match links with
      | 0 => .error .tooManyLinks
      | links + 1 =>
        fs.walk follow links (if (Path.ofText target).isAbsolute then [] else here)
          ((Path.ofText target).segments ++ rest) := by
  rw [walk_eq_descend, descend_name hn, hd]
  dsimp only
  rw [hf, if_neg Bool.false_ne_true]
  cases links <;> rfl

theorem isEmpty_and_not_true (xs : List String) : (xs.isEmpty && !true) = false := by simp

/-! ## Ways -/

theorem way_iff : fs.Way links here xs base ↔ fs.walk true links here xs = .ok (base, some .directory) := by
  constructor
  · intro h
    induction h with
    | stays => exact walk_nil
    | up _ ih => exact walk_up.trans ih
    | enters hn hd _ ih => exact (walk_directory hn hd).trans ih
    | follows hn hd _ ih => exact (walk_link hn hd (isEmpty_and_not_true _)).trans ih
  · intro h
    induction links using Nat.strongRecOn generalizing here xs with
    | ind links ih =>
    induction xs generalizing here with
    | nil =>
        rw [walk_nil] at h
        cases h
        exact .stays _ _
    | cons name rest ih' =>
        by_cases hup : name = ".."
        · subst hup
          rw [walk_up] at h
          exact .up (ih' h)
        by_cases hn : IsName name
        · cases hd : fs.node? (here ++ [name]) with
          | none =>
              rw [walk_none hn hd] at h
              split at h <;> cases h
          | some n =>
              cases n with
              | directory => exact .enters hn hd (ih' ((walk_directory hn hd).symm.trans h))
              | file c =>
                  rw [walk_file hn hd] at h
                  split at h <;> cases h
              | link target =>
                  rw [walk_link hn hd (isEmpty_and_not_true _)] at h
                  cases links with
                  | zero => cases h
                  | succ links => exact .follows hn hd (ih links (Nat.lt_succ_self _) h)
        · rw [walk_of_not_isName hup hn] at h
          cases h

/-- Behind a way the names that are left are followed with the links that are left. -/
theorem Way.walk_append (h : fs.Way links here xs base) (hys : ys ≠ []) (follow : Bool) :
    ∃ left, fs.walk follow links here (xs ++ ys) = fs.walk follow left base ys := by
  have hne (rest : List String) : ((rest ++ ys).isEmpty && !follow) = false := by
    simp [hys]
  induction h with
  | stays links here => exact ⟨links, rfl⟩
  | up _ ih => exact ih.imp fun left hleft => walk_up.trans hleft
  | enters hn hd _ ih => exact ih.imp fun left hleft => (walk_directory hn hd).trans hleft
  | follows hn hd _ ih =>
      refine ih.imp fun left hleft => (walk_link hn hd (hne _)).trans ?_
      rw [← hleft, List.append_assoc]

/-- Whoever does not follow the last name finds something there as well. -/
theorem Way.walk_false (h : fs.Way links here xs base) :
    ∃ place n, fs.walk false links here xs = .ok (place, some n) := by
  induction h with
  | stays => exact ⟨_, _, walk_nil⟩
  | up _ ih =>
      obtain ⟨place, n, hw⟩ := ih
      exact ⟨place, n, walk_up.trans hw⟩
  | enters hn hd _ ih =>
      obtain ⟨place, n, hw⟩ := ih
      exact ⟨place, n, (walk_directory hn hd).trans hw⟩
  | @follows links here _ name target rest hn hd _ ih =>
      obtain ⟨place, n, hw⟩ := ih
      cases rest with
      | nil =>
          rw [walk_eq_descend, descend_name hn, hd]
          exact ⟨_, _, rfl⟩
      | cons => exact ⟨place, n, (walk_link hn hd rfl).trans hw⟩

/-! ## What stays -/

/-- Directories and links stay where they are. -/
def Keeps (fs fs' : FileSystem) : Prop :=
  ∀ place n, fs.node? place = some n → (∀ c, n ≠ .file c) → fs'.node? place = some n

theorem Way.keeps (hk : fs.Keeps fs') (h : fs.Way links here xs base) : fs'.Way links here xs base := by
  induction h with
  | stays => exact .stays _ _
  | up _ ih => exact .up ih
  | enters hn hd _ ih => exact .enters hn (hk _ _ hd fun _ h => by cases h) ih
  | follows hn hd _ ih => exact .follows hn (hk _ _ hd fun _ h => by cases h) ih

/-! ## Below a directory without links -/

/-- No links stand below a directory. -/
def IsPlain (fs : FileSystem) (base : Place) : Prop :=
  ∀ below target, below ≠ [] → fs.node? (base ++ below) ≠ some (.link target)

/-- Names lead down from a directory, through directories up to the last one. -/
def Opens (fs : FileSystem) (here : Place) : List String → Prop
  | [] => True
  | name :: rest =>
    IsName name ∧ (rest ≠ [] → fs.node? (here ++ [name]) = some .directory) ∧ fs.Opens (here ++ [name]) rest

theorem Opens.keeps (hk : fs.Keeps fs') (h : fs.Opens here ys) : fs'.Opens here ys := by
  induction ys generalizing here with
  | nil => trivial
  | cons name rest ih => exact ⟨h.1, fun hr => hk _ _ (h.2.1 hr) fun _ h => (by cases h), ih h.2.2⟩

/-- Whether names lead down from a directory depends only on what stands below it. -/
theorem Opens.of_below (hs : ∀ names, names ≠ [] → fs'.node? (here ++ names) = fs.node? (here ++ names))
    (h : fs.Opens here ys) : fs'.Opens here ys := by
  induction ys generalizing here with
  | nil => trivial
  | cons name rest ih =>
      refine ⟨h.1, fun hr => (hs [name] (List.cons_ne_nil _ _)).trans (h.2.1 hr), ih (fun names hn => ?_) h.2.2⟩
      rw [List.append_assoc]
      exact hs _ (List.append_ne_nil_of_left_ne_nil (List.cons_ne_nil _ _) _)

theorem IsPlain.below (h : fs.IsPlain base) (name : String) : fs.IsPlain (base ++ [name]) := by
  intro below target _
  rw [List.append_assoc]
  exact h _ target (List.append_ne_nil_of_left_ne_nil (List.cons_ne_nil _ _) _)

/-- What names that never lead up find below a directory without links. -/
theorem IsPlain.walk_eq_ok_iff (h : fs.IsPlain base) (hys : ys ≠ []) (hup : ".." ∉ ys) {found : Option FileNode} :
    fs.walk follow links base ys = .ok (place, found) ↔
      fs.Opens base ys ∧ place = base ++ ys ∧ found = fs.node? place := by
  induction ys generalizing base with
  | nil => exact absurd rfl hys
  | cons name rest ih =>
      obtain ⟨hname, hrest⟩ := not_or.mp (mt List.mem_cons.mpr hup)
      have happ : base ++ name :: rest = base ++ [name] ++ rest := by simp
      by_cases hn : IsName name
      · have hopens : fs.Opens base (name :: rest) ↔
            (rest ≠ [] → fs.node? (base ++ [name]) = some .directory) ∧ fs.Opens (base ++ [name]) rest :=
          and_iff_right hn
        rw [hopens]
        -- The last name finds whatever stands there; any other one has to find a directory.
        cases rest with
        | nil =>
            have hlast : fs.walk follow links base [name] = .ok (base ++ [name], fs.node? (base ++ [name])) := by
              cases hd : fs.node? (base ++ [name]) with
              | none => exact walk_none hn hd
              | some n =>
                  cases n with
                  | directory => exact (walk_directory hn hd).trans walk_nil
                  | file c => exact walk_file hn hd
                  | link target => exact absurd hd (h _ _ (List.cons_ne_nil _ _))
            rw [hlast]
            refine ⟨fun hf => ?_, fun ⟨_, hp, hf⟩ => by rw [hf, hp]⟩
            cases hf
            exact ⟨⟨fun hr => absurd rfl hr, trivial⟩, rfl, rfl⟩
        | cons next rest =>
            cases hd : fs.node? (base ++ [name]) with
            | none =>
                rw [walk_none hn hd]
                exact ⟨nofun, fun hf => nomatch hf.1.1 (List.cons_ne_nil _ _)⟩
            | some n =>
                cases n with
                | directory =>
                    rw [walk_directory hn hd, ih (h.below name) (List.cons_ne_nil _ _) hrest, happ]
                    exact and_congr_left fun _ => (and_iff_right fun _ => rfl).symm
                | file c =>
                    rw [walk_file hn hd]
                    exact ⟨nofun, fun hf => nomatch hf.1.1 (List.cons_ne_nil _ _)⟩
                | link target => exact absurd hd (h _ _ (List.cons_ne_nil _ _))
      · rw [walk_of_not_isName (Ne.symm hname) hn]
        exact ⟨nofun, fun h => absurd h.1.1 hn⟩

/-! ## File systems as they are -/

/-- Whatever stands somewhere stands in a directory. -/
def IsClosed (fs : FileSystem) : Prop :=
  ∀ place name n, fs.node? (place ++ [name]) = some n → fs.node? place = some .directory

/-- Whatever stands below the root is one of the nodes. -/
theorem mem_nodes_of_node? (hp : place ≠ []) {n : FileNode} (h : fs.node? place = some n) :
    (place, n) ∈ fs.nodes.entries := by
  rw [FileSystem.node?, if_neg hp] at h
  exact Dict.mem_of_lookup_eq_some h

/-- A file system is closed if each of its nodes stands in a directory. -/
theorem isClosed_of_all
    (h : fs.nodes.entries.all fun e => (fs.node? e.1.dropLast).any FileNode.isDirectory) : fs.IsClosed := by
  intro place name n hn
  have he := List.all_eq_true.mp h _
    (mem_nodes_of_node? (List.append_ne_nil_of_right_ne_nil _ (List.cons_ne_nil _ _)) hn)
  rw [List.dropLast_concat] at he
  cases hd : fs.node? place with
  | none =>
      rw [hd] at he
      cases he
  | some d =>
      rw [hd] at he
      cases d with
      | directory => rfl
      | file _ => cases he
      | link _ => cases he

theorem IsClosed.directory (h : fs.IsClosed) {below : List String} (hb : below ≠ []) {n : FileNode}
    (hn : fs.node? (place ++ below) = some n) : fs.node? place = some .directory := by
  induction below using List.reverseRecOn generalizing n with
  | nil => exact absurd rfl hb
  | append_singleton init name ih =>
      rw [← List.append_assoc] at hn
      have hdirectory := h _ _ _ hn
      by_cases hi : init = []
      · rw [hi, List.append_nil] at hdirectory
        exact hdirectory
      · exact ih hi hdirectory

/-- A path that finds nothing leads to a directory in which nothing has its last name. -/
theorem way_of_walk_none (h : fs.walk false links here xs = .ok (place, none)) :
    ∃ init name directory, xs = init ++ [name] ∧ fs.Way links here init directory ∧ IsName name ∧
      fs.node? (directory ++ [name]) = none ∧ place = directory ++ [name] := by
  induction links using Nat.strongRecOn generalizing here xs with
  | ind links ih =>
  induction xs generalizing here with
  | nil =>
      rw [walk_nil] at h
      cases h
  | cons name rest ih' =>
      by_cases hup : name = ".."
      · subst hup
        rw [walk_up] at h
        obtain ⟨init, last, directory, rfl, hway, hrest⟩ := ih' h
        exact ⟨".." :: init, last, directory, rfl, .up hway, hrest⟩
      by_cases hn : IsName name
      · cases hnode : fs.node? (here ++ [name]) with
        | none =>
            rw [walk_none hn hnode] at h
            cases rest with
            | nil =>
                cases h
                exact ⟨[], name, here, rfl, .stays _ _, hn, hnode, rfl⟩
            | cons => cases h
        | some n =>
            cases n with
            | directory =>
                rw [walk_directory hn hnode] at h
                obtain ⟨init, last, directory, rfl, hway, hrest⟩ := ih' h
                exact ⟨name :: init, last, directory, rfl, .enters hn hnode hway, hrest⟩
            | file c =>
                rw [walk_file hn hnode] at h
                split at h <;> cases h
            | link target =>
                cases rest with
                | nil =>
                    rw [walk_eq_descend, descend_name hn, hnode] at h
                    cases h
                | cons next rest =>
                    rw [walk_link hn hnode rfl] at h
                    cases links with
                    | zero => cases h
                    | succ links =>
                        -- The last name is that of the path, since the link is not at its end.
                        obtain ⟨init, last, directory, he, hway, hrest⟩ := ih links (Nat.lt_succ_self _) h
                        have hr := (List.dropLast_concat_getLast (List.cons_ne_nil next rest)).symm
                        generalize (next :: rest).dropLast = init' at hr
                        generalize (next :: rest).getLast (List.cons_ne_nil next rest) = last' at hr
                        rw [hr, ← List.append_assoc] at he
                        obtain ⟨rfl, rfl⟩ := List.append_singleton_inj.mp he
                        exact ⟨name :: init', last', directory, by rw [hr, List.cons_append],
                          .follows hn hnode hway, hrest⟩
      · rw [walk_of_not_isName hup hn] at h
        cases h

/-- A path that found nothing leads to a directory once one is there. -/
theorem way_put_directory (h : fs.walk false links here xs = .ok (place, none)) :
    (fs.put place .directory).Way links here xs place := by
  obtain ⟨init, name, directory, rfl, hway, hn, hnone, rfl⟩ := way_of_walk_none h
  have hne : directory ++ [name] ≠ [] := List.append_ne_nil_of_right_ne_nil _ (List.cons_ne_nil _ _)
  have hkeeps : fs.Keeps (fs.put (directory ++ [name]) .directory) := by
    intro q n hq _
    rw [node?_put fs _ hne, if_neg]
    · exact hq
    · rintro rfl
      cases hnone.symm.trans hq
  obtain ⟨left, hwalk⟩ := (hway.keeps hkeeps).walk_append (List.cons_ne_nil name []) true
  rw [way_iff, hwalk, walk_directory hn (node?_put_self fs _ hne), walk_nil]

/-- A way that begins in a directory ends in one. -/
theorem Way.node? (hc : fs.IsClosed) (h : fs.Way links here xs base) (hh : fs.node? here = some .directory) :
    fs.node? base = some .directory := by
  induction h with
  | stays => exact hh
  | @up _ here _ _ _ ih =>
      refine ih ?_
      by_cases he : here = []
      · rw [he]
        exact node?_nil fs
      · rw [← List.dropLast_concat_getLast he] at hh
        exact hc _ _ _ hh
  | enters _ hd _ ih => exact ih hd
  | follows _ _ _ ih =>
      refine ih ?_
      split
      · exact node?_nil fs
      · exact hh

/-- Something new may stand in a directory. -/
theorem IsClosed.put (hc : fs.IsClosed) (hd : fs.node? place = some .directory)
    (hn : fs.node? (place ++ [name]) ≠ some .directory) (n : FileNode) :
    (fs.put (place ++ [name]) n).IsClosed := by
  have hne : place ++ [name] ≠ [] := List.append_ne_nil_of_right_ne_nil _ (List.cons_ne_nil _ _)
  intro q other n' h
  rw [node?_put fs _ hne] at h ⊢
  have hq : fs.node? q = some .directory := by
    split at h
    · rename_i he
      exact (List.append_inj' he rfl).1 ▸ hd
    · exact hc _ _ _ h
  rw [if_neg]
  · exact hq
  · rintro rfl
    exact hn hq

theorem IsClosed.makeDirectory (hc : fs.IsClosed) {p : Path} (h : fs.makeDirectory p = .ok fs') :
    fs'.IsClosed := by
  unfold FileSystem.makeDirectory at h
  split at h
  · cases h
  · cases h
  · rename_i place hfind
    cases h
    unfold find at hfind
    split at hfind
    · cases hfind
    · obtain ⟨_, name, directory, _, hway, _, hnone, rfl⟩ := way_of_walk_none hfind
      refine hc.put (hway.node? hc (node?_nil fs)) ?_ _
      rw [hnone]
      exact nofun

/-- Nothing stands below a place where nothing stands. -/
theorem IsClosed.below_eq_none (h : fs.IsClosed) (hp : fs.node? place = none) (below : List String) :
    fs.node? (place ++ below) = none := by
  cases hn : fs.node? (place ++ below) with
  | none => rfl
  | some n =>
      by_cases hb : below = []
      · rw [hb, List.append_nil, hp] at hn
        cases hn
      · cases hp.symm.trans (h.directory hb hn)

/-! ## Trees -/

/-- What is dropped with a place is what stands there and below. -/
theorem node?_drop (fs : FileSystem) (hp : place ≠ []) (q : Place) :
    (fs.drop place).node? q = if place <+: q then none else fs.node? q := by
  by_cases hq : q = []
  · subst hq
    rw [if_neg fun h => hp (List.prefix_nil.mp h)]
    rfl
  · simp only [node?, if_neg hq]
    unfold drop Dict.get?
    rw [Dict.lookup_filter q fun q => !place.isPrefixOf q]
    by_cases hbegins : place <+: q
    · rw [if_pos hbegins, List.isPrefixOf_iff_prefix.mpr hbegins]
      rfl
    · rw [if_neg hbegins, Bool.eq_false_iff.mpr fun h => hbegins (List.isPrefixOf_iff_prefix.mp h)]
      rfl

/-- What is left after something was dropped stood there before. -/
theorem node?_of_drop (hp : place ≠ []) {q : Place} {n : FileNode} (h : (fs.drop place).node? q = some n) :
    fs.node? q = some n := by
  rw [node?_drop fs hp] at h
  split at h
  · cases h
  · exact h

/-- A place at which something may stand: its directory is there, and its name is a plain one. -/
def Fits (fs : FileSystem) (place : Place) : Prop :=
  ∃ directory name, place = directory ++ [name] ∧ fs.node? directory = some .directory ∧ IsSegment name ∧
    name ≠ ".."

/-- A file system as machines have it: whatever stands somewhere stands in a directory, under a plain name. -/
structure IsTree (fs : FileSystem) : Prop where
  closed : fs.IsClosed
  named : ∀ place n, fs.node? place = some n → ∀ name ∈ place, IsSegment name ∧ name ≠ ".."

/-- A file system is a tree if each of its nodes stands in a directory under plain names. -/
theorem isTree_of_all (hc : fs.nodes.entries.all fun e => (fs.node? e.1.dropLast).any FileNode.isDirectory)
    (hn : fs.nodes.entries.all fun e => e.1.all fun name => IsSegment name ∧ name ≠ "..") : fs.IsTree := by
  refine ⟨isClosed_of_all hc, fun place n h name hname => ?_⟩
  have hall := List.all_eq_true.mp hn _ (mem_nodes_of_node? (List.ne_nil_of_mem hname) h)
  exact of_decide_eq_true (List.all_eq_true.mp hall name hname)

theorem Fits.ne_nil (h : fs.Fits place) : place ≠ [] := by
  obtain ⟨_, _, rfl, _⟩ := h
  exact List.append_ne_nil_of_right_ne_nil _ (List.cons_ne_nil _ _)

theorem IsTree.put (h : fs.IsTree) (hf : fs.Fits place) (hn : fs.node? place ≠ some .directory) (n : FileNode) :
    (fs.put place n).IsTree := by
  have hne := hf.ne_nil
  obtain ⟨directory, name, rfl, hd, hname⟩ := hf
  refine ⟨h.closed.put hd hn n, fun q n' hq => ?_⟩
  rw [node?_put fs n hne] at hq
  split at hq
  · rename_i he
    subst he
    exact fun other hm => (List.mem_append.mp hm).elim (h.named _ _ hd other) fun hm =>
      List.mem_singleton.mp hm ▸ hname
  · exact h.named q n' hq

theorem IsTree.drop (h : fs.IsTree) (hp : place ≠ []) : (fs.drop place).IsTree := by
  refine ⟨fun q name n hq => ?_, fun q n hq => h.named q n (node?_of_drop hp hq)⟩
  have hdirectory := h.closed q name n (node?_of_drop hp hq)
  rw [node?_drop fs hp] at hq ⊢
  rw [if_neg fun hbegins => ?_]
  · exact hdirectory
  · rw [if_pos (hbegins.trans (List.prefix_append q [name]))] at hq
    cases hq

/-- Where a path finds nothing something may be put. -/
theorem fits_of_find_none (h : fs.IsTree) {p : Path} (hf : fs.find false p = .ok (place, none)) : fs.Fits place := by
  unfold find at hf
  split at hf
  · cases hf
  · obtain ⟨init, name, directory, hsegments, hway, hname, _, rfl⟩ := way_of_walk_none hf
    refine ⟨directory, name, rfl, hway.node? h.closed (node?_nil fs), ?_, hname.ne_up⟩
    exact p.valid name (hsegments ▸ List.mem_append_right _ (List.mem_singleton_self name))

/-! ## Ways beside something -/

/-- Names lead to a directory whatever stands at some places. -/
def LeadsBeside (fs : FileSystem) (inside : Place → Prop) (names : List String) (base : Place) : Prop :=
  ∀ fs' : FileSystem, (∀ q, ¬inside q → fs'.node? q = fs.node? q) → fs'.Way maxLinks [] names base

section LeadsBeside

variable {inside inside' : Place → Prop} {names : List String}

theorem LeadsBeside.way (h : fs.LeadsBeside inside names base) : fs.Way maxLinks [] names base := h fs fun _ _ => rfl

theorem LeadsBeside.of_outside (h : fs.LeadsBeside inside names base)
    (hs : ∀ q, ¬inside q → fs'.node? q = fs.node? q) : fs'.LeadsBeside inside names base :=
  fun g hg => h g fun q hq => (hg q hq).trans (hs q hq)

theorem LeadsBeside.mono (h : fs.LeadsBeside inside names base) (hi : ∀ q, inside' q → inside q) :
    fs.LeadsBeside inside' names base :=
  fun g hg => h g fun q hq => hg q fun hin => hq (hi q hin)

/-- A way does not lead through what was not there. -/
theorem LeadsBeside.put_new (h : fs.LeadsBeside inside names base) (hc : fs.IsClosed) (hp : place ≠ [])
    (hn : fs.node? place = none) (hi : ∀ q, inside' q → inside q ∨ place <+: q) (n : FileNode) :
    (fs.put place n).LeadsBeside inside' names base := by
  intro g hg
  have hway : (g.drop place).Way maxLinks [] names base := by
    refine h _ fun q hq => ?_
    rw [node?_drop g hp]
    by_cases hbegins : place <+: q
    · obtain ⟨below, rfl⟩ := hbegins
      rw [if_pos (List.prefix_append _ _), hc.below_eq_none hn]
    · rw [if_neg hbegins, hg q fun hin => (hi q hin).elim hq hbegins, node?_put fs n hp, if_neg]
      exact fun he => hbegins (he ▸ List.prefix_refl _)
  exact hway.keeps fun q n' hq _ => node?_of_drop hp hq

theorem leadsBeside_put_new (h : fs.Way maxLinks [] names base) (hc : fs.IsClosed) (hp : place ≠ [])
    (hn : fs.node? place = none) (n : FileNode) : (fs.put place n).LeadsBeside (place <+: ·) names base := by
  have hall : fs.LeadsBeside (fun _ => False) names base :=
    fun g hg => h.keeps fun q n hq _ => (hg q id).trans hq
  exact hall.put_new hc hp hn (fun _ hq => .inr hq) n

/-- A way does not lead through a file. -/
theorem LeadsBeside.drop_file (h : fs.LeadsBeside inside names base) (hc : fs.IsClosed) (hp : place ≠ [])
    {c : ByteArray} (hn : fs.node? place = some (.file c)) : (fs.drop place).LeadsBeside inside names base := by
  intro g hg
  have hway : (g.put place (.file c)).Way maxLinks [] names base := by
    refine h _ fun q hq => ?_
    rw [node?_put g _ hp]
    split
    · rename_i he
      exact he ▸ hn.symm
    · rename_i hne
      rw [hg q hq, node?_drop fs hp]
      split
      · -- Nothing stands below a file.
        rename_i hbegins
        obtain ⟨below, rfl⟩ := hbegins
        have hbelow : below ≠ [] := fun he => hne (by rw [he, List.append_nil])
        cases hq : fs.node? (place ++ below) with
        | none => rfl
        | some n => cases hn.symm.trans (hc.directory hbelow hq)
      · rfl
  refine hway.keeps fun q n hq hfile => ?_
  rw [node?_put g _ hp] at hq
  split at hq
  · cases hq
    exact absurd rfl (hfile c)
  · exact hq

end LeadsBeside

/-- Names lead to one directory only. -/
theorem Way.eq (h : fs.Way links here xs base) {base' : Place} (h' : fs.Way links here xs base') : base' = base := by
  rw [way_iff] at h h'
  exact (Prod.mk.inj (Except.ok.inj (h'.symm.trans h))).1

end InkServer.FileSystem
