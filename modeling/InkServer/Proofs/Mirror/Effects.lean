import InkServer.Proofs.Mirror.Creation
import InkServer.Proofs.Mirror.Places

/-!
# What work on mirrors touches

Whatever is done for mirrors comes down to few kinds of effects on single places: directories on the way to
the place for mirrors, directories and source files inside a mirror, and the removal of a mirror and of what
was compiled beside it. None of them puts anything else anywhere, as long as no links stand inside mirrors;
and they put none there.
-/

namespace InkServer

open Work

/-! ## Mirrors side by side -/

namespace Mirror

/-- The place of a mirror with a number. -/
def placeOf (home : Place) (number : Nat) : Place := home ++ [scratchName number]

/-- Whether a place is that of one of the first mirrors, or lies in one. -/
def IsOf (home : Place) (mirrors : Nat) (place : Place) : Prop :=
  ∃ k, 0 < k ∧ k ≤ mirrors ∧ placeOf home k <+: place

/-- What may stand in a mirror under some names: a directory, or a source file. -/
def MayHold (policy : MirrorPolicy) (names : List String) : Option FileNode → Prop
  | none | some .directory => True
  | some (.file _) => ∃ relative : Path, relative.IsInner ∧ relative.segments = names ∧ policy.isSource relative
  | some (.link _) => False

end Mirror

namespace FileSystem

open Mirror

/-- The directory in which the first mirrors stand side by side. The place for mirrors is this directory,
whatever stands in the mirrors, and they hold directories and source files only. -/
structure Shelters (policy : MirrorPolicy) (mirrors : Nat) (home : Place) (fs : FileSystem) : Prop where
  leads : fs.LeadsBeside (IsOf home mirrors) policy.tempRoot.segments home
  named : ∀ k, 0 < k → k ≤ mirrors → IsName (scratchName k)
  holds : ∀ k, 0 < k → k ≤ mirrors → ∀ names, MayHold policy names (fs.node? (placeOf home k ++ names))

/-- What holds of the files of a machine at all times, once some mirrors were made on it. No link bears the
name of what is compiled from a mirror. -/
structure IsTidy (policy : MirrorPolicy) (mirrors : Nat) (fs : FileSystem) : Prop where
  tree : fs.IsTree
  noLinks : ∀ directory k target, fs.node? (directory ++ [outputName k]) ≠ some (.link target)
  shelters : mirrors ≠ 0 → ∃ home, Shelters policy mirrors home fs

/-- One effect of work on mirrors, when so many mirrors were made. -/
inductive Effect (policy : MirrorPolicy) (mirrors : Nat) (fs : FileSystem) : FileSystem → Prop where
  /-- The place for mirrors, or a directory above it, is made where nothing stands. -/
  | prepares {above : List String} {place : Place} (ha : above <+: policy.tempRoot.segments) (hf : fs.Fits place)
      (hn : fs.node? place = none) (hw : (fs.put place .directory).Way maxLinks [] above place) :
      Effect policy mirrors fs (fs.put place .directory)
  /-- The directory of a mirror, or one inside it, is made where nothing stands. -/
  | enters {home : Place} {k : Nat} {names : List String} (hh : fs.Way maxLinks [] policy.tempRoot.segments home)
      (h0 : 0 < k) (hk : k ≤ mirrors) (hf : fs.Fits (placeOf home k ++ names))
      (hn : fs.node? (placeOf home k ++ names) = none) :
      Effect policy mirrors fs (fs.put (placeOf home k ++ names) .directory)
  /-- A source file inside a mirror is written. -/
  | writes {home : Place} {k : Nat} {relative : Path} (content : ByteArray)
      (hh : fs.Way maxLinks [] policy.tempRoot.segments home) (h0 : 0 < k) (hk : k ≤ mirrors)
      (hi : relative.IsInner) (hs : policy.isSource relative) (hf : fs.Fits (placeOf home k ++ relative.segments))
      (hn : fs.node? (placeOf home k ++ relative.segments) ≠ some .directory) :
      Effect policy mirrors fs (fs.put (placeOf home k ++ relative.segments) (.file content))
  /-- A mirror is deleted. -/
  | deletes {home : Place} {k : Nat} (hh : fs.Way maxLinks [] policy.tempRoot.segments home) (h0 : 0 < k)
      (hk : k ≤ mirrors) : Effect policy mirrors fs (fs.drop (placeOf home k))
  /-- What was compiled beside a mirror is deleted. -/
  | clears {home : Place} {k : Nat} {c : ByteArray} (hh : fs.Way maxLinks [] policy.tempRoot.segments home)
      (h0 : 0 < k) (hk : k ≤ mirrors) (hn : fs.node? (home ++ [outputName k]) = some (.file c)) :
      Effect policy mirrors fs (fs.drop (home ++ [outputName k]))

/-- Any number of effects. -/
abbrev Effects (policy : MirrorPolicy) (mirrors : Nat) : FileSystem → FileSystem → Prop :=
  Relation.ReflTransGen (Effect policy mirrors)

variable {policy : MirrorPolicy} {mirrors : Nat} {fs fs' : FileSystem} {home place : Place} {k : Nat}

theorem Effect.mono {more : Nat} (h : Effect policy mirrors fs fs') (hm : mirrors ≤ more) :
    Effect policy more fs fs' := by
  cases h with
  | prepares ha hf hn hw => exact .prepares ha hf hn hw
  | enters hh h0 hk hf hn => exact .enters hh h0 (Nat.le_trans hk hm) hf hn
  | writes content hh h0 hk hi hs hf hn => exact .writes content hh h0 (Nat.le_trans hk hm) hi hs hf hn
  | deletes hh h0 hk => exact .deletes hh h0 (Nat.le_trans hk hm)
  | clears hh h0 hk hn => exact .clears hh h0 (Nat.le_trans hk hm) hn

theorem effects_mono {more : Nat} (h : Effects policy mirrors fs fs') (hm : mirrors ≤ more) :
    Effects policy more fs fs' := by
  induction h with
  | refl => exact .refl
  | tail _ he ih => exact ih.tail (he.mono hm)

theorem placeOf_append_inj {k' : Nat} {names names' : List String}
    (h : placeOf home k ++ names = placeOf home k' ++ names') : names = names' := by
  unfold placeOf at h
  rw [List.append_assoc, List.append_assoc] at h
  exact (List.cons.inj (List.append_cancel_left h)).2

theorem placeOf_ne_nil (home : Place) (k : Nat) : placeOf home k ≠ [] :=
  List.append_ne_nil_of_right_ne_nil _ (List.cons_ne_nil _ _)

theorem output_ne_nil (home : Place) (k : Nat) : home ++ [outputName k] ≠ [] :=
  List.append_ne_nil_of_right_ne_nil _ (List.cons_ne_nil _ _)

/-! ## What effects keep -/

theorem Shelters.way (h : Shelters policy mirrors home fs) : fs.Way maxLinks [] policy.tempRoot.segments home :=
  h.leads.way

theorem isOf_placeOf (h0 : 0 < k) (hk : k ≤ mirrors) (names : List String) :
    IsOf home mirrors (placeOf home k ++ names) := ⟨k, h0, hk, List.prefix_append _ _⟩

/-- Something that mirrors may hold is put into one. -/
theorem Shelters.put_inside (h : Shelters policy mirrors home fs) (h0 : 0 < k) (hk : k ≤ mirrors)
    {names : List String} {n : FileNode} (hp : placeOf home k ++ names ≠ []) (hn : MayHold policy names (some n)) :
    Shelters policy mirrors home (fs.put (placeOf home k ++ names) n) := by
  refine ⟨h.leads.of_outside fun q hq => ?_, h.named, fun k' h0' hk' names' => ?_⟩
  · rw [node?_put fs n hp, if_neg fun he : _ = q => hq (he ▸ isOf_placeOf h0 hk names)]
  · rw [node?_put fs n hp]
    split
    · rename_i he
      exact placeOf_append_inj he ▸ hn
    · exact h.holds k' h0' hk' names'

/-- What is dropped leaves less in the mirrors. -/
theorem Shelters.holds_drop (h : Shelters policy mirrors home fs) (hp : place ≠ []) (h0 : 0 < k) (hk : k ≤ mirrors)
    (names : List String) : MayHold policy names ((fs.drop place).node? (placeOf home k ++ names)) := by
  rw [node?_drop fs hp]
  split
  · trivial
  · exact h.holds k h0 hk names

theorem Shelters.effect (h : Shelters policy mirrors home fs) (ht : fs.IsTree) (he : Effect policy mirrors fs fs') :
    Shelters policy mirrors home fs' := by
  cases he with
  | prepares ha hf hn hw =>
      refine ⟨h.leads.put_new ht.closed hf.ne_nil hn (fun q hq => .inl hq) _, h.named, fun k h0 hk names => ?_⟩
      rw [node?_put fs _ hf.ne_nil]
      split
      · trivial
      · exact h.holds k h0 hk names
  | enters hh h0 hk hf hn =>
      cases h.way.eq hh
      exact h.put_inside h0 hk hf.ne_nil trivial
  | @writes home' k relative content hh h0 hk hi hs hf hn =>
      cases h.way.eq hh
      exact h.put_inside h0 hk hf.ne_nil ⟨relative, hi, rfl, hs⟩
  | @deletes home' k hh h0 hk =>
      cases h.way.eq hh
      have hp := placeOf_ne_nil home k
      refine ⟨h.leads.of_outside fun q hq => ?_, h.named, fun k' h0' hk' => h.holds_drop hp h0' hk'⟩
      rw [node?_drop fs hp, if_neg fun hb => hq ⟨k, h0, hk, hb⟩]
  | @clears home' k c hh h0 hk hn =>
      cases h.way.eq hh
      have hp := output_ne_nil home k
      exact ⟨h.leads.drop_file ht.closed hp hn, h.named, fun k' h0' hk' => h.holds_drop hp h0' hk'⟩

/-- Every effect keeps the files tidy. -/
theorem IsTidy.effect (h : IsTidy policy mirrors fs) (he : Effect policy mirrors fs fs') :
    IsTidy policy mirrors fs' := by
  have hput : ∀ {place n}, place ≠ [] → (∀ target, n ≠ .link target) → ∀ directory k target,
      (fs.put place n).node? (directory ++ [outputName k]) ≠ some (.link target) := by
    intro place n hp hn directory k target hl
    rw [node?_put fs n hp] at hl
    split at hl
    · exact hn target (Option.some.inj hl)
    · exact h.noLinks _ _ _ hl
  have hdrop : ∀ {place : Place}, place ≠ [] → ∀ directory k target,
      (fs.drop place).node? (directory ++ [outputName k]) ≠ some (.link target) :=
    fun hp directory k target hl => h.noLinks _ _ _ (node?_of_drop hp hl)
  have hshelters : mirrors ≠ 0 → ∃ home, Shelters policy mirrors home fs' :=
    fun hm => (h.shelters hm).imp fun home hs => hs.effect h.tree he
  cases he with
  | prepares ha hf hn hw =>
      exact ⟨h.tree.put hf (by rw [hn]; exact nofun) _, hput hf.ne_nil nofun, hshelters⟩
  | enters hh h0 hk hf hn =>
      exact ⟨h.tree.put hf (by rw [hn]; exact nofun) _, hput hf.ne_nil nofun, hshelters⟩
  | writes content hh h0 hk hi hs hf hn => exact ⟨h.tree.put hf hn _, hput hf.ne_nil nofun, hshelters⟩
  | deletes hh h0 hk => exact ⟨h.tree.drop (placeOf_ne_nil _ _), hdrop (placeOf_ne_nil _ _), hshelters⟩
  | clears hh h0 hk hn => exact ⟨h.tree.drop (output_ne_nil _ _), hdrop (output_ne_nil _ _), hshelters⟩

/-! ## Directories that are made -/

variable {p : Path} {follow : Bool} {below : List String} {found : Option FileNode}

theorem walk_of_find {found : Place × Option FileNode} (h : fs.find follow p = .ok found) :
    fs.walk follow maxLinks [] p.segments = .ok found :=
  (FileSystem.find_eq_ok_iff.mp h).2

theorem find_of_makeDirectory (h : fs.makeDirectory p = .ok fs') :
    ∃ place, fs.find false p = .ok (place, none) ∧ fs' = fs.put place .directory := by
  unfold makeDirectory at h
  split at h
  · cases h
  · cases h
  · rename_i place hfind
    cases h
    exact ⟨place, hfind, rfl⟩

theorem node?_of_find_none (h : fs.find false p = .ok (place, none)) : fs.node? place = none := by
  obtain ⟨_, _, _, _, _, _, hnone, rfl⟩ := way_of_walk_none (walk_of_find h)
  exact hnone

/-- Making the place for mirrors, or a directory above it, is one effect. -/
theorem effect_of_above (ht : fs.IsTree) (ha : p.segments <+: policy.tempRoot.segments)
    (h : fs.makeDirectory p = .ok fs') : Effect policy mirrors fs fs' := by
  obtain ⟨place, hfind, rfl⟩ := find_of_makeDirectory h
  exact .prepares ha (fits_of_find_none ht hfind) (node?_of_find_none hfind) (way_put_directory (walk_of_find hfind))

/-- No links stand inside mirrors. -/
theorem Shelters.isPlain (h : Shelters policy mirrors home fs) (h0 : 0 < k) (hk : k ≤ mirrors) :
    fs.IsPlain (placeOf home k) := by
  intro names target _ hl
  have hholds := h.holds k h0 hk names
  rw [hl] at hholds
  exact hholds

/-- What a path into a mirror finds stands in the mirror. -/
theorem Shelters.find_eq_ok_iff (h : Shelters policy mirrors home fs) (h0 : 0 < k) (hk : k ≤ mirrors)
    (hp : p.segments = policy.tempRoot.segments ++ scratchName k :: below) (hup : ".." ∉ below) (follow : Bool) :
    fs.find follow p = .ok (place, found) ↔
      ¬maxPath ≤ p.text.utf8ByteSize ∧
        (below ≠ [] → fs.node? (placeOf home k) = some .directory ∧ fs.Opens (placeOf home k) below) ∧
        place = placeOf home k ++ below ∧ found = fs.node? place := by
  have hwalk (links : Nat) : fs.walk follow links home (scratchName k :: below) = .ok (place, found) ↔
      (below ≠ [] → fs.node? (placeOf home k) = some .directory ∧ fs.Opens (placeOf home k) below) ∧
        place = placeOf home k ++ below ∧ found = fs.node? place := by
    have hname := h.named k h0 hk
    have hthere := h.holds k h0 hk []
    rw [List.append_nil] at hthere
    cases hn : fs.node? (placeOf home k) with
    | none =>
        rw [walk_none hname hn]
        cases below with
        | nil =>
            rw [List.append_nil]
            refine ⟨fun h => ?_, fun ⟨_, hp, hf⟩ => by rw [hf, hp, hn]; rfl⟩
            cases h
            exact ⟨fun h => absurd rfl h, rfl, hn.symm⟩
        | cons => exact ⟨nofun, fun h => nomatch (h.1 (List.cons_ne_nil _ _)).1⟩
    | some n =>
        rw [hn] at hthere
        cases n with
        | directory =>
            rw [walk_directory hname hn]
            by_cases hb : below = []
            · subst hb
              rw [walk_nil, List.append_nil]
              refine ⟨fun h => ?_, fun ⟨_, hp, hf⟩ => by rw [hf, hp, hn]; rfl⟩
              cases h
              exact ⟨fun h => absurd rfl h, rfl, hn.symm⟩
            · refine ((h.isPlain h0 hk).walk_eq_ok_iff hb hup).trans (and_congr_left fun _ => ?_)
              exact ⟨fun ho _ => ⟨rfl, ho⟩, fun ho => (ho hb).2⟩
        | file c =>
            obtain ⟨relative, hi, hs, _⟩ := hthere
            exact absurd hs hi.ne_nil
        | link target => exact hthere.elim
  unfold find
  split
  · rename_i hlong
    exact ⟨nofun, fun h => absurd hlong h.1⟩
  · rename_i hshort
    obtain ⟨left, hway⟩ := h.way.walk_append (List.cons_ne_nil (scratchName k) below) follow
    rw [hp, hway, hwalk left]
    exact (and_iff_right hshort).symm

/-- Making a directory on the way to a file of a mirror is one effect. -/
theorem Shelters.effect_of_inside (h : Shelters policy mirrors home fs) (ht : fs.IsTree) (h0 : 0 < k)
    (hk : k ≤ mirrors) (hp : p.segments = policy.tempRoot.segments ++ scratchName k :: below) (hup : ".." ∉ below)
    (hm : fs.makeDirectory p = .ok fs') : Effect policy mirrors fs fs' := by
  obtain ⟨place, hfind, rfl⟩ := find_of_makeDirectory hm
  have hfits := fits_of_find_none ht hfind
  obtain ⟨_, _, rfl, hnone⟩ := (h.find_eq_ok_iff h0 hk hp hup _).mp hfind
  exact .enters h.way h0 hk hfits hnone.symm

/-- What lies on the way to a file of a mirror lies above the mirrors, or on the way inside the mirror. -/
theorem above_or_inside {names above : List String} {name : String} (h : names <+: above ++ name :: below) :
    names <+: above ∨ ∃ below', below' <+: below ∧ names = above ++ name :: below' := by
  rcases List.prefix_or_prefix_of_prefix h (List.prefix_append above _) with ha | ⟨rest, rfl⟩
  · exact .inl ha
  · cases rest with
    | nil => exact .inl ⟨[], (List.append_nil _).trans (List.append_nil above)⟩
    | cons first rest =>
        obtain ⟨rfl, hrest⟩ := List.cons_prefix_cons.mp ((List.prefix_append_right_inj above).mp h)
        exact .inr ⟨rest, hrest, rfl⟩

theorem isTidy_effects (h : IsTidy policy mirrors fs) (he : Effects policy mirrors fs fs') :
    IsTidy policy mirrors fs' := by
  induction he with
  | refl => exact h
  | tail _ he ih => exact ih.effect he

end FileSystem

namespace FileWork

open FileSystem Mirror

variable {policy : MirrorPolicy} {mirrors k : Nat} {fs : FileSystem} {p : Path} {below : List String}

/-- The place for mirrors is made by effects. -/
theorem effects_prepare (h : fs.IsTidy policy mirrors) :
    Effects policy mirrors fs (leaves (makeDirectories policy.tempRoot) fs) := by
  refine ensureDirectories_keeps (q := fun fs' => Effects policy mirrors fs fs')
    (fun p => p.segments <+: policy.tempRoot.segments) (fun p hp => (List.dropLast_prefix _).trans hp)
    (fun fs₁ p fs₂ hp he hm => ?_) _ _ (List.prefix_refl _) .refl
  exact he.tail (effect_of_above (isTidy_effects h he).tree hp hm)

/-- The directories on the way to a file of a mirror are made by effects. -/
theorem effects_inside (h : fs.IsTidy policy mirrors) (h0 : 0 < k) (hk : k ≤ mirrors)
    (hp : p.segments = policy.tempRoot.segments ++ scratchName k :: below) (hup : ".." ∉ below) :
    Effects policy mirrors fs (leaves (makeDirectories p) fs) := by
  refine ensureDirectories_keeps (q := fun fs' => Effects policy mirrors fs fs')
    (fun p => p.segments <+: policy.tempRoot.segments ++ scratchName k :: below)
    (fun p hp => (List.dropLast_prefix _).trans hp)
    (fun fs₁ p fs₂ hp he hm => ?_) _ _ (hp ▸ List.prefix_refl _) .refl
  have htidy := isTidy_effects h he
  obtain ⟨home, hs⟩ := htidy.shelters (Nat.ne_of_gt (Nat.lt_of_lt_of_le h0 hk))
  rcases above_or_inside hp with ha | ⟨below', hb, hp⟩
  · exact he.tail (effect_of_above htidy.tree ha hm)
  · exact he.tail (hs.effect_of_inside htidy.tree h0 hk hp (fun hup' => hup (hb.subset hup')) hm)

end FileWork

namespace FileSystem

open Mirror

variable {policy : MirrorPolicy} {mirrors k : Nat} {fs fs' : FileSystem} {home place : Place}

/-- The directory of a new mirror is made where nothing stands, in the directory for mirrors. -/
theorem exists_home_of_makes (ht : fs.IsTree)
    (hm : fs.makeDirectory (policy.tempRoot.child (scratchName k)) = .ok fs') :
    ∃ home, fs.Way maxLinks [] policy.tempRoot.segments home ∧ IsName (scratchName k) ∧ fs.Fits (placeOf home k) ∧
      fs.node? (placeOf home k) = none ∧ fs' = fs.put (placeOf home k) .directory := by
  obtain ⟨place, hfind, rfl⟩ := find_of_makeDirectory hm
  obtain ⟨init, name, home, hsegments, hway, hname, hnone, rfl⟩ := way_of_walk_none (walk_of_find hfind)
  rw [segments_scratch] at hsegments
  obtain ⟨rfl, rfl⟩ := List.append_singleton_inj.mp hsegments.symm
  exact ⟨home, hway, hname, fits_of_find_none ht hfind, hnone, rfl⟩

/-- A new mirror stands beside the others. -/
theorem Shelters.makes (h : mirrors ≠ 0 → Shelters policy mirrors home fs) (ht : fs.IsTree)
    (hway : fs.Way maxLinks [] policy.tempRoot.segments home) (hname : IsName (scratchName (mirrors + 1)))
    (hn : fs.node? (placeOf home (mirrors + 1)) = none) :
    Shelters policy (mirrors + 1) home (fs.put (placeOf home (mirrors + 1)) .directory) := by
  have hne := placeOf_ne_nil home (mirrors + 1)
  have hold : ∀ k, k ≤ mirrors + 1 → k = mirrors + 1 ∨ k ≤ mirrors := fun k hk => by omega
  have hmirrors : ∀ {k}, 0 < k → k ≤ mirrors → mirrors ≠ 0 := fun h0 hk => by omega
  refine ⟨?_, fun k h0 hk => ?_, fun k h0 hk names => ?_⟩
  · by_cases hm : mirrors = 0
    · refine (leadsBeside_put_new hway ht.closed hne hn _).mono fun q ⟨k, h0, hk, hb⟩ => ?_
      exact (hold k hk).elim (fun he => he ▸ hb) fun hk => absurd hm (hmirrors h0 hk)
    · refine (h hm).leads.put_new ht.closed hne hn (fun q ⟨k, h0, hk, hb⟩ => ?_) _
      rcases hold k hk with rfl | hk
      · exact .inr hb
      · exact .inl ⟨k, h0, hk, hb⟩
  · rcases hold k hk with rfl | hk
    · exact hname
    · exact (h (hmirrors h0 hk)).named k h0 hk
  · rw [node?_put fs _ hne]
    split
    · trivial
    · rcases hold k hk with rfl | hk
      · rw [ht.closed.below_eq_none hn]
        trivial
      · exact (h (hmirrors h0 hk)).holds k h0 hk names

/-- The directory of a new mirror is made by an effect, and the files are tidy with one more mirror. -/
theorem IsTidy.makes (h : fs.IsTidy policy mirrors)
    (hm : fs.makeDirectory (policy.tempRoot.child (scratchName (mirrors + 1))) = .ok fs') :
    Effect policy (mirrors + 1) fs fs' ∧ fs'.IsTidy policy (mirrors + 1) := by
  obtain ⟨home, hway, hname, hfits, hnone, rfl⟩ := exists_home_of_makes h.tree hm
  have hnil : placeOf home (mirrors + 1) ++ [] = placeOf home (mirrors + 1) := List.append_nil _
  have hshelters : mirrors ≠ 0 → Shelters policy mirrors home fs := fun hm => by
    obtain ⟨home', hs⟩ := h.shelters hm
    exact hs.way.eq hway ▸ hs
  refine ⟨?_, h.tree.put hfits (by rw [hnone]; exact nofun) _, fun directory k target hl => ?_,
    fun _ => ⟨home, .makes hshelters h.tree hway hname hnone⟩⟩
  · have henters : Effect policy (mirrors + 1) fs (fs.put (placeOf home (mirrors + 1) ++ []) .directory) :=
      .enters hway (Nat.succ_pos _) (Nat.le_refl _) (by rw [hnil]; exact hfits) (by rw [hnil]; exact hnone)
    rw [hnil] at henters
    exact henters
  · rw [node?_put fs _ hfits.ne_nil] at hl
    split at hl
    · cases hl
    · exact h.noLinks _ _ _ hl

/-- What stands somewhere below the root stands at a place that fits. -/
theorem IsTree.fits (h : fs.IsTree) {n : FileNode} (hp : place ≠ []) (hn : fs.node? place = some n) :
    fs.Fits place := by
  obtain ⟨directory, name, rfl⟩ := (List.eq_nil_or_concat place).resolve_left hp
  rw [List.concat_eq_append] at hn ⊢
  obtain ⟨hsegment, hup⟩ := h.named _ _ hn name (List.mem_append_right _ (List.mem_singleton_self name))
  exact ⟨directory, name, rfl, h.closed _ _ _ hn, hsegment, hup⟩

end FileSystem

/-! ## Work on mirrors -/

/-- Work has made no fewer mirrors, touched files by effects only and left them tidy. -/
structure Disk.Confined (policy : MirrorPolicy) (d d' : Disk) : Prop where
  scratches : d.scratches ≤ d'.scratches
  effects : FileSystem.Effects policy d'.scratches d.files d'.files
  tidy : d'.files.IsTidy policy d'.scratches

namespace Disk

open FileSystem

variable {policy : MirrorPolicy} {d d' d'' : Disk}

theorem Confined.refl (h : d.files.IsTidy policy d.scratches) : Confined policy d d := ⟨Nat.le_refl _, .refl, h⟩

theorem Confined.trans (h : Confined policy d d') (h' : Confined policy d' d'') : Confined policy d d'' :=
  ⟨Nat.le_trans h.scratches h'.scratches,
    (effects_mono h.effects h'.scratches).trans h'.effects, h'.tidy⟩

end Disk

namespace Mirror

open FileSystem DiskWork Disk

variable {policy : MirrorPolicy} {d d' : Disk} {m : Mirror} {relative : Path}

theorem confined_files (h : d.files.IsTidy policy d.scratches) {files : FileSystem}
    (he : Effects policy d.scratches d.files files) : Confined policy d { d with files } :=
  ⟨Nat.le_refl _, he, isTidy_effects h he⟩

/-- Writing a source file into a mirror is confined to the mirror. -/
theorem confined_writeFile (h : d.files.IsTidy policy d.scratches) (hm : m.IsMade policy d)
    (wrap : FileError → Failure) (hi : relative.IsInner) (hs : policy.isSource relative) (content : ByteArray) :
    Confined policy d (leaves (m.writeFile wrap relative content) d) := by
  obtain ⟨k, h0, hk, hpath⟩ := hm
  have hdestination : (m.path / relative).segments =
      policy.tempRoot.segments ++ scratchName k :: relative.segments := by
    rw [segments_div hi, hpath, segments_scratch, List.append_assoc]
    rfl
  have hparent : (m.path / relative).parent.segments =
      policy.tempRoot.segments ++ scratchName k :: relative.segments.dropLast := by
    show (m.path / relative).segments.dropLast = _
    rw [hdestination, List.dropLast_append_of_ne_nil (List.cons_ne_nil _ _), List.dropLast_cons_of_ne_nil hi.ne_nil]
  have hmade := FileWork.effects_inside h h0 hk hparent fun hup => hi.noUp (List.dropLast_subset _ hup)
  refine reaches_leaves.mp ?_
  unfold writeFile
  rw [reaches_get]
  split
  · exact Confined.refl h
  · rw [reaches_bind, reaches_telling, reaches_bind]
    refine (reaches_self (FileWork.makeDirectories (m.path / relative).parent) d.files).mono
      (fun _ files hf => ?_) fun _ files hf => ?_
    · rw [← hf.2] at hmade
      have htidy := isTidy_effects h hmade
      obtain ⟨home, hshelters⟩ := htidy.shelters (Nat.ne_of_gt (Nat.lt_of_lt_of_le h0 hk))
      refine FileWork.reaches_change.mpr ?_
      split
      · rename_i written hwritten
        have hwritten := FileWork.about_eq_ok hwritten
        unfold FileSystem.write at hwritten
        split at hwritten
        · cases hwritten
        · cases hwritten
        · rename_i place found hnot hfind
          cases hwritten
          obtain ⟨hshort, hopens, rfl, rfl⟩ := (hshelters.find_eq_ok_iff h0 hk hdestination hi.noUp _).mp hfind
          have hfits : files.Fits (placeOf home k ++ relative.segments) := by
            cases hn : files.node? (placeOf home k ++ relative.segments) with
            | some n => exact htidy.tree.fits (List.append_ne_nil_of_right_ne_nil _ hi.ne_nil) hn
            | none =>
                have hfind' := (hshelters.find_eq_ok_iff h0 hk hdestination hi.noUp false).mpr
                  ⟨hshort, hopens, rfl, rfl⟩
                rw [hn] at hfind'
                exact fits_of_find_none htidy.tree hfind'
          have heffect : Effect policy d.scratches files _ :=
            .writes content hshelters.way h0 hk hi hs hfits fun hd => hnot hd
          have hall := hmade.tail heffect
          exact ⟨Nat.le_refl _, hall, isTidy_effects h hall⟩
      · exact confined_files h hmade
    · rw [← hf.2] at hmade
      exact confined_files h hmade

end Mirror

end InkServer
