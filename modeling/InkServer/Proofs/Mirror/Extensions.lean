import InkServer.Proofs.Config
import InkServer.Proofs.Mirror.Copies
import InkServer.Proofs.Text.Case
import InkServer.Server.Setup

/-!
# Extensions of source files

A configuration says with which extensions the names of source files end, and the schema takes any dot with
something behind it. A name is looked at from its last dot on. What is configured therefore takes effect as long as
it has no other dot, and else only if its own end is configured as well.
-/

namespace InkServer

open Text (isMark_dot isMark_slash)

/-! ## The ending of a name -/

theorem Path.endingOf_append (front : List Char) {tail : List Char} (hd : '.' ∉ tail) :
    endingOf (front ++ '.' :: tail) = if tail = [] ∨ front = [] then [] else '.' :: tail := by
  have hnone : ∀ c ∈ tail.reverse, decide (c ≠ '.') = true := by
    intro c hc
    have hmem := List.mem_reverse.mp hc
    simpa using fun he : c = '.' => hd (he ▸ hmem)
  have hback : (front ++ '.' :: tail).reverse = tail.reverse ++ '.' :: front.reverse := by simp
  have htake : (front ++ '.' :: tail).reverse.takeWhile (· ≠ '.') = tail.reverse := by
    rw [hback, List.takeWhile_append_of_pos hnone]
    simp
  have hdrop : (front ++ '.' :: tail).reverse.dropWhile (· ≠ '.') = '.' :: front.reverse := by
    rw [hback, List.dropWhile_append_of_pos hnone]
    simp
  unfold endingOf
  rw [htake, hdrop]
  by_cases ht : tail = []
  · simp [ht]
  · by_cases hf : front = []
    · simp [hf]
    · have hlength : tail.length ≠ front.length + (tail.length + 1) := by omega
      simp [ht, hf, hlength]

/-- A text with a dot is split at its last one. -/
theorem exists_last_dot {cs : List Char} (h : '.' ∈ cs) : ∃ front tail, cs = front ++ '.' :: tail ∧ '.' ∉ tail := by
  obtain ⟨tail, front, hcs, hd⟩ := List.eq_append_cons_of_mem (List.mem_reverse.mpr h)
  refine ⟨front.reverse, tail.reverse, ?_, fun hmem => hd (List.mem_reverse.mp hmem)⟩
  rw [← List.reverse_inj, hcs]
  simp

theorem Path.name_ofText {s : String} (hs : IsSegment s) : (ofText s).name = s := by
  unfold name
  rw [(ofText_of_isSegment hs).2]
  rfl

/-! ## Extensions -/

/-- An extension with no dot but the one in front. -/
def HasOneDot (e : String) : Prop := e.toList.count '.' = 1

/-- What is written ends in an extension, in some letter case. -/
def EndsIn (spelled e : String) : Prop :=
  ∃ last : String, last.toList <:+ spelled.toList ∧ Text.lower last = Text.lower e

theorem exists_of_isDotted {e : String} (h : isDotted e = true) :
    ∃ c rest, e.toList = '.' :: c :: rest ∧ '/' ∉ e.toList := by
  unfold isDotted at h
  split at h
  · rename_i c rest he
    refine ⟨c, rest, he, ?_⟩
    rw [he]
    intro hmem
    rcases List.mem_cons.mp hmem with hmem | hmem
    · exact absurd hmem (by decide)
    · have hall := List.all_eq_true.mp h '/' hmem
      simp at hall
  · cases h

theorem isSegment_append {stem spelled : String} (hstem : stem ≠ "") (hslash : '/' ∉ stem.toList)
    (hdot : spelled.toList.head? = some '.') (hspelled : '/' ∉ spelled.toList) : IsSegment (stem ++ spelled) := by
  refine ⟨fun h => hstem (String.append_eq_empty_iff.mp h).1, fun h => ?_, by simp [hslash, hspelled]⟩
  have hchars := congrArg String.toList h
  rw [String.toList_append] at hchars
  rcases List.append_eq_singleton_iff.mp hchars with ⟨hnil, -⟩ | ⟨-, hnil⟩
  · exact hstem (String.toList_eq_nil_iff.mp hnil)
  · rw [hnil] at hdot
    cases hdot

/-- The ending of a name is an extension exactly if the name ends in it and it has no other dot. -/
theorem lower_ending_eq_iff {stem spelled e : String} (hstem : stem ≠ "") (hdot : spelled.toList.head? = some '.')
    (he : isDotted e = true) :
    Text.lower (String.ofList (Path.endingOf (stem ++ spelled).toList)) = Text.lower e ↔
      HasOneDot e ∧ EndsIn spelled e := by
  obtain ⟨c, rest, hcs, -⟩ := exists_of_isDotted he
  have hfront : ∀ front, stem.toList ++ front ≠ [] := fun front h =>
    hstem (String.toList_eq_nil_iff.mp (List.append_eq_nil_iff.mp h).1)
  have hending : ∀ front tail, spelled.toList = front ++ '.' :: tail → '.' ∉ tail →
      Path.endingOf (stem ++ spelled).toList = if tail = [] then [] else '.' :: tail := by
    intro front tail hs hd
    rw [String.toList_append, hs, ← List.append_assoc, Path.endingOf_append _ hd]
    simp [hfront front]
  constructor
  · intro h
    obtain ⟨front, tail, hs, hd⟩ := exists_last_dot (List.mem_of_head? hdot)
    rw [hending front tail hs hd] at h
    split at h
    · have hhead := (Text.head?_eq_of_lower_eq isMark_dot h).mpr (by rw [hcs]; rfl)
      cases hhead
    · refine ⟨?_, String.ofList ('.' :: tail), ?_, h⟩
      · unfold HasOneDot
        rw [← Text.count_eq_of_lower_eq isMark_dot h, String.toList_ofList, List.count_cons_self,
          List.count_eq_zero_of_not_mem hd]
      · rw [String.toList_ofList, hs]
        exact List.suffix_append _ _
  · rintro ⟨hone, last, ⟨front, hs⟩, h⟩
    have hhead := (Text.head?_eq_of_lower_eq isMark_dot h).mpr (by rw [hcs]; rfl)
    obtain ⟨tail, hlast⟩ : ∃ tail, last.toList = '.' :: tail := by
      cases hl : last.toList with
      | nil => rw [hl] at hhead; cases hhead
      | cons x tail => rw [hl] at hhead; cases hhead; exact ⟨tail, rfl⟩
    have hd : '.' ∉ tail := by
      have hcount := (Text.count_eq_of_lower_eq isMark_dot h).trans hone
      rw [hlast, List.count_cons_self] at hcount
      exact List.count_eq_zero.mp (by omega)
    have htail : tail ≠ [] := by
      rintro rfl
      have hlength := congrArg List.length (Text.lowerFrom_eq_of_lower_eq h)
      have hle := Text.length_le_lowerFrom [] e.toList
      have hdotted : (Text.lowerFrom [] ['.']).length = 1 := by decide
      rw [← hlength, hlast, hcs, hdotted, List.length_cons, List.length_cons] at hle
      omega
    rw [hending front tail (hlast ▸ hs.symm) hd, if_neg htail, ← hlast, String.ofList_toList]
    exact h

/-! ## What a configuration asks for -/

/-- The extensions that a configuration names. -/
def Config.extensions (c : Config) : List String := ((c.toValue.field "mirror").field "extensions").textItems

theorem Config.isDotted_of_mem_extensions {c : Config} (hc : schema.check c.toValue = none) {e : String}
    (he : e ∈ c.extensions) : isDotted e = true := by
  obtain ⟨item, hitem, htext⟩ := List.mem_filterMap.mp he
  rw [← Value.at?_pair] at hitem
  cases hpart : c.toValue.at? ["mirror", "extensions"] with
  | none =>
      rw [hpart] at hitem
      cases hitem
  | some part =>
      rw [hpart] at hitem
      have hat : schema.at? ["mirror", "extensions"] =
          some (.rules [.kinds [.array], .nonEmpty, .items (.rules [.kinds [.string], .dotted])]) := rfl
      cases (Schema.check_eq_none_iff.mp hc).at hat hpart with
      | rules _ _ items =>
          cases items (.rules [.kinds [.string], .dotted]) (by simp) item hitem with
          | rules whole _ _ =>
              cases item with
              | str s =>
                  cases htext
                  exact whole .dotted (by simp) _ rfl
              | _ => cases htext

theorem ServerState.policy_ofConfig (c : Config) (temporary : Path) (failure : Option Failure) :
    (ofConfig c temporary failure).policy = .ofSection (c.toValue.field "mirror") temporary := by
  have hbare : (bare c temporary).policy = .ofSection (c.toValue.field "mirror") temporary := rfl
  unfold ofConfig
  cases failure with
  | some f => exact hbare
  | none =>
      cases hr : (bare c temporary).registerFeatures with
      | error f => simp only [hr]; exact hbare
      | ok s =>
          simp only [hr]
          unfold registerFeatures at hr
          cases hw : ((bare c temporary).subscribers.register Handling.compilationHandler).wire with
          | error f => rw [hw] at hr; cases hr
          | ok subscribers => rw [hw] at hr; cases hr; exact hbare

theorem ServerState.extensions_ofConfig {c : Config} (h : c.extensions ≠ []) (temporary : Path)
    (failure : Option Failure) : (ofConfig c temporary failure).policy.extensions = c.extensions := by
  rw [policy_ofConfig]
  show (if c.extensions.isEmpty then _ else _) = _
  rw [if_neg (by simpa using h)]
  rfl

/-! ## Files that are mirrored -/

namespace FileSystem

variable {fs : FileSystem} {base : Place} {names : List String} {n : FileNode}

/-- Names that lead down to something find it, unless it is a link. -/
theorem Below.walk_eq (h : fs.Below base names n) (hup : ".." ∉ names) (hl : ∀ target, n ≠ .link target) {links : Nat}
    {found : Place × Option FileNode} (hw : fs.walk true links base names = .ok found) : found.2 = some n := by
  induction h with
  | @entry base name n hn =>
      have hname : name ≠ ".." := fun he => hup (he ▸ List.mem_cons_self)
      rw [walk_last hname (fun _ target he => hl target (Option.some.inj (hn.symm.trans he))) hw]
      exact hn
  | @inside base name rest n hd _ ih =>
      obtain ⟨hname, hrest⟩ := not_or.mp (mt List.mem_cons.mpr hup)
      by_cases hn : IsName name
      · rw [walk_directory hn hd] at hw
        exact ih hrest hl hw
      · rw [walk_of_not_isName (Ne.symm hname) hn] at hw
        cases hw

theorem leadsToDirectory_eq_false {root relative : Path} {content : ByteArray}
    (hw : fs.Way maxLinks [] root.segments base) (hs : relative.start = .relative) (hup : ".." ∉ relative.segments)
    (hb : fs.Below base relative.segments (.file content)) : fs.leadsToDirectory (root / relative) = false := by
  rw [Bool.eq_false_iff]
  intro h
  obtain ⟨place, hf⟩ := stat_eq_ok_iff.mp (leadsToDirectory_iff.mp h)
  obtain ⟨left, hwalk⟩ := hw.walk_append hb.ne_nil true
  rw [find_eq_ok_iff, Path.segments_join hs, hwalk] at hf
  cases hb.walk_eq hup nofun hf.2

end FileSystem

open FileSystem Work in
/-- A file of a workspace is mirrored exactly if its name is that of a source file. -/
theorem Mirror.mem_keys_create_iff {policy : MirrorPolicy} {d : Disk} {root relative : Path} {base : Place}
    {content : ByteArray} (ht : d.files.IsTree) (hw : d.files.Way maxLinks [] root.segments base)
    (hs : relative.start = .relative) (hb : d.files.Below base relative.segments (.file content))
    {made : Mirror × Index} (hm : returns (create policy root) d = .ok made) :
    relative ∈ made.2.keys ↔ policy.isSource relative = true := by
  obtain ⟨base', place, hcopy, hadded⟩ := (create_copies ht policy root).of_ok hm
  have hway := hw.keeps hadded.within.keeps
  obtain rfl := hway.eq hcopy.workspace
  have hup : ".." ∉ relative.segments := fun hmem =>
    (ht.named _ _ hb.node? ".." (List.mem_append_right _ hmem)).2 rfl
  have hout : ¬place <+: base' ++ relative.segments := by
    rintro ⟨below, heq⟩
    have hnone := ht.closed.below_eq_none hadded.fresh below
    rw [heq, hb.node?] at hnone
    cases hnone
  have hbelow := hadded.within.below hb
  rw [hcopy.listed relative]
  constructor
  · exact fun h => h.1.source
  · intro hsource
    have hleads := leadsToDirectory_eq_false hway hs hup hbelow
    exact ⟨⟨hs, ⟨_, hbelow, nofun⟩, hleads, hsource⟩, fun _ => hout⟩

/-- What is configured takes effect: a file whose name is a stem and an extension, in whatever letter case, counts as a
source file, and is mirrored, exactly if what is written there for the extension ends in an extension that has no dot
but the one in front. An extension of that kind always does. -/
theorem configured_extension_takes_effect_iff {c : Config} (hc : Config.schema.check c.toValue = none)
    (temporary : Path) (failure : Option Failure) {e stem spelled : String} (he : e ∈ c.extensions) (hstem : stem ≠ "")
    (hslash : '/' ∉ stem.toList) (hcase : Text.lower spelled = Text.lower e) :
    let policy := (ServerState.ofConfig c temporary failure).policy
    let counts := ∃ e' ∈ c.extensions, HasOneDot e' ∧ EndsIn spelled e'
    (HasOneDot e → counts) ∧
    (Path.ofText (stem ++ spelled)).name = stem ++ spelled ∧
    (∀ path : Path, path.name = stem ++ spelled → (policy.isSource path = true ↔ counts)) ∧
    ∀ (d : Disk) (root relative : Path) (base : Place) (content : ByteArray) (made : Mirror × Mirror.Index),
      d.files.IsTree → d.files.Way FileSystem.maxLinks [] root.segments base → relative.start = .relative →
      relative.name = stem ++ spelled → d.files.Below base relative.segments (.file content) →
      Work.returns (Mirror.create policy root) d = .ok made → (relative ∈ made.2.keys ↔ counts) := by
  intro policy counts
  have hdotted := fun e' => Config.isDotted_of_mem_extensions (e := e') hc
  obtain ⟨first, rest, hcs, hnoslash⟩ := exists_of_isDotted (hdotted e he)
  have hhead : spelled.toList.head? = some '.' := (Text.head?_eq_of_lower_eq isMark_dot hcase).mpr (by rw [hcs]; rfl)
  have hspelled : '/' ∉ spelled.toList := by
    rw [← List.count_eq_zero, Text.count_eq_of_lower_eq isMark_slash hcase]
    exact List.count_eq_zero_of_not_mem hnoslash
  have hsource : ∀ path : Path, path.name = stem ++ spelled → (policy.isSource path = true ↔ counts) := by
    intro path hname
    unfold MirrorPolicy.isSource Path.isSource Path.ending
    rw [ServerState.extensions_ofConfig (List.ne_nil_of_mem he), hname, List.any_eq_true]
    refine exists_congr fun e' => and_congr_right fun hmem => ?_
    rw [decide_eq_true_eq]
    exact lower_ending_eq_iff hstem hhead (hdotted e' hmem)
  have hname := Path.name_ofText (isSegment_append hstem hslash hhead hspelled)
  refine ⟨fun hone => ⟨e, he, hone, spelled, List.suffix_refl _, hcase⟩, hname, hsource, ?_⟩
  intro d root relative base content made ht hw hs hname hb hm
  rw [Mirror.mem_keys_create_iff ht hw hs hb hm]
  exact hsource relative hname

/-- A configuration that has stories end in `.ink.txt`. -/
def twoDots : Config := Config.defaults.update "mirror" [(.str "extensions", .texts [".ink.txt"])]

/-- The schema takes it, and then nothing is a source. -/
theorem extension_with_two_dots_has_no_effect :
    Config.schema.check twoDots.toValue = none ∧ ".ink.txt" ∈ twoDots.extensions ∧
      (ServerState.ofConfig twoDots (.ofText "/m") none).policy.isSource (.ofText ("story" ++ ".ink.txt")) = false := by
  refine ⟨Option.isNone_iff_eq_none.mp ?_, ?_, ?_⟩
  · decide +kernel
  · decide +kernel
  · decide +kernel

/-- With the usual configuration a story in capitals is mirrored. -/
theorem story_in_capitals_is_mirrored :
    (ServerState.ofConfig .defaults (.ofText "/m") none).policy.isSource (.ofText ("Two" ++ ".INK")) = true ∧
      ∃ made, Work.returns (Mirror.create (ServerState.ofConfig .defaults (.ofText "/m") none).policy (.ofText "/p"))
          (Mirror.bookshelf []) = .ok made ∧ .ofText "parts/Two.INK" ∈ made.2.keys := by
  have hcheck : (Config.schema.check Config.defaults.toValue).isNone = true := by decide +kernel
  have hextensions : Config.defaults.extensions = [".ink"] := by decide +kernel
  have hmem : ".ink" ∈ Config.defaults.extensions := by simp [hextensions]
  have hstem : "Two" ≠ "" := by decide
  have hcase : Text.lower ".INK" = Text.lower ".ink" := by decide +kernel
  obtain ⟨hcounts, hname, hsource, hmirrored⟩ := configured_extension_takes_effect_iff
    (Option.isNone_iff_eq_none.mp hcheck) (.ofText "/m") none hmem hstem (by decide) hcase
  have hcounts := hcounts (by unfold HasOneDot; decide)
  refine ⟨(hsource _ hname).mpr hcounts, ?_⟩
  have hmade : (Work.returns (Mirror.create (ServerState.ofConfig .defaults (.ofText "/m") none).policy (.ofText "/p"))
      (Mirror.bookshelf [])).toBool = true := by decide +kernel
  cases hcreate : Work.returns (Mirror.create (ServerState.ofConfig .defaults (.ofText "/m") none).policy (.ofText "/p"))
      (Mirror.bookshelf []) with
  | error f =>
      rw [hcreate] at hmade
      cases hmade
  | ok made =>
      refine ⟨made, rfl, (hmirrored _ _ _ ["p"] "B".toUTF8 made ?_ ?_ rfl ?_ ?_ hcreate).mpr hcounts⟩
      · exact FileSystem.isTree_of_all (by decide +kernel) (by decide +kernel)
      · have hsegments : (Path.ofText "/p").segments = ["p"] := by decide +kernel
        rw [hsegments]
        exact .enters ⟨by decide, by decide⟩ rfl (.stays _ _)
      · decide +kernel
      · have hsegments : (Path.ofText "parts/Two.INK").segments = ["parts", "Two.INK"] := by decide +kernel
        rw [hsegments]
        exact .inside rfl (.entry rfl)

end InkServer
