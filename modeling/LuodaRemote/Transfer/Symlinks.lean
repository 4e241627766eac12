/-
  Where `write` can create or cut off files, in a tree with symbolic links.

  `join_validated_path` looks for links at every component of a name, but the files that are
  opened are `name.download` and `name.digest`, which are not looked at. A link there that
  leads out of the directory of the job is followed (`LinkOut`). `write_confined` says that,
  apart from this and from the empty name, which stands for the path of the job itself, every
  file a job creates or cuts off is inside its directory.
-/
import LuodaRemote.Lib.Run
import LuodaRemote.Lib.Tree
import LuodaRemote.Transfer.OnDisk

namespace LuodaRemote
open Lib

namespace TransferJob

variable {h : JobHost Tree Nat} {base : Place} {p name path : String} {t t' : Tree}
  {job : TransferJob Nat}

/-! ## What the checks of a name say -/

theorem isSeparator_posix : isSeparator false = fun c => c == '/' := by
  funext c
  simp [isSeparator]

theorem pathNames_eq_pieces (name : String) :
    pathNames name = (pieces (isSeparator false) name).map String.ofList := by
  unfold pathNames pieces
  rw [isSeparator_posix]

/-- The name is relative and does not lead up. -/
structure Relative (name : String) : Prop where
  ne_empty : name ≠ ""
  slash : name.toList.head? ≠ some '/'
  dots : ".." ∉ pathNames name

theorem relative_of_validate (hname : name ≠ "")
    (hv : validateFileNameNoTraversal false false name = .ok ()) : Relative name := by
  unfold validateFileNameNoTraversal at hv
  split_ifs at hv with hzero hdots hdrive hslash
  refine ⟨hname, ?_, ?_⟩
  · intro hhead
    rw [hhead] at hslash
    exact hslash (by simp [isSeparator])
  · intro hmem
    rw [pathNames_eq_pieces] at hmem
    obtain ⟨piece, hpiece, heq⟩ := List.mem_map.mp hmem
    have hlist : piece = ['.', '.'] := by
      have := congrArg String.toList heq
      rwa [String.toList_ofList] at this
    exact hdots (List.any_eq_true.mpr ⟨piece, hpiece, by simp [hlist]⟩)

theorem Relative.head_append (hn : Relative name) (suffix : String) :
    (name ++ suffix).toList.head? ≠ some '/' := by
  cases hcs : name.toList with
  | nil => exact absurd (String.toList_eq_nil_iff.mp hcs) hn.ne_empty
  | cons c cs =>
    have := hn.slash
    rw [hcs] at this
    rw [String.toList_append, hcs]
    exact this

theorem pathJoin_extends (hp : p ≠ "") (hslash : name.toList.head? ≠ some '/') :
    Extends p (pathJoin false p name) (pathNames name) := by
  have habs : name.toList.head?.any (isSeparator false) = false := by
    cases hcs : name.toList with
    | nil => rfl
    | cons c cs =>
      rw [hcs] at hslash
      simpa [isSeparator] using hslash
  unfold pathJoin
  simp only [Bool.false_and, Bool.not_false, Bool.true_and, habs, Bool.false_eq_true, if_false,
    Bool.or_false]
  split_ifs with hend
  · refine extends_append hp ?_ name
    simp only [Bool.or_eq_true, decide_eq_true_eq] at hend
    unfold endsInSlash
    cases hlast : p.toList.getLast? with
    | none => exact absurd (String.toList_eq_nil_iff.mp (List.getLast?_eq_none_iff.mp hlast)) hp
    | some c =>
      rw [hlast] at hend
      simpa [isSeparator] using hend.resolve_left hp
  · exact extends_slash hp name

/-- The side files of a path are those of the longer name. -/
theorem pathJoin_append (hn : Relative name) (suffix : String) :
    pathJoin false p name ++ suffix = pathJoin false p (name ++ suffix) := by
  have hhead : (name ++ suffix).toList.head? = name.toList.head? := by
    cases hcs : name.toList with
    | nil => exact absurd (String.toList_eq_nil_iff.mp hcs) hn.ne_empty
    | cons c cs => simp [String.toList_append, hcs]
  unfold pathJoin
  simp only [hhead, Bool.false_and, Bool.not_false, Bool.true_and, Bool.false_or]
  split_ifs <;> simp_all [String.append_assoc]

/-- A component that is no link leaves the way clear. -/
theorem clear_concat (hl : Leads base p t.node t.cwd) {path s : String} {done : List String}
    (he : Extends p path (done ++ [s])) (hname : endsInName path) (hc : Clear t.node base done)
    (hlink : Tree.fileSystem.symlinkMetadata path t ≠ .found true) :
    Clear t.node base (done ++ [s]) := by
  intro dir target rest hd
  rcases reached_dir hl.dir hc (List.cons_ne_nil s []) with ⟨q, hq, hdir⟩ | ⟨err, hfail⟩
  · rw [descend_append_reached hdir [s] hq, descend_cons] at hd
    cases hlook : look t.node q s with
    | through target' =>
      obtain ⟨m, hm⟩ := hl.follow
      have hloc : locate t.node t.cwd path = .ok (q ++ [s]) := by
        rw [locate_eq he hname, hm, follow_reached hq]
        dsimp only
        rw [hdir]
      refine hlink ?_
      simp only [Tree.fileSystem, hloc, (look_through hlook).2]
    | into q' => simp [hlook, descend] at hd
    | last q' err => simp [hlook] at hd
    | failed err => simp [hlook] at hd
  · exact absurd (hfail.symm.trans hd) (by simp)

theorem pathJoin_ends (p name : String) : ∃ start, pathJoin false p name = start ++ name := by
  unfold pathJoin
  dsimp only
  split_ifs
  · exact ⟨"", (String.empty_append).symm⟩
  all_goals exact ⟨_, rfl⟩

/-- A segment of a name that `validate_no_symlink_components` looks at. -/
structure Plain (s : String) : Prop where
  slash : NoSlash s
  ne_empty : s ≠ ""
  dot : s ≠ "."
  dots : s ≠ ".."

theorem clear_of_components (hposix : h.windows = false) (hfs : h.fs = Tree.fileSystem)
    (hl : Leads base p t.node t.cwd) :
    ∀ {segs done : List String} {current : String}, (∀ s ∈ segs, Plain s) →
      Extends p current done → Clear t.node base done →
        validateComponents h t current (segs.map .normal) = .ok () →
          Clear t.node base (done ++ segs)
  | [], done, current, _, _, hc, _ => by rwa [List.append_nil]
  | s :: segs, done, current, hplain, he, hc, hv => by
      have hs := hplain s List.mem_cons_self
      rw [List.map_cons, validateComponents, hposix] at hv
      have he' : Extends p (pathJoin false current s) (done ++ [s]) := by
        have := he.trans (pathJoin_extends he.ne_empty hs.slash.head)
        rwa [hs.slash.names hs.ne_empty] at this
      have hname : endsInName (pathJoin false current s) = true := by
        have hlast : (pathNames (pathJoin false current s)).getLast? = some s := by
          rw [he'.names, ← List.append_assoc, List.getLast?_concat]
        obtain ⟨start, hstart⟩ := pathJoin_ends current s
        rw [hstart] at hlast ⊢
        exact endsInName_append hs.slash hs.ne_empty hlast hs.dot hs.dots
      have hlink : h.fs.symlinkMetadata (pathJoin false current s) t ≠ .found true := by
        intro hfound
        rw [hfound] at hv
        cases hv
      have hrest : validateComponents h t (pathJoin false current s) (segs.map .normal) =
          .ok () := by
        split at hv
        · cases hv
        · exact hv
        · exact hv
        · cases hv
      have := clear_of_components hposix hfs hl (fun x hx => hplain x (List.mem_cons_of_mem _ hx))
        he' (clear_concat hl he' hname hc (hfs ▸ hlink)) hrest
      rwa [List.append_assoc, List.singleton_append] at this

/-- The normal components of a relative name are its names without the dots. -/
theorem pathComponents_relative (hn : Relative name) :
    ∃ lead, pathComponents false name =
        lead ++ ((pathNames name).filter (· ≠ ".")).map .normal ∧
      (lead = [] ∨ lead = [.curDir]) := by
  have hroot : name.toList.head?.any (isSeparator false) = false := by
    cases hcs : name.toList with
    | nil => rfl
    | cons c cs =>
      have := hn.slash
      rw [hcs] at this
      simpa [isSeparator] using this
  have hpieces : ((pieces (isSeparator false) name).filter (· ≠ ['.'])).map (fun s =>
      if s = ['.', '.'] then PathComponent.parentDir else .normal (String.ofList s)) =
        ((pathNames name).filter (· ≠ ".")).map .normal := by
    have hdots := hn.dots
    rw [pathNames_eq_pieces] at hdots ⊢
    generalize pieces (isSeparator false) name = ps at hdots
    induction ps with
    | nil => rfl
    | cons x ps ih =>
      rw [List.map_cons, List.mem_cons, not_or] at hdots
      have hx : x ≠ ['.', '.'] := fun heq => hdots.1 (by rw [heq])
      have hdot : String.ofList x = "." ↔ x = ['.'] :=
        ⟨fun heq => by simpa using congrArg String.toList heq, fun heq => by rw [heq]⟩
      rw [List.map_cons, List.filter_cons, List.filter_cons]
      by_cases hxd : x = ['.']
      · simpa [hxd] using ih hdots.2
      · have hxd' : String.ofList x ≠ "." := fun heq => hxd (hdot.mp heq)
        simpa [hxd, hxd', hx] using ih hdots.2
  refine ⟨if (pieces (isSeparator false) name).head? = some ['.'] then [.curDir] else [], ?_, ?_⟩
  · unfold pathComponents
    simp only [Bool.false_and, Bool.false_eq_true, if_false, hroot, List.nil_append]
    rw [hpieces]
  · split_ifs
    · exact .inr rfl
    · exact .inl rfl

/-- What `join_validated_path` has made sure of. -/
structure Checked (base : Place) (p name path : String) (t : Tree) : Prop where
  relative : Relative name
  path : path = pathJoin false p name
  clear : Clear t.node base (pathNames name)

theorem checked_of_join (hposix : h.windows = false) (hfs : h.fs = Tree.fileSystem)
    (hl : Leads base p t.node t.cwd) (hname : name ≠ "")
    (hj : joinValidatedPath h p name t = .ok path) : Checked base p name path t := by
  have hpath := joinValidatedPath_ok hj
  unfold joinValidatedPath at hj
  rw [hposix] at hj
  split at hj
  · cases hj
  · rename_i hv
    have hn := relative_of_validate hname hv
    split at hj
    · cases hj
    · rename_i hlinks
      refine ⟨hn, ?_, ?_⟩
      · rw [hpath, join, if_neg hname, hposix]
      · unfold validateNoSymlinkComponents at hlinks
        rw [if_neg hname, hposix] at hlinks
        obtain ⟨lead, hcomps, hlead⟩ := pathComponents_relative hn
        have hnormal : validateComponents h t p
            (((pathNames name).filter (· ≠ ".")).map .normal) = .ok () := by
          rw [hcomps] at hlinks
          rcases hlead with rfl | rfl
          · exact hlinks
          · rwa [List.singleton_append, validateComponents] at hlinks
        have hplain : ∀ s ∈ (pathNames name).filter (· ≠ "."), Plain s := by
          intro s hs
          obtain ⟨hmem, hdot⟩ := List.mem_filter.mp hs
          obtain ⟨hslash, hne⟩ := noSlash_of_mem hmem
          exact ⟨hslash, hne, by simpa using hdot, fun heq => hn.dots (heq ▸ hmem)⟩
        have hclear := clear_of_components hposix hfs hl hplain (extends_self hl.ne_empty)
          (fun _ _ _ hd => by cases hd) hnormal
        exact hclear.of_filter

/-! ## The side files of a name -/

/-- A path below the directory of the job whose last name was not looked at. -/
structure SideFile (p : String) (init : List String) (last path : String) :
    Prop where
  ext : Extends p path (init ++ [last])
  name : endsInName path = true
  dot : last ≠ "."
  dots : last ≠ ".."

/-- The place of a side file. -/
def sidePlace (base : Place) (init : List String) (last : String) : Place :=
  base ++ (init.filter (· ≠ ".") ++ [last])

theorem sidePlace_below (base : Place) (init : List String) (last : String) :
    Below base (sidePlace base init last) := below_append (by simp)

theorem Checked.ext (hc : Checked base p name path t) (hp : p ≠ "") :
    Extends p path (pathNames name) := hc.path ▸ pathJoin_extends hp hc.relative.slash

theorem Checked.side (hc : Checked base p name path t) (hp : p ≠ "") {suffix : String}
    (hslash : NoSlash suffix) (hlong : 2 < suffix.length) :
    ∃ init last, init <+: pathNames name ∧ parentNames (pathNames path) <+: pathNames p ++ init ∧
      SideFile p init (last ++ suffix) (path ++ suffix) := by
  have hne : suffix ≠ "" := by
    rintro rfl
    exact absurd hlong (by decide)
  obtain ⟨init, last, hnames, hcases⟩ := pathNames_append_suffix hslash hne name
  have hext : Extends p (path ++ suffix) (init ++ [last ++ suffix]) := by
    rw [hc.path, pathJoin_append hc.relative, ← hnames]
    exact pathJoin_extends hp (hc.relative.head_append suffix)
  have hlast : (pathNames (path ++ suffix)).getLast? = some (last ++ suffix) := by
    rw [hext.names, ← List.append_assoc, List.getLast?_concat]
  have hdot : last ++ suffix ≠ "." := append_suffix_ne hlong last (by decide)
  have hdots : last ++ suffix ≠ ".." := append_suffix_ne hlong last (by decide)
  refine ⟨init, last, ?_, ?_, hext, endsInName_append hslash hne hlast hdot hdots, hdot, hdots⟩
  · rcases hcases with heq | heq
    · exact heq ▸ List.prefix_append _ _
    · exact heq ▸ List.prefix_refl _
  · rw [(hc.ext hp).names]
    rcases hcases with heq | heq
    · rw [heq, ← List.append_assoc]
      exact parentNames_concat _ _
    · rw [heq]
      exact parentNames_isPrefix _

theorem noSlash_download : NoSlash ".download" := by
  simp [NoSlash]

theorem noSlash_digest : NoSlash ".digest" := by
  simp [NoSlash]

section Side

variable {init : List String} {last : String}

theorem SideFile.locate (hs : SideFile p init last path) (hl : Leads base p t.node t.cwd)
    (hc : Clear t.node base init) (hdots : ".." ∉ init) {q : Place}
    (hloc : locate t.node t.cwd path = .ok q) : q = sidePlace base init last :=
  hl.locate hs.ext hs.name hc hdots hloc

/-- Opening a side file comes to its own place, unless a link is there. -/
theorem SideFile.resolve (hs : SideFile p init last path) (hl : Leads base p t.node t.cwd)
    (hc : Clear t.node base init) (hdots : ".." ∉ init) {q : Place}
    (hres : resolve t.node t.cwd path = .ok q) :
    q = sidePlace base init last ∨ ∃ target,
      Lib.locate t.node t.cwd path = .ok (sidePlace base init last) ∧
        t.node (sidePlace base init last) = some (.link target) := by
  rcases hl.resolve hs.ext hs.name ⟨hs.dot, hs.dots⟩ hc hdots hres with
    hplace | ⟨q', target, hloc, rfl, hlink⟩
  · exact .inl hplace
  · exact .inr ⟨target, hloc, hlink⟩

end Side

/-! ## Finishing a file -/

theorem currentPath_joined {entry : FileEntry} (hp : job.dataSource = .filePath p)
    (hc : job.currentPath h t = some (entry, path)) :
    entry ∈ job.files ∧ joinValidatedPath h p entry.name t = .ok path := by
  unfold currentPath at hc
  rw [hp] at hc
  cases htype : job.jobType with
  | printer =>
    rw [htype] at hc
    cases hc
  | generic =>
    rw [htype] at hc
    dsimp only at hc
    split at hc
    · rename_i entry' hentry
      obtain ⟨path', hres, hpair⟩ := Option.map_eq_some_iff.mp hc
      cases hpair
      refine ⟨List.mem_of_getElem? hentry, ?_⟩
      unfold resolveEntryPath at hres
      rw [htype] at hres
      dsimp only at hres
      cases hj : joinValidatedPath h p entry.name t with
      | error e =>
        rw [hj] at hres
        cases hres
      | ok path' =>
        rw [hj] at hres
        cases hres
        rfl
    · cases hc

theorem Checked.dots_init (hc : Checked base p name path t) {init : List String}
    (hinit : init <+: pathNames name) : ".." ∉ init :=
  fun hmem => hc.relative.dots (hinit.subset hmem)

theorem Checked.clear_init (hc : Checked base p name path t) {init : List String}
    (hinit : init <+: pathNames name) : Clear t.node base init := by
  obtain ⟨tl, htl⟩ := hinit
  have := hc.clear
  rw [← htl] at this
  exact this.of_append

theorem Checked.of_clear (hc : Checked base p name path t)
    (hclear : Clear t'.node base (pathNames name)) : Checked base p name path t' :=
  ⟨hc.relative, hc.path, hclear⟩

theorem Checked.locate_side (hc : Checked base p name path t) (hl : Leads base p t.node t.cwd)
    {suffix : String} (hslash : NoSlash suffix) (hlong : 2 < suffix.length) {q : Place}
    (hloc : locate t.node t.cwd (path ++ suffix) = .ok q) : Below base q := by
  obtain ⟨init, last, hinit, _, hside⟩ := hc.side hl.ne_empty hslash hlong
  rw [hside.locate hl (hc.clear_init hinit) (hc.dots_init hinit) hloc]
  exact sidePlace_below _ _ _

/-- The file itself is inside the directory of the job. -/
theorem Checked.locate_path (hc : Checked base p name path t) (hl : Leads base p t.node t.cwd)
    (hname : endsInName path) {q : Place} (hloc : locate t.node t.cwd path = .ok q) :
    Below base q := by
  have hext := hc.ext hl.ne_empty
  rcases List.eq_nil_or_concat (pathNames name) with hnil | ⟨xs, s, hxs⟩
  · exact absurd hnil (pathNames_ne_nil hc.relative.ne_empty hc.relative.slash)
  · rw [List.concat_eq_append] at hxs
    rw [hxs] at hext
    have hpre : xs <+: pathNames name := hxs ▸ List.prefix_append _ _
    rw [hl.locate hext hname (hc.clear_init hpre) (hc.dots_init hpre) hloc]
    exact below_append (by simp)

theorem Checked.removeFile (hc : Checked base p name path t) (hl : Leads base p t.node t.cwd)
    {suffix : String} (hslash : NoSlash suffix) (hlong : 2 < suffix.length) :
    Tree.Confined base t (t.removeFile (path ++ suffix)).2 ∧
      Checked base p name path (t.removeFile (path ++ suffix)).2 := by
  rcases Tree.removeFile_cases (path ++ suffix) t with ⟨e, heq⟩ | ⟨q, hloc, heq⟩
  · rw [heq]
    exact ⟨.refl base t, hc⟩
  · have hq := hc.locate_side hl hslash hlong hloc
    rw [heq]
    exact ⟨Tree.erase_confined hq t, hc.of_clear
      ((Tree.erase_replaced hq.ne_nil t).clear hc.relative.dots hc.clear)⟩

theorem modifyTime_confined (hposix : h.windows = false) (hfs : h.fs = Tree.fileSystem)
    (hl : Leads base p t.node t.cwd) (hp : job.dataSource = .filePath p)
    (hnames : ∀ entry ∈ job.files, entry.name ≠ "") :
    Tree.Confined base t (job.modifyTime h t) := by
  unfold modifyTime
  cases hcur : job.currentPath h t with
  | none => exact .refl base t
  | some x =>
    obtain ⟨entry, path⟩ := x
    obtain ⟨hmem, hj⟩ := currentPath_joined hp hcur
    have hc := checked_of_join hposix hfs hl (hnames entry hmem) hj
    dsimp only
    rw [hfs]
    obtain ⟨h1, hc1⟩ := hc.removeFile hl noSlash_digest (by decide)
    have hl1 := h1.leads hl
    have h2 : Tree.Confined base (t.removeFile (digestPath path)).2
        ((t.removeFile (digestPath path)).2.rename (downloadPath path) path).2 := by
      refine Tree.rename_confined ?_ ?_
      · intro _ q hq
        exact hc1.locate_side hl1 noSlash_download (by decide) hq
      · intro hname q hq
        exact hc1.locate_path hl1 hname hq
    refine (h1.trans h2).trans ?_
    show Tree.Confined base _ (Tree.fileSystem.setFileMtime path entry.modifiedTime _).2
    simp only [Tree.fileSystem]
    split
    · exact .refl base _
    · exact (Tree.Confined.refl base _).of_store _

/-! ## Opening a file -/

section Opening

variable {init : List String} {last : String}

theorem SideFile.below_of_no_link (hs : SideFile p init last path)
    (hl : Leads base p t.node t.cwd) (hc : Clear t.node base init) (hdots : ".." ∉ init)
    (hlink : ∀ target, t.node (sidePlace base init last) ≠ some (.link target)) {q : Place}
    (hres : Lib.resolve t.node t.cwd path = .ok q) : Below base q := by
  rcases hs.resolve hl hc hdots hres with rfl | ⟨target, _, hnode⟩
  · exact sidePlace_below _ _ _
  · exact absurd hnode (hlink target)

/-- Opening a side file stays inside, if it did so before another place inside was changed. -/
theorem SideFile.opened (hs : SideFile p init last path) (hl : Leads base p t.node t.cwd)
    (hc : Clear t.node base init) (hdots : ".." ∉ init) (hcwd : t'.cwd = t.cwd)
    (hrep : t'.node = t.node ∨ ∃ d, Below base d ∧ Replaced d t.node t'.node)
    (hout : ¬ t.LeadsOut base path) {q : Place}
    (hres : Lib.resolve t'.node t'.cwd path = .ok q) (hdir : t'.node q ≠ some .dir) :
    Below base q := by
  by_contra hq
  have hbefore : Lib.resolve t.node t.cwd path = .ok q ∧ t.node q ≠ some .dir := by
    rcases hrep with hsame | ⟨d, hd, hr⟩
    · rw [hsame, hcwd] at hres
      exact ⟨hres, hsame ▸ hdir⟩
    · have hf := follow_of_resolve hres
      rw [hcwd] at hf
      have hnd : ¬ d <+: q := fun hpre => hq (hd.of_prefix hpre)
      refine ⟨resolve_of_follow hs.ext.ne_empty hs.name ((hr.follow hf).resolve_right hnd), ?_⟩
      rwa [← hr.away q hnd]
  rcases hs.resolve hl hc hdots hbefore.1 with rfl | ⟨target, hloc, hlink⟩
  · exact hq (sidePlace_below _ _ _)
  · exact hout ⟨⟨_, target, hloc, hlink⟩, q, hbefore.1, hbefore.2, hq⟩

end Opening

theorem Checked.createParents (hc : Checked base p name path t) (hl : Leads base p t.node t.cwd)
    {suffix : String} (hslash : NoSlash suffix) (hlong : 2 < suffix.length) :
    ∃ init last, SideFile p init last (path ++ suffix) ∧ ".." ∉ init ∧ Clear t.node base init ∧
      Tree.MadeDirs base init t (Tree.fileSystem.createParents path t).2 := by
  obtain ⟨init, last, hinit, hparent, hside⟩ := hc.side hl.ne_empty hslash hlong
  have hdots := hc.dots_init hinit
  have hclear := hc.clear_init hinit
  refine ⟨init, last ++ suffix, hside, hdots, hclear, ?_⟩
  show Tree.MadeDirs base init t
    (Tree.makeDirs (origin path t.cwd) [] (parentNames (pathNames path)) t).2
  rw [(hc.ext hl.ne_empty).origin]
  exact Tree.makeDirs_spec hdots (by simpa using hparent) hl hclear

/-- No link is at a side file in a directory that is new. -/
theorem sidePlace_of_fresh {init c : List String} {last : String} (hc : c <+: init)
    (hfresh : ∀ x target, base ++ c.filter (· ≠ ".") <+: x → t.node x ≠ some (.link target))
    (target : String) : t.node (sidePlace base init last) ≠ some (.link target) := by
  refine hfresh _ target ?_
  obtain ⟨tl, rfl⟩ := hc
  unfold sidePlace
  rw [List.filter_append, List.append_assoc, ← List.append_assoc]
  exact List.prefix_append _ _

theorem removeOldDigest_tree (hfs : h.fs = Tree.fileSystem) (dp : String) (t : Tree) :
    (∃ e, removeOldDigest h (some dp) t = (.error e, t)) ∨
      (h.fs.pathExists dp t = false ∧ removeOldDigest h (some dp) t = (.ok (), t)) ∨
      ∃ q, locate t.node t.cwd dp = .ok q ∧
        removeOldDigest h (some dp) t = (.ok (), t.erase q) := by
  have hcall : h.fs.removeFile dp t = t.removeFile dp := by
    rw [hfs]
    rfl
  unfold removeOldDigest
  dsimp only
  split_ifs with hex
  · rw [hcall]
    rcases Tree.removeFile_cases dp t with herr | hok
    · exact .inl herr
    · exact .inr (.inr hok)
  · exact .inr (.inl ⟨by simpa using hex, rfl⟩)

/-- One place inside the directory became a file or went away, if anything changed. -/
def Touched (base : Place) (t t' : Tree) : Prop :=
  t'.node = t.node ∨ ∃ d, Below base d ∧ Replaced d t.node t'.node

theorem Touched.clear (htouch : Touched base t t') {init : List String} (hdots : ".." ∉ init)
    (hc : Clear t.node base init) : Clear t'.node base init := by
  rcases htouch with hsame | ⟨d, _, hr⟩
  · rwa [hsame]
  · exact hr.clear hdots hc

theorem Touched.no_link (htouch : Touched base t t') {q : Place}
    (hq : ∀ target, t.node q ≠ some (.link target)) (target : String) :
    t'.node q ≠ some (.link target) := by
  rcases htouch with hsame | ⟨d, _, hr⟩
  · rw [hsame]
    exact hq target
  · by_cases hd : d <+: q
    · rcases hr.within q hd with hnone | ⟨i, hi⟩
      · simp [hnone]
      · simp [hi]
    · rw [hr.away q hd]
      exact hq target

theorem erase_touched {q : Place} (hq : Below base q) (t : Tree) : Touched base t (t.erase q) :=
  .inr ⟨q, hq, Tree.erase_replaced hq.ne_nil t⟩

/-- A side file is opened inside, after the directories above it were made and one place was
    changed. -/
theorem SideFile.opened_made {init : List String} {last : String} {t2 t3 : Tree}
    (hs : SideFile p init last path) (hl : Leads base p t.node t.cwd)
    (hc : Clear t.node base init) (hdots : ".." ∉ init) (hmade : Tree.MadeDirs base init t t2)
    (h3 : Tree.Confined base t t3) (htouch : Touched base t2 t3)
    (hout : t2 = t → ¬ t.LeadsOut base path) {q : Place}
    (hres : Lib.resolve t3.node t3.cwd path = .ok q) (hdir : t3.node q ≠ some .dir) :
    Below base q := by
  rcases hmade.fresh with rfl | ⟨c, hpre, hfresh⟩
  · exact hs.opened hl hc hdots h3.cwd htouch (hout rfl) hres hdir
  · exact hs.below_of_no_link (h3.leads hl) (htouch.clear hdots hmade.clear) hdots
      (htouch.no_link (sidePlace_of_fresh hpre hfresh)) hres

/-- The two side files, one after the other. -/
theorem sides_confined (hfs : h.fs = Tree.fileSystem) {t3 : Tree} {dl dg : String} (text : String)
    (h3 : Tree.Confined base t t3)
    (hdl : ∀ q, resolve t3.node t3.cwd dl = .ok q → t3.node q ≠ some .dir → Below base q)
    (hdg : ∀ t4, Tree.Confined base t t4 → Touched base t3 t4 →
      ∀ q, resolve t4.node t4.cwd dg = .ok q → t4.node q ≠ some .dir → Below base q) :
    Tree.Confined base t (h.fs.create dl t3).2 ∧
      Tree.Confined base t (h.fs.writeFile dg text (h.fs.create dl t3).2).2 := by
  rw [hfs]
  have h4 : Tree.Confined base t (Tree.fileSystem.create dl t3).2 :=
    h3.trans (Tree.openInode_confined (Tree.ensure_confined true hdl))
  have htouch : Touched base t3 (Tree.fileSystem.create dl t3).2 := by
    have hnode : (Tree.fileSystem.create dl t3).2.node = (t3.ensure dl true).2.node :=
      (Tree.openInode_node true (t3.ensure dl true)).1
    rcases (Tree.ensure_cases dl true t3).2 with hsame | ⟨q, i, hq, hnone, hput⟩
    · exact .inl (hnode.trans hsame)
    · have hbelow := hdl q hq (by simp [hnone])
      refine .inr ⟨q, hbelow, ?_⟩
      rw [hnode, hput]
      exact Tree.put_replaced hbelow.ne_nil i t3
  refine ⟨h4, ?_⟩
  generalize (Tree.fileSystem.create dl t3).2 = t4 at h4 htouch
  have h5 := h4.trans (Tree.ensure_confined true (hdg t4 h4 htouch))
  simp only [Tree.fileSystem]
  split
  · rename_i e t5 heq
    rwa [heq] at h5
  · rename_i i t5 heq
    rw [heq] at h5
    exact h5.of_store _

/-- A link at a side file of the path leads out of the directory. A digest that leads to
    something is removed and not followed. -/
def SideOut (h : JobHost Tree Nat) (base : Place) (path : String) (t : Tree) : Prop :=
  t.LeadsOut base (downloadPath path) ∨
    h.fs.pathExists (digestPath path) t = false ∧ t.LeadsOut base (digestPath path)

theorem openEntry_confined (hposix : h.windows = false) (hfs : h.fs = Tree.fileSystem)
    (hl : Leads base p t.node t.cwd) (hgen : job.jobType = .generic) {entry : FileEntry}
    (hname : entry.name ≠ "")
    (hout : ∀ path, joinValidatedPath h p entry.name t = .ok path → ¬ SideOut h base path t) :
    Tree.Confined base t (job.openEntry h p entry t).2.2 := by
  unfold openEntry targetPaths
  rw [hgen]
  dsimp only
  cases hj : joinValidatedPath h p entry.name t with
  | error e => exact .refl base t
  | ok path =>
    dsimp only
    have hc := checked_of_join hposix hfs hl hname hj
    obtain ⟨hnodl, hnodg⟩ := not_or.mp (hout path hj)
    obtain ⟨init, last, hdl, hdots, hclear, hmade⟩ := hc.createParents hl noSlash_download
      (by decide)
    obtain ⟨init', last', hdg, hdots', hclear', hmade'⟩ := hc.createParents hl noSlash_digest
      (by decide)
    rw [← hfs] at hmade hmade'
    generalize (h.fs.createParents path t).2 = t2 at hmade hmade'
    have hl2 := hmade.confined.leads hl
    -- What is there once the digest of an earlier job is out of the way.
    have hopen : (∃ e, removeOldDigest h (some (digestPath path)) t2 = (.error e, t2)) ∨
        ∃ t3, removeOldDigest h (some (digestPath path)) t2 = (.ok (), t3) ∧
          Tree.Confined base t (h.fs.create (downloadPath path) t3).2 ∧
          Tree.Confined base t (h.fs.writeFile (digestPath path) (h.digestToJson job.digest)
            (h.fs.create (downloadPath path) t3).2).2 := by
      rcases removeOldDigest_tree hfs (digestPath path) t2 with
        herr | ⟨hnone, heq⟩ | ⟨q, hq, heq⟩
      · exact .inl herr
      · refine .inr ⟨t2, heq, sides_confined hfs _ hmade.confined ?_ ?_⟩
        · intro q hres hdir
          exact hdl.opened_made hl hclear hdots hmade hmade.confined (.inl rfl)
            (fun _ => hnodl) hres hdir
        · intro t4 h4 htouch q hres hdir
          exact hdg.opened_made hl hclear' hdots' hmade' h4 htouch
            (fun heq hlead => hnodg ⟨heq ▸ hnone, hlead⟩) hres hdir
      · have hplace := hdg.locate hl2 hmade'.clear hdots' hq
        have hbelow : Below base q := hplace ▸ sidePlace_below _ _ _
        have htouch := erase_touched hbelow t2
        have hgone : ∀ target, (t2.erase q).node (sidePlace base init' last') ≠
            some (.link target) := by
          rw [← hplace, Tree.node_erase hbelow.ne_nil, if_pos (List.prefix_refl q)]
          simp
        have h3 := hmade.confined.trans (Tree.erase_confined hbelow t2)
        refine .inr ⟨t2.erase q, heq, sides_confined hfs _ h3 ?_ ?_⟩
        · intro q' hres hdir
          exact hdl.opened_made hl hclear hdots hmade h3 htouch (fun _ => hnodl) hres hdir
        · intro t4 h4 htouch' q' hres _
          exact hdg.below_of_no_link (h4.leads hl)
            (htouch'.clear hdots' (htouch.clear hdots' hmade'.clear)) hdots'
            (htouch'.no_link hgone) hres
    rcases hopen with ⟨e, heq⟩ | ⟨t3, heq, hdlc, hdgc⟩
    · rw [heq]
      exact hmade.confined
    · rw [heq]
      dsimp only
      split
      · rename_i e t4 hcreate
        rw [hcreate] at hdlc
        exact hdlc
      · rename_i f t4 hcreate
        rw [hcreate] at hdgc
        exact hdgc

/-! ## Blocks -/

/-- The block opens a target for which the job leaves its directory: an entry with an empty name
    is the path of the job itself, and what is next to that is outside; or a link at a side
    file leads out, once `modify_time` has finished the file before. -/
def GoesOut (h : JobHost Tree Nat) (base : Place) (s : TransferJob Nat × Tree)
    (block : FileTransferBlock) : Prop :=
  block.id = s.1.id ∧ ∃ p entry, s.1.dataSource = .filePath p ∧
    s.1.files[fileIndex block.fileNum]? = some entry ∧
    (fileIndex block.fileNum ≠ fileIndex s.1.fileNum ∨ s.1.dataStream.isNone) ∧
    (entry.name = "" ∨ ∃ path,
      joinValidatedPath h p entry.name (s.1.modifyTime h s.2) = .ok path ∧
        SideOut h base path (s.1.modifyTime h s.2))

/-- The names of a list that `set_files` takes. -/
def AcceptedNames (files : List FileEntry) : Prop :=
  files.map (·.name) = [""] ∨ ∀ entry ∈ files, entry.name ≠ ""

theorem acceptedNames_of_setFiles {files : List FileEntry} {job' : TransferJob Nat}
    (hset : job.setFiles h files t = (.ok (), job')) : AcceptedNames files := by
  unfold setFiles at hset
  split at hset
  · cases hset
  · rename_i hv
    unfold validateTransferFileNames at hv
    split_ifs at hv with hone
    · exact .inl hone
    · refine .inr fun entry hmem hempty => ?_
      have hcheck := ok_of_forM hv (List.mem_map_of_mem (f := (·.name)) hmem)
      rw [if_pos hempty] at hcheck
      cases hcheck

theorem syncStream_tree (hfs : h.fs = Tree.fileSystem) (job : TransferJob Nat) (t : Tree) :
    job.syncStream h t = (.ok (), t) := by
  unfold syncStream
  split
  · rw [hfs]
    rfl
  · rfl

theorem openTarget_confined (hposix : h.windows = false) (hfs : h.fs = Tree.fileSystem)
    (hl : Leads base p t.node t.cwd) (hgen : job.jobType = .generic)
    (hp : job.dataSource = .filePath p) (hfiles : AcceptedNames job.files)
    {block : FileTransferBlock} (hid : block.id = job.id)
    (hin : ¬ GoesOut h base (job, t) block) :
    Tree.Confined base t (job.openTarget h p block t).2.2 := by
  unfold openTarget
  split
  · exact .refl base t
  · rename_i entry hentry
    split
    · rename_i hnew
      have hmem := List.mem_of_getElem? hentry
      have hname : entry.name ≠ "" :=
        fun hempty => hin ⟨hid, p, entry, hp, hentry, hnew, .inl hempty⟩
      have hnames : ∀ entry ∈ job.files, entry.name ≠ "" := by
        rcases hfiles with hone | hall
        · have hone' : entry.name ∈ job.files.map (·.name) :=
            List.mem_map_of_mem (f := (·.name)) hmem
          rw [hone, List.mem_singleton] at hone'
          exact absurd hone' hname
        · exact hall
      have h1 := modifyTime_confined hposix hfs hl hp hnames
      dsimp only
      rw [syncStream_tree hfs]
      refine h1.trans ?_
      dsimp only
      refine openEntry_confined hposix hfs (h1.leads hl) ?_ hname ?_
      · exact hgen
      · intro path hj hside
        exact hin ⟨hid, p, entry, hp, hentry, hnew, .inr ⟨path, hj, hside⟩⟩
    · exact .refl base t

theorem writeData_confined (hfs : h.fs = Tree.fileSystem) (block : FileTransferBlock)
    (job : TransferJob Nat) (t : Tree) : Tree.Confined base t (job.writeData h block t).2.2 := by
  have hcall (f : Nat) (bs : Bytes) : Tree.Confined base t (h.fs.writeAll f bs t).2 := by
    rw [hfs]
    exact (Tree.Confined.refl base t).of_store _
  unfold writeData
  dsimp only
  split
  · exact .refl base t
  · rename_i f e hstream
    have hf := hcall f (decoded h block)
    split <;>
    · rename_i heq
      rwa [heq] at hf
  · exact .refl base t

theorem deliver_confined (hposix : h.windows = false) (hfs : h.fs = Tree.fileSystem)
    (hl : Leads base p t.node t.cwd) (hgen : job.jobType = .generic)
    (hp : job.dataSource = .filePath p) (hfiles : AcceptedNames job.files)
    {block : FileTransferBlock} (hin : ¬ GoesOut h base (job, t) block) :
    Tree.Confined base t (deliver h (job, t) block).2 := by
  unfold deliver
  by_cases hid : block.id = job.id
  · have h1 := openTarget_confined hposix hfs hl hgen hp hfiles hid hin
    cases hopen : (job.openTarget h p block t).1 with
    | error e =>
      rw [write_of_open_error h t block hp hid hopen]
      exact h1
    | ok u =>
      rw [write_of_open h t block hp hid hopen]
      exact h1.trans (writeData_confined hfs block _ _)
  · rw [write_wrong_id h t block hid]
    exact .refl base t

theorem run_confined (hposix : h.windows = false) (hfs : h.fs = Tree.fileSystem) :
    ∀ {blocks : List FileTransferBlock} {job : TransferJob Nat} {t : Tree},
      Leads base p t.node t.cwd → job.jobType = .generic → job.dataSource = .filePath p →
        AcceptedNames job.files →
          Along (deliver h) (fun s block => ¬ GoesOut h base s block) (job, t) blocks →
            Tree.Confined base t (run (deliver h) (job, t) blocks).2
  | [], _, t, _, _, _, _, _ => .refl base t
  | block :: blocks, job, t, hl, hgen, hp, hfiles, hall => by
      have h1 := deliver_confined hposix hfs hl hgen hp hfiles hall.1
      have hsame := deliver_sameTask (h := h) (d := t) block hp
      rw [run_cons]
      exact h1.trans (run_confined hposix hfs (h1.leads hl) (hsame.jobType.trans hgen)
        (hsame.dataSource.trans hp) (hsame.files.symm ▸ hfiles) hall.2)

/-- In every tree, links and all, whatever blocks are delivered to a job whose list was accepted:
    what it creates or cuts off is inside its directory, if no block makes it go out. The
    path of the job leads to the directory without going through it. A list that is not
    accepted changes nothing. -/
theorem write_confined (h : JobHost Tree Nat) (hposix : h.windows = false)
    (hfs : h.fs = Tree.fileSystem) {base : Place} {p : String} {t : Tree}
    (hbase : Leads base p t.node t.cwd) {job job' : TransferJob Nat}
    (hgen : job.jobType = .generic) (hp : job.dataSource = .filePath p) {files : List FileEntry}
    (hset : job.setFiles h files t = (.ok (), job')) (blocks : List FileTransferBlock)
    (hin : Along (deliver h) (fun s block => ¬ GoesOut h base s block) (job', t) blocks) :
    (∀ q ∈ (run (deliver h) (job', t) blocks).2.made, q ∈ t.made ∨ Below base q) ∧
      ∀ (files' : List FileEntry) (t' : Tree) (job'' : TransferJob Nat) (e : String),
        (job''.setFiles h files' t').1 = .error e →
          (job''.setFiles h files' t').2.files = job''.files ∧
            (job''.setFiles h files' t').2.totalSize = job''.totalSize := by
  constructor
  · have hjob := setFiles_ok hset
    refine (run_confined hposix hfs hbase ?_ ?_ ?_ hin).made
    · rw [hjob]
      exact hgen
    · rw [hjob]
      exact hp
    · rw [hjob]
      exact acceptedNames_of_setFiles hset
  · intro files' t' job'' e herr
    rw [setFiles_error herr]
    exact ⟨rfl, rfl⟩

/-! ### A link at the second download -/

/-- `plainHost` on a tree. -/
def treeHost : JobHost Tree Nat where
  fs := Tree.fileSystem
  windows := false
  zstdCompress := plainHost.zstdCompress
  decodeAll := plainHost.decodeAll
  digestToJson := plainHost.digestToJson
  digestFromJson := plainHost.digestFromJson

/-- Two directories, and a link from one to the other at the given name. -/
def linked (name : String) : Tree :=
  Tree.ofEntries [(["d"], .dir), (["outside"], .dir), (["d", name], .link "../outside/f")]

theorem leads_linked : Leads ["d"] "/d" (linked "c").node (linked "c").cwd :=
  ⟨by decide +kernel, by decide +kernel⟩

/-- The link is at no file of the job. -/
theorem write_confined_beside_link :
    (run (deliver treeHost) (twoFileJob, linked "c") [⟨1, 0, [5], false⟩]).2.made =
        [["d", "a.digest"], ["d", "a.download"]] ∧
      ∀ q ∈ (run (deliver treeHost) (twoFileJob, linked "c") [⟨1, 0, [5], false⟩]).2.made,
        q ∈ (linked "c").made ∨ Below ["d"] q := by
  have hset : twoFileJob.setFiles treeHost twoFileJob.files (linked "c") =
      (.ok (), twoFileJob) := by decide +kernel
  refine ⟨by decide +kernel, (write_confined treeHost rfl rfl leads_linked rfl rfl hset
    [⟨1, 0, [5], false⟩] ⟨?_, trivial⟩).1⟩
  rintro ⟨_, p, entry, hp, hentry, _, hout⟩
  have hfirst : twoFileJob.files[fileIndex 0]? = some ⟨"a", 0, 0⟩ := by decide +kernel
  cases hp
  cases hentry.symm.trans hfirst
  -- Nothing is at the two side files.
  have hjoin : joinValidatedPath treeHost "/d" "a"
      (twoFileJob.modifyTime treeHost (linked "c")) = .ok "/d/a" := by decide +kernel
  have hside (suffix : String) (hs : suffix = ".download" ∨ suffix = ".digest") :
      ¬ (twoFileJob.modifyTime treeHost (linked "c")).LeadsOut ["d"] ("/d/a" ++ suffix) := by
    rintro ⟨⟨q, target, hloc, hlink⟩, _⟩
    have hplace : locate (twoFileJob.modifyTime treeHost (linked "c")).node
        (twoFileJob.modifyTime treeHost (linked "c")).cwd ("/d/a" ++ suffix) =
          .ok ["d", "a" ++ suffix] := by
      rcases hs with rfl | rfl <;> decide +kernel
    have hnone : (twoFileJob.modifyTime treeHost (linked "c")).node ["d", "a" ++ suffix] =
        none := by
      rcases hs with rfl | rfl <;> decide +kernel
    cases hplace.symm.trans hloc
    exact absurd (hnone.symm.trans hlink) (by simp)
  rcases hout with hempty | ⟨path, hj, hside' | ⟨_, hside'⟩⟩
  · exact absurd hempty (by decide)
  · cases hjoin.symm.trans hj
    exact hside ".download" (.inl rfl) hside'
  · cases hjoin.symm.trans hj
    exact hside ".digest" (.inr rfl) hside'

/-- The link is at the download of the second file, which is then created outside. -/
theorem download_link_followed :
    twoFileJob.setFiles treeHost twoFileJob.files (linked "b.download") =
        (.ok (), twoFileJob) ∧
      (run (deliver treeHost) (twoFileJob, linked "b.download") [⟨1, 1, [5], false⟩]).2.made =
        [["d", "b.digest"], ["outside", "f"]] ∧
      ¬ ∀ q ∈ (run (deliver treeHost) (twoFileJob, linked "b.download")
        [⟨1, 1, [5], false⟩]).2.made, q ∈ (linked "b.download").made ∨ Below ["d"] q := by
  refine ⟨by decide +kernel, by decide +kernel, by decide +kernel⟩

end TransferJob

end LuodaRemote
