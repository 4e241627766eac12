/-
  Directories without symbolic links in them. A path that goes on from such a directory and has
  no `..` behind it leads to one place, which its names tell, and every call with such a path is
  confined to the directory.
-/
import LuodaRemote.Lib.Tree

namespace LuodaRemote.Lib

/-- The path goes on from another one, and nothing behind it leads up. -/
structure Inside (p path : String) (segs : List String) : Prop where
  ext : Extends p path segs
  dots : ".." ∉ segs
  /-- What is put behind the path does not change the last name of the other one. -/
  apart : segs ≠ [] ∨ endsInSlash path = true

/-- A name of its own is behind the other path. -/
structure Named (p path : String) (segs : List String) : Prop extends Inside p path segs where
  named : ∃ s ∈ segs, s ≠ "."

/-- Where the names lead from a directory. -/
def placeOf (base : Place) (segs : List String) : Place := base ++ segs.filter (· ≠ ".")

section Names

variable {p path suffix : String} {segs : List String}

theorem Named.below (hi : Named p path segs) (base : Place) : Below base (placeOf base segs) := by
  obtain ⟨s, hs, hdot⟩ := hi.named
  refine below_append fun hnil => ?_
  have hmem : s ∈ segs.filter (· ≠ ".") := List.mem_filter.mpr ⟨hs, by simpa using hdot⟩
  rw [hnil] at hmem
  cases hmem

/-- A path with something behind it has a name of its own. -/
theorem Inside.append_suffix (hi : Inside p path segs) (hslash : NoSlash suffix)
    (hlong : 2 < suffix.length) : ∃ segs', Named p (path ++ suffix) segs' := by
  have hne : suffix ≠ "" := by
    rintro rfl
    exact absurd hlong (by decide)
  have hpath := hi.ext.ne_empty
  -- The last name is a longer one or a new one.
  have hnames : ∃ init last, init <+: segs ∧
      pathNames (path ++ suffix) = pathNames p ++ (init ++ [last ++ suffix]) := by
    by_cases hend : endsInSlash path = true
    · refine ⟨segs, "", List.prefix_refl _, ?_⟩
      rw [(extends_append hpath hend suffix).names, hslash.names hne, hi.ext.names,
        List.append_assoc, String.empty_append]
    · have hsegs := hi.apart.resolve_right hend
      obtain ⟨init, last, hlast, hcases⟩ := pathNames_append_suffix hslash hne path
      rw [hi.ext.names] at hcases
      rcases hcases with heq | heq
      · obtain ⟨xs, s, rfl⟩ := (List.eq_nil_or_concat' segs).resolve_left hsegs
        rw [← List.append_assoc] at heq
        obtain ⟨rfl, -⟩ := List.append_inj' heq rfl
        exact ⟨xs, last, List.prefix_append _ _, by rw [hlast, List.append_assoc]⟩
      · exact ⟨segs, last, List.prefix_refl _, by rw [hlast, ← heq, List.append_assoc]⟩
  obtain ⟨init, last, hinit, hnames⟩ := hnames
  have hdot : last ++ suffix ≠ "." := append_suffix_ne hlong last (by decide)
  have hdots : last ++ suffix ≠ ".." := append_suffix_ne hlong last (by decide)
  refine ⟨init ++ [last ++ suffix], ⟨⟨append_ne_empty hpath _, ?_, hnames⟩, ?_, .inl (by simp)⟩,
    last ++ suffix, by simp, hdot⟩
  · intro here
    rw [origin_append hpath, hi.ext.origin]
  · intro hmem
    rcases List.mem_append.mp hmem with hmem | hmem
    · exact hi.dots (hinit.subset hmem)
    · exact hdots (List.mem_singleton.mp hmem).symm

end Names

namespace Tree

/-- No link is in the directory or below. -/
def NoLinks (base : Place) (t : Tree) : Prop :=
  ∀ x ∈ t.entries, base <+: x.1 → ∀ target, x.2 ≠ .link target

section NoLinks

variable {t : Tree} {base q a b : Place} {p path : String} {segs : List String}

theorem NoLinks.node (hn : t.NoLinks base) (hq : base <+: q) (target : String) :
    t.node q ≠ some (.link target) := by
  unfold Tree.node
  split_ifs
  · simp
  · intro hlook
    obtain ⟨l1, l2, heq, _⟩ := List.lookup_eq_some_iff.mp hlook
    have hmem : (q, Entry.link target) ∈ t.entries := by
      rw [heq]
      exact List.mem_append_right _ List.mem_cons_self
    exact hn _ hmem hq target rfl

theorem NoLinks.put (hn : t.NoLinks base) (q : Place) {e : Entry}
    (he : ∀ target, e ≠ .link target) :
    (t.put q e).NoLinks base := by
  intro x hx
  rcases List.mem_cons.mp hx with rfl | hx
  · exact fun _ => he
  · exact hn x (List.mem_of_mem_filter hx)

theorem NoLinks.erase (hn : t.NoLinks base) (q : Place) : (t.erase q).NoLinks base :=
  fun x hx => hn x (List.mem_of_mem_filter hx)

theorem NoLinks.move (hn : t.NoLinks base) (ha : base <+: a) (b : Place) :
    (t.move a b).NoLinks base := by
  intro x hx
  obtain ⟨y, hy, rfl⟩ := List.mem_map.mp hx
  have hold := hn y (List.mem_of_mem_filter hy)
  split_ifs with hpre
  · exact fun _ => hold (ha.trans (List.isPrefixOf_iff_prefix.mp hpre))
  · exact hold

theorem NoLinks.clear (hn : t.NoLinks base) (hdots : ".." ∉ segs) : Clear t.node base segs :=
  clear_within (fun _ target hq => hn.node hq target) (List.prefix_refl base) hdots

/-! ## Where the paths lead -/

theorem resolve_inside (hl : Leads base p t.node t.cwd) (hn : t.NoLinks base)
    (hi : Inside p path segs) (hr : resolve t.node t.cwd path = .ok q) :
    q = placeOf base segs := by
  obtain ⟨m, hm⟩ := hl.follow
  have hf := follow_of_resolve hr
  rw [hi.ext.origin, hi.ext.names, hm] at hf
  exact descend_down hi.dots ((hn.clear hi.dots).reached hf)

theorem locate_named (hl : Leads base p t.node t.cwd) (hn : t.NoLinks base)
    (hi : Named p path segs) (hr : locate t.node t.cwd path = .ok q) :
    q = placeOf base segs := by
  by_cases hname : endsInName path = true
  · have hsegs : segs ≠ [] := by
      rintro rfl
      obtain ⟨s, hs, -⟩ := hi.named
      cases hs
    obtain ⟨xs, s, rfl⟩ := (List.eq_nil_or_concat' segs).resolve_left hsegs
    have hlast : (pathNames path).getLast? = some s := by
      rw [hi.ext.names, ← List.append_assoc, List.getLast?_concat]
    have hdot : s ≠ "." := by
      unfold endsInName at hname
      rw [hlast] at hname
      simp only [Option.any_some, Bool.and_eq_true, Bool.not_eq_true', Bool.or_eq_false_iff,
        beq_eq_false_iff_ne] at hname
      exact hname.2.1
    have hdots : ".." ∉ xs := fun hmem => hi.dots (List.mem_append_left _ hmem)
    rw [hl.locate hi.ext hname (hn.clear hdots) hdots hr]
    simp [placeOf, hdot]
  · have hres : locate t.node t.cwd path = resolve t.node t.cwd path := by
      unfold locate
      split
      · rfl
      · rw [if_neg hname]
    exact resolve_inside hl hn hi.toInside (hres ▸ hr)

/-! ## What the calls keep -/

/-- What changed is inside the directory, and no link came into it. -/
structure Kept (base : Place) (t t' : Tree) : Prop where
  confined : Confined base t t'
  noLinks : t.NoLinks base → t'.NoLinks base

theorem Kept.refl (base : Place) (t : Tree) : Kept base t t := ⟨.refl base t, id⟩

theorem Kept.trans {t' t'' : Tree} (h1 : Kept base t t') (h2 : Kept base t' t'') :
    Kept base t t'' :=
  ⟨h1.confined.trans h2.confined, fun hn => h2.noLinks (h1.noLinks hn)⟩

theorem Kept.of_store {t' : Tree} (hk : Kept base t t') (store : Disk Empty) :
    Kept base t { t' with store := store } :=
  ⟨hk.confined.of_store store, hk.noLinks⟩

theorem removeFile_kept (hl : Leads base p t.node t.cwd) (hn : t.NoLinks base)
    (hi : Named p path segs) : Kept base t (t.removeFile path).2 := by
  refine ⟨removeFile_confined fun q hq => ?_, fun _ => ?_⟩
  · rw [locate_named hl hn hi hq]
    exact hi.below base
  · rcases removeFile_cases path t with ⟨e, heq⟩ | ⟨q, -, heq⟩
    · rwa [heq]
    · rw [heq]
      exact hn.erase q

theorem locate_empty (nodes : Place → Option Entry) (cwd : Place) :
    locate nodes cwd "" = .error Disk.noSuchFile := rfl

theorem removeFile_empty (t : Tree) : (t.removeFile "").2 = t := by
  unfold removeFile
  rw [locate_empty]

theorem rename_cases (src dst : String) (t : Tree) :
    (t.rename src dst).2 = t ∨ ∃ a b, locate t.node t.cwd src = .ok a ∧
      locate t.node t.cwd dst = .ok b ∧ (t.rename src dst).2 = t.move a b := by
  unfold rename
  split_ifs
  · exact .inl rfl
  split
  · exact .inl rfl
  · exact .inl rfl
  · rename_i qa qb hqa hqb
    split
    · exact .inl rfl
    · split_ifs
      · exact .inl rfl
      · split
        · exact .inl rfl
        · exact .inr ⟨qa, qb, hqa, hqb, rfl⟩

theorem rename_empty (dst : String) (t : Tree) : (t.rename "" dst).2 = t := by
  rcases rename_cases "" dst t with heq | ⟨a, b, hqa, -, -⟩
  · exact heq
  · rw [locate_empty] at hqa
    cases hqa

theorem rename_kept {src dst : String} {xs ys : List String} (hl : Leads base p t.node t.cwd)
    (hn : t.NoLinks base) (ha : Named p src xs) (hb : Named p dst ys) :
    Kept base t (t.rename src dst).2 := by
  rcases rename_cases src dst t with heq | ⟨a, b, hqa, hqb, heq⟩
  · rw [heq]
    exact .refl base t
  · rw [heq, locate_named hl hn ha hqa, locate_named hl hn hb hqb]
    exact ⟨move_confined (ha.below base) (hb.below base) t, fun _ => hn.move (ha.below base).1 _⟩

theorem ensure_noLinks (hn : t.NoLinks base) (path : String) (truncate : Bool) :
    (t.ensure path truncate).2.NoLinks base := by
  unfold ensure
  split
  · exact hn
  · split
    · split_ifs <;> exact hn
    · exact hn
    · exact hn.put _ (by simp)

/-- A file that is opened anew is at the place its path tells. -/
theorem create_kept (hl : Leads base p t.node t.cwd) (hn : t.NoLinks base)
    (hi : Named p path segs) : Kept base t (fileSystem.create path t).2 := by
  refine ⟨openInode_confined (ensure_confined true fun q hq _ => ?_), fun _ => ?_⟩
  · rw [resolve_inside hl hn hi.toInside hq]
    exact hi.below base
  · have hens := ensure_noLinks hn path true
    change (openInode true (t.ensure path true)).2.NoLinks base
    generalize t.ensure path true = r at hens
    obtain ⟨res, t'⟩ := r
    cases res <;> exact hens

theorem create_node {f : Nat} {t' : Tree} (hl : Leads base p t.node t.cwd) (hn : t.NoLinks base)
    (hi : Named p path segs) (hc : fileSystem.create path t = (.ok f, t')) :
    t'.node (placeOf base segs) = some (.file (t'.store.handles f).inode) := by
  change openInode true (t.ensure path true) = _ at hc
  unfold ensure at hc
  split at hc
  · cases hc
  · rename_i q hq
    rw [resolve_inside hl hn hi.toInside hq] at hc
    split at hc
    · rename_i i hi
      cases hc
      refine hi.trans ?_
      simp [Disk.newHandle, Disk.setContent]
    · cases hc
    · cases hc
      have hput := node_put (hi.below base).ne_nil (.file t.store.nextInode) t (placeOf base segs)
      rw [if_pos rfl] at hput
      refine hput.trans ?_
      simp [Disk.newHandle, Disk.setContent]

theorem makeDirs_noLinks : ∀ {rest done : List String} {here : Place} {t : Tree},
    t.NoLinks base → (makeDirs here done rest t).2.NoLinks base
  | [], _, _, _, hn => hn
  | s :: rest, done, here, t, hn => by
      unfold makeDirs
      split
      · exact hn
      · split
        · exact makeDirs_noLinks hn
        · exact hn
        · split
          · split_ifs
            · exact makeDirs_noLinks (hn.put _ (by simp))
            · exact hn
          · exact hn

theorem createParents_kept (hl : Leads base p t.node t.cwd) (hn : t.NoLinks base)
    (hi : Inside p path segs) : Kept base t (fileSystem.createParents path t).2 := by
  refine ⟨?_, fun _ => makeDirs_noLinks hn⟩
  change Confined base t (makeDirs (origin path t.cwd) [] (parentNames (pathNames path)) t).2
  rw [hi.ext.origin, hi.ext.names]
  exact (makeDirs_spec hi.dots (parentNames_isPrefix _) hl (hn.clear hi.dots)).confined

theorem writeAll_kept (f : Nat) (bs : List UInt8) (t : Tree) :
    Kept base t (fileSystem.writeAll f bs t).2 := (Kept.refl base t).of_store _

theorem writeAll_inode (f : Nat) (bs : List UInt8) (t : Tree) (f' : Nat) :
    ((fileSystem.writeAll f bs t).2.store.handles f').inode = (t.store.handles f').inode := by
  show ((t.store.writeAll f bs).2.handles f').inode = _
  unfold Disk.writeAll
  dsimp only
  split_ifs
  · rfl
  · by_cases hf : f' = f
    · subst hf
      simp
    · simp [Function.update_of_ne hf]
  · rfl

end NoLinks

end Tree

end LuodaRemote.Lib
