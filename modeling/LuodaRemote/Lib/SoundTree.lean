/-
  What the calls do exactly in a tree where everything is in a directory. `Added` says that
  something new came to one place and nothing else changed; a directory that is made, a file that
  is created, and a file that is created, written and renamed, all come down to it.
-/
import LuodaRemote.Lib.NoLinks

namespace LuodaRemote.Lib

/-- The path goes on from another one with plain names, and `last` is the last of them. -/
structure Exact (p path : String) (init : List String) (last : String) : Prop where
  ext : Extends p path (init ++ [last])
  plain : ∀ s ∈ init ++ [last], s ≠ "." ∧ s ≠ ".."
  name : endsInName path = true

namespace Exact

variable {p path last suffix : String} {init : List String}

theorem dots (he : Exact p path init last) : ".." ∉ init ++ [last] :=
  fun hmem => (he.plain _ hmem).2 rfl

theorem last_plain (he : Exact p path init last) : last ≠ "." ∧ last ≠ ".." :=
  he.plain last (by simp)

theorem init_plain (he : Exact p path init last) : ∀ s ∈ init, s ≠ "." ∧ s ≠ ".." :=
  fun s hs => he.plain s (List.mem_append_left _ hs)

theorem toNamed (he : Exact p path init last) : Named p path (init ++ [last]) :=
  ⟨⟨he.ext, he.dots, .inl (by simp)⟩, last, by simp, he.last_plain.1⟩

theorem slash (he : Exact p path init last) : endsInSlash path = false := by
  have := he.name
  unfold endsInName at this
  rw [Bool.and_eq_true, Bool.not_eq_true'] at this
  exact this.1

/-- Something behind the path makes its last name longer. -/
theorem append_suffix (he : Exact p path init last) (hslash : NoSlash suffix)
    (hlong : 2 < suffix.length) : Exact p (path ++ suffix) init (last ++ suffix) := by
  have hne : suffix ≠ "" := by
    rintro rfl
    exact absurd hlong (by decide)
  have hdot : last ++ suffix ≠ "." := append_suffix_ne hlong last (by decide)
  have hdots : last ++ suffix ≠ ".." := append_suffix_ne hlong last (by decide)
  have hnames : pathNames (path ++ suffix) = pathNames p ++ (init ++ [last ++ suffix]) := by
    obtain ⟨xs, x, hx, hlonger⟩ := pathNames_append_name hslash he.slash he.ext.ne_empty
    rw [he.ext.names, ← List.append_assoc] at hx
    obtain ⟨rfl, hlast⟩ := List.append_inj' hx rfl
    cases hlast
    rw [hlonger, List.append_assoc]
  refine ⟨⟨append_ne_empty he.ext.ne_empty _, ?_, hnames⟩, ?_, ?_⟩
  · intro here
    rw [origin_append he.ext.ne_empty, he.ext.origin]
  · intro s hs
    rcases List.mem_append.mp hs with hs | hs
    · exact he.init_plain s hs
    · rw [List.mem_singleton.mp hs]
      exact ⟨hdot, hdots⟩
  · refine endsInName_append hslash hne ?_ hdot hdots
    rw [hnames, ← List.append_assoc, List.getLast?_concat]

end Exact

namespace Tree

/-- Everything is in a directory, and no inode is in use that is still to be given out. -/
structure Sound (t : Tree) : Prop where
  parent : ∀ q x, t.node (q ++ [x]) ≠ none → t.node q = some .dir
  inode : ∀ q i, t.node q = some (.file i) → i < t.store.nextInode

/-- The content of the file at a place. -/
def content (q : Place) (t : Tree) : Option (List UInt8) :=
  match t.node q with
  | some (.file i) => some (t.store.contents i)
  | _ => none

section Sound

variable {t : Tree} {base q a b r : Place} {p path last : String} {init segs : List String}

theorem Sound.above (ht : t.Sound) (hr : r ≠ []) (hq : t.node (q ++ r) ≠ none) :
    t.node q = some .dir := by
  induction r using List.reverseRecOn with
  | nil => exact absurd rfl hr
  | append_singleton r x ih =>
    rw [← List.append_assoc] at hq
    have hdir := ht.parent (q ++ r) x hq
    by_cases hnil : r = []
    · rwa [hnil, List.append_nil] at hdir
    · exact ih hnil (by simp [hdir])

/-- Nothing is below what is no directory. -/
theorem Sound.below (ht : t.Sound) (hq : t.node q ≠ some .dir) (hr : r ≠ []) :
    t.node (q ++ r) = none := by
  by_contra hne
  exact hq (ht.above hr hne)

/-! ## Where plain paths lead -/

theorem descend_plain (ht : t.Sound) :
    ∀ {segs : List String} {here : Place}, (∀ s ∈ segs, s ≠ "." ∧ s ≠ "..") →
      t.node (here ++ segs) = some .dir → descend t.node here segs = .reached (here ++ segs)
  | [], here, _, _ => by simp [descend]
  | s :: segs, here, hplain, hdir => by
      have hs := hplain s List.mem_cons_self
      rw [← List.singleton_append, ← List.append_assoc] at hdir ⊢
      have hnext : t.node (here ++ [s]) = some .dir := by
        by_cases hnil : segs = []
        · rwa [hnil, List.append_nil] at hdir
        · refine ht.above hnil ?_
          rw [hdir]
          simp
      have hlook : look t.node here s = .into (here ++ [s]) := by
        unfold look
        rw [if_neg hs.1, if_neg hs.2, hnext]
      rw [List.singleton_append, descend_cons, hlook]
      exact descend_plain ht (fun x hx => hplain x (List.mem_cons_of_mem _ hx)) hdir

/-- The tree with a directory that a path leads to. -/
structure Ready (base : Place) (p : String) (t : Tree) : Prop where
  leads : Leads base p t.node t.cwd
  noLinks : t.NoLinks base
  sound : t.Sound

theorem Ready.descend (hr : Ready base p t) (hplain : ∀ s ∈ init ++ [last], s ≠ "." ∧ s ≠ "..")
    (hdir : t.node (base ++ init) = some .dir) :
    descend t.node base (init ++ [last]) = .reached (base ++ (init ++ [last])) := by
  have hinit := descend_plain hr.sound (fun s hs => hplain s (List.mem_append_left _ hs)) hdir
  have hlast := hplain last (by simp)
  rw [descend_append_reached hdir [last] hinit, descend_cons, ← List.append_assoc]
  unfold look
  rw [if_neg hlast.1, if_neg hlast.2]
  cases hnode : t.node (base ++ init ++ [last]) with
  | none => rfl
  | some e =>
    cases e with
    | file i => rfl
    | dir => rfl
    | link target =>
      refine absurd hnode (hr.noLinks.node ?_ target)
      rw [List.append_assoc]
      exact List.prefix_append _ _

theorem Ready.resolve (hr : Ready base p t) (he : Exact p path init last)
    (hdir : t.node (base ++ init) = some .dir) :
    resolve t.node t.cwd path = .ok (base ++ (init ++ [last])) := by
  obtain ⟨m, hm⟩ := hr.leads.follow
  refine resolve_of_follow he.ext.ne_empty he.name ?_
  rw [he.ext.origin, he.ext.names, hm]
  exact follow_reached (hr.descend he.plain hdir)

theorem Ready.locate (hr : Ready base p t) (he : Exact p path init last)
    (hdir : t.node (base ++ init) = some .dir) :
    locate t.node t.cwd path = .ok (base ++ (init ++ [last])) := by
  obtain ⟨m, hm⟩ := hr.leads.follow
  rw [locate_eq he.ext he.name, hm, follow_reached (descend_plain hr.sound he.init_plain hdir)]
  dsimp only
  rw [hdir, List.append_assoc]

theorem placeOf_plain (hplain : ∀ s ∈ segs, s ≠ "." ∧ s ≠ "..") :
    placeOf base segs = base ++ segs := by
  unfold placeOf
  rw [List.filter_eq_self.mpr fun s hs => by simpa using (hplain s hs).1]

/-- A path is there if something is at its place. -/
theorem Ready.pathExists (hr : Ready base p t) (he : Exact p path init last) :
    fileSystem.pathExists path t = (t.node (base ++ (init ++ [last]))).isSome := by
  cases hnode : t.node (base ++ (init ++ [last])) with
  | none =>
    cases hres : Lib.resolve t.node t.cwd path with
    | error e =>
      simp only [FileSystem.pathExists, fileSystem, hres]
      rfl
    | ok q =>
      have hq := resolve_inside hr.leads hr.noLinks he.toNamed.toInside hres
      rw [placeOf_plain he.plain] at hq
      rw [← hq] at hnode
      simp only [FileSystem.pathExists, fileSystem, hres, hnode]
      rfl
  | some e =>
    have hdir : t.node (base ++ init) = some .dir := by
      refine hr.sound.parent (base ++ init) last ?_
      rw [List.append_assoc, hnode]
      simp
    simp only [FileSystem.pathExists, fileSystem, hr.resolve he hdir, hnode]
    cases e <;> rfl

/-- The directory itself, and what is in it and is a directory. -/
theorem Ready.pathExists_dir (hr : Ready base p t) (he : Extends p path segs)
    (hplain : ∀ s ∈ segs, s ≠ "." ∧ s ≠ "..") (hdir : t.node (base ++ segs) = some .dir) :
    fileSystem.pathExists path t = true := by
  obtain ⟨m, hm⟩ := hr.leads.follow
  have hres : Lib.resolve t.node t.cwd path = .ok (base ++ segs) := by
    unfold Lib.resolve
    rw [if_neg he.ne_empty, he.origin, he.names, hm,
      follow_reached (descend_plain hr.sound hplain hdir)]
    simp [hdir]
  simp only [FileSystem.pathExists, fileSystem, hres, hdir]
  rfl

end Sound

/-! ## Something new -/

/-- Something came to a place where nothing was, and the files that were there are as they were. -/
structure Added (q : Place) (e : Entry) (t t' : Tree) : Prop where
  fresh : t.node q = none
  parent : ∃ dir x, q = dir ++ [x] ∧ t.node dir = some .dir
  node : ∀ x, t'.node x = if x = q then some e else t.node x
  old : ∀ i < t.store.nextInode, t'.store.contents i = t.store.contents i
  next : t.store.nextInode ≤ t'.store.nextInode
  new : ∀ i, e = .file i → t.store.nextInode ≤ i ∧ i < t'.store.nextInode

section Added

variable {t t' : Tree} {base q x a b : Place} {e : Entry} {p path last : String}
  {init : List String} {i f : Nat}

theorem Added.of_ne (ha : Added q e t t') (hx : t.node x ≠ none) : t'.node x = t.node x := by
  rw [ha.node, if_neg]
  rintro rfl
  exact hx ha.fresh

theorem Added.sound (ha : Added q e t t') (ht : t.Sound) : t'.Sound where
  parent y s hy := by
    have hdir : t.node y = some .dir := by
      rw [ha.node] at hy
      split_ifs at hy with heq
      · obtain ⟨dir, s', hq, hdir⟩ := ha.parent
        rw [hq] at heq
        rwa [(List.append_inj' heq rfl).1]
      · exact ht.parent y s hy
    rw [ha.of_ne (by simp [hdir]), hdir]
  inode y j hy := by
    rw [ha.node] at hy
    split_ifs at hy with heq
    · exact (ha.new j (Option.some.inj hy)).2
    · exact (ht.inode y j hy).trans_le ha.next

/-- Files that were there keep their content. -/
theorem Added.content_old (ha : Added q e t t') (ht : t.Sound) {bs : List UInt8}
    (hx : t.content x = some bs) : t'.content x = some bs := by
  unfold content at hx ⊢
  cases hnode : t.node x with
  | none => simp [hnode] at hx
  | some e =>
    rw [ha.of_ne (by simp [hnode]), hnode]
    rw [hnode] at hx
    cases e with
    | file j =>
      dsimp only at hx ⊢
      rw [ha.old j (ht.inode x j hnode)]
      exact hx
    | dir => exact hx
    | link target => exact hx

/-- The new file may be written to. -/
theorem Added.of_write (ha : Added q (.file i) t t') {store : Disk Empty}
    (hold : ∀ j, j ≠ i → store.contents j = t'.store.contents j)
    (hnext : store.nextInode = t'.store.nextInode) : Added q (.file i) t { t' with store } where
  fresh := ha.fresh
  parent := ha.parent
  node := ha.node
  old j hj := by
    have hne : j ≠ i := by
      have := (ha.new i rfl).1
      omega
    exact (hold j hne).trans (ha.old j hj)
  next := ha.next.trans_eq hnext.symm
  new j hj := by
    obtain ⟨h1, h2⟩ := ha.new j hj
    exact ⟨h1, h2.trans_eq hnext.symm⟩

theorem node_put_new (ht : t.Sound) (hq : q ≠ []) (hnone : t.node q = none) (e : Entry)
    (x : Place) : (t.put q e).node x = if x = q then some e else t.node x := by
  rw [node_put hq]
  split_ifs with h1 h2
  · rfl
  · obtain ⟨r, rfl⟩ := h2
    exact (ht.below (by simp [hnone]) (fun hnil => h1 (by simp [hnil]))).symm
  · rfl

theorem put_added (ht : t.Sound) {dir : Place} {s : String} (hdir : t.node dir = some .dir)
    (hnone : t.node (dir ++ [s]) = none) : Added (dir ++ [s]) .dir t (t.put (dir ++ [s]) .dir) where
  fresh := hnone
  parent := ⟨dir, s, rfl, hdir⟩
  node := node_put_new ht (by simp) hnone _
  old _ _ := rfl
  next := le_refl _
  new i hi := by cases hi

/-- What is created: a new file of no length, open for writing. -/
structure Created (q : Place) (f : Nat) (t t' : Tree) : Prop where
  added : Added q (.file t.store.nextInode) t t'
  content : t'.store.contents t.store.nextInode = []
  handle : t'.store.handles f = ⟨t.store.nextInode, 0, true⟩

theorem Ready.create (hr : Ready base p t) (he : Exact p path init last)
    (hdir : t.node (base ++ init) = some .dir) (hnone : t.node (base ++ (init ++ [last])) = none) :
    ∃ f t', fileSystem.create path t = (.ok f, t') ∧ Created (base ++ (init ++ [last])) f t t' := by
  have hq : base ++ (init ++ [last]) = (base ++ init) ++ [last] := (List.append_assoc _ _ _).symm
  have hcreate : fileSystem.create path t = openInode true (.ok t.store.nextInode,
      { t.put (base ++ (init ++ [last])) (.file t.store.nextInode) with
        store := { t.store.setContent t.store.nextInode [] with
          nextInode := t.store.nextInode + 1 } }) := by
    show openInode true (t.ensure path true) = _
    unfold ensure
    rw [hr.resolve he hdir]
    dsimp only
    rw [hnone]
  refine ⟨_, _, hcreate, ⟨hnone, ⟨base ++ init, last, hq, hdir⟩, ?_, ?_, ?_, ?_⟩, ?_, ?_⟩
  · exact node_put_new hr.sound (by simp) hnone _
  · intro j hj
    show Function.update t.store.contents t.store.nextInode [] j = _
    rw [Function.update_of_ne (by omega)]
  · show t.store.nextInode ≤ t.store.nextInode + 1
    omega
  · rintro j ⟨⟩
    show t.store.nextInode ≤ t.store.nextInode ∧ t.store.nextInode < t.store.nextInode + 1
    omega
  · exact Function.update_self ..
  · exact Function.update_self ..

/-! ### Directories -/

/-- Directories that are there are passed over. -/
theorem makeDirs_skip {here : Place} {rest : List String} :
    ∀ {mid done : List String}, (∀ c, c ≠ [] → c <+: mid → ∃ q,
      follow t.node maxLinks here (done ++ c) = .ok q ∧ t.node q = some .dir) →
        makeDirs here done (mid ++ rest) t = makeDirs here (done ++ mid) rest t
  | [], done, _ => by rw [List.nil_append, List.append_nil]
  | s :: mid, done, hdirs => by
      obtain ⟨q, hf, hq⟩ := hdirs [s] (by simp) (by simp)
      rw [List.cons_append, makeDirs, hf]
      dsimp only
      rw [hq]
      dsimp only
      rw [makeDirs_skip, List.append_assoc, List.singleton_append]
      intro c hc hpre
      rw [List.append_assoc, List.singleton_append]
      exact hdirs (s :: c) (by simp) (List.cons_prefix_cons.mpr ⟨rfl, hpre⟩)

/-- Every step on the way to a directory is one. -/
theorem Ready.dirs_before (hr : Ready base p t) (hplain : ∀ s ∈ init, s ≠ "." ∧ s ≠ "..")
    (hdir : t.node (base ++ init) = some .dir) {c : List String} (hc : c ≠ [])
    (hpre : c <+: pathNames p ++ init) :
    ∃ q, follow t.node maxLinks (origin p t.cwd) c = .ok q ∧ t.node q = some .dir := by
  obtain ⟨m, hm⟩ := hr.leads.follow
  obtain ⟨ys, hys⟩ := hpre
  have hall : follow t.node maxLinks (origin p t.cwd) (pathNames p ++ init) =
      .ok (base ++ init) := by
    rw [hm]
    exact follow_reached (descend_plain hr.sound hplain hdir)
  rw [← hys] at hall
  by_cases hnil : ys = []
  · rw [hnil, List.append_nil] at hall
    exact ⟨_, hall, hdir⟩
  · exact follow_prefix hnil hc hall

/-- A directory is made where its parent is. -/
theorem Ready.makeDir (hr : Ready base p t) (he : Exact p path init last)
    (hdir : t.node (base ++ init) = some .dir) (hnone : t.node (base ++ (init ++ [last])) = none)
    {child : String} (hchild : Extends path child ["x"]) :
    fileSystem.createParents child t = (.ok (), t.put (base ++ (init ++ [last])) .dir) := by
  obtain ⟨m, hm⟩ := hr.leads.follow
  have hchild' := he.ext.trans hchild
  show makeDirs (origin child t.cwd) [] (parentNames (pathNames child)) t = _
  rw [hchild'.origin, hchild'.names, ← List.append_assoc,
    parentNames_of_name _ (by decide), ← List.append_assoc]
  rw [makeDirs_skip (by
    intro c hc hpre
    rw [List.nil_append]
    exact hr.dirs_before he.init_plain hdir hc hpre), List.nil_append]
  have hlast : follow t.node maxLinks (origin p t.cwd) (pathNames p ++ init ++ [last]) =
      .ok (base ++ (init ++ [last])) := by
    rw [List.append_assoc, hm]
    exact follow_reached (hr.descend he.plain hdir)
  have hinit : follow t.node maxLinks (origin p t.cwd) (pathNames p ++ init) =
      .ok (base ++ init) := by
    rw [hm]
    exact follow_reached (descend_plain hr.sound he.init_plain hdir)
  rw [makeDirs, hlast]
  dsimp only
  rw [hnone, hinit]
  dsimp only
  rw [if_pos (List.append_assoc _ _ _)]
  rfl

/-! ### Renaming -/

theorem lookup_move_dst (a b r : Place) {es : List (Place × Entry)}
    (hes : ∀ y ∈ es, ¬ b <+: y.1) :
    (es.map fun y =>
        if a.isPrefixOf y.1 then (b ++ y.1.drop a.length, y.2) else y).lookup (b ++ r) =
      es.lookup (a ++ r) := by
  induction es with
  | nil => rfl
  | cons y es ih =>
    obtain ⟨k, e⟩ := y
    have hk := hes (k, e) List.mem_cons_self
    have hrest := ih fun y hy => hes y (List.mem_cons_of_mem _ hy)
    rw [List.map_cons, List.lookup_cons, List.lookup_cons, hrest]
    by_cases ha : a <+: k
    · obtain ⟨c, rfl⟩ := ha
      have hpre : a.isPrefixOf (a ++ c) = true :=
        List.isPrefixOf_iff_prefix.mpr (List.prefix_append _ _)
      simp only [hpre, if_true, List.drop_left]
      have hsame : (b ++ r == b ++ c) = (a ++ r == a ++ c) := by
        rw [Bool.eq_iff_iff, beq_iff_eq, beq_iff_eq, List.append_cancel_left_eq,
          List.append_cancel_left_eq]
      rw [hsame]
    · have hpre : a.isPrefixOf k = false := by
        rw [Bool.eq_false_iff, ne_eq, List.isPrefixOf_iff_prefix]
        exact ha
      have h1 : (b ++ r == k) = false :=
        beq_false_of_ne fun heq => hk (heq ▸ List.prefix_append _ _)
      have h2 : (a ++ r == k) = false :=
        beq_false_of_ne fun heq => ha (heq ▸ List.prefix_append _ _)
      simp only [hpre, Bool.false_eq_true, if_false, h1, h2]

theorem lookup_move_src {a b : Place} (hax : a <+: x) (hbx : ¬ b <+: x)
    (es : List (Place × Entry)) :
    (es.map fun y => if a.isPrefixOf y.1 then (b ++ y.1.drop a.length, y.2) else y).lookup x =
      none := by
  induction es with
  | nil => rfl
  | cons y es ih =>
    obtain ⟨k, e⟩ := y
    rw [List.map_cons, List.lookup_cons, ih]
    by_cases ha : a <+: k
    · have hpre : a.isPrefixOf k = true := List.isPrefixOf_iff_prefix.mpr ha
      have hne : (x == b ++ k.drop a.length) = false :=
        beq_false_of_ne fun heq => hbx (heq ▸ List.prefix_append _ _)
      simp only [hpre, if_true, hne]
    · have hpre : a.isPrefixOf k = false := by
        rw [Bool.eq_false_iff, ne_eq, List.isPrefixOf_iff_prefix]
        exact ha
      have hne : (x == k) = false := beq_false_of_ne fun heq => ha (heq ▸ hax)
      simp only [hpre, Bool.false_eq_true, if_false, hne]

/-- A new file that is moved is new at the other place. -/
theorem Added.move (ha : Added a (.file i) t t') (ht : t.Sound) (hb : t'.node b = none)
    (hdir : ∃ dir y, b = dir ++ [y] ∧ t.node dir = some .dir) (hab : ¬ a <+: b) (hba : ¬ b <+: a) :
    Added b (.file i) t (t'.move a b) := by
  have hold : t.node b = none := by
    rw [ha.node] at hb
    split_ifs at hb
    exact hb
  have hbnil : b ≠ [] := by
    obtain ⟨dir, y, rfl, -⟩ := hdir
    simp
  have ha0 : a ≠ [] := by
    rintro rfl
    exact hab List.nil_prefix
  refine ⟨hold, hdir, fun x => ?_, ha.old, ha.next, ha.new⟩
  have hlook (hx : x ≠ []) : (t'.move a b).node x = ((t'.erase b).entries.map fun y =>
      if a.isPrefixOf y.1 then (b ++ y.1.drop a.length, y.2) else y).lookup x := if_neg hx
  by_cases hbx : b <+: x
  · obtain ⟨r, rfl⟩ := hbx
    have hno : ∀ y ∈ (t'.erase b).entries, ¬ b <+: y.1 := by
      intro y hy hpre
      have := (List.mem_filter.mp hy).2
      rw [List.isPrefixOf_iff_prefix.mpr hpre] at this
      exact absurd this (by decide)
    have hsrc : ¬ b <+: a ++ r := by
      intro hpre
      rcases List.prefix_or_prefix_of_prefix hpre (List.prefix_append a r) with h | h
      · exact hba h
      · exact hab h
    have hanil : a ++ r ≠ [] := by simp [ha0]
    have hthere : (t'.move a b).node (b ++ r) = t'.node (a ++ r) := by
      rw [hlook (by simp [hbnil]), lookup_move_dst a b r hno]
      have herase := node_erase hbnil t' (a ++ r)
      rw [if_neg hsrc] at herase
      rw [← herase]
      exact (if_neg hanil).symm
    rw [hthere, ha.node]
    by_cases hr : r = []
    · simp [hr]
    · rw [if_neg (by simp [hr]), if_neg (by simp [hr]),
        ht.below (by simp [ha.fresh]) hr, ht.below (by simp [hold]) hr]
  · have hxb : x ≠ b := fun heq => hbx (heq ▸ List.prefix_refl _)
    rw [if_neg hxb]
    by_cases hax : a <+: x
    · have hxnil : x ≠ [] := by
        rintro rfl
        exact ha0 (List.prefix_nil.mp hax)
      rw [hlook hxnil, lookup_move_src hax hbx]
      obtain ⟨r, rfl⟩ := hax
      by_cases hr : r = []
      · rw [hr, List.append_nil, ha.fresh]
      · rw [ht.below (by simp [ha.fresh]) hr]
    · rw [node_move hax hbx, ha.node, if_neg]
      rintro rfl
      exact hax (List.prefix_refl _)

theorem sibling_not_prefix {dir : Place} {x y : String} (hne : x ≠ y) :
    ¬ dir ++ [x] <+: dir ++ [y] := by
  intro hpre
  have heq := hpre.eq_of_length (by simp)
  exact hne (List.singleton_inj.mp (List.append_cancel_left heq))

/-- A file is renamed to a name beside it that is free. -/
theorem Ready.rename {src dst x y : String} (hr : Ready base p t) (ha : Exact p src init x)
    (hb : Exact p dst init y) (hdir : t.node (base ++ init) = some .dir)
    (hsrc : t.node (base ++ (init ++ [x])) = some (.file i))
    (hdst : t.node (base ++ (init ++ [y])) = none) :
    fileSystem.rename src dst t =
      (.ok (), t.move (base ++ (init ++ [x])) (base ++ (init ++ [y]))) := by
  show t.rename src dst = _
  unfold Tree.rename
  rw [ha.name, hb.name, hr.locate ha hdir, hr.locate hb hdir]
  have hne : base ++ (init ++ [x]) ≠ base ++ (init ++ [y]) := by
    intro heq
    rw [heq, hdst] at hsrc
    cases hsrc
  simp [hsrc, hdst, hne, mayReplace]

theorem Ready.of_kept (hr : Ready base p t) (hk : Kept base t t') (hs : t'.Sound) :
    Ready base p t' :=
  ⟨hk.confined.leads hr.leads, hk.noLinks hr.noLinks, hs⟩

/-! ### Writing -/

/-- What an open file with its position at the end becomes. -/
structure Appended (f i : Nat) (bs : List UInt8) (store store' : Disk Empty) : Prop where
  content : store'.contents i = bs
  others : ∀ j, j ≠ i → store'.contents j = store.contents j
  handle : store'.handles f = ⟨i, bs.length, true⟩
  next : store'.nextInode = store.nextInode

theorem writeAll_end {old bs : List UInt8} (hh : t.store.handles f = ⟨i, old.length, true⟩)
    (hc : t.store.contents i = old) (hbs : bs ≠ []) :
    ∃ store, fileSystem.writeAll f bs t = (.ok (), { t with store }) ∧
      Appended f i (old ++ bs) t.store store := by
  have hwrite : t.store.writeAll f bs = (.ok (), { t.store.setContent i (old ++ bs) with
        handles := Function.update t.store.handles f ⟨i, old.length + bs.length, true⟩ }) := by
    unfold Disk.writeAll
    dsimp only
    rw [if_neg (by simpa using hbs), hh, hc, Disk.overwrite_end]
    rfl
  have hcall : fileSystem.writeAll f bs t =
      ((t.store.writeAll f bs).1, { t with store := (t.store.writeAll f bs).2 }) := rfl
  rw [hwrite] at hcall
  refine ⟨_, hcall, Function.update_self .., fun j hj => Function.update_of_ne hj .., ?_, rfl⟩
  rw [List.length_append]
  exact Function.update_self ..

end Added

end Tree

end LuodaRemote.Lib
