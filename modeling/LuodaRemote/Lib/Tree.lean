/-
  A tree of directories with symbolic links, as a file system.

  The tree keeps a record of the places where something was created, brought to or cut off.
  `Confined` says of two trees that the second one differs from the first inside one
  directory only; a call is confined to a directory if the paths it is given lead there.
-/
import LuodaRemote.Lib.Walk

namespace LuodaRemote.Lib

structure Tree where
  entries : List (Place × Entry)
  cwd : Place
  /-- The inodes and the open files, without the names. -/
  store : Disk Empty
  /-- Where something was created, brought to or cut off, the latest first. -/
  made : List Place

namespace Tree

/-- What is at a place; the root is always there. -/
def node (t : Tree) (q : Place) : Option Entry :=
  if q = [] then some .dir else t.entries.lookup q

/-- The tree with the given entries, where nothing is open. -/
def ofEntries (entries : List (Place × Entry)) : Tree :=
  ⟨entries, [], Disk.empty [], []⟩

/-- Something new at a place. Nothing is below it. -/
def put (q : Place) (e : Entry) (t : Tree) : Tree :=
  { t with
    entries := (q, e) :: t.entries.filter fun x => !q.isPrefixOf x.1
    made := q :: t.made }

def erase (q : Place) (t : Tree) : Tree :=
  { t with entries := t.entries.filter fun x => !q.isPrefixOf x.1 }

/-- What is at a place, with all below it, goes to another place. -/
def move (src dst : Place) (t : Tree) : Tree :=
  { t with
    entries := (t.erase dst).entries.map fun x =>
      if src.isPrefixOf x.1 then (dst ++ x.1.drop src.length, x.2) else x
    made := dst :: t.made }

def fileExists : String := "File exists"

def invalidArgument : String := "Invalid argument"

/-- `create_dir_all`: from the top down, every directory that is not there yet. -/
def makeDirs (here : Place) (done : List String) : List String → Tree → Except String Unit × Tree
  | [], t => (.ok (), t)
  | s :: rest, t =>
    match follow t.node maxLinks here (done ++ [s]) with
    | .error e => (.error e, t)
    | .ok q =>
      match t.node q with
      | some .dir => makeDirs here (done ++ [s]) rest t
      | some _ => (.error fileExists, t)
      | none =>
        -- A link that leads nowhere is in the way of `mkdir`.
        match follow t.node maxLinks here done with
        | .ok dir =>
          if dir ++ [s] = q then makeDirs here (done ++ [s]) rest (t.put q .dir)
          else (.error fileExists, t)
        | .error e => (.error e, t)

def removeFile (path : String) (t : Tree) : Except String Unit × Tree :=
  match locate t.node t.cwd path with
  | .error e => (.error e, t)
  | .ok q =>
    match t.node q with
    | none => (.error Disk.noSuchFile, t)
    | some .dir => (.error Disk.isADirectory, t)
    | some _ => (.ok (), t.erase q)

/-- Whether the entry may take the place of what is at the other place. -/
def mayReplace (src dst : Place) (e : Entry) (t : Tree) : Except String Unit :=
  match e, t.node dst with
  | .dir, some .dir =>
    if t.entries.any fun x => decide (Below dst x.1) then .error "Directory not empty"
    else .ok ()
  | .dir, none => if src <+: dst then .error invalidArgument else .ok ()
  | .dir, some _ => .error notADirectory
  | _, some .dir => .error Disk.isADirectory
  | _, _ => .ok ()

/-- `rename`, which follows no link at the end of either path. -/
def rename (src dst : String) (t : Tree) : Except String Unit × Tree :=
  if !endsInName src || !endsInName dst then (.error invalidArgument, t)
  else match locate t.node t.cwd src, locate t.node t.cwd dst with
    | .error e, _ => (.error e, t)
    | _, .error e => (.error e, t)
    | .ok a, .ok b =>
      match t.node a with
      | none => (.error Disk.noSuchFile, t)
      | some e =>
        -- Two names of one file stay as they are.
        if a = b ∨ e.isFile ∧ t.node b = some e then (.ok (), t)
        else match t.mayReplace a b e with
          | .error e => (.error e, t)
          | .ok () => (.ok (), t.move a b)

/-- The inode of the file that a path leads to. -/
def inodeAt (path : String) (t : Tree) : Except String Nat :=
  match resolve t.node t.cwd path with
  | .error e => .error e
  | .ok q =>
    match t.node q with
    | some (.file i) => .ok i
    | some _ => .error Disk.isADirectory
    | none => .error Disk.noSuchFile

/-- A file where the path leads, a new one if there is none. With `truncate` it is empty. -/
def ensure (path : String) (truncate : Bool) (t : Tree) : Except String Nat × Tree :=
  match resolve t.node t.cwd path with
  | .error e => (.error e, t)
  | .ok q =>
    match t.node q with
    | some (.file i) =>
      if truncate then (.ok i, { t with store := t.store.setContent i [], made := q :: t.made })
      else (.ok i, t)
    | some _ => (.error Disk.isADirectory, t)
    | none =>
      let i := t.store.nextInode
      (.ok i, { t.put q (.file i) with
        store := { t.store.setContent i [] with nextInode := i + 1 } })

/-- Open what `ensure` or `inodeAt` found. -/
def openInode (writable : Bool) : Except String Nat × Tree → Except String Nat × Tree
  | (.error e, t) => (.error e, t)
  | (.ok i, t) =>
    (.ok (t.store.newHandle i writable).1, { t with store := (t.store.newHandle i writable).2 })

/-- A call on an open file. -/
def onStore {α : Type} (call : Disk Empty → Except String α × Disk Empty) (t : Tree) :
    Except String α × Tree :=
  ((call t.store).1, { t with store := (call t.store).2 })

def fileSystem : FileSystem Tree Nat where
  symlinkMetadata path t := match locate t.node t.cwd path with
    | .error e => if e = Disk.noSuchFile then .notFound else .failed e
    | .ok q => match t.node q with
        | none => .notFound
        | some (.link _) => .found true
        | some _ => .found false
  metadata path t := match resolve t.node t.cwd path with
    | .error e => .error e
    | .ok q => match t.node q with
        | some (.file i) => .ok (t.store.metadataOf i)
        | some _ => .ok ⟨0, false, .ok 0⟩
        | none => .error Disk.noSuchFile
  readToString path t := match t.inodeAt path with
    | .error e => .error e
    | .ok i => match String.fromUTF8? ⟨(t.store.contents i).toArray⟩ with
        | some text => .ok text
        | none => .error "stream did not contain valid UTF-8"
  createParents path t := makeDirs (origin path t.cwd) [] (parentNames (pathNames path)) t
  removeFile := removeFile
  rename := rename
  setFileMtime path sec t := match t.inodeAt path with
    | .error e => (.error e, t)
    | .ok i => (.ok (), { t with
        store := { t.store with mtimes := Function.update t.store.mtimes i (sec * 1000000000) } })
  writeFile path text t := match t.ensure path true with
    | (.error e, t) => (.error e, t)
    | (.ok i, t) => (.ok (), { t with store := t.store.setContent i text.toUTF8.toList })
  create path t := openInode true (t.ensure path true)
  openRead path t := openInode false (t.inodeAt path, t)
  openWrite path t := openInode true (t.ensure path false)
  seek f pos := onStore fun d => (.ok (), d.seek f pos)
  syncAll _ t := (.ok (), t)
  writeAll f bs := onStore (Disk.writeAll f bs)
  read f n := onStore (Disk.read f n)
  fileMetadata f t := .ok (t.store.metadataOf (t.store.handles f).inode)

/-! ## What a call changes -/

section Changes

variable {t t' t'' : Tree} {base q x src dst : Place} {e : Entry}

theorem lookup_filter (q x : Place) (es : List (Place × Entry)) :
    (es.filter fun y => !q.isPrefixOf y.1).lookup x = if q <+: x then none else es.lookup x := by
  induction es with
  | nil => simp
  | cons y es ih =>
    obtain ⟨k, e⟩ := y
    by_cases hk : q <+: k
    · have hpre : q.isPrefixOf k = true := List.isPrefixOf_iff_prefix.mpr hk
      rw [List.filter_cons_of_neg (by simp [hpre]), ih]
      split_ifs with hx
      · rfl
      · have hne : (x == k) = false := beq_false_of_ne fun heq => hx (heq ▸ hk)
        rw [List.lookup_cons, hne]
    · have hpre : q.isPrefixOf k = false := by
        rw [Bool.eq_false_iff, ne_eq, List.isPrefixOf_iff_prefix]
        exact hk
      rw [List.filter_cons_of_pos (by simp [hpre]), List.lookup_cons, List.lookup_cons, ih]
      cases hx : x == k with
      | true =>
        rw [beq_iff_eq] at hx
        subst hx
        simp [hk]
      | false => rfl

theorem node_put (hq : q ≠ []) (e : Entry) (t : Tree) (x : Place) :
    (t.put q e).node x = if x = q then some e else if q <+: x then none else t.node x := by
  unfold node put
  by_cases hx : x = []
  · subst hx
    simp [Ne.symm hq, List.prefix_nil, hq]
  · rw [if_neg hx, if_neg hx, List.lookup_cons, lookup_filter]
    by_cases hxq : x = q
    · simp [hxq]
    · rw [beq_false_of_ne hxq, if_neg hxq]

theorem node_erase (hq : q ≠ []) (t : Tree) (x : Place) :
    (t.erase q).node x = if q <+: x then none else t.node x := by
  unfold node erase
  by_cases hx : x = []
  · subst hx
    simp [List.prefix_nil, hq]
  · rw [if_neg hx, if_neg hx, lookup_filter]

theorem lookup_map_move (src dst : Place) (hsrc : ¬ src <+: x) (hdst : ¬ dst <+: x)
    (es : List (Place × Entry)) :
    (es.map fun y => if src.isPrefixOf y.1 then (dst ++ y.1.drop src.length, y.2) else y).lookup x =
      es.lookup x := by
  induction es with
  | nil => rfl
  | cons y es ih =>
    obtain ⟨k, e⟩ := y
    rw [List.map_cons, List.lookup_cons]
    by_cases hk : src <+: k
    · have hpre : src.isPrefixOf k = true := List.isPrefixOf_iff_prefix.mpr hk
      have hne : (x == dst ++ k.drop src.length) = false :=
        beq_false_of_ne fun heq => hdst (heq ▸ List.prefix_append _ _)
      have hne' : (x == k) = false := beq_false_of_ne fun heq => hsrc (heq ▸ hk)
      simp only [hpre, if_true, List.lookup_cons, hne, hne', ih]
    · have hpre : src.isPrefixOf k = false := by
        rw [Bool.eq_false_iff, ne_eq, List.isPrefixOf_iff_prefix]
        exact hk
      simp only [hpre, Bool.false_eq_true, if_false, List.lookup_cons, ih]

theorem node_move (hsrc : ¬ src <+: x) (hdst : ¬ dst <+: x) (t : Tree) :
    (t.move src dst).node x = t.node x := by
  unfold node move erase
  by_cases hx : x = []
  · rw [if_pos hx, if_pos hx]
  · rw [if_neg hx, if_neg hx, lookup_map_move src dst hsrc hdst, lookup_filter, if_neg hdst]

/-- All that changed is inside the directory, and so is all that was made. -/
structure Confined (base : Place) (t t' : Tree) : Prop where
  node : ∀ q, ¬ Below base q → t'.node q = t.node q
  cwd : t'.cwd = t.cwd
  made : ∀ q ∈ t'.made, q ∈ t.made ∨ Below base q

namespace Confined

theorem refl (base : Place) (t : Tree) : Confined base t t :=
  ⟨fun _ _ => rfl, rfl, fun _ hq => .inl hq⟩

theorem trans (h1 : Confined base t t') (h2 : Confined base t' t'') : Confined base t t'' where
  node q hq := (h2.node q hq).trans (h1.node q hq)
  cwd := h2.cwd.trans h1.cwd
  made q hq := (h2.made q hq).elim (h1.made q) .inr

/-- Contents and open files do not count. -/
theorem of_store (hc : Confined base t t') (store : Disk Empty) :
    Confined base t { t' with store := store } :=
  ⟨hc.node, hc.cwd, hc.made⟩

theorem leads {p : String} (hc : Confined base t t') (hl : Leads base p t.node t.cwd) :
    Leads base p t'.node t'.cwd := by
  have hhide : hide base t'.node = hide base t.node := by
    funext q
    unfold hide
    split_ifs with hq
    · rfl
    · exact hc.node q hq
  refine ⟨?_, (hc.node base (not_below_self base)).trans hl.dir⟩
  rw [hhide, hc.cwd]
  exact hl.path

end Confined

theorem put_confined (hq : Below base q) (e : Entry) (t : Tree) :
    Confined base t (t.put q e) where
  node x hx := by
    have hne : x ≠ q := fun heq => hx (heq ▸ hq)
    rw [node_put hq.ne_nil, if_neg hne, if_neg fun hpre => hx (hq.of_prefix hpre)]
  cwd := rfl
  made x hx := by
    rcases List.mem_cons.mp hx with rfl | hmem
    · exact .inr hq
    · exact .inl hmem

theorem erase_confined (hq : Below base q) (t : Tree) : Confined base t (t.erase q) where
  node x hx := by
    rw [node_erase hq.ne_nil, if_neg fun hpre => hx (hq.of_prefix hpre)]
  cwd := rfl
  made x hx := .inl hx

theorem move_confined (hsrc : Below base src) (hdst : Below base dst) (t : Tree) :
    Confined base t (t.move src dst) where
  node x hx := node_move (fun hpre => hx (hsrc.of_prefix hpre))
    (fun hpre => hx (hdst.of_prefix hpre)) t
  cwd := rfl
  made x hx := by
    rcases List.mem_cons.mp hx with rfl | hmem
    · exact .inr hdst
    · exact .inl hmem

theorem removeFile_cases (path : String) (t : Tree) :
    (∃ e, t.removeFile path = (.error e, t)) ∨
      ∃ q, locate t.node t.cwd path = .ok q ∧ t.removeFile path = (.ok (), t.erase q) := by
  unfold removeFile
  cases hl : locate t.node t.cwd path with
  | error e => exact .inl ⟨e, rfl⟩
  | ok q =>
    dsimp only
    split
    · exact .inl ⟨_, rfl⟩
    · exact .inl ⟨_, rfl⟩
    · exact .inr ⟨q, rfl, rfl⟩

theorem removeFile_confined {path : String}
    (hloc : ∀ q, locate t.node t.cwd path = .ok q → Below base q) :
    Confined base t (t.removeFile path).2 := by
  rcases removeFile_cases path t with ⟨e, heq⟩ | ⟨q, hq, heq⟩
  · rw [heq]
    exact .refl base t
  · rw [heq]
    exact erase_confined (hloc q hq) t

theorem rename_confined {a b : String}
    (ha : endsInName a → ∀ q, locate t.node t.cwd a = .ok q → Below base q)
    (hb : endsInName b → ∀ q, locate t.node t.cwd b = .ok q → Below base q) :
    Confined base t (t.rename a b).2 := by
  unfold rename
  split_ifs with hends
  · exact .refl base t
  simp only [Bool.or_eq_true, Bool.not_eq_true', not_or, Bool.not_eq_false] at hends
  split
  · exact .refl base t
  · exact .refl base t
  · rename_i qa qb hqa hqb
    split
    · exact .refl base t
    · split_ifs
      · exact .refl base t
      · split
        · exact .refl base t
        · exact move_confined (ha hends.1 qa hqa) (hb hends.2 qb hqb) t

/-- Opening a file for writing makes or cuts off what the path leads to. -/
theorem ensure_confined {path : String} (truncate : Bool)
    (hres : ∀ q, resolve t.node t.cwd path = .ok q → t.node q ≠ some .dir → Below base q) :
    Confined base t (t.ensure path truncate).2 := by
  unfold ensure
  cases hr : resolve t.node t.cwd path with
  | error e => exact .refl base t
  | ok q =>
    dsimp only
    split
    · rename_i i hi
      have hq := hres q hr (by simp [hi])
      split_ifs
      · refine ⟨fun _ _ => rfl, rfl, fun x hx => ?_⟩
        rcases List.mem_cons.mp hx with rfl | hmem
        · exact .inr hq
        · exact .inl hmem
      · exact .refl base t
    · exact .refl base t
    · rename_i hnone
      exact (put_confined (hres q hr (by simp [hnone])) _ t).of_store _

/-- The names change only if the file is new. -/
theorem ensure_cases (path : String) (truncate : Bool) (t : Tree) :
    (t.ensure path truncate).2.cwd = t.cwd ∧ ((t.ensure path truncate).2.node = t.node ∨
      ∃ q i, resolve t.node t.cwd path = .ok q ∧ t.node q = none ∧
        (t.ensure path truncate).2.node = (t.put q (.file i)).node) := by
  unfold ensure
  cases hr : resolve t.node t.cwd path with
  | error e => exact ⟨rfl, .inl rfl⟩
  | ok q =>
    dsimp only
    split
    · split_ifs <;> exact ⟨rfl, .inl rfl⟩
    · exact ⟨rfl, .inl rfl⟩
    · rename_i hnone
      exact ⟨rfl, .inr ⟨q, _, rfl, hnone, rfl⟩⟩

theorem openInode_node (writable : Bool) (r : Except String Nat × Tree) :
    (openInode writable r).2.node = r.2.node ∧ (openInode writable r).2.cwd = r.2.cwd := by
  obtain ⟨res, t'⟩ := r
  cases res <;> exact ⟨rfl, rfl⟩

theorem openInode_confined {writable : Bool} {r : Except String Nat × Tree}
    (hr : Confined base t r.2) : Confined base t (openInode writable r).2 := by
  obtain ⟨res, t'⟩ := r
  cases res with
  | error e => exact hr
  | ok i => exact hr.of_store _

end Changes

section Ways

variable {t t' : Tree} {base q here : Place} {e : Entry} {p : String} {segs : List String}

theorem put_clear (hq : q ≠ []) (he : ∀ target, e ≠ .link target) (hdots : ".." ∉ segs)
    (hc : Clear t.node here segs) : Clear (t.put q e).node here segs := by
  refine hc.of_agree (d := q) ?_ ?_ hdots
  · intro x hx
    have hne : x ≠ q := fun heq => hx (heq ▸ List.prefix_refl _)
    rw [node_put hq, if_neg hne, if_neg hx]
  · intro x target hx
    rw [node_put hq, if_pos hx]
    split_ifs
    · exact fun heq => he target (Option.some.inj heq)
    · simp

theorem erase_replaced (hq : q ≠ []) (t : Tree) : Replaced q t.node (t.erase q).node where
  away x hx := by rw [node_erase hq, if_neg hx]
  within x hx := .inl (by rw [node_erase hq, if_pos hx])

theorem put_replaced (hq : q ≠ []) (i : Nat) (t : Tree) :
    Replaced q t.node (t.put q (.file i)).node where
  away x hx := by
    have hne : x ≠ q := fun heq => hx (heq ▸ List.prefix_refl _)
    rw [node_put hq, if_neg hne, if_neg hx]
  within x hx := by
    rw [node_put hq, if_pos hx]
    split_ifs
    · exact .inr ⟨i, rfl⟩
    · exact .inl rfl

/-- What `create_dir_all` does on the way down from a directory: a directory that is new has no
    link below it. -/
structure MadeDirs (base : Place) (segs : List String) (t t' : Tree) : Prop where
  confined : Confined base t t'
  clear : Clear t'.node base segs
  fresh : t' = t ∨ ∃ c, c <+: segs ∧
    ∀ x target, base ++ c.filter (· ≠ ".") <+: x → t'.node x ≠ some (.link target)

theorem makeDirs_spec (hdots : ".." ∉ segs) :
    ∀ {rest done : List String} {t : Tree}, done ++ rest <+: pathNames p ++ segs →
      Leads base p t.node t.cwd → Clear t.node base segs →
        MadeDirs base segs t (makeDirs (origin p t.cwd) done rest t).2
  | [], done, t, _, _, hc => ⟨.refl base t, hc, .inl rfl⟩
  | s :: rest, done, t, hpre, hl, hc => by
      have hsame : MadeDirs base segs t t := ⟨.refl base t, hc, .inl rfl⟩
      have hpre' : (done ++ [s]) ++ rest <+: pathNames p ++ segs := by
        rwa [List.append_assoc, List.singleton_append]
      have hlong : done ++ [s] <+: pathNames p ++ segs := (List.prefix_append _ _).trans hpre'
      unfold makeDirs
      cases hf : follow t.node maxLinks (origin p t.cwd) (done ++ [s]) with
      | error err => exact hsame
      | ok q =>
        dsimp only
        cases hn : t.node q with
        | some e =>
          cases e with
          | dir => exact makeDirs_spec hdots hpre' hl hc
          | file i => exact hsame
          | link target => exact hsame
        | none =>
          cases hf' : follow t.node maxLinks (origin p t.cwd) done with
          | error err => exact hsame
          | ok dir =>
            dsimp only
            split_ifs with hq
            swap
            · exact hsame
            -- What is missing is not on the way to the directory itself.
            obtain ⟨c, rfl⟩ : pathNames p <+: done := by
              rcases List.prefix_or_prefix_of_prefix hlong (List.prefix_append _ segs) with
                hshort | hp
              · have hdir := hl.node_before (by simp) hshort hf
                exact absurd (hn.symm.trans hdir) (by simp)
              · rcases List.prefix_concat_iff.mp hp with heq | hp
                · have hdir := hl.node_before (by simp) (heq ▸ List.prefix_refl _) hf
                  exact absurd (hn.symm.trans hdir) (by simp)
                · exact hp
            rw [List.append_assoc] at hlong
            have hcs : c ++ [s] <+: segs := (List.prefix_append_right_inj _).mp hlong
            have hclear : Clear t.node base (c ++ [s]) := by
              obtain ⟨tl, rfl⟩ := hcs
              exact hc.of_append
            have hdotsc : ".." ∉ c ++ [s] := fun hmem => hdots (hcs.subset hmem)
            obtain ⟨m, hm⟩ := hl.follow
            rw [List.append_assoc, hm] at hf
            rw [hm] at hf'
            have hplace := descend_down hdotsc (hclear.reached hf)
            have hdir := descend_down (fun hmem => hdotsc (List.mem_append_left _ hmem))
              (hclear.of_append.reached hf')
            have hbelow : Below base q := by
              rw [← hq, hdir, List.append_assoc]
              exact below_append (by simp)
            have hnew := put_confined hbelow .dir t
            have hrec : MadeDirs base segs (t.put q .dir)
                (makeDirs (origin p t.cwd) _ rest (t.put q .dir)).2 :=
              makeDirs_spec hdots hpre' (hnew.leads hl)
                (put_clear hbelow.ne_nil (by simp) hdots hc)
            refine ⟨hnew.trans hrec.confined, hrec.clear, .inr ?_⟩
            rcases hrec.fresh with heq | hfresh
            swap
            · exact hfresh
            refine ⟨c ++ [s], hcs, fun x target hx => ?_⟩
            rw [← hplace] at hx
            rw [heq, node_put hbelow.ne_nil, if_pos hx]
            split_ifs <;> simp

/-- A link is at the path, and a file opened there is one outside of the directory. -/
def LeadsOut (base : Place) (path : String) (t : Tree) : Prop :=
  (∃ q target, locate t.node t.cwd path = .ok q ∧ t.node q = some (.link target)) ∧
    ∃ q, resolve t.node t.cwd path = .ok q ∧ t.node q ≠ some .dir ∧ ¬ Below base q

end Ways

end Tree

end LuodaRemote.Lib
