/-
  Paths of a POSIX system and how they are walked in a tree of directories with symbolic
  links.

  A place is where something really is: the names from the root down. A path is a text, which
  is walked name by name; a link on the way is replaced by its text. `descend` walks up to the
  first link and `follow` goes on from there, through forty links at most. A tree is here a
  function from places to what is there.
-/
import Mathlib.Data.List.TakeWhile
import LuodaRemote.Lib.Disk
import LuodaRemote.Lib.Text

namespace LuodaRemote.Lib

/-- Where something is: the names from the root down. -/
abbrev Place := List String

inductive Entry where
  | file (inode : Nat)
  | dir
  | link (target : String)
  deriving DecidableEq

def Entry.isFile : Entry → Bool
  | .file _ => true
  | _ => false

/-- The place is inside the directory and is not the directory itself. -/
def Below (base q : Place) : Prop := base <+: q ∧ base ≠ q

instance (base q : Place) : Decidable (Below base q) := inferInstanceAs (Decidable (_ ∧ _))

/-! ## Following a path -/

/-- The names of a path. -/
def pathNames (path : String) : List String :=
  ((path.toList.splitOnP (· == '/')).filter fun s => !s.isEmpty).map String.ofList

def endsInSlash (path : String) : Bool := path.toList.getLast? == some '/'

/-- Where a path starts that is used in a directory. -/
def origin (path : String) (here : Place) : Place :=
  if path.toList.head? == some '/' then [] else here

/-- Where a walk ends before it follows a link. -/
inductive Stop where
  | reached (q : Place)
  | link (here : Place) (target : String) (rest : List String)
  | failed (err : String)
  deriving DecidableEq

/-- What one name of a path does to a walk. -/
inductive Look where
  /-- The walk goes on in a directory. -/
  | into (q : Place)
  | through (target : String)
  /-- The walk can end here but not go on. -/
  | last (q : Place) (err : String)
  | failed (err : String)
  deriving DecidableEq

def notADirectory : String := "Not a directory"

def lookDir (nodes : Place → Option Entry) (q : Place) : Look :=
  if nodes q = some .dir then .into q else .failed Disk.noSuchFile

def look (nodes : Place → Option Entry) (here : Place) (s : String) : Look :=
  if s = "." then lookDir nodes here
  else if s = ".." then lookDir nodes here.dropLast
  else match nodes (here ++ [s]) with
    | some .dir => .into (here ++ [s])
    | some (.link target) => .through target
    | some (.file _) => .last (here ++ [s]) notADirectory
    | none => .last (here ++ [s]) Disk.noSuchFile

/-- Walk from a directory up to the first link. The last name may be missing. -/
def descend (nodes : Place → Option Entry) (here : Place) : List String → Stop
  | [] => .reached here
  | s :: rest =>
    match look nodes here s with
    | .into q => descend nodes q rest
    | .through target => .link here target rest
    | .last q err => if rest = [] then .reached q else .failed err
    | .failed err => .failed err

/-- The names that a link puts in the place of its own; a slash at the end asks for a
    directory. -/
def linkNames (target : String) : List String :=
  if endsInSlash target ∨ pathNames target = [] then pathNames target ++ ["."]
  else pathNames target

/-- Walk from a directory, through so many links at most. -/
def follow (nodes : Place → Option Entry) (links : Nat) (here : Place) (segs : List String) :
    Except String Place :=
  match descend nodes here segs with
  | .reached q => .ok q
  | .failed e => .error e
  | .link dir target rest =>
    match links with
    | 0 => .error "Too many levels of symbolic links"
    | links + 1 => follow nodes links (origin target dir) (linkNames target ++ rest)

def maxLinks : Nat := 40

/-- Where a path leads when every link is followed. -/
def resolve (nodes : Place → Option Entry) (cwd : Place) (path : String) : Except String Place :=
  if path = "" then .error Disk.noSuchFile
  else match follow nodes maxLinks (origin path cwd) (pathNames path) with
    | .error e => .error e
    | .ok q => if endsInSlash path ∧ nodes q ≠ some .dir then .error notADirectory else .ok q

/-- The path ends in a name of its own. -/
def endsInName (path : String) : Bool :=
  !endsInSlash path && !(pathNames path).getLast?.any fun s => s == "." || s == ".."

/-- The place of what a path names; a link at its end is not followed. -/
def locate (nodes : Place → Option Entry) (cwd : Place) (path : String) : Except String Place :=
  match (pathNames path).getLast? with
  | none => resolve nodes cwd path
  | some last =>
    if endsInName path then
      match follow nodes maxLinks (origin path cwd) (pathNames path).dropLast with
      | .error e => .error e
      | .ok dir =>
        match nodes dir with
        | some .dir => .ok (dir ++ [last])
        | none => .error Disk.noSuchFile
        | some _ => .error notADirectory
    else resolve nodes cwd path

/-! ## How walks compose -/

section Walks

variable {nodes : Place → Option Entry} {here q dir : Place} {s target : String} {err : String}
  {xs ys rest : List String}

theorem look_into (hl : look nodes here s = .into q) : nodes q = some .dir := by
  unfold look lookDir at hl
  split_ifs at hl with h1 h2 h3 h4
  · cases hl
    exact h2
  · cases hl
    exact h4
  · split at hl <;> cases hl
    assumption

theorem look_last (hl : look nodes here s = .last q err) :
    s ≠ "." ∧ s ≠ ".." ∧ q = here ++ [s] ∧ (nodes q = none ∨ ∃ i, nodes q = some (.file i)) := by
  unfold look lookDir at hl
  split_ifs at hl with h1 h2 h3 h4
  split at hl <;> cases hl
  · rename_i i hi
    exact ⟨h1, h3, rfl, .inr ⟨i, hi⟩⟩
  · exact ⟨h1, h3, rfl, .inl (by assumption)⟩

theorem descend_cons (nodes : Place → Option Entry) (here : Place) (s : String)
    (rest : List String) :
    descend nodes here (s :: rest) = match look nodes here s with
      | .into q => descend nodes q rest
      | .through target => .link here target rest
      | .last q err => if rest = [] then .reached q else .failed err
      | .failed err => .failed err := rfl

theorem descend_append_reached (hq : nodes q = some .dir) (ys : List String) :
    ∀ {xs : List String} {here : Place}, descend nodes here xs = .reached q →
      descend nodes here (xs ++ ys) = descend nodes q ys
  | [], here, hd => by
      cases hd
      rfl
  | s :: xs, here, hd => by
      rw [descend_cons] at hd
      rw [List.cons_append, descend_cons]
      cases hl : look nodes here s with
      | into q' =>
        rw [hl] at hd
        exact descend_append_reached hq ys hd
      | last q' err =>
        simp only [hl] at hd
        split_ifs at hd
        cases hd
        obtain ⟨-, -, -, hnone | ⟨i, hi⟩⟩ := look_last hl
        · exact absurd (hnone.symm.trans hq) (by simp)
        · exact absurd (hi.symm.trans hq) (by simp)
      | through target => simp [hl] at hd
      | failed err => simp [hl] at hd

theorem descend_append_link (ys : List String) :
    ∀ {xs : List String} {here : Place}, descend nodes here xs = .link dir target rest →
      descend nodes here (xs ++ ys) = .link dir target (rest ++ ys)
  | [], here, hd => by cases hd
  | s :: xs, here, hd => by
      rw [descend_cons] at hd
      rw [List.cons_append, descend_cons]
      cases hl : look nodes here s with
      | into q' =>
        rw [hl] at hd
        exact descend_append_link ys hd
      | through target' =>
        rw [hl] at hd
        cases hd
        rfl
      | last q' err =>
        simp only [hl] at hd
        split_ifs at hd
      | failed err => simp [hl] at hd

/-- A walk that goes on after some names has come to a directory by then, or to a link. -/
theorem descend_prefix (nodes : Place → Option Entry) (hys : ys ≠ []) :
    ∀ {xs : List String} (here : Place), xs ≠ [] →
      (∃ q, descend nodes here xs = .reached q ∧ nodes q = some .dir) ∨
        (∃ dir target rest, descend nodes here xs = .link dir target rest) ∨
        ∃ err, descend nodes here (xs ++ ys) = .failed err
  | [], here, hxs => absurd rfl hxs
  | s :: xs, here, _ => by
      rw [List.cons_append, descend_cons, descend_cons]
      cases hl : look nodes here s with
      | into q' =>
        by_cases hxs : xs = []
        · subst hxs
          exact .inl ⟨q', rfl, look_into hl⟩
        · exact descend_prefix nodes hys q' hxs
      | through target => exact .inr (.inl ⟨here, target, xs, rfl⟩)
      | last q' err => exact .inr (.inr ⟨err, by simp [hys]⟩)
      | failed err => exact .inr (.inr ⟨err, rfl⟩)

theorem follow_reached {n : Nat} (hd : descend nodes here xs = .reached q) :
    follow nodes n here xs = .ok q := by
  unfold follow
  rw [hd]

theorem follow_link {n : Nat} (hd : descend nodes here xs = .link dir target rest) :
    follow nodes (n + 1) here xs =
      follow nodes n (origin target dir) (linkNames target ++ rest) := by
  rw [follow, hd]

/-- Induction over the links that are followed on the way to a place. -/
theorem follow_induction {motive : Nat → Place → List String → Prop}
    (reached : ∀ {n : Nat} {here : Place} {segs : List String},
      descend nodes here segs = .reached q → motive n here segs)
    (link : ∀ {n : Nat} {here : Place} {segs : List String} {dir : Place} {target : String}
      {rest : List String}, descend nodes here segs = .link dir target rest →
        motive n (origin target dir) (linkNames target ++ rest) → motive (n + 1) here segs) :
    ∀ {n : Nat} {here : Place} {segs : List String},
      follow nodes n here segs = .ok q → motive n here segs := by
  intro n
  induction n with
  | zero =>
    intro here segs hf
    cases hd : descend nodes here segs with
    | reached q' =>
      rw [follow_reached hd] at hf
      cases hf
      exact reached hd
    | link dir target rest => simp [follow, hd] at hf
    | failed err => simp [follow, hd] at hf
  | succ n ih =>
    intro here segs hf
    cases hd : descend nodes here segs with
    | reached q' =>
      rw [follow_reached hd] at hf
      cases hf
      exact reached hd
    | link dir target rest =>
      rw [follow_link hd] at hf
      exact link hd (ih hf)
    | failed err => simp [follow, hd] at hf

/-- A walk to a directory can be taken up there, with the links that are left. -/
theorem follow_append_le (hq : nodes q = some .dir) {n : Nat}
    (hf : follow nodes n here xs = .ok q) :
    ∃ m ≤ n, ∀ ys, follow nodes n here (xs ++ ys) = follow nodes m q ys := by
  refine follow_induction (motive := fun n here xs =>
    ∃ m ≤ n, ∀ ys, follow nodes n here (xs ++ ys) = follow nodes m q ys) ?_ ?_ hf
  · intro n here segs hd
    refine ⟨n, Nat.le_refl n, fun ys => ?_⟩
    unfold follow
    rw [descend_append_reached hq ys hd]
  · rintro n here segs dir target rest hd ⟨m, hle, hm⟩
    refine ⟨m, hle.trans (Nat.le_succ n), fun ys => ?_⟩
    rw [follow_link (descend_append_link ys hd), ← hm ys, List.append_assoc]

/-- A walk to a directory can be taken up there. -/
theorem follow_append (hq : nodes q = some .dir) {n : Nat} (hf : follow nodes n here xs = .ok q) :
    ∃ m, ∀ ys, follow nodes n here (xs ++ ys) = follow nodes m q ys := by
  obtain ⟨m, -, hm⟩ := follow_append_le hq hf
  exact ⟨m, hm⟩

theorem linkNames_ne_nil (target : String) : linkNames target ≠ [] := by
  unfold linkNames
  split_ifs with h
  · simp
  · exact fun hnil => h (.inr hnil)

/-- What is walked through on the way to somewhere is a directory. -/
theorem follow_prefix (hys : ys ≠ []) {n : Nat} (hxs : xs ≠ [])
    (hf : follow nodes n here (xs ++ ys) = .ok q) :
    ∃ q', follow nodes n here xs = .ok q' ∧ nodes q' = some .dir := by
  refine follow_induction (motive := fun n here segs => ∀ xs, xs ≠ [] → segs = xs ++ ys →
    ∃ q', follow nodes n here xs = .ok q' ∧ nodes q' = some .dir) ?_ ?_ hf xs hxs rfl
  · rintro n here _ hd xs hxs rfl
    rcases descend_prefix nodes hys here hxs with
      ⟨q', hd', hq'⟩ | ⟨dir, target, rest, hd'⟩ | ⟨err, hd'⟩
    · exact ⟨q', follow_reached hd', hq'⟩
    · exact absurd ((descend_append_link ys hd').symm.trans hd) (by simp)
    · exact absurd (hd'.symm.trans hd) (by simp)
  · rintro n here _ dir target rest hd ih xs hxs rfl
    rcases descend_prefix nodes hys here hxs with
      ⟨q', hd', hq'⟩ | ⟨dir', target', rest', hd'⟩ | ⟨err, hd'⟩
    · exact ⟨q', follow_reached hd', hq'⟩
    · cases (descend_append_link ys hd').symm.trans hd
      obtain ⟨q', hf', hq'⟩ := ih (linkNames target ++ rest') (by simp [linkNames_ne_nil])
        (List.append_assoc _ _ _).symm
      exact ⟨q', (follow_link hd').trans hf', hq'⟩
    · exact absurd (hd'.symm.trans hd) (by simp)

end Walks

/-! ## Walks in two trees -/

/-- The tree as it is without the content of a directory. -/
def hide (base : Place) (nodes : Place → Option Entry) (q : Place) : Option Entry :=
  if Below base q then none else nodes q

section TwoTrees

variable {nodes nodes' : Place → Option Entry} {base d here q : Place} {s : String}

theorem hide_of_not_below (hq : ¬ Below base q) : hide base nodes q = nodes q := if_neg hq

theorem hide_some {e : Entry} (hq : hide base nodes q = some e) : nodes q = some e := by
  unfold hide at hq
  split_ifs at hq
  exact hq

theorem lookDir_congr {q' : Place} (hq : nodes' q = some .dir → nodes q = some .dir)
    (hl : lookDir nodes' q = .into q') : lookDir nodes q = .into q' := by
  unfold lookDir at hl ⊢
  split_ifs at hl with hdir
  rw [if_pos (hq hdir), hl]

/-- What is seen without the hidden places is seen with them. -/
theorem look_hide {l : Look} (hl : look (hide base nodes) here s = l)
    (hok : ∀ err, l ≠ .failed err) (hout : ∀ q err, l = .last q err → ¬ Below base q) :
    look nodes here s = l := by
  subst hl
  unfold look at hok hout ⊢
  split_ifs with hdot hdots
  · rw [if_pos hdot] at hok
    cases hl : lookDir (hide base nodes) here with
    | into q => exact lookDir_congr hide_some hl
    | failed err => exact absurd hl (hok err)
    | through target => unfold lookDir at hl; split_ifs at hl
    | last q err => unfold lookDir at hl; split_ifs at hl
  · rw [if_neg hdot, if_pos hdots] at hok
    cases hl : lookDir (hide base nodes) here.dropLast with
    | into q => exact lookDir_congr hide_some hl
    | failed err => exact absurd hl (hok err)
    | through target => unfold lookDir at hl; split_ifs at hl
    | last q err => unfold lookDir at hl; split_ifs at hl
  · rw [if_neg hdot, if_neg hdots] at hout
    cases hn : hide base nodes (here ++ [s]) with
    | none =>
      rw [hn] at hout
      have hq : hide base nodes (here ++ [s]) = nodes (here ++ [s]) :=
        hide_of_not_below (hout _ _ rfl)
      rw [← hq, hn]
    | some e => rw [hide_some hn]

/-- A walk that does without what is hidden is the same with it. -/
theorem descend_hide :
    ∀ {segs : List String} {here : Place} {r : Stop},
      descend (hide base nodes) here segs = r → (∀ err, r ≠ .failed err) →
        (∀ q, r = .reached q → ¬ Below base q) → descend nodes here segs = r
  | [], _, _, hd, _, _ => hd
  | s :: rest, here, r, hd, hok, hout => by
      rw [descend_cons] at hd ⊢
      have hlook : look nodes here s = look (hide base nodes) here s := by
        refine look_hide rfl ?_ ?_
        · intro err hl
          rw [hl] at hd
          exact hok err hd.symm
        · intro q err hl
          simp only [hl] at hd
          split_ifs at hd
          · exact hout q hd.symm
          · exact absurd hd.symm (hok err)
      rw [hlook]
      cases hl : look (hide base nodes) here s with
      | into q =>
        rw [hl] at hd
        exact descend_hide hd hok hout
      | through target =>
        rw [hl] at hd
        exact hd
      | last q err =>
        rw [hl] at hd
        exact hd
      | failed err =>
        rw [hl] at hd
        exact hd

theorem follow_hide (hq : ¬ Below base q) {n : Nat} {segs : List String}
    (hf : follow (hide base nodes) n here segs = .ok q) : follow nodes n here segs = .ok q := by
  refine follow_induction (motive := fun n here segs => follow nodes n here segs = .ok q) ?_ ?_ hf
  · intro n here segs hd
    refine follow_reached (descend_hide hd (by simp) ?_)
    rintro _ ⟨⟩
    exact hq
  · intro n here segs dir target rest hd ih
    exact (follow_link (descend_hide hd (by simp) (by simp))).trans ih

/-- A place with all below it became a file or went away. -/
structure Replaced (d : Place) (nodes nodes' : Place → Option Entry) : Prop where
  away : ∀ q, ¬ d <+: q → nodes' q = nodes q
  within : ∀ q, d <+: q → nodes' q = none ∨ ∃ i, nodes' q = some (.file i)

theorem Replaced.dir (hr : Replaced d nodes nodes') (hq : nodes' q = some .dir) :
    nodes q = some .dir := by
  by_cases hd : d <+: q
  · rcases hr.within q hd with hnone | ⟨i, hi⟩
    · exact absurd (hnone.symm.trans hq) (by simp)
    · exact absurd (hi.symm.trans hq) (by simp)
  · rw [← hr.away q hd]
    exact hq

/-- What is seen now was seen before, or the walk ends in the place. -/
theorem Replaced.look (hr : Replaced d nodes nodes') (here : Place) (s : String) :
    (∃ err, look nodes' here s = .failed err) ∨
      (∃ q err, look nodes' here s = .last q err ∧ d <+: q) ∨
      look nodes here s = look nodes' here s := by
  unfold Lib.look
  split_ifs with hdot hdots
  · unfold lookDir
    by_cases hq : nodes' here = some .dir
    · exact .inr (.inr (by rw [if_pos hq, if_pos (hr.dir hq)]))
    · exact .inl ⟨_, if_neg hq⟩
  · unfold lookDir
    by_cases hq : nodes' here.dropLast = some .dir
    · exact .inr (.inr (by rw [if_pos hq, if_pos (hr.dir hq)]))
    · exact .inl ⟨_, if_neg hq⟩
  · by_cases hd : d <+: here ++ [s]
    · refine .inr (.inl ?_)
      rcases hr.within _ hd with hnone | ⟨i, hi⟩
      · exact ⟨_, _, by rw [hnone], hd⟩
      · exact ⟨_, _, by rw [hi], hd⟩
    · exact .inr (.inr (by rw [hr.away _ hd]))

theorem Replaced.descend (hr : Replaced d nodes nodes') :
    ∀ (segs : List String) (here : Place),
      (∃ err, descend nodes' here segs = .failed err) ∨
        (∃ q, descend nodes' here segs = .reached q ∧ d <+: q) ∨
        descend nodes here segs = descend nodes' here segs
  | [], here => .inr (.inr rfl)
  | s :: rest, here => by
      rw [descend_cons, descend_cons]
      rcases hr.look here s with ⟨err, hl⟩ | ⟨q, err, hl, hq⟩ | hl
      · exact .inl ⟨err, by rw [hl]⟩
      · rw [hl]
        by_cases hrest : rest = []
        · exact .inr (.inl ⟨q, if_pos hrest, hq⟩)
        · exact .inl ⟨err, if_neg hrest⟩
      · rw [hl]
        cases Lib.look nodes' here s with
        | into q => exact hr.descend rest q
        | through target => exact .inr (.inr rfl)
        | last q err => exact .inr (.inr rfl)
        | failed err => exact .inl ⟨err, rfl⟩

/-- Where a path leads now it led before, or it leads to the place. -/
theorem Replaced.follow (hr : Replaced d nodes nodes') {n : Nat} {segs : List String}
    (hf : follow nodes' n here segs = .ok q) : follow nodes n here segs = .ok q ∨ d <+: q := by
  refine follow_induction (motive := fun n here segs =>
    Lib.follow nodes n here segs = .ok q ∨ d <+: q) ?_ ?_ hf
  · intro n here segs hd
    rcases hr.descend segs here with ⟨err, hd'⟩ | ⟨q', hd', hq'⟩ | hd'
    · exact absurd (hd'.symm.trans hd) (by simp)
    · cases hd'.symm.trans hd
      exact .inr hq'
    · exact .inl (follow_reached (hd'.trans hd))
  · intro n here segs dir target rest hd ih
    rcases hr.descend segs here with ⟨err, hd'⟩ | ⟨q', hd', hq'⟩ | hd'
    · exact absurd (hd'.symm.trans hd) (by simp)
    · exact absurd (hd'.symm.trans hd) (by simp)
    · exact ih.imp_left (follow_link (hd'.trans hd)).trans

end TwoTrees

/-! ## Walks without links -/

/-- No link is met on the way. -/
def Clear (nodes : Place → Option Entry) (here : Place) (segs : List String) : Prop :=
  ∀ dir target rest, descend nodes here segs ≠ .link dir target rest

section Clear

variable {nodes nodes' : Place → Option Entry} {d here q : Place} {s : String}
  {xs ys segs : List String}

theorem Clear.of_append (hc : Clear nodes here (xs ++ ys)) : Clear nodes here xs :=
  fun _ _ _ hd => hc _ _ _ (descend_append_link ys hd)

theorem Clear.reached (hc : Clear nodes here segs) {n : Nat}
    (hf : follow nodes n here segs = .ok q) : descend nodes here segs = .reached q := by
  cases hd : descend nodes here segs with
  | reached q' =>
    rw [follow_reached hd] at hf
    cases hf
    rfl
  | link dir target rest => exact absurd hd (hc dir target rest)
  | failed err => simp [follow, hd] at hf

theorem clear_cons : Clear nodes here (s :: segs) ↔
    (∀ q, look nodes here s = .into q → Clear nodes q segs) ∧
      ∀ target, look nodes here s ≠ .through target := by
  unfold Clear
  rw [descend_cons]
  cases look nodes here s with
  | into q => simp
  | through target => simp
  | last q err =>
    simp only [reduceCtorEq, false_imp_iff, implies_true, ne_eq, not_false_eq_true, and_self,
      iff_true]
    intro dir target rest
    split_ifs <;> simp
  | failed err => simp

/-- Where a walk goes with a name that does not lead up. -/
theorem look_down (hs : s ≠ "..") (hl : look nodes here s = .into q) :
    q = here ++ [s].filter (· ≠ ".") := by
  unfold look lookDir at hl
  rw [if_neg hs] at hl
  by_cases hdot : s = "."
  · rw [if_pos hdot] at hl
    split_ifs at hl
    cases hl
    simp [hdot]
  · rw [if_neg hdot] at hl
    split at hl <;> cases hl
    simp [hdot]

/-- Where a walk ends that does not lead up. -/
theorem descend_down : ∀ {segs : List String} {here : Place}, ".." ∉ segs →
    descend nodes here segs = .reached q → q = here ++ segs.filter (· ≠ ".")
  | [], here, _, hd => by
      cases hd
      simp
  | s :: rest, here, hdots, hd => by
      rw [List.mem_cons, not_or] at hdots
      rw [descend_cons] at hd
      cases hl : look nodes here s with
      | into q' =>
        rw [hl] at hd
        rw [descend_down hdots.2 hd, look_down (Ne.symm hdots.1) hl, List.append_assoc,
          ← List.filter_append, List.singleton_append]
      | through target => simp [hl] at hd
      | last q' err =>
        obtain ⟨hdot, -, rfl, -⟩ := look_last hl
        simp only [hl] at hd
        split_ifs at hd with hrest
        cases hd
        simp [hrest, hdot]
      | failed err => simp [hl] at hd

theorem look_through {target : String} (hl : look nodes here s = .through target) :
    s ≠ "." ∧ nodes (here ++ [s]) = some (.link target) := by
  unfold look lookDir at hl
  split_ifs at hl with hdot
  split at hl <;> cases hl
  exact ⟨hdot, by assumption⟩

/-- Dots are in nobody's way. -/
theorem Clear.of_filter : ∀ {segs : List String} {here : Place},
    Clear nodes here (segs.filter (· ≠ ".")) → Clear nodes here segs
  | [], _, hc => hc
  | s :: segs, here, hc => by
      by_cases hdot : s = "."
      · rw [List.filter_cons, if_neg (by simp [hdot])] at hc
        refine clear_cons.mpr ⟨fun q hl => ?_, fun target hl => (look_through hl).1 hdot⟩
        rw [look_down (by simp [hdot]) hl, hdot]
        simpa using hc.of_filter
      · rw [List.filter_cons, if_pos (by simp [hdot]), clear_cons] at hc
        exact clear_cons.mpr ⟨fun q hl => (hc.1 q hl).of_filter, hc.2⟩

/-- No link is met below a place that has none. -/
theorem clear_within (hlinks : ∀ q target, d <+: q → nodes q ≠ some (.link target)) :
    ∀ {segs : List String} {here : Place}, d <+: here → ".." ∉ segs → Clear nodes here segs
  | [], _, _, _ => fun _ _ _ hd => by cases hd
  | s :: rest, here, hd, hdots => by
      rw [List.mem_cons, not_or] at hdots
      refine clear_cons.mpr ⟨fun q hl => ?_, fun target hl => ?_⟩
      · refine clear_within hlinks ?_ hdots.2
        rw [look_down (Ne.symm hdots.1) hl]
        exact hd.trans (List.prefix_append _ _)
      · exact hlinks _ target (hd.trans (List.prefix_append _ _)) (look_through hl).2

/-- A way stays clear if a place changes that has no link now. -/
theorem Clear.of_agree (haway : ∀ q, ¬ d <+: q → nodes' q = nodes q)
    (hlinks : ∀ q target, d <+: q → nodes' q ≠ some (.link target)) :
    ∀ {segs : List String} {here : Place}, ".." ∉ segs → Clear nodes here segs →
      Clear nodes' here segs
  | [], _, _, _ => fun _ _ _ hd => by cases hd
  | s :: rest, here, hdots, hc => by
      have hdots' := hdots
      rw [List.mem_cons, not_or] at hdots'
      have hname (hdot : s ≠ ".") : [s].filter (· ≠ ".") = [s] := by simp [hdot]
      by_cases hhere : d <+: here
      · exact clear_within hlinks hhere hdots
      by_cases hstep : d <+: here ++ [s].filter (· ≠ ".")
      · refine clear_cons.mpr ⟨fun q hl => ?_, fun target hl => ?_⟩
        · refine clear_within hlinks ?_ hdots'.2
          rwa [look_down (Ne.symm hdots'.1) hl]
        · obtain ⟨hdot, hlink⟩ := look_through hl
          rw [hname hdot] at hstep
          exact hlinks _ target hstep hlink
      · have hlook : look nodes' here s = look nodes here s := by
          unfold look lookDir
          rw [if_neg (Ne.symm hdots'.1), if_neg (Ne.symm hdots'.1)]
          by_cases hdot : s = "."
          · rw [if_pos hdot, if_pos hdot, haway here hhere]
          · rw [hname hdot] at hstep
            rw [if_neg hdot, if_neg hdot, haway _ hstep]
        rw [clear_cons, hlook] at *
        exact ⟨fun q hl => (hc.1 q hl).of_agree haway hlinks hdots'.2, hc.2⟩

theorem Replaced.clear (hr : Replaced d nodes nodes') (hdots : ".." ∉ segs)
    (hc : Clear nodes here segs) : Clear nodes' here segs := by
  refine hc.of_agree hr.away ?_ hdots
  intro x target hx
  rcases hr.within x hx with hnone | ⟨i, hi⟩
  · simp [hnone]
  · simp [hi]

end Clear

/-! ## Paths below a directory -/

/-- The path is another one with more names behind it. -/
structure Extends (p path : String) (segs : List String) : Prop where
  ne_empty : path ≠ ""
  origin : ∀ here, origin path here = origin p here
  names : pathNames path = pathNames p ++ segs

/-- The path leads to a directory and goes through nothing that is inside it. -/
structure Leads (base : Place) (p : String) (nodes : Place → Option Entry) (cwd : Place) :
    Prop where
  path : resolve (hide base nodes) cwd p = .ok base
  dir : nodes base = some .dir

section Leads

variable {nodes : Place → Option Entry} {base cwd q : Place} {p path s : String}
  {xs ys : List String}

theorem not_below_self (base : Place) : ¬ Below base base := fun hb => hb.2 rfl

theorem below_append (hys : ys ≠ []) : Below base (base ++ ys) :=
  ⟨List.prefix_append _ _, fun heq => hys (List.append_right_eq_self.mp heq.symm)⟩

theorem Below.of_prefix {d : Place} (hd : Below base d) (hq : d <+: q) : Below base q := by
  refine ⟨hd.1.trans hq, ?_⟩
  rintro rfl
  exact hd.2 (hd.1.eq_of_length_le hq.length_le)

theorem Below.ne_nil (hq : Below base q) : q ≠ [] := by
  rintro rfl
  exact hq.2 (List.prefix_nil.mp hq.1)

theorem follow_of_resolve (hr : resolve nodes cwd path = .ok q) :
    follow nodes maxLinks (origin path cwd) (pathNames path) = .ok q := by
  unfold resolve at hr
  split_ifs at hr
  split at hr
  · cases hr
  · split_ifs at hr
    cases hr
    assumption

theorem resolve_of_follow (hne : path ≠ "") (hname : endsInName path)
    (hf : follow nodes maxLinks (origin path cwd) (pathNames path) = .ok q) :
    resolve nodes cwd path = .ok q := by
  have hslash : endsInSlash path = false := by
    unfold endsInName at hname
    rw [Bool.and_eq_true, Bool.not_eq_true'] at hname
    exact hname.1
  unfold resolve
  rw [if_neg hne, hf, hslash]
  simp

theorem Leads.ne_empty (hl : Leads base p nodes cwd) : p ≠ "" := by
  intro hp
  have := hl.path
  rw [Lib.resolve, if_pos hp] at this
  cases this

theorem Leads.follow (hl : Leads base p nodes cwd) :
    ∃ m, ∀ segs, follow nodes maxLinks (origin p cwd) (pathNames p ++ segs) =
      follow nodes m base segs :=
  follow_append hl.dir (follow_hide (not_below_self base) (follow_of_resolve hl.path))

/-- A path to a directory goes through directories. -/
theorem Leads.node_before (hl : Leads base p nodes cwd) (hxs : xs ≠ [])
    (hpre : xs <+: pathNames p) (hf : Lib.follow nodes maxLinks (origin p cwd) xs = .ok q) :
    nodes q = some .dir := by
  obtain ⟨ys, hys⟩ := hpre
  have hbase := follow_hide (not_below_self base) (follow_of_resolve hl.path)
  rw [← hys] at hbase
  by_cases hnil : ys = []
  · rw [hnil, List.append_nil, hf] at hbase
    cases hbase
    exact hl.dir
  · obtain ⟨q', hf', hq'⟩ := follow_prefix hnil hxs hbase
    rw [hf] at hf'
    cases hf'
    exact hq'

/-- The directory of the last name, if the walk can go on after the names before. -/
theorem reached_dir (hbase : nodes base = some .dir) (hc : Clear nodes base xs) (hys : ys ≠ []) :
    (∃ q, descend nodes base xs = .reached q ∧ nodes q = some .dir) ∨
      ∃ err, descend nodes base (xs ++ ys) = .failed err := by
  by_cases hxs : xs = []
  · subst hxs
    exact .inl ⟨base, rfl, hbase⟩
  · rcases descend_prefix nodes hys base hxs with hdir | ⟨dir, target, rest, hd⟩ | hfail
    · exact .inl hdir
    · exact absurd hd (hc dir target rest)
    · exact .inr hfail

theorem locate_eq (he : Extends p path (xs ++ [s]))
    (hname : endsInName path) :
    locate nodes cwd path = match Lib.follow nodes maxLinks (origin p cwd) (pathNames p ++ xs) with
      | .error e => .error e
      | .ok dir =>
        match nodes dir with
        | some .dir => .ok (dir ++ [s])
        | none => .error Disk.noSuchFile
        | some _ => .error notADirectory := by
  unfold locate
  have hnames : pathNames path = (pathNames p ++ xs) ++ [s] := by
    rw [he.names, List.append_assoc]
  rw [hnames, List.getLast?_concat, List.dropLast_concat, he.origin]
  dsimp only
  rw [if_pos hname]

/-- The place of what a path names, with no link among the names before the last one. -/
theorem Leads.locate (hl : Leads base p nodes cwd) (he : Extends p path (xs ++ [s]))
    (hname : endsInName path) (hc : Clear nodes base xs) (hdots : ".." ∉ xs)
    (hloc : locate nodes cwd path = .ok q) : q = base ++ (xs.filter (· ≠ ".") ++ [s]) := by
  obtain ⟨m, hm⟩ := hl.follow
  rw [locate_eq he hname, hm] at hloc
  cases hf : Lib.follow nodes m base xs with
  | error e => simp [hf] at hloc
  | ok dir =>
    rw [hf] at hloc
    dsimp only at hloc
    have hdir := descend_down hdots (hc.reached hf)
    split at hloc <;> cases hloc
    rw [hdir, List.append_assoc]

/-- Where a path leads, with no link among the names before the last one. -/
theorem Leads.resolve (hl : Leads base p nodes cwd) (he : Extends p path (xs ++ [s]))
    (hname : endsInName path) (hs : s ≠ "." ∧ s ≠ "..") (hc : Clear nodes base xs)
    (hdots : ".." ∉ xs)
    (hres : resolve nodes cwd path = .ok q) :
    q = base ++ (xs.filter (· ≠ ".") ++ [s]) ∨
      ∃ q target, Lib.locate nodes cwd path = .ok q ∧
        q = base ++ (xs.filter (· ≠ ".") ++ [s]) ∧ nodes q = some (.link target) := by
  obtain ⟨m, hm⟩ := hl.follow
  have hf := follow_of_resolve hres
  rw [he.origin, he.names, hm] at hf
  rcases reached_dir hl.dir hc (List.cons_ne_nil s []) with ⟨dir, hd, hdir⟩ | ⟨err, hd⟩
  · have hdown := descend_down hdots hd
    rw [← List.append_assoc, ← hdown]
    have hlast := descend_append_reached hdir [s] hd
    rw [descend_cons] at hlast
    cases hlook : look nodes dir s with
    | into q' =>
      rw [hlook] at hlast
      rw [follow_reached hlast] at hf
      cases hf
      have := look_down hs.2 hlook
      exact .inl (by simpa [hs.1] using this)
    | through target =>
      refine .inr ⟨dir ++ [s], target, ?_, rfl, (look_through hlook).2⟩
      rw [locate_eq he hname, hm, follow_reached hd]
      dsimp only
      rw [hdir]
    | last q' err =>
      rw [hlook] at hlast
      rw [follow_reached (hlast.trans (if_pos rfl))] at hf
      cases hf
      exact .inl (look_last hlook).2.2.1
    | failed err =>
      rw [hlook] at hlast
      simp [Lib.follow, hlast] at hf
  · simp [Lib.follow, hd] at hf

end Leads

/-! ## The names of longer paths -/

section Names

variable {p q name suffix : String}

theorem pathNames_append_slash {path : String} {cs ds : List Char}
    (hpath : path.toList = cs ++ '/' :: ds) :
    pathNames path = pathNames (String.ofList cs) ++ pathNames (String.ofList ds) := by
  unfold pathNames
  rw [hpath, List.splitOnP_append_cons cs ds (by rfl), List.filter_append, List.map_append,
    String.toList_ofList, String.toList_ofList]

theorem endsInSlash_iff : endsInSlash p = true ↔ ∃ cs, p.toList = cs ++ ['/'] := by
  unfold endsInSlash
  rw [beq_iff_eq, List.getLast?_eq_some_iff]

theorem origin_append (hp : p ≠ "") (q : String) (here : Place) :
    origin (p ++ q) here = origin p here := by
  unfold origin
  cases hcs : p.toList with
  | nil => exact absurd (String.toList_eq_nil_iff.mp hcs) hp
  | cons c cs => simp [String.toList_append, hcs]

theorem extends_self (hp : p ≠ "") : Extends p p [] :=
  ⟨hp, fun _ => rfl, (List.append_nil _).symm⟩

theorem append_ne_empty (hp : p ≠ "") (q : String) : p ++ q ≠ "" := by
  intro heq
  have := congrArg String.toList heq
  rw [String.toList_append, String.toList_empty, List.append_eq_nil_iff] at this
  exact hp (String.toList_eq_nil_iff.mp this.1)

/-- A name behind a slash. -/
theorem extends_slash (hp : p ≠ "") (name : String) :
    Extends p (p ++ "/" ++ name) (pathNames name) where
  ne_empty := append_ne_empty (append_ne_empty hp _) _
  origin here := by rw [origin_append (append_ne_empty hp _), origin_append hp]
  names := by
    have hpath : (p ++ "/" ++ name).toList = p.toList ++ '/' :: name.toList := by
      simp [String.toList_append]
    rw [pathNames_append_slash hpath, String.ofList_toList, String.ofList_toList]

/-- A name right behind a path that ends in a slash. -/
theorem extends_append (hp : p ≠ "") (hslash : endsInSlash p = true) (name : String) :
    Extends p (p ++ name) (pathNames name) where
  ne_empty := append_ne_empty hp _
  origin here := origin_append hp _ here
  names := by
    obtain ⟨cs, hcs⟩ := endsInSlash_iff.mp hslash
    have hpath : (p ++ name).toList = cs ++ '/' :: name.toList := by
      rw [String.toList_append, hcs, List.append_assoc, List.singleton_append]
    have hp : pathNames p = pathNames (String.ofList cs) := by
      rw [pathNames_append_slash hcs]
      simp [pathNames]
    rw [pathNames_append_slash hpath, hp, String.ofList_toList]

theorem Extends.trans {path : String} {xs ys : List String} (h1 : Extends p q xs)
    (h2 : Extends q path ys) : Extends p path (xs ++ ys) :=
  ⟨h2.ne_empty, fun here => (h2.origin here).trans (h1.origin here), by
    rw [h2.names, h1.names, List.append_assoc]⟩

/-- The text has no separator in it. -/
def NoSlash (name : String) : Prop := ∀ c ∈ name.toList, (c == '/') = false

theorem NoSlash.of_subset {a b : String} (ha : NoSlash a) (hb : b.toList ⊆ a.toList) :
    NoSlash b := fun c hc => ha c (hb hc)

theorem NoSlash.append {a b : String} (ha : NoSlash a) (hb : NoSlash b) : NoSlash (a ++ b) := by
  intro c hc
  rw [String.toList_append, List.mem_append] at hc
  exact hc.elim (ha c) (hb c)

theorem noSlash_of_decide (hs : name.toList.all (fun c => !(c == '/')) = true) : NoSlash name := by
  intro c hc
  simpa using List.all_eq_true.mp hs c hc

theorem noSlash_toString (i : Nat) : NoSlash (toString i) := by
  intro c hc
  have hdigit : c.isDigit = true := by
    rw [Nat.toString_eq_repr, Nat.toList_repr] at hc
    exact Nat.isDigit_of_mem_toDigits (by decide) (by decide) hc
  rw [beq_eq_false_iff_ne]
  rintro rfl
  exact absurd hdigit (by decide)

theorem length_toString_pos (i : Nat) : 0 < (toString i).length := by
  rw [Nat.toString_eq_repr, ← String.length_toList, Nat.toList_repr]
  exact Nat.length_toDigits_pos

theorem noSlash_of_mem (hmem : name ∈ pathNames q) : NoSlash name ∧ name ≠ "" := by
  obtain ⟨piece, hpiece, rfl⟩ := List.mem_map.mp hmem
  obtain ⟨hsplit, hne⟩ := List.mem_filter.mp hpiece
  have hnil : piece ≠ [] := by simpa using hne
  constructor
  · intro c hc
    rw [String.toList_ofList] at hc
    exact not_sep_of_mem_splitOnP hsplit c hc
  · intro heq
    exact hnil (by simpa using congrArg String.toList heq)

/-- A text without a separator is one name. -/
theorem NoSlash.names (hs : NoSlash name) (hne : name ≠ "") : pathNames name = [name] := by
  have hnil : name.toList ≠ [] := fun hnil => hne (String.toList_eq_nil_iff.mp hnil)
  unfold pathNames
  rw [List.splitOnP_eq_singleton hs]
  simp [hnil]

/-- Names that are put together with slashes. -/
theorem pathNames_intercalate : ∀ {names : List String}, (∀ s ∈ names, NoSlash s ∧ s ≠ "") →
    pathNames ("/".intercalate names) = names
  | [], _ => by simp [pathNames]
  | [s], hnames => by
      obtain ⟨hslash, hne⟩ := hnames s List.mem_cons_self
      rw [String.intercalate_singleton]
      exact hslash.names hne
  | s :: u :: names, hnames => by
      obtain ⟨hslash, hne⟩ := hnames s List.mem_cons_self
      have hpath : ("/".intercalate (s :: u :: names)).toList =
          s.toList ++ '/' :: ("/".intercalate (u :: names)).toList := by
        rw [String.intercalate_cons_cons]
        simp [String.toList_append]
      rw [pathNames_append_slash hpath, String.ofList_toList, String.ofList_toList,
        hslash.names hne, pathNames_intercalate fun x hx => hnames x (List.mem_cons_of_mem _ hx),
        List.singleton_append]

theorem NoSlash.head (hs : NoSlash name) : name.toList.head? ≠ some '/' := by
  intro hhead
  exact absurd (hs '/' (List.mem_of_head? hhead)) (by decide)

theorem pathNames_ne_nil (hne : name ≠ "") (hhead : name.toList.head? ≠ some '/') :
    pathNames name ≠ [] := by
  unfold pathNames
  cases hcs : name.toList with
  | nil => exact absurd (String.toList_eq_nil_iff.mp hcs) hne
  | cons c cs =>
    have hc : ¬ (c == '/') = true := by
      rw [hcs] at hhead
      simpa using hhead
    cases hsplit : cs.splitOnP (· == '/') with
    | nil => exact absurd hsplit (List.splitOnP_ne_nil _ _)
    | cons x xs => simp [List.splitOnP_cons_eq_if_modifyHead, hc, hsplit]

theorem endsInName_append (hs : NoSlash suffix) (hne : suffix ≠ "") {last : String}
    (hlast : (pathNames (p ++ suffix)).getLast? = some last) (hdot : last ≠ ".")
    (hdots : last ≠ "..") : endsInName (p ++ suffix) = true := by
  have hslash : endsInSlash (p ++ suffix) = false := by
    unfold endsInSlash
    rw [String.toList_append, List.getLast?_append]
    cases hlist : suffix.toList.getLast? with
    | none =>
      exact absurd (String.toList_eq_nil_iff.mp (List.getLast?_eq_none_iff.mp hlist)) hne
    | some c =>
      have := hs c (List.mem_of_getLast? hlist)
      simpa using this
  unfold endsInName
  rw [hslash, hlast]
  simp [hdot, hdots]

theorem append_suffix_ne (hlong : 2 < suffix.length) (last : String) {s : String}
    (hs : s.length ≤ 2) : last ++ suffix ≠ s := by
  rintro rfl
  rw [String.length_append] at hs
  omega

/-- Something behind a path makes its last name longer, or is a name of its own. -/
theorem pathNames_append_suffix (hslash : NoSlash suffix) (hsuffix : suffix ≠ "") (name : String) :
    ∃ init last, pathNames (name ++ suffix) = init ++ [last ++ suffix] ∧
      (pathNames name = init ++ [last] ∨ pathNames name = init) := by
  obtain ⟨init, last, hname, hboth⟩ := splitOnP_append_last hslash name.toList
  have hne : suffix.toList ≠ [] := fun hnil => hsuffix (String.toList_eq_nil_iff.mp hnil)
  refine ⟨(init.filter fun s => !s.isEmpty).map String.ofList, String.ofList last, ?_, ?_⟩
  · unfold pathNames
    rw [String.toList_append, hboth, List.filter_append, List.map_append]
    simp [hne]
  · unfold pathNames
    rw [hname, List.filter_append, List.map_append]
    cases last with
    | nil => exact .inr (by simp)
    | cons c cs => exact .inl (by simp)

/-- The last piece is empty behind a separator only. -/
theorem splitOnP_last_ne_nil {sep : Char → Bool} {cs last : List Char} {init : List (List Char)}
    (hne : cs ≠ []) (hend : ∀ c, cs.getLast? = some c → sep c = false)
    (hcs : cs.splitOnP sep = init ++ [last]) : last ≠ [] := by
  obtain ⟨xs, c, rfl⟩ := (List.eq_nil_or_concat' cs).resolve_left hne
  have hc := hend c List.getLast?_concat
  have htail : ∀ x ∈ [c], sep x = false := fun x hx => by rwa [List.mem_singleton.mp hx]
  obtain ⟨init', last', -, hboth⟩ := splitOnP_append_last htail xs
  rw [hboth] at hcs
  obtain ⟨-, heq⟩ := List.append_inj' hcs rfl
  cases heq
  simp

/-- Something behind a path that does not end in a slash makes its last name longer. -/
theorem pathNames_append_name (hslash : NoSlash suffix) (hend : endsInSlash p = false)
    (hp : p ≠ "") : ∃ init last, pathNames p = init ++ [last] ∧
      pathNames (p ++ suffix) = init ++ [last ++ suffix] := by
  obtain ⟨init, last, hpath, hboth⟩ := splitOnP_append_last hslash p.toList
  have hlast : last ≠ [] := by
    refine splitOnP_last_ne_nil (fun hnil => hp (String.toList_eq_nil_iff.mp hnil)) ?_ hpath
    intro c hc
    unfold endsInSlash at hend
    rw [hc] at hend
    simpa using hend
  refine ⟨(init.filter fun s => !s.isEmpty).map String.ofList, String.ofList last, ?_, ?_⟩
  · unfold pathNames
    rw [hpath, List.filter_append, List.map_append]
    simp [hlast]
  · unfold pathNames
    rw [String.toList_append, hboth, List.filter_append, List.map_append]
    simp [hlast]

/-- `Path::parent`: without the last name and the dots behind it. -/
def parentNames (segs : List String) : List String :=
  (segs.reverse.dropWhile (· == ".")).tail.reverse

/-- The directory of a path has none of its last name. -/
theorem parentNames_concat (xs : List String) (s : String) :
    parentNames (xs ++ [s]) <+: xs := by
  unfold parentNames
  rw [List.reverse_append, List.reverse_singleton, List.singleton_append, List.dropWhile_cons]
  split_ifs
  · rw [← List.reverse_suffix, List.reverse_reverse]
    exact (List.tail_suffix _).trans (List.dropWhile_suffix _)
  · simp

theorem parentNames_of_name (xs : List String) {s : String} (hs : s ≠ ".") :
    parentNames (xs ++ [s]) = xs := by
  unfold parentNames
  rw [List.reverse_append, List.reverse_singleton, List.singleton_append, List.dropWhile_cons,
    if_neg (by simpa using hs), List.tail_cons, List.reverse_reverse]

theorem parentNames_append (xs : List String) {ys : List String} (hys : ∃ s ∈ ys, s ≠ ".") :
    parentNames (xs ++ ys) = xs ++ parentNames ys := by
  obtain ⟨s, hs, hdot⟩ := hys
  have hrest : ys.reverse.dropWhile (· == ".") ≠ [] := by
    intro hnil
    have := List.dropWhile_eq_nil_iff.mp hnil s (List.mem_reverse.mpr hs)
    exact hdot (by simpa using this)
  unfold parentNames
  rw [List.reverse_append, List.dropWhile_append, if_neg (by simpa using hrest),
    List.tail_append_of_ne_nil hrest, List.reverse_append, List.reverse_reverse]

theorem parentNames_isPrefix (xs : List String) : parentNames xs <+: xs := by
  rcases List.eq_nil_or_concat xs with rfl | ⟨ys, s, rfl⟩
  · exact List.prefix_refl _
  · rw [List.concat_eq_append]
    exact (parentNames_concat ys s).trans (List.prefix_append _ _)

end Names

end LuodaRemote.Lib
