/-
  The log of what a peer removes (`FileRemoveLogControl` of src/server/connection.rs).

  Removals are kept back for a second of quiet, so that a directory that is emptied and removed
  shows as one line: what lies directly in a removed directory should go. For directories it does
  (`held_antichain`, `held_covers`). For files the arguments of `direct_child` are the wrong way
  round, and a file is kept whatever was removed before; `removal_log_iff` says when what is logged
  is right all the same.

  A path is its components, however the system reads them.
-/
import LuodaRemote.Lib.Run
import LuodaRemote.Transfer.Job

namespace LuodaRemote
open Lib

namespace RemoveLog

/-- How the system reads a path: two paths are the same if their components are. -/
structure PathRules (κ : Type*) where
  components : String → List κ
  /-- The component is a root or a prefix, which has no parent. -/
  isRoot : κ → Bool

structure FileRemoveFile where
  id : Int
  path : String
  fileNum : Int
  deriving DecidableEq

structure FileRemoveDir where
  id : Int
  path : String
  recursive : Bool
  deriving DecidableEq

structure FileActionLog where
  id : Int
  connId : Int
  path : String
  dir : Bool
  deriving DecidableEq

/-- `ipc::Data::FileTransferLog`, with the record that is sent as JSON. -/
structure FileTransferLog where
  action : String
  log : FileActionLog
  deriving DecidableEq

/-- What a peer has removed. -/
inductive Removal where
  | file (f : FileRemoveFile)
  | dir (d : FileRemoveDir)
  deriving DecidableEq

def Removal.path : Removal → String
  | .file f => f.path
  | .dir d => d.path

def Removal.toLog (connId : Int) : Removal → FileTransferLog
  | .file f => ⟨"remove", ⟨f.id, connId, f.path, false⟩⟩
  | .dir d => ⟨"remove", ⟨d.id, connId, d.path, true⟩⟩

variable {κ : Type*} [DecidableEq κ]

/-- `Path::parent`. -/
def PathRules.parent (rules : PathRules κ) (p : List κ) : Option (List κ) :=
  match p.getLast? with
  | none => none
  | some c => if rules.isRoot c then none else some p.dropLast

variable (rules : PathRules κ)

def directChild (parent child : String) : Bool :=
  rules.parent (rules.components child) == some (rules.components parent)

structure FileRemoveLogControl where
  connId : Int
  /-- In milliseconds. -/
  instant : Nat
  removedFiles : List FileRemoveFile
  removedDirs : List FileRemoveDir
  deriving DecidableEq

namespace FileRemoveLogControl

def new (connId : Int) (now : Nat) : FileRemoveLogControl := ⟨connId, now, [], []⟩

def onRemoveFile (now : Nat) (f : FileRemoveFile) (s : FileRemoveLogControl) :
    FileTransferLog × FileRemoveLogControl :=
  ((Removal.file f).toLog s.connId,
    { s with instant := now, removedFiles := s.removedFiles ++ [f] })

def onRemoveDir (now : Nat) (d : FileRemoveDir) (s : FileRemoveLogControl) :
    FileTransferLog × FileRemoveLogControl :=
  let removedDirs := s.removedDirs.filter fun x => !directChild rules d.path x.path
  ((Removal.dir d).toLog s.connId,
    { s with
      instant := now
      removedFiles := s.removedFiles.filter fun f => !directChild rules f.path d.path
      removedDirs := if removedDirs.any fun x => directChild rules x.path d.path then removedDirs
        else removedDirs ++ [d] })

def onTimer (now : Nat) (s : FileRemoveLogControl) :
    List FileTransferLog × FileRemoveLogControl :=
  if (now - s.instant) / 1000 < 1 then ([], s)
  else (s.removedFiles.map (fun f => (Removal.file f).toLog s.connId) ++
      s.removedDirs.map (fun d => (Removal.dir d).toLog s.connId),
    { s with removedFiles := [], removedDirs := [] })

end FileRemoveLogControl

/-! ## A connection -/

inductive Event where
  | remove (now : Nat) (r : Removal)
  | timer (now : Nat)

/-- The control, and what was removed since it was last flushed. -/
structure Watch where
  control : FileRemoveLogControl
  since : List Removal

def step (w : Watch) : Event → Watch
  | .remove now (.file f) => ⟨(w.control.onRemoveFile now f).2, w.since ++ [.file f]⟩
  | .remove now (.dir d) => ⟨(w.control.onRemoveDir rules now d).2, w.since ++ [.dir d]⟩
  | .timer now => ⟨(w.control.onTimer now).2,
      if (now - w.control.instant) / 1000 < 1 then w.since else []⟩

/-- The connection after events, from its start. -/
def watched (connId : Int) (start : Nat) (events : List Event) : Watch :=
  run (step rules) ⟨.new connId start, []⟩ events

/-! ## What is held back -/

/-- The files and directories that removals leave in the lists. -/
def hold (held : List FileRemoveFile × List FileRemoveDir) :
    Removal → List FileRemoveFile × List FileRemoveDir
  | .file f => (held.1 ++ [f], held.2)
  | .dir d =>
    let dirs := held.2.filter fun x => !directChild rules d.path x.path
    (held.1.filter fun f => !directChild rules f.path d.path,
      if dirs.any fun x => directChild rules x.path d.path then dirs else dirs ++ [d])

def held (rs : List Removal) : List FileRemoveFile × List FileRemoveDir :=
  rs.foldl (hold rules) ([], [])

/-- The lists are those of the removals since the last flush. -/
def Watch.Sound (w : Watch) : Prop :=
  (w.control.removedFiles, w.control.removedDirs) = held rules w.since

variable {rules}

theorem held_concat (rs : List Removal) (r : Removal) :
    held rules (rs ++ [r]) = hold rules (held rules rs) r := by
  unfold held
  rw [List.foldl_concat]

theorem sound_step {w : Watch} (hw : w.Sound rules) (e : Event) : (step rules w e).Sound rules := by
  unfold Watch.Sound at hw ⊢
  cases e with
  | remove now r =>
    cases r with
    | file f =>
      show _ = held rules (w.since ++ [.file f])
      rw [held_concat, ← hw]
      rfl
    | dir d =>
      show _ = held rules (w.since ++ [.dir d])
      rw [held_concat, ← hw]
      rfl
  | timer now =>
    unfold step FileRemoveLogControl.onTimer
    dsimp only
    split
    · exact hw
    · rfl

variable (rules) in
theorem sound_watched (connId : Int) (start : Nat) (events : List Event) :
    (watched rules connId start events).Sound rules := by
  have hall : Always (step rules) (Watch.Sound rules) ⟨.new connId start, []⟩ events :=
    always_of_step (fun w e hw => sound_step hw e) (by unfold Watch.Sound; rfl) events
  exact hall.last

/-! ## Parents -/

omit [DecidableEq κ] in
/-- The directory that a path lies in. -/
theorem parent_eq_some {p q : List κ} (h : rules.parent p = some q) : ∃ c, p = q ++ [c] := by
  unfold PathRules.parent at h
  cases hlast : p.getLast? with
  | none =>
    rw [hlast] at h
    cases h
  | some c =>
    rw [hlast] at h
    dsimp only at h
    split at h
    · cases h
    · cases h
      exact ⟨c, (List.dropLast_append_getLast? c hlast).symm⟩

omit [DecidableEq κ] in
theorem length_parent {p q : List κ} (h : rules.parent p = some q) : p.length = q.length + 1 := by
  obtain ⟨c, rfl⟩ := parent_eq_some h
  simp

theorem directChild_iff {parent child : String} :
    directChild rules parent child = true ↔
      rules.parent (rules.components child) = some (rules.components parent) := beq_iff_eq

variable (rules) in
/-- The first path is a directory above the second. -/
def Ancestor (p q : List κ) : Prop :=
  Relation.TransGen (fun p q => rules.parent q = some p) p q

/-! ## The directories that are held back -/

/-- A directory is pushed, and what lies directly in it goes, unless its own parent is held. -/
theorem mem_hold_dir {held : List FileRemoveFile × List FileRemoveDir} {d x : FileRemoveDir} :
    x ∈ (hold rules held (.dir d)).2 ↔
      x ∈ held.2 ∧ directChild rules d.path x.path = false ∨
        x = d ∧ ∀ y ∈ held.2, directChild rules d.path y.path = false →
          directChild rules y.path d.path = false := by
  have hmem : ∀ y, y ∈ held.2.filter (fun x => !directChild rules d.path x.path) ↔
      y ∈ held.2 ∧ directChild rules d.path y.path = false := by
    intro y
    rw [List.mem_filter, Bool.not_eq_true']
  unfold hold
  dsimp only
  split
  · next hany =>
      obtain ⟨y, hy, hchild⟩ := List.any_eq_true.mp hany
      rw [hmem]
      constructor
      · exact .inl
      · rintro (h | ⟨rfl, hno⟩)
        · exact h
        · have hnot := hno y ((hmem y).mp hy).1 ((hmem y).mp hy).2
          rw [hchild] at hnot
          cases hnot
  · next hany =>
      rw [List.mem_append, hmem, List.mem_singleton]
      constructor
      · rintro (h | rfl)
        · exact .inl h
        · refine .inr ⟨rfl, fun y hy hnot => ?_⟩
          by_contra hchild
          exact hany (List.any_eq_true.mpr ⟨y, (hmem y).mpr ⟨hy, hnot⟩, by simpa using hchild⟩)
      · rintro (h | ⟨rfl, -⟩)
        · exact .inl h
        · exact .inr rfl

/-- A directory is not directly in one that is directly in it. -/
theorem not_child_of_child {p q : String} (h : directChild rules p q = true) :
    directChild rules q p = false := by
  by_contra hback
  have hpq := length_parent (directChild_iff.mp h)
  have hqp := length_parent (directChild_iff.mp (eq_true_of_ne_false hback))
  omega

theorem not_child_self (p : String) : directChild rules p p = false := by
  by_contra h
  have hlength := length_parent (directChild_iff.mp (eq_true_of_ne_false h))
  omega

variable (rules) in
/-- No directory that is held is directly in another one. -/
theorem held_antichain (rs : List Removal) :
    ∀ x ∈ (held rules rs).2, ∀ y ∈ (held rules rs).2, directChild rules x.path y.path = false := by
  induction rs using List.reverseRecOn with
  | nil =>
    intro x hx
    cases hx
  | append_singleton rs r ih =>
    rw [held_concat]
    cases r with
    | file f => exact ih
    | dir d =>
      intro x hx y hy
      rcases mem_hold_dir.mp hx with ⟨hxold, hxd⟩ | ⟨rfl, hno⟩
      · rcases mem_hold_dir.mp hy with ⟨hyold, -⟩ | ⟨rfl, hno⟩
        · exact ih x hxold y hyold
        · exact hno x hxold hxd
      · rcases mem_hold_dir.mp hy with ⟨-, hyd⟩ | ⟨rfl, -⟩
        · exact hyd
        · exact not_child_self _

variable (rules) in
/-- The path is that of one of the directories, or one of them is above it. -/
def Covered (dirs : List FileRemoveDir) (p : List κ) : Prop :=
  ∃ x ∈ dirs, rules.components x.path = p ∨ Ancestor rules (rules.components x.path) p

theorem covered_new {held : List FileRemoveFile × List FileRemoveDir} (d : FileRemoveDir) :
    Covered rules (hold rules held (.dir d)).2 (rules.components d.path) := by
  by_cases hparent : ∃ y ∈ held.2, directChild rules d.path y.path = false ∧
      directChild rules y.path d.path = true
  · obtain ⟨y, hy, hnot, hchild⟩ := hparent
    exact ⟨y, mem_hold_dir.mpr (.inl ⟨hy, hnot⟩), .inr (.single (directChild_iff.mp hchild))⟩
  · refine ⟨d, mem_hold_dir.mpr (.inr ⟨rfl, fun y hy hnot => ?_⟩), .inl rfl⟩
    by_contra hchild
    exact hparent ⟨y, hy, hnot, eq_true_of_ne_false hchild⟩

omit [DecidableEq κ] in
/-- What is above a covered path covers what is below it. -/
theorem Covered.below {dirs : List FileRemoveDir} {p q : List κ} (h : Covered rules dirs p)
    (hq : Ancestor rules p q) : Covered rules dirs q := by
  obtain ⟨x, hx, rfl | habove⟩ := h
  · exact ⟨x, hx, .inr hq⟩
  · exact ⟨x, hx, .inr (habove.trans hq)⟩

theorem covered_hold {held : List FileRemoveFile × List FileRemoveDir} {p : List κ}
    (h : Covered rules held.2 p) (r : Removal) : Covered rules (hold rules held r).2 p := by
  cases r with
  | file f => exact h
  | dir d =>
    obtain ⟨x, hx, hcovers⟩ := h
    by_cases hchild : directChild rules d.path x.path = true
    · -- what goes is directly in `d`, which is covered
      have habove : Ancestor rules (rules.components d.path) p := by
        rcases hcovers with rfl | habove
        · exact .single (directChild_iff.mp hchild)
        · exact habove.head (directChild_iff.mp hchild)
      exact (covered_new d).below habove
    · exact ⟨x, mem_hold_dir.mpr (.inl ⟨hx, eq_false_of_ne_true hchild⟩), hcovers⟩

/-- Every directory that was removed is held, or one above it. -/
theorem held_covers {rs : List Removal} {d : FileRemoveDir} (hd : .dir d ∈ rs) :
    Covered rules (held rules rs).2 (rules.components d.path) := by
  induction rs using List.reverseRecOn with
  | nil => cases hd
  | append_singleton rs r ih =>
    rw [held_concat]
    rcases List.mem_append.mp hd with hold | hnew
    · exact covered_hold (ih hold) r
    · rw [← List.mem_singleton.mp hnew]
      exact covered_new d

theorem held_dirs {rs : List Removal} {d : FileRemoveDir} (hd : d ∈ (held rules rs).2) :
    .dir d ∈ rs := by
  induction rs using List.reverseRecOn with
  | nil => cases hd
  | append_singleton rs r ih =>
    rw [held_concat] at hd
    cases r with
    | file f => exact List.mem_append_left _ (ih hd)
    | dir e =>
      rcases mem_hold_dir.mp hd with ⟨hold, -⟩ | ⟨rfl, -⟩
      · exact List.mem_append_left _ (ih hold)
      · exact List.mem_append_right _ List.mem_cons_self

variable (rules) in
/-- Whether a directory stands in the log after removals, given from the last one back: it was
    removed when its parent did not stand, and its parent was not removed after that. -/
def stands : List Removal → List κ → Bool
  | [], _ => false
  | .file _ :: earlier, p => stands earlier p
  | .dir d :: earlier, p =>
    if rules.components d.path = p then
      match rules.parent p with
      | some q => !stands earlier q
      | none => true
    else if rules.parent p = some (rules.components d.path) then false
    else stands earlier p

/-- A directory that is removed stands unless its parent does. -/
theorem stands_new {held : List FileRemoveFile × List FileRemoveDir} {d : FileRemoveDir}
    (hantichain : ∀ x ∈ (hold rules held (.dir d)).2, ∀ y ∈ (hold rules held (.dir d)).2,
      directChild rules x.path y.path = false) :
    (∃ x ∈ (hold rules held (.dir d)).2, rules.components x.path = rules.components d.path) ↔
      ∀ q, rules.parent (rules.components d.path) = some q →
        ¬ ∃ y ∈ held.2, rules.components y.path = q := by
  constructor
  · rintro ⟨x, hx, hsame⟩ q hparent ⟨y, hy, rfl⟩
    have hchild : directChild rules y.path x.path = true := by
      rw [directChild_iff, hsame]
      exact hparent
    have hstays := not_child_of_child (directChild_iff.mpr hparent)
    rw [hantichain y (mem_hold_dir.mpr (.inl ⟨hy, hstays⟩)) x hx] at hchild
    cases hchild
  · intro hno
    refine ⟨d, mem_hold_dir.mpr (.inr ⟨rfl, fun y hy hnot => ?_⟩), rfl⟩
    refine eq_false_of_ne_true fun hchild => ?_
    exact hno _ (directChild_iff.mp hchild) ⟨y, hy, rfl⟩

theorem held_iff_stands (rs : List Removal) (p : List κ) :
    (∃ x ∈ (held rules rs).2, rules.components x.path = p) ↔ stands rules rs.reverse p = true := by
  induction rs using List.reverseRecOn generalizing p with
  | nil => simp [held, stands]
  | append_singleton rs r ih =>
    have hantichain := held_antichain rules (rs ++ [r])
    rw [held_concat] at hantichain ⊢
    rw [List.reverse_append, List.reverse_singleton, List.singleton_append]
    cases r with
    | file f => exact ih p
    | dir d =>
      unfold stands
      split
      · next hp =>
          subst hp
          rw [stands_new hantichain]
          cases hparent : rules.parent (rules.components d.path) with
          | none => simp
          | some q =>
            have hstands := ih q
            cases hq : stands rules rs.reverse q with
            | true =>
              rw [hq] at hstands
              refine iff_of_false (fun hno => hno q rfl (hstands.mpr rfl)) ?_
              simp [hq]
            | false =>
              rw [hq] at hstands
              refine iff_of_true ?_ (by simp [hq])
              rintro q' ⟨⟩ hy
              cases hstands.mp hy
      · next hp =>
          split
          · next hparent =>
              refine iff_of_false ?_ (by simp)
              rintro ⟨x, hx, rfl⟩
              rcases mem_hold_dir.mp hx with ⟨-, hnot⟩ | ⟨rfl, -⟩
              · rw [directChild_iff.mpr hparent] at hnot
                cases hnot
              · exact hp rfl
          · next hparent =>
              rw [← ih p]
              constructor
              · rintro ⟨x, hx, rfl⟩
                rcases mem_hold_dir.mp hx with ⟨hold, -⟩ | ⟨rfl, -⟩
                · exact ⟨x, hold, rfl⟩
                · exact absurd rfl hp
              · rintro ⟨x, hx, rfl⟩
                refine ⟨x, mem_hold_dir.mpr (.inl ⟨hx, ?_⟩), rfl⟩
                exact eq_false_of_ne_true fun h => hparent (directChild_iff.mp h)

/-! ## The files -/

variable (rules) in
/-- A file was removed, and no directory that lies directly in what it was after it. -/
def Stays (rs : List Removal) (f : FileRemoveFile) : Prop :=
  ∃ before after, rs = before ++ .file f :: after ∧
    ∀ d, .dir d ∈ after → directChild rules f.path d.path = false

theorem stays_concat {rs : List Removal} {r : Removal} {f : FileRemoveFile} :
    Stays rules (rs ++ [r]) f ↔ r = .file f ∨
      Stays rules rs f ∧ ∀ d, r = .dir d → directChild rules f.path d.path = false := by
  constructor
  · rintro ⟨before, after, heq, hafter⟩
    cases after using List.reverseRecOn with
    | nil => exact .inl (List.append_inj_right' heq rfl |> List.singleton_injective)
    | append_singleton after last =>
      rw [← List.cons_append, ← List.append_assoc] at heq
      have hlast : r = last := List.singleton_injective (List.append_inj_right' heq rfl)
      refine .inr ⟨⟨before, after, List.append_inj_left' heq rfl, fun d hd => ?_⟩, ?_⟩
      · exact hafter d (List.mem_append_left _ hd)
      · rintro d rfl
        exact hafter d (List.mem_append_right _ (by rw [hlast]; exact List.mem_cons_self))
  · rintro (rfl | ⟨⟨before, after, rfl, hafter⟩, hlast⟩)
    · exact ⟨rs, [], rfl, fun d hd => by cases hd⟩
    · refine ⟨before, after ++ [r], by simp, fun d hd => ?_⟩
      rcases List.mem_append.mp hd with hold | hnew
      · exact hafter d hold
      · exact hlast d (List.mem_singleton.mp hnew).symm

theorem mem_held_files {rs : List Removal} {f : FileRemoveFile} :
    f ∈ (held rules rs).1 ↔ Stays rules rs f := by
  induction rs using List.reverseRecOn with
  | nil =>
    refine iff_of_false (by simp [held]) ?_
    rintro ⟨before, after, h, -⟩
    simp at h
  | append_singleton rs r ih =>
    rw [held_concat, stays_concat, ← ih]
    cases r with
    | file g =>
      show f ∈ (held rules rs).1 ++ [g] ↔ _
      rw [List.mem_append, List.mem_singleton]
      constructor
      · rintro (h | rfl)
        · exact .inr ⟨h, fun d hd => by cases hd⟩
        · exact .inl rfl
      · rintro (h | ⟨h, -⟩)
        · cases h
          exact .inr rfl
        · exact .inl h
    | dir d =>
      show f ∈ (held rules rs).1.filter (fun f => !directChild rules f.path d.path) ↔ _
      rw [List.mem_filter, Bool.not_eq_true']
      constructor
      · rintro ⟨h, hnot⟩
        refine .inr ⟨h, ?_⟩
        rintro e ⟨⟩
        exact hnot
      · rintro (h | ⟨h, hnot⟩)
        · cases h
        · exact ⟨h, hnot d rfl⟩

/-! ## What is logged -/

variable (rules) in
/-- What the log should be, for the removals since the last flush. -/
structure Right (connId : Int) (since : List Removal) (flushed : List FileTransferLog) : Prop where
  /-- Every removal shows, by itself or by a directory above. -/
  listed : ∀ r ∈ since, ∃ l ∈ flushed, rules.components l.log.path = rules.components r.path ∨
    l.log.dir = true ∧ Ancestor rules (rules.components l.log.path) (rules.components r.path)
  pruned : ∀ d ∈ flushed, d.log.dir = true → ∀ l ∈ flushed,
    directChild rules d.log.path l.log.path = false
  recent : ∀ l ∈ flushed, ∃ r ∈ since, l = r.toLog connId

/-- What `on_timer` sends when it flushes. -/
theorem mem_flushed {s : FileRemoveLogControl} {now : Nat} (hflush : 1 ≤ (now - s.instant) / 1000)
    {l : FileTransferLog} : l ∈ (s.onTimer now).1 ↔
      (∃ f ∈ s.removedFiles, l = (Removal.file f).toLog s.connId) ∨
        ∃ d ∈ s.removedDirs, l = (Removal.dir d).toLog s.connId := by
  unfold FileRemoveLogControl.onTimer
  rw [if_neg (by omega), List.mem_append, List.mem_map, List.mem_map]
  simp only [eq_comm]

variable (rules) in
/-- The removals of files that do no harm: none that is dropped is missed, and none lies directly
    in a directory that stands. -/
structure Harmless (since : List Removal) : Prop where
  dropped : ∀ f, .file f ∈ since →
    (∃ g, Stays rules since g ∧ rules.components g.path = rules.components f.path) ∨
      ∃ d, .dir d ∈ since ∧ (rules.components d.path = rules.components f.path ∨
        Ancestor rules (rules.components d.path) (rules.components f.path))
  kept : ∀ f, Stays rules since f → ∀ p, rules.parent (rules.components f.path) = some p →
    stands rules since.reverse p = false

theorem mem_of_stays {rs : List Removal} {f : FileRemoveFile} (h : Stays rules rs f) :
    .file f ∈ rs := by
  obtain ⟨before, after, rfl, -⟩ := h
  exact List.mem_append_right _ List.mem_cons_self

/-- At every flush the log is right precisely if the removals of files since the last one do no
    harm. -/
theorem removal_log_iff (rules : PathRules κ) (connId : Int) (start : Nat) (events : List Event)
    {now : Nat} (hflush : 1 ≤ (now - (watched rules connId start events).control.instant) / 1000) :
    Right rules (watched rules connId start events).control.connId
        (watched rules connId start events).since
        ((watched rules connId start events).control.onTimer now).1 ↔
      Harmless rules (watched rules connId start events).since := by
  have hsound := sound_watched rules connId start events
  generalize watched rules connId start events = w at *
  have hfiles : w.control.removedFiles = (held rules w.since).1 := congrArg Prod.fst hsound
  have hdirs : w.control.removedDirs = (held rules w.since).2 := congrArg Prod.snd hsound
  have hmem : ∀ l, l ∈ (w.control.onTimer now).1 ↔
      (∃ f, Stays rules w.since f ∧ l = (Removal.file f).toLog w.control.connId) ∨
        ∃ d ∈ (held rules w.since).2, l = (Removal.dir d).toLog w.control.connId := by
    intro l
    rw [mem_flushed hflush, hfiles, hdirs]
    simp only [mem_held_files]
  constructor
  · intro h
    constructor
    · intro f hf
      obtain ⟨l, hl, hcovers⟩ := h.listed _ hf
      rcases (hmem l).mp hl with ⟨g, hg, rfl⟩ | ⟨d, hd, rfl⟩
      · rcases hcovers with hsame | ⟨hdir, -⟩
        · exact .inl ⟨g, hg, hsame⟩
        · cases hdir
      · exact .inr ⟨d, held_dirs hd, hcovers.imp_right And.right⟩
    · intro f hf p hparent
      refine eq_false_of_ne_true fun hstands => ?_
      obtain ⟨d, hd, rfl⟩ := (held_iff_stands _ _).mpr hstands
      have hnot : directChild rules d.path f.path = false :=
        h.pruned _ ((hmem _).mpr (.inr ⟨d, hd, rfl⟩)) rfl _ ((hmem _).mpr (.inl ⟨f, hf, rfl⟩))
      rw [directChild_iff.mpr hparent] at hnot
      cases hnot
  · intro h
    have hcovered : ∀ p, Covered rules (held rules w.since).2 p →
        ∃ l ∈ (w.control.onTimer now).1, rules.components l.log.path = p ∨
          l.log.dir = true ∧ Ancestor rules (rules.components l.log.path) p := by
      rintro p ⟨x, hx, hcovers⟩
      exact ⟨_, (hmem _).mpr (.inr ⟨x, hx, rfl⟩), hcovers.imp_right fun h => ⟨rfl, h⟩⟩
    constructor
    · intro r hr
      cases r with
      | dir d => exact hcovered _ (held_covers hr)
      | file f =>
        rcases h.dropped f hr with ⟨g, hg, hsame⟩ | ⟨d, hd, hsame | habove⟩
        · exact ⟨_, (hmem _).mpr (.inl ⟨g, hg, rfl⟩), .inl hsame⟩
        · exact hcovered _ (hsame ▸ held_covers hd)
        · exact hcovered _ ((held_covers hd).below habove)
    · intro d hd hdir l hl
      rcases (hmem d).mp hd with ⟨g, -, rfl⟩ | ⟨x, hx, rfl⟩
      · cases hdir
      · rcases (hmem l).mp hl with ⟨f, hf, rfl⟩ | ⟨y, hy, rfl⟩
        · refine eq_false_of_ne_true fun hchild => ?_
          have hnot : stands rules w.since.reverse (rules.components x.path) = false :=
            h.kept f hf _ (directChild_iff.mp hchild)
          rw [(held_iff_stands _ _).mp ⟨x, hx, rfl⟩] at hnot
          cases hnot
        · exact held_antichain rules w.since x hx y hy
    · intro l hl
      rcases (hmem l).mp hl with ⟨f, hf, rfl⟩ | ⟨d, hd, rfl⟩
      · exact ⟨.file f, mem_of_stays hf, rfl⟩
      · exact ⟨.dir d, held_dirs hd, rfl⟩

/-! ## Paths on Unix -/

def unixRules : PathRules PathComponent where
  components := pathComponents false
  isRoot := fun c => c == .rootDir || c == .drive

/-- A file and, beside it, an empty directory are removed, and nothing else for two seconds. -/
theorem removal_log_iff_beside :
    let w := watched unixRules 7 0
      [.remove 1000 (.file ⟨1, "/d/f", 0⟩), .remove 1100 (.dir ⟨1, "/d/e", false⟩)]
    Right unixRules 7 [.file ⟨1, "/d/f", 0⟩, .dir ⟨1, "/d/e", false⟩]
      (w.control.onTimer 3200).1 := by
  intro w
  have hsince : w.since = [.file ⟨1, "/d/f", 0⟩, .dir ⟨1, "/d/e", false⟩] := by decide +kernel
  have hid : w.control.connId = 7 := by decide +kernel
  have hflush : 1 ≤ (3200 - w.control.instant) / 1000 := by decide +kernel
  have hiff := removal_log_iff unixRules 7 0 _ hflush
  rw [hid, hsince] at hiff
  refine hiff.mpr ⟨fun f hf => .inl ?_, fun f hf p hp => ?_⟩
  · obtain rfl : f = ⟨1, "/d/f", 0⟩ := by simpa using hf
    refine ⟨_, ⟨[], _, rfl, fun d hd => ?_⟩, rfl⟩
    obtain rfl : d = ⟨1, "/d/e", false⟩ := by simpa using hd
    decide +kernel
  · obtain rfl : f = ⟨1, "/d/f", 0⟩ := by simpa using mem_of_stays hf
    have hd : unixRules.parent (unixRules.components "/d/f") =
        some (unixRules.components "/d") := by decide +kernel
    obtain rfl := Option.some.inj (hd.symm.trans hp)
    decide +kernel

/-- A directory is emptied and removed, and the file is logged all the same. -/
theorem file_not_pruned :
    ¬ Right unixRules 7 [.file ⟨1, "/d/f", 0⟩, .dir ⟨1, "/d", false⟩]
      ((watched unixRules 7 0 [.remove 1000 (.file ⟨1, "/d/f", 0⟩),
        .remove 1100 (.dir ⟨1, "/d", false⟩)]).control.onTimer 3000).1 := by
  intro h
  have hflushed : ((watched unixRules 7 0 [.remove 1000 (.file ⟨1, "/d/f", 0⟩),
      .remove 1100 (.dir ⟨1, "/d", false⟩)]).control.onTimer 3000).1 =
      [(Removal.file ⟨1, "/d/f", 0⟩).toLog 7, (Removal.dir ⟨1, "/d", false⟩).toLog 7] := by
    decide +kernel
  rw [hflushed] at h
  have hnot := h.pruned ((Removal.dir ⟨1, "/d", false⟩).toLog 7) (by simp) rfl
    ((Removal.file ⟨1, "/d/f", 0⟩).toLog 7) (by simp)
  have hchild : directChild unixRules "/d" "/d/f" = true := by decide +kernel
  exact absurd hchild (by rw [show directChild unixRules "/d" "/d/f" = false from hnot]; simp)

end RemoveLog
end LuodaRemote
