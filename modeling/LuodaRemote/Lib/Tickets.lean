/-
  A bounded buffer whose entries are announced by tickets, with no fixed types.

  `Feed α β` is an unbounded channel next to a buffer of at most `cap` entries. A `β` travels in
  the channel itself; an `α` waits in the buffer, and a ticket travels in its place. Whoever takes
  a ticket from the channel takes the oldest entry of the buffer. An `α` that comes to a full
  buffer pushes the oldest entry out and gets no ticket, so that tickets and entries stay as many
  (`Feed.Matched`).

  `takenRight_run` and `takenLeft_run`: what is taken of either kind comes in order, all of it but
  for what was pushed out. `taken_run_of_fits`: as long as nothing is pushed out, the two kinds
  come in the order in which they were put, and what was pending comes first.
-/
import LuodaRemote.Lib.Run

namespace LuodaRemote.Lib

variable {α β : Type*}

inductive Ticketed (β : Type*) where
  | ticket
  | direct (b : β)
  deriving DecidableEq

/-- Both oldest first. -/
structure Feed (α β : Type*) where
  channel : List (Ticketed β) := []
  buffer : List α := []
  deriving DecidableEq

inductive FeedAct (α β : Type*) where
  | put (a : α)
  | send (b : β)
  | take

namespace Feed

/-- The entry that `a` pushes out of a full buffer. -/
def pushedOut (cap : ℕ) (l : Feed α β) : Option α :=
  if l.buffer.length < cap then none else l.buffer.head?

def put (cap : ℕ) (a : α) (l : Feed α β) : Feed α β :=
  if l.buffer.length < cap then
    { channel := l.channel ++ [.ticket], buffer := l.buffer ++ [a] }
  else { l with buffer := l.buffer.tail ++ [a] }

def send (b : β) (l : Feed α β) : Feed α β := { l with channel := l.channel ++ [.direct b] }

/-- What the next message of the channel brings. -/
def next (l : Feed α β) : Option (α ⊕ β) :=
  match l.channel with
  | [] => none
  | .ticket :: _ => l.buffer.head?.map .inl
  | .direct b :: _ => some (.inr b)

def take (l : Feed α β) : Feed α β :=
  match l.channel with
  | [] => l
  | .ticket :: c => { channel := c, buffer := l.buffer.tail }
  | .direct _ :: c => { l with channel := c }

def step (cap : ℕ) (l : Feed α β) : FeedAct α β → Feed α β
  | .put a => l.put cap a
  | .send b => l.send b
  | .take => l.take

/-! ## What goes in and what comes out -/

/-- What a step takes from the line. -/
def taken (l : Feed α β) : FeedAct α β → List (α ⊕ β)
  | .take => l.next.toList
  | .put _ | .send _ => []

/-- What a step puts into the line. -/
def given (_ : Feed α β) : FeedAct α β → List (α ⊕ β)
  | .put a => [.inl a]
  | .send b => [.inr b]
  | .take => []

/-- What a step pushes out. -/
def lost (cap : ℕ) (l : Feed α β) : FeedAct α β → List α
  | .put _ => (l.pushedOut cap).toList
  | .send _ | .take => []

/-- There is room for what the step puts. -/
def Fits (cap : ℕ) (l : Feed α β) : FeedAct α β → Prop
  | .put _ => l.buffer.length < cap
  | .send _ | .take => True

/-- What the channel brings if it is emptied with the buffer as it is. -/
def due : List (Ticketed β) → List α → List (α ⊕ β)
  | [], _ => []
  | .direct b :: c, q => .inr b :: due c q
  | .ticket :: c, a :: q => .inl a :: due c q
  | .ticket :: c, [] => due c []

def pending (l : Feed α β) : List (α ⊕ β) := due l.channel l.buffer

/-- What travels in the channel itself. -/
def directs (c : List (Ticketed β)) : List β :=
  c.filterMap fun | .ticket => none | .direct b => some b

def tickets (c : List (Ticketed β)) : ℕ := c.countP fun | .ticket => true | .direct _ => false

/-- There is a ticket for each entry of the buffer. -/
def Matched (l : Feed α β) : Prop := tickets l.channel = l.buffer.length

@[simp] theorem tickets_nil : tickets ([] : List (Ticketed β)) = 0 := rfl

@[simp] theorem tickets_ticket (c : List (Ticketed β)) :
    tickets (.ticket :: c) = tickets c + 1 := by simp [tickets]

@[simp] theorem tickets_direct (b : β) (c : List (Ticketed β)) :
    tickets (.direct b :: c) = tickets c := by simp [tickets]

@[simp] theorem tickets_append (c d : List (Ticketed β)) :
    tickets (c ++ d) = tickets c + tickets d := List.countP_append

@[simp] theorem directs_nil : directs ([] : List (Ticketed β)) = [] := rfl

@[simp] theorem directs_ticket (c : List (Ticketed β)) :
    directs (.ticket :: c) = directs c := rfl

@[simp] theorem directs_direct (b : β) (c : List (Ticketed β)) :
    directs (.direct b :: c) = b :: directs c := rfl

theorem due_direct_last (b : β) (c : List (Ticketed β)) (q : List α) :
    due (c ++ [.direct b]) q = due c q ++ [.inr b] := by
  induction c generalizing q with
  | nil => rfl
  | cons m c ih =>
    cases m with
    | direct b' => exact congrArg (_ :: ·) (ih q)
    | ticket =>
      cases q with
      | nil => exact ih []
      | cons a q => exact congrArg (_ :: ·) (ih q)

/-- With a ticket for each entry, a new ticket brings the new entry. -/
theorem due_ticket_last {c : List (Ticketed β)} {q : List α} (h : tickets c = q.length) (a : α) :
    due (c ++ [.ticket]) (q ++ [a]) = due c q ++ [.inl a] := by
  induction c generalizing q with
  | nil =>
    have hq : q = [] := List.eq_nil_of_length_eq_zero h.symm
    rw [hq]
    rfl
  | cons m c ih =>
    cases m with
    | direct b => exact congrArg (_ :: ·) (ih (by simpa using h))
    | ticket =>
      cases q with
      | nil => simp at h
      | cons a' q => exact congrArg (_ :: ·) (ih (by simpa using h))

theorem due_right (c : List (Ticketed β)) (q : List α) :
    (due c q).filterMap Sum.getRight? = directs c := by
  induction c generalizing q with
  | nil => rfl
  | cons m c ih =>
    cases m with
    | direct b => exact congrArg (b :: ·) (ih q)
    | ticket =>
      cases q with
      | nil => exact ih []
      | cons a q => exact ih q

theorem due_left {c : List (Ticketed β)} {q : List α} (h : tickets c = q.length) :
    (due c q).filterMap Sum.getLeft? = q := by
  induction c generalizing q with
  | nil => exact (List.eq_nil_of_length_eq_zero h.symm).symm
  | cons m c ih =>
    cases m with
    | direct b => exact ih (by simpa using h)
    | ticket =>
      cases q with
      | nil => simp at h
      | cons a q => exact congrArg (a :: ·) (ih (by simpa using h))

/-! ## One step -/

section
variable {cap : ℕ}

theorem matched_step (hcap : 0 < cap) (l : Feed α β) (x : FeedAct α β) (h : l.Matched) :
    (l.step cap x).Matched := by
  obtain ⟨c, q⟩ := l
  change tickets c = q.length at h
  cases x with
  | put a =>
    by_cases hroom : q.length < cap
    · simp [step, put, hroom, Matched, h]
    · have hq : 0 < q.length := by omega
      simp only [step, put, hroom, if_false, Matched, List.length_append, List.length_tail,
        List.length_singleton]
      omega
  | send b => simp [step, send, Matched, h]
  | take =>
    match c with
    | [] => exact h
    | .direct b :: c => simpa [step, take, Matched] using h
    | .ticket :: c =>
      simp only [tickets_ticket] at h
      simp only [step, take, Matched, List.length_tail]
      omega

/-- What was pending and what a fitting step puts is what it takes and what is pending then. -/
theorem pending_step {l : Feed α β} {x : FeedAct α β} (h : l.Matched) (hfit : l.Fits cap x) :
    l.taken x ++ (l.step cap x).pending = l.pending ++ l.given x := by
  obtain ⟨c, q⟩ := l
  change tickets c = q.length at h
  cases x with
  | put a =>
    change q.length < cap at hfit
    simpa [taken, given, step, put, hfit, pending] using due_ticket_last h a
  | send b => simpa [taken, given, step, send, pending] using due_direct_last b c q
  | take =>
    match c, q with
    | .ticket :: c, [] => simp at h
    | [], _ | .direct _ :: _, _ | .ticket :: _, _ :: _ =>
      simp [taken, given, step, take, next, pending, due]

/-- The direct messages keep their order, whatever happens to the buffer. -/
theorem directs_step (l : Feed α β) (x : FeedAct α β) :
    (l.taken x).filterMap Sum.getRight? ++ directs (l.step cap x).channel =
      directs l.channel ++ (l.given x).filterMap Sum.getRight? := by
  obtain ⟨c, q⟩ := l
  cases x with
  | put a => by_cases hroom : q.length < cap <;> simp [taken, given, step, put, hroom, directs]
  | send b => simp [taken, given, step, send, directs]
  | take =>
    match c, q with
    | [], _ | .direct _ :: _, _ | .ticket :: _, [] | .ticket :: _, _ :: _ =>
      simp [taken, given, step, take, next]

/-- An entry is taken from the front of the buffer or pushed out of it there. -/
theorem buffer_step (hcap : 0 < cap) {l : Feed α β} {x : FeedAct α β} (h : l.Matched) :
    (l.taken x).filterMap Sum.getLeft? ++ l.lost cap x ++ (l.step cap x).buffer =
      l.buffer ++ (l.given x).filterMap Sum.getLeft? := by
  obtain ⟨c, q⟩ := l
  change tickets c = q.length at h
  cases x with
  | put a =>
    by_cases hroom : q.length < cap
    · simp [taken, given, lost, pushedOut, step, put, hroom]
    · match q with
      | [] => exact absurd hcap hroom
      | b :: q =>
        have hfull : ¬ q.length + 1 < cap := hroom
        simp [taken, given, lost, pushedOut, step, put, hfull]
  | send b => simp [taken, given, lost, step, send]
  | take =>
    match c, q with
    | .ticket :: c, [] => simp at h
    | [], _ | .direct _ :: _, _ | .ticket :: _, _ :: _ =>
      simp [taken, given, lost, step, take, next]

/-! ## Runs -/

theorem matched_run (hcap : 0 < cap) {l : Feed α β} (h : l.Matched) (xs : List (FeedAct α β)) :
    (run (step cap) l xs).Matched :=
  (always_of_step (matched_step hcap) h xs).last

/-- As long as nothing is pushed out, the line is a queue. -/
theorem taken_run_of_fits (hcap : 0 < cap) {l : Feed α β} {xs : List (FeedAct α β)}
    (h : l.Matched) (hfits : Along (step cap) (Fits cap) l xs) :
    emitted (step cap) taken l xs ++ (run (step cap) l xs).pending =
      l.pending ++ emitted (step cap) given l xs :=
  emitted_conserved pending (fun l x hl _ => matched_step hcap l x hl)
    (fun _ _ hl hx => pending_step hl hx) h hfits

/-- A line that pushes nothing out had room for everything. -/
theorem fits_of_lost (hcap : 0 < cap) {l : Feed α β} {xs : List (FeedAct α β)}
    (h : emitted (step cap) (lost cap) l xs = []) : Along (step cap) (Fits cap) l xs := by
  induction xs generalizing l with
  | nil => trivial
  | cons x xs ih =>
    obtain ⟨hx, hxs⟩ := List.append_eq_nil_iff.mp h
    refine ⟨?_, ih hxs⟩
    cases x with
    | put a =>
      by_contra hfull
      have hfull : ¬ l.buffer.length < cap := hfull
      have hempty : l.buffer = [] := by simpa [lost, pushedOut, hfull] using hx
      exact hfull (by simpa [hempty] using hcap)
    | send b => trivial
    | take => trivial

theorem takenRight_run (l : Feed α β) (xs : List (FeedAct α β)) :
    (emitted (step cap) taken l xs).filterMap Sum.getRight? ++
        directs (run (step cap) l xs).channel =
      directs l.channel ++ (emitted (step cap) given l xs).filterMap Sum.getRight? := by
  rw [filterMap_emitted, filterMap_emitted]
  exact emitted_conserved (fun l : Feed α β => directs l.channel) (I := fun _ => True)
    (fun _ _ _ _ => trivial) (fun l x _ _ => directs_step l x) trivial
    (along_of_mem (D := fun _ => True) fun _ _ => trivial)

/-- Every entry leaves the buffer in its turn, taken or pushed out. -/
theorem leaving_run (hcap : 0 < cap) {l : Feed α β} (h : l.Matched) (xs : List (FeedAct α β)) :
    emitted (step cap) (fun l x => (l.taken x).filterMap Sum.getLeft? ++ l.lost cap x) l xs ++
        (run (step cap) l xs).buffer =
      l.buffer ++ (emitted (step cap) given l xs).filterMap Sum.getLeft? := by
  rw [filterMap_emitted]
  exact emitted_conserved buffer (C := fun _ _ => True) (fun l x hl _ => matched_step hcap l x hl)
    (fun _ _ hl _ => buffer_step hcap hl) h (along_of_mem fun _ _ => trivial)

/-- What is taken of the buffer comes in order, and so does what is left in it. -/
theorem takenLeft_run (hcap : 0 < cap) {l : Feed α β} (h : l.Matched)
    (xs : List (FeedAct α β)) :
    ((emitted (step cap) taken l xs).filterMap Sum.getLeft? ++
        (run (step cap) l xs).buffer).Sublist
      (l.buffer ++ (emitted (step cap) given l xs).filterMap Sum.getLeft?) := by
  rw [← leaving_run hcap h xs, filterMap_emitted]
  exact (emitted_sublist (fun _ _ => List.sublist_append_left _ _) l xs).append_right _

/-- No entry leaves the buffer in any other way. -/
theorem length_leaving_run (hcap : 0 < cap) {l : Feed α β} (h : l.Matched)
    (xs : List (FeedAct α β)) :
    ((emitted (step cap) taken l xs).filterMap Sum.getLeft?).length +
        (emitted (step cap) (lost cap) l xs).length + (run (step cap) l xs).buffer.length =
      l.buffer.length + ((emitted (step cap) given l xs).filterMap Sum.getLeft?).length := by
  have hlen := congrArg List.length (leaving_run hcap h xs)
  rw [List.length_append, List.length_append, length_emitted_append, ← filterMap_emitted] at hlen
  omega

end

end Feed

end LuodaRemote.Lib
