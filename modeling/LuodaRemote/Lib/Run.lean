/-
  Runs of a deterministic system, with no fixed state or action type.

  `step : σ → α → σ` is the transition function and a run is the list of actions taken
  from a start state. `Always P s as` says that `P` holds in every state of the run (the
  first one included), `Along C s as` says that every step of it, seen as the state before
  and the action, satisfies `C`. `always_of_along` is the invariant rule,
  `always_iff_along` its exact form: when one step keeps `P` precisely under `C`, the
  states of a run all satisfy `P` precisely when its steps all satisfy `C`.

  `collect` gathers what the steps of a run show, and `count_collect_le` bounds how often a value
  shows up by what is kept in stock for it. `emitted` is what a run sends, step by step;
  `emitted_conserved` weighs it against what comes in, and `run_driven` follows a part of a
  system that goes steps of its own; `lockstep_of_along` compares two systems that take the same
  actions.

  `histStep` runs the same system and keeps the steps taken so far, so that a state
  property may speak about what happened before it.
-/
import Mathlib.Tactic

namespace LuodaRemote.Lib

variable {σ α : Type*} {step : σ → α → σ}

/-- The state after the actions `as`. -/
def run (step : σ → α → σ) (s : σ) (as : List α) : σ := as.foldl step s

/-- `P` holds in every state of the run. -/
def Always (step : σ → α → σ) (P : σ → Prop) : σ → List α → Prop
  | s, [] => P s
  | s, a :: as => P s ∧ Always step P (step s a) as

/-- Every step of the run satisfies `C`. -/
def Along (step : σ → α → σ) (C : σ → α → Prop) : σ → List α → Prop
  | _, [] => True
  | s, a :: as => C s a ∧ Along step C (step s a) as

instance Along.decidable {C : σ → α → Prop} [∀ s a, Decidable (C s a)] :
    ∀ (s : σ) (as : List α), Decidable (Along step C s as)
  | _, [] => .isTrue trivial
  | s, a :: as =>
    have := Along.decidable (C := C) (step s a) as
    inferInstanceAs (Decidable (C s a ∧ Along step C (step s a) as))

@[simp] theorem run_nil (s : σ) : run step s [] = s := rfl

@[simp] theorem run_cons (s : σ) (a : α) (as : List α) :
    run step s (a :: as) = run step (step s a) as := rfl

/-- What `f` reads off the steps of the run, in order. -/
def collect {β : Type*} (step : σ → α → σ) (f : σ → α → Option β) : σ → List α → List β
  | _, [] => []
  | s, a :: as => (f s a).toList ++ collect step f (step s a) as

theorem run_append (s : σ) (as bs : List α) :
    run step s (as ++ bs) = run step (run step s as) bs := List.foldl_append

/-! ## Invariants -/

theorem Always.head {P : σ → Prop} {s : σ} {as : List α} (h : Always step P s as) : P s := by
  cases as with
  | nil => exact h
  | cons a as => exact h.1

theorem Always.mono {P Q : σ → Prop} (hPQ : ∀ s, P s → Q s) :
    ∀ {s : σ} {as : List α}, Always step P s as → Always step Q s as
  | _, [], h => hPQ _ h
  | _, _ :: _, h => ⟨hPQ _ h.1, Always.mono hPQ h.2⟩

theorem Always.last {P : σ → Prop} {s : σ} {as : List α} (h : Always step P s as) :
    P (run step s as) := by
  induction as generalizing s with
  | nil => exact h
  | cons a as ih => exact ih h.2

theorem Along.mono {C D : σ → α → Prop} (hCD : ∀ s a, C s a → D s a) :
    ∀ {s : σ} {as : List α}, Along step C s as → Along step D s as
  | _, [], _ => trivial
  | _, _ :: _, h => ⟨hCD _ _ h.1, Along.mono hCD h.2⟩

theorem Along.and {C D : σ → α → Prop} :
    ∀ {s : σ} {as : List α}, Along step C s as → Along step D s as →
      Along step (fun s a => C s a ∧ D s a) s as
  | _, [], _, _ => trivial
  | _, _ :: _, hc, hd => ⟨⟨hc.1, hd.1⟩, hc.2.and hd.2⟩

theorem along_append {C : σ → α → Prop} {s : σ} {as bs : List α} :
    Along step C s (as ++ bs) ↔ Along step C s as ∧ Along step C (run step s as) bs := by
  induction as generalizing s with
  | nil => simp [Along]
  | cons a as ih => simp only [List.cons_append, Along, run_cons, ih, and_assoc]

theorem along_iff_mem {D : α → Prop} {s : σ} {as : List α} :
    Along step (fun _ a => D a) s as ↔ ∀ a ∈ as, D a := by
  induction as generalizing s with
  | nil => simp [Along]
  | cons a as ih => rw [Along, ih, List.forall_mem_cons]

/-- What holds of every action of a run, whatever the state, holds along it. -/
theorem along_of_mem {D : α → Prop} {s : σ} {as : List α} (hD : ∀ a ∈ as, D a) :
    Along step (fun _ a => D a) s as := along_iff_mem.mpr hD

/-- A run satisfies `C` along its steps if each of them does, where it happens. -/
theorem along_of_splits {C : σ → α → Prop} {s : σ} {as : List α}
    (hC : ∀ before a after, as = before ++ a :: after → C (run step s before) a) :
    Along step C s as := by
  induction as generalizing s with
  | nil => trivial
  | cons a as ih =>
    refine ⟨hC [] a as rfl, ih fun before b after has => ?_⟩
    exact hC (a :: before) b after (by rw [has]; rfl)

/-- The invariant rule: a property that each step allowed by `C` keeps holds throughout a
    run whose steps are all allowed. -/
theorem always_of_along {P : σ → Prop} {C : σ → α → Prop}
    (hstep : ∀ s a, P s → C s a → P (step s a)) :
    ∀ {s : σ} {as : List α}, P s → Along step C s as → Always step P s as
  | _, [], h0, _ => h0
  | _, _ :: _, h0, hc =>
    ⟨h0, always_of_along hstep (hstep _ _ h0 hc.1) hc.2⟩

/-- A property that every step keeps holds throughout every run. -/
theorem always_of_step {P : σ → Prop} (hstep : ∀ s a, P s → P (step s a)) {s : σ}
    (h0 : P s) (as : List α) : Always step P s as := by
  induction as generalizing s with
  | nil => exact h0
  | cons a as ih => exact ⟨h0, ih (hstep s a h0)⟩

/-- A run that keeps `P` keeps `Q` as well, if from `Q` a step cannot keep `P` without it. -/
theorem Always.strengthen {P Q : σ → Prop} (hstep : ∀ s a, Q s → P (step s a) → Q (step s a)) :
    ∀ {s : σ} {as : List α}, Q s → Always step P s as → Always step Q s as
  | _, [], hQ, _ => hQ
  | _, _ :: _, hQ, hP => ⟨hQ, Always.strengthen hstep (hstep _ _ hQ hP.2.head) hP.2⟩

/-- What holds of every step from a state satisfying `P` holds along the run. -/
theorem Always.steps {P : σ → Prop} {D : σ → α → Prop} (hD : ∀ s a, P s → D s a) :
    ∀ {s : σ} {as : List α}, Always step P s as → Along step D s as
  | _, [], _ => trivial
  | _, _ :: _, hp => ⟨hD _ _ hp.1, Always.steps hD hp.2⟩

/-- What holds of every step allowed by `C` from a state satisfying `P` holds along a run
    that satisfies both. -/
theorem Always.along {P : σ → Prop} {C D : σ → α → Prop} (hD : ∀ s a, P s → C s a → D s a) :
    ∀ {s : σ} {as : List α}, Always step P s as → Along step C s as → Along step D s as
  | _, [], _, _ => trivial
  | _, _ :: _, hp, hc => ⟨hD _ _ hp.1 hc.1, Always.along hD hp.2 hc.2⟩

/-- The exact form of the invariant rule, relative to an invariant `I` and to what is assumed of
    the steps: if a step from a good state ends in a good state precisely under `C`, then a run
    stays good precisely when all its steps satisfy `C`. -/
theorem always_iff_along_of {I P : σ → Prop} {C E : σ → α → Prop}
    (hI : ∀ s a, I s → E s a → I (step s a))
    (hstep : ∀ s a, I s → E s a → P s → (P (step s a) ↔ C s a)) :
    ∀ {s : σ} {as : List α}, I s → P s → Along step E s as →
      (Always step P s as ↔ Along step C s as)
  | _, [], _, h0, _ => by simp [Always, Along, h0]
  | s, a :: as, hi, h0, he => by
      have hi1 : I (step s a) := hI s a hi he.1
      constructor
      · rintro ⟨_, hrest⟩
        have hc : C s a := (hstep s a hi he.1 h0).mp hrest.head
        exact ⟨hc, (always_iff_along_of hI hstep hi1 hrest.head he.2).mp hrest⟩
      · rintro ⟨hc, hrest⟩
        have h1 : P (step s a) := (hstep s a hi he.1 h0).mpr hc
        exact ⟨h0, (always_iff_along_of hI hstep hi1 h1 he.2).mpr hrest⟩

/-- The same with nothing assumed of the steps. -/
theorem always_iff_along {I P : σ → Prop} {C : σ → α → Prop}
    (hI : ∀ s a, I s → I (step s a))
    (hstep : ∀ s a, I s → P s → (P (step s a) ↔ C s a))
    {s : σ} {as : List α} (hi : I s) (h0 : P s) : Always step P s as ↔ Along step C s as :=
  always_iff_along_of (fun s a hs _ => hI s a hs) (fun s a hs (_ : True) => hstep s a hs) hi h0
    (along_of_mem fun _ _ => trivial)

/-- Two ways to say that a run is good are one, if they are one from the states of `I`, and a good
    step stays in `I`. -/
theorem along_iff_along {I : σ → Prop} {C D : σ → α → Prop}
    (hiff : ∀ s a, I s → (D s a ↔ C s a)) (hI : ∀ s a, I s → C s a → I (step s a)) :
    ∀ {s : σ} {as : List α}, I s → (Along step D s as ↔ Along step C s as)
  | _, [], _ => Iff.rfl
  | s, a :: as, hi => by
      constructor
      · rintro ⟨hd, hrest⟩
        have hc : C s a := (hiff s a hi).mp hd
        exact ⟨hc, (along_iff_along hiff hI (hI s a hi hc)).mp hrest⟩
      · rintro ⟨hc, hrest⟩
        exact ⟨(hiff s a hi).mpr hc, (along_iff_along hiff hI (hI s a hi hc)).mpr hrest⟩

/-! ## Counting -/

/-- A stock that each occurrence of `b` draws on and only `supply` refills bounds the
    number of occurrences. -/
theorem count_collect_le {β : Type*} [DecidableEq β] {f g : σ → α → Option β} {I : σ → Prop}
    {b : β} (stock : σ → ℕ → Prop) (hI : ∀ s a, I s → I (step s a))
    (hstep : ∀ s a n, I s → stock s n →
      ∃ m, stock (step s a) m ∧
        m + (f s a).toList.count b ≤ n + (g s a).toList.count b) :
    ∀ {s : σ} (as : List α) {n : ℕ}, I s → stock s n →
      (collect step f s as).count b ≤ n + (collect step g s as).count b
  | _, [], n, _, _ => by simp [collect]
  | s, a :: as, n, hi, hn => by
      obtain ⟨m, hm, hle⟩ := hstep s a n hi hn
      have ih := count_collect_le stock hI hstep as (hI s a hi) hm
      simp only [collect, List.count_append]
      omega

/-! ## Two systems side by side -/

/-- What the steps of the run send, in order. -/
def emitted {β : Type*} (step : σ → α → σ) (out : σ → α → List β) : σ → List α → List β
  | _, [] => []
  | s, a :: as => out s a ++ emitted step out (step s a) as

theorem emitted_append {β : Type*} {out : σ → α → List β} (s : σ) (as bs : List α) :
    emitted step out s (as ++ bs) =
      emitted step out s as ++ emitted step out (run step s as) bs := by
  induction as generalizing s with
  | nil => rfl
  | cons a as ih =>
    show out s a ++ emitted step out (step s a) (as ++ bs) = _
    rw [ih (step s a), ← List.append_assoc]
    rfl

/-- What is kept in stock: if every step leaves what there was and what it brings, in order,
    as what it hands out and what there is then, then so does a run. -/
theorem emitted_conserved {β : Type*} {out into : σ → α → List β} (stock : σ → List β)
    {I : σ → Prop} {C : σ → α → Prop} (hI : ∀ s a, I s → C s a → I (step s a))
    (hstep : ∀ s a, I s → C s a → out s a ++ stock (step s a) = stock s ++ into s a) {s : σ}
    {as : List α} (hs : I s) (hC : Along step C s as) :
    emitted step out s as ++ stock (run step s as) = stock s ++ emitted step into s as := by
  induction as generalizing s with
  | nil => exact (List.append_nil _).symm
  | cons a as ih =>
    show (out s a ++ emitted step out (step s a) as) ++ stock (run step (step s a) as) =
      stock s ++ (into s a ++ emitted step into (step s a) as)
    rw [List.append_assoc, ih (hI s a hs hC.1) hC.2, ← List.append_assoc,
      hstep s a hs hC.1, List.append_assoc]

theorem filterMap_emitted {β γ : Type*} (p : β → Option γ) (out : σ → α → List β) (s : σ)
    (as : List α) : (emitted step out s as).filterMap p =
      emitted step (fun s a => (out s a).filterMap p) s as := by
  induction as generalizing s with
  | nil => rfl
  | cons a as ih => exact List.filterMap_append.trans (congrArg (_ ++ ·) (ih (step s a)))

theorem length_emitted_append {β : Type*} (f g : σ → α → List β) (s : σ) (as : List α) :
    (emitted step (fun s a => f s a ++ g s a) s as).length =
      (emitted step f s as).length + (emitted step g s as).length := by
  induction as generalizing s with
  | nil => rfl
  | cons a as ih =>
    simp only [emitted, List.length_append, ih (step s a)]
    omega

theorem forall_mem_emitted {β : Type*} {out : σ → α → List β} {P : β → Prop}
    (h : ∀ s a, ∀ b ∈ out s a, P b) (s : σ) (as : List α) : ∀ b ∈ emitted step out s as, P b := by
  induction as generalizing s with
  | nil => exact List.forall_mem_nil P
  | cons a as ih => exact List.forall_mem_append.mpr ⟨h s a, ih (step s a)⟩

/-- What is handed out in part of the cases comes in the order of all. -/
theorem emitted_sublist {β : Type*} {out all : σ → α → List β}
    (h : ∀ s a, (out s a).Sublist (all s a)) (s : σ) (as : List α) :
    (emitted step out s as).Sublist (emitted step all s as) := by
  induction as generalizing s with
  | nil => exact List.Sublist.slnil
  | cons a as ih => exact (h s a).append (ih (step s a))

/-- A part of a system that goes its own steps, those which the system's step drives it to. -/
theorem run_driven {τ γ : Type*} {stepB : τ → γ → τ} {part : σ → τ} {drive : σ → α → List γ}
    (h : ∀ s a, part (step s a) = run stepB (part s) (drive s a)) (s : σ) (as : List α) :
    part (run step s as) = run stepB (part s) (emitted step drive s as) := by
  induction as generalizing s with
  | nil => rfl
  | cons a as ih =>
    show part (run step (step s a) as) =
      run stepB (part s) (drive s a ++ emitted step drive (step s a) as)
    rw [ih, h, run_append]

/-- What the part sends is what its steps send, one step of the system after the other. -/
theorem emitted_driven {τ γ β : Type*} {stepB : τ → γ → τ} {part : σ → τ}
    {drive : σ → α → List γ} {outB : τ → γ → List β}
    (h : ∀ s a, part (step s a) = run stepB (part s) (drive s a)) (s : σ) (as : List α) :
    emitted stepB outB (part s) (emitted step drive s as) =
      emitted step (fun s a => emitted stepB outB (part s) (drive s a)) s as := by
  induction as generalizing s with
  | nil => rfl
  | cons a as ih =>
    show emitted stepB outB (part s) (drive s a ++ emitted step drive (step s a) as) = _
    rw [emitted_append, ← h, ih]
    rfl

/-- A system that sends nothing and stays so. -/
theorem emitted_of_idle {β : Type*} {out : σ → α → List β} {I : σ → Prop}
    (hidle : ∀ s a, I s → out s a = [] ∧ I (step s a)) {s : σ} (hs : I s) (as : List α) :
    emitted step out s as = [] := by
  induction as generalizing s with
  | nil => rfl
  | cons a as ih =>
    show out s a ++ emitted step out (step s a) as = []
    rw [(hidle s a hs).1, ih (hidle s a hs).2]
    rfl

/-- Two systems that send the same from related states, and stay related, at every step that
    satisfies `C`. -/
theorem lockstep_of_along {τ β : Type*} {stepB : τ → α → τ} {out : σ → α → List β}
    {outB : τ → α → List β} {R : σ → τ → Prop} {C : σ → α → Prop}
    (hstep : ∀ s t a, R s t → C s a → out s a = outB t a ∧ R (step s a) (stepB t a)) {s : σ}
    {t : τ} {as : List α} (hR : R s t) (hC : Along step C s as) :
    emitted step out s as = emitted stepB outB t as ∧ R (run step s as) (run stepB t as) := by
  induction as generalizing s t with
  | nil => exact ⟨rfl, hR⟩
  | cons a as ih =>
    obtain ⟨hout, hnext⟩ := hstep s t a hR hC.1
    obtain ⟨hrest, hlast⟩ := ih hnext hC.2
    refine ⟨?_, hlast⟩
    show out s a ++ emitted step out (step s a) as =
      outB t a ++ emitted stepB outB (stepB t a) as
    rw [hout, hrest]

/-! ## Runs that remember their steps -/

/-- The system with its history: the steps taken so far, oldest first. -/
def histStep (step : σ → α → σ) (p : σ × List (σ × α)) (a : α) : σ × List (σ × α) :=
  (step p.1 a, p.2 ++ [(p.1, a)])

theorem along_histStep {C : σ → α → Prop} :
    ∀ {s : σ} {as : List α} (past : List (σ × α)),
      Along (histStep step) (fun p a => C p.1 a) (s, past) as ↔ Along step C s as
  | _, [], _ => Iff.rfl
  | _, _ :: _, _ => and_congr Iff.rfl (along_histStep _)

/-- What was remembered is not forgotten. -/
theorem run_histStep_past (step : σ → α → σ) (p : σ × List (σ × α)) (as : List α) :
    ∃ more, (run (histStep step) p as).2 = p.2 ++ more := by
  induction as generalizing p with
  | nil => exact ⟨[], (List.append_nil _).symm⟩
  | cons a as ih =>
    obtain ⟨more, hmore⟩ := ih (histStep step p a)
    exact ⟨(p.1, a) :: more, by rw [run_cons, hmore]; simp [histStep]⟩

end LuodaRemote.Lib
