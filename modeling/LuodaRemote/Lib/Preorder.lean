/-
  A depth-first listing of a graph. A node tells its successors, or why it cannot, and so does
  every single one of them; the first failure ends everything.

  `visit` lists a node and then what is behind it and is not listed yet. Fuel is for the depth:
  `visit_ne_none` says how much is enough. `mem_list` says what is listed, `list_ok_iff` when the
  listing does not fail, and `inOrder_iff`, for a forest, when every node comes before its
  successors.
-/
import Mathlib.Logic.Relation
import Mathlib.Tactic

namespace LuodaRemote.Lib.Preorder

variable {α ε : Type}

/-- One after the other, up to the first failure; `none` is a lack of fuel. -/
def visitAll (visit : α → List α → Option (Except ε (List α))) :
    List (Except ε α) → List α → Option (Except ε (List α))
  | [], listed => some (.ok listed)
  | .error e :: _, _ => some (.error e)
  | .ok a :: rest, listed =>
    match visit a listed with
    | none => none
    | some (.error e) => some (.error e)
    | some (.ok listed) => visitAll visit rest listed

/-- A node and what is behind it. -/
def visit [DecidableEq α] (expand : α → Except ε (List (Except ε α))) :
    Nat → α → List α → Option (Except ε (List α))
  | 0, _, _ => none
  | fuel + 1, a, listed =>
    if a ∈ listed then some (.ok listed)
    else match expand a with
      | .error e => some (.error e)
      | .ok next => visitAll (visit expand fuel) next (listed ++ [a])

/-- The nodes and what is behind them. -/
def list [DecidableEq α] (expand : α → Except ε (List (Except ε α))) (fuel : Nat)
    (roots : List α) : Option (Except ε (List α)) :=
  visitAll (visit expand fuel) (roots.map .ok) []

/-! ## What a visit adds -/

def Next (expand : α → Except ε (List (Except ε α))) (a b : α) : Prop :=
  ∃ next, expand a = .ok next ∧ .ok b ∈ next

/-- The node and all its successors are told. -/
def Sound (expand : α → Except ε (List (Except ε α))) (a : α) : Prop :=
  ∃ next, expand a = .ok next ∧ ∀ e, .error e ∉ next

/-- It is behind one of the roots, or one itself. -/
def Reach (expand : α → Except ε (List (Except ε α))) (roots : α → Prop) (b : α) : Prop :=
  ∃ a, roots a ∧ Relation.ReflTransGen (Next expand) a b

/-- What comes to a list: new nodes, once each, with their successors listed too. One that is not a
    root comes after a node that it is a successor of. -/
structure Grows (expand : α → Except ε (List (Except ε α))) (roots : α → Prop)
    (listed new : List α) : Prop where
  fresh : ∀ a ∈ new, a ∉ listed
  nodup : new.Nodup
  sound : ∀ a ∈ new, Sound expand a
  closed : ∀ a ∈ new, ∀ b, Next expand a b → b ∈ listed ++ new
  parent : ∀ before a after, new = before ++ a :: after →
    roots a ∨ ∃ b ∈ before, Next expand b a

section Growth

variable {expand : α → Except ε (List (Except ε α))} {roots roots' : α → Prop}
  {listed new new' listed' : List α} {a b : α} {fuel : Nat}

theorem Next.unique_expand {next : List (Except ε α)} (h : expand a = .ok next) :
    Next expand a b ↔ .ok b ∈ next := by
  constructor
  · rintro ⟨next', h', hb⟩
    rw [h] at h'
    cases h'
    exact hb
  · exact fun hb => ⟨next, h, hb⟩

theorem Reach.of_root (h : roots a) : Reach expand roots a := ⟨a, h, .refl⟩

theorem Reach.next (h : Reach expand roots a) (hb : Next expand a b) : Reach expand roots b := by
  obtain ⟨r, hr, hpath⟩ := h
  exact ⟨r, hr, hpath.tail hb⟩

theorem Reach.mono (hroots : ∀ a, roots a → roots' a) (h : Reach expand roots a) :
    Reach expand roots' a := by
  obtain ⟨r, hr, hpath⟩ := h
  exact ⟨r, hroots r hr, hpath⟩

theorem grows_nil (roots : α → Prop) : Grows expand roots listed [] where
  fresh := List.forall_mem_nil _
  nodup := List.nodup_nil
  sound := List.forall_mem_nil _
  closed := List.forall_mem_nil _
  parent before a after h := by simp at h

theorem Grows.mono (hroots : ∀ a, roots a → roots' a) (h : Grows expand roots listed new) :
    Grows expand roots' listed new :=
  { h with parent := fun before a after heq => (h.parent before a after heq).imp_left (hroots a) }

/-- Two parts of a list, one behind the other. -/
theorem append_eq_append_cons {before after : List α} (h : new ++ new' = before ++ a :: after) :
    (∃ rest, new = before ++ a :: rest) ∨
      ∃ init, before = new ++ init ∧ new' = init ++ a :: after := by
  rcases List.append_eq_append_iff.mp h with ⟨init, rfl, hnew⟩ | ⟨rest, rfl, hcons⟩
  · exact .inr ⟨init, rfl, hnew⟩
  · cases rest with
    | nil => exact .inr ⟨[], by simp, by simpa using hcons.symm⟩
    | cons x rest =>
      rw [List.cons_append, List.cons.injEq] at hcons
      obtain ⟨rfl, -⟩ := hcons
      exact .inl ⟨rest, rfl⟩

theorem Grows.append (h : Grows expand roots listed new)
    (h' : Grows expand roots' (listed ++ new) new') :
    Grows expand (fun a => roots a ∨ roots' a) listed (new ++ new') where
  fresh a ha := by
    rcases List.mem_append.mp ha with ha | ha
    · exact h.fresh a ha
    · exact fun hl => h'.fresh a ha (List.mem_append_left _ hl)
  nodup := List.nodup_append'.mpr ⟨h.nodup, h'.nodup, fun a ha ha' =>
    h'.fresh a ha' (List.mem_append_right _ ha)⟩
  sound := List.forall_mem_append.mpr ⟨h.sound, h'.sound⟩
  closed a ha b hb := by
    rw [← List.append_assoc]
    rcases List.mem_append.mp ha with ha | ha
    · exact List.mem_append_left _ (h.closed a ha b hb)
    · exact h'.closed a ha b hb
  parent before a after heq := by
    rcases append_eq_append_cons heq with ⟨rest, hnew⟩ | ⟨init, rfl, hnew⟩
    · exact (h.parent before a rest hnew).imp_left .inl
    · rcases h'.parent init a after hnew with hroot | ⟨b, hb, hnext⟩
      · exact .inl (.inr hroot)
      · exact .inr ⟨b, List.mem_append_right _ hb, hnext⟩

/-- Everything that comes to the list is behind a root. -/
theorem Grows.reach (h : Grows expand roots listed new) : ∀ a ∈ new, Reach expand roots a := by
  have hprefix : ∀ n before rest, before.length = n → new = before ++ rest →
      ∀ a ∈ before, Reach expand roots a := by
    intro n
    induction n with
    | zero =>
      intro before rest hlen _ a ha
      rw [List.length_eq_zero_iff.mp hlen] at ha
      cases ha
    | succ n ih =>
      intro before rest hlen heq a ha
      obtain ⟨init, last, rfl⟩ := (List.eq_nil_or_concat' before).resolve_left fun hnil => by
        rw [hnil] at hlen
        cases hlen
      rw [List.append_assoc, List.singleton_append] at heq
      have hinit := ih init (last :: rest)
        (by rw [List.length_append, List.length_singleton] at hlen; omega) heq
      rcases List.mem_append.mp ha with ha | ha
      · exact hinit a ha
      · rw [List.mem_singleton.mp ha]
        rcases h.parent init last rest heq with hroot | ⟨b, hb, hnext⟩
        · exact .of_root hroot
        · exact (hinit b hb).next hnext
  exact hprefix new.length new [] rfl (List.append_nil new).symm

theorem visitAll_grows {visit : α → List α → Option (Except ε (List α))}
    (hvisit : ∀ a listed listed', visit a listed = some (.ok listed') →
      ∃ new, listed' = listed ++ new ∧ Grows expand (· = a) listed new ∧ a ∈ listed')
    {items : List (Except ε α)} (h : visitAll visit items listed = some (.ok listed')) :
    ∃ new, listed' = listed ++ new ∧ Grows expand (fun a => .ok a ∈ items) listed new ∧
      ∀ x ∈ items, ∃ a, x = .ok a ∧ a ∈ listed' := by
  induction items generalizing listed with
  | nil =>
    cases h
    exact ⟨[], (List.append_nil _).symm, grows_nil _, List.forall_mem_nil _⟩
  | cons x rest ih =>
    cases x with
    | error e => cases h
    | ok a =>
      rw [visitAll] at h
      cases hv : visit a listed with
      | none =>
        rw [hv] at h
        cases h
      | some r =>
        rw [hv] at h
        cases r with
        | error e => cases h
        | ok mid =>
          obtain ⟨new, rfl, hnew, ha⟩ := hvisit a listed mid hv
          obtain ⟨new', rfl, hnew', hrest⟩ := ih h
          refine ⟨new ++ new', List.append_assoc _ _ _,
            (hnew.append hnew').mono ?_, List.forall_mem_cons.mpr ⟨⟨a, rfl, ?_⟩, hrest⟩⟩
          · rintro b (rfl | hb)
            · exact List.mem_cons_self
            · exact List.mem_cons_of_mem _ hb
          · exact List.mem_append_left _ ha

variable [DecidableEq α]

theorem visit_grows {fuel : Nat} (h : visit expand fuel a listed = some (.ok listed')) :
    ∃ new, listed' = listed ++ new ∧ Grows expand (· = a) listed new ∧ a ∈ listed' := by
  induction fuel generalizing a listed listed' with
  | zero => cases h
  | succ fuel ih =>
    rw [visit] at h
    by_cases hmem : a ∈ listed
    · rw [if_pos hmem] at h
      cases h
      exact ⟨[], (List.append_nil _).symm, grows_nil _, hmem⟩
    · rw [if_neg hmem] at h
      cases hexpand : expand a with
      | error e =>
        rw [hexpand] at h
        cases h
      | ok next =>
        rw [hexpand] at h
        obtain ⟨new, rfl, hnew, hall⟩ := visitAll_grows (fun a l l' => ih) h
        have hsound : Sound expand a :=
          ⟨next, hexpand, fun e he => by
            obtain ⟨b, hb, -⟩ := hall _ he
            cases hb⟩
        refine ⟨a :: new, by rw [List.append_assoc, List.singleton_append], ?_, ?_⟩
        · exact {
            fresh := List.forall_mem_cons.mpr ⟨hmem, fun b hb hl =>
              hnew.fresh b hb (List.mem_append_left _ hl)⟩
            nodup := List.nodup_cons.mpr ⟨fun ha =>
              hnew.fresh a ha (List.mem_append_right _ (List.mem_singleton_self a)), hnew.nodup⟩
            sound := List.forall_mem_cons.mpr ⟨hsound, hnew.sound⟩
            closed := by
              rw [← List.singleton_append, ← List.append_assoc]
              refine List.forall_mem_append.mpr ⟨?_, hnew.closed⟩
              intro b hb c hc
              rw [List.mem_singleton.mp hb, Next.unique_expand hexpand] at hc
              obtain ⟨c', hc', hmem'⟩ := hall _ hc
              cases hc'
              exact hmem'
            parent := by
              intro before b after heq
              cases before with
              | nil =>
                rw [List.nil_append, List.cons.injEq] at heq
                exact .inl heq.1.symm
              | cons c before =>
                rw [List.cons_append, List.cons.injEq] at heq
                obtain ⟨rfl, heq⟩ := heq
                refine .inr ?_
                rcases hnew.parent before b after heq with hb | ⟨d, hd, hnext⟩
                · exact ⟨a, List.mem_cons_self, next, hexpand, hb⟩
                · exact ⟨d, List.mem_cons_of_mem a hd, hnext⟩ }
        · exact List.mem_append_left _ (List.mem_append_right _ (List.mem_singleton_self a))

end Growth

/-! ## Enough fuel -/

section Fuel

variable {expand : α → Except ε (List (Except ε α))} {listed : List α} {a : α}
  {fuel fuel' : Nat} {r : Except ε (List α)}

theorem visitAll_ne_none {visit : α → List α → Option (Except ε (List α))}
    {items : List (Except ε α)} (h : ∀ a, .ok a ∈ items → ∀ listed, visit a listed ≠ none) :
    visitAll visit items listed ≠ none := by
  induction items generalizing listed with
  | nil => exact Option.some_ne_none _
  | cons x rest ih =>
    cases x with
    | error e => exact Option.some_ne_none _
    | ok a =>
      rw [visitAll]
      have ha := h a List.mem_cons_self listed
      cases hv : visit a listed with
      | none => exact absurd hv ha
      | some r =>
        cases r with
        | error e => exact Option.some_ne_none _
        | ok mid => exact ih fun b hb => h b (List.mem_cons_of_mem _ hb)

theorem visitAll_congr {visit visit' : α → List α → Option (Except ε (List α))}
    (hvisit : ∀ a listed r, visit a listed = some r → visit' a listed = some r)
    {items : List (Except ε α)} (h : visitAll visit items listed = some r) :
    visitAll visit' items listed = some r := by
  induction items generalizing listed with
  | nil => exact h
  | cons x rest ih =>
    cases x with
    | error e => exact h
    | ok a =>
      rw [visitAll] at h ⊢
      cases hv : visit a listed with
      | none =>
        rw [hv] at h
        cases h
      | some q =>
        rw [hv] at h
        rw [hvisit a listed q hv]
        cases q with
        | error e => exact h
        | ok mid => exact ih h

theorem visitAll_append {visit : α → List α → Option (Except ε (List α))}
    {xs ys : List (Except ε α)} {l : List α}
    (h : visitAll visit (xs ++ ys) listed = some (.ok l)) :
    ∃ mid, visitAll visit xs listed = some (.ok mid) ∧ visitAll visit ys mid = some (.ok l) := by
  induction xs generalizing listed with
  | nil => exact ⟨listed, rfl, h⟩
  | cons x xs ih =>
    cases x with
    | error e => cases h
    | ok a =>
      rw [List.cons_append, visitAll] at h
      rw [visitAll]
      cases hv : visit a listed with
      | none =>
        rw [hv] at h
        cases h
      | some r =>
        rw [hv] at h
        cases r with
        | error e => cases h
        | ok mid => exact ih h

variable [DecidableEq α]

/-- The fuel is enough where it is more than what still can follow. -/
theorem visit_ne_none {height : Nat → α → Prop}
    (hstep : ∀ n a b, height n a → Next expand a b → ∃ k < n, height k b) {n : Nat}
    (h : height n a) (hfuel : n < fuel) : visit expand fuel a listed ≠ none := by
  induction fuel generalizing a n listed with
  | zero => exact absurd hfuel (Nat.not_lt_zero n)
  | succ fuel ih =>
    rw [visit]
    by_cases hmem : a ∈ listed
    · rw [if_pos hmem]
      exact Option.some_ne_none _
    · rw [if_neg hmem]
      cases hexpand : expand a with
      | error e => exact Option.some_ne_none _
      | ok next =>
        refine visitAll_ne_none fun b hb listed => ?_
        obtain ⟨k, hk, hb'⟩ := hstep n a b h ⟨next, hexpand, hb⟩
        exact ih hb' (by omega)

/-- More fuel changes nothing. -/
theorem visit_mono (hle : fuel ≤ fuel') (h : visit expand fuel a listed = some r) :
    visit expand fuel' a listed = some r := by
  induction fuel generalizing a listed r fuel' with
  | zero => cases h
  | succ fuel ih =>
    obtain ⟨fuel', rfl⟩ := Nat.exists_eq_succ_of_ne_zero (by omega : fuel' ≠ 0)
    rw [visit] at h ⊢
    by_cases hmem : a ∈ listed
    · rw [if_pos hmem] at h ⊢
      exact h
    · rw [if_neg hmem] at h ⊢
      cases hexpand : expand a with
      | error e =>
        rw [hexpand] at h
        exact h
      | ok next =>
        rw [hexpand] at h
        exact visitAll_congr (fun b l q hq => ih (by omega) hq) h

end Fuel

/-! ## Failures -/

section Failures

variable {expand : α → Except ε (List (Except ε α))} {listed : List α} {a : α} {e : ε}

theorem visitAll_ne_error {visit : α → List α → Option (Except ε (List α))}
    {items : List (Except ε α)} (hitems : ∀ e, .error e ∉ items)
    (h : ∀ a, .ok a ∈ items → ∀ listed e, visit a listed ≠ some (.error e)) :
    visitAll visit items listed ≠ some (.error e) := by
  induction items generalizing listed with
  | nil => exact nofun
  | cons x rest ih =>
    cases x with
    | error e' => exact absurd List.mem_cons_self (hitems e')
    | ok a =>
      have ha := h a List.mem_cons_self listed
      rw [visitAll]
      cases hv : visit a listed with
      | none => exact nofun
      | some r =>
        cases r with
        | error e' => exact absurd hv (ha e')
        | ok mid =>
          exact ih (fun e' he => hitems e' (List.mem_cons_of_mem _ he))
            fun b hb => h b (List.mem_cons_of_mem _ hb)

variable [DecidableEq α]

/-- Nothing fails if everything behind the node is told. -/
theorem visit_ne_error {fuel : Nat} (h : ∀ b, Reach expand (· = a) b → Sound expand b) :
    visit expand fuel a listed ≠ some (.error e) := by
  induction fuel generalizing a listed e with
  | zero => exact nofun
  | succ fuel ih =>
    obtain ⟨next, hexpand, hnext⟩ := h a (.of_root rfl)
    rw [visit]
    by_cases hmem : a ∈ listed
    · rw [if_pos hmem]
      exact nofun
    · rw [if_neg hmem, hexpand]
      refine visitAll_ne_error hnext fun b hb listed e => ih fun c hc => h c ?_
      obtain ⟨_, rfl, hpath⟩ := hc
      exact ⟨a, rfl, .head ⟨next, hexpand, hb⟩ hpath⟩

end Failures

/-! ## The listing -/

section List

variable [DecidableEq α] {expand : α → Except ε (List (Except ε α))} {fuel : Nat}
  {roots pre post l : List α} {a b : α}

/-- Every node comes before its successors. -/
def InOrder (expand : α → Except ε (List (Except ε α))) (l : List α) : Prop :=
  ∀ before b after, l = before ++ b :: after → ∀ a ∈ l, Next expand a b → a ∈ before

theorem list_grows (h : list expand fuel roots = some (.ok l)) :
    Grows expand (· ∈ roots) [] l ∧ ∀ a ∈ roots, a ∈ l := by
  obtain ⟨new, heq, hnew, hall⟩ := visitAll_grows (fun a l l' => visit_grows) h
  obtain rfl : l = new := by simpa using heq
  constructor
  · refine hnew.mono fun a ha => ?_
    obtain ⟨b, hb, heq⟩ := List.mem_map.mp ha
    exact Except.ok.inj heq ▸ hb
  · intro a ha
    obtain ⟨b, hb, hmem⟩ := hall (.ok a) (List.mem_map_of_mem ha)
    cases hb
    exact hmem

theorem mem_list (h : list expand fuel roots = some (.ok l)) :
    a ∈ l ↔ Reach expand (· ∈ roots) a := by
  obtain ⟨hgrows, hroots⟩ := list_grows h
  constructor
  · exact hgrows.reach a
  · rintro ⟨r, hr, hpath⟩
    induction hpath with
    | refl => exact hroots r hr
    | tail _ hnext ih => simpa using hgrows.closed _ ih _ hnext

theorem list_ne_none {height : Nat → α → Prop}
    (hstep : ∀ n a b, height n a → Next expand a b → ∃ k < n, height k b) {n : Nat}
    (h : ∀ a ∈ roots, height n a) (hfuel : n < fuel) : list expand fuel roots ≠ none := by
  refine visitAll_ne_none fun a ha listed => visit_ne_none hstep (h a ?_) hfuel
  obtain ⟨b, hb, heq⟩ := List.mem_map.mp ha
  exact Except.ok.inj heq ▸ hb

theorem list_mono {fuel' : Nat} (hle : fuel ≤ fuel') {r : Except ε (List α)}
    (h : list expand fuel roots = some r) : list expand fuel' roots = some r :=
  visitAll_congr (fun _ _ _ hv => visit_mono hle hv) h

/-- The listing fails only where something behind a root is not told. -/
theorem list_ok_iff (hfuel : list expand fuel roots ≠ none) :
    (∃ l, list expand fuel roots = some (.ok l)) ↔
      ∀ a, Reach expand (· ∈ roots) a → Sound expand a := by
  constructor
  · rintro ⟨l, h⟩ a ha
    exact (list_grows h).1.sound a ((mem_list h).mpr ha)
  · intro hsound
    cases hl : list expand fuel roots with
    | none => exact absurd hl hfuel
    | some r =>
      cases r with
      | ok l => exact ⟨l, rfl⟩
      | error e =>
        refine absurd hl (visitAll_ne_error (fun e he => ?_) fun a ha listed e => ?_)
        · obtain ⟨b, -, heq⟩ := List.mem_map.mp he
          cases heq
        · obtain ⟨b, hb, heq⟩ := List.mem_map.mp ha
          obtain rfl := Except.ok.inj heq
          refine visit_ne_error fun c hc => hsound c (hc.mono ?_)
          rintro _ rfl
          exact hb

/-- The listing of some more roots goes on from that of the first ones. -/
theorem list_append (h : list expand fuel (pre ++ post) = some (.ok l)) :
    ∃ l' rest, list expand fuel pre = some (.ok l') ∧ l = l' ++ rest ∧
      Grows expand (· ∈ post) l' rest := by
  unfold list at h ⊢
  rw [List.map_append] at h
  obtain ⟨mid, hmid, hrest⟩ := visitAll_append h
  obtain ⟨new, hnew, hgrows, -⟩ := visitAll_grows (fun a l l' => visit_grows) hrest
  refine ⟨mid, new, hmid, hnew, hgrows.mono fun a ha => ?_⟩
  obtain ⟨b, hb, heq⟩ := List.mem_map.mp ha
  exact Except.ok.inj heq ▸ hb

/-- A listed node comes after one that it is a successor of, or it is a root and comes after
    everything behind the roots before it. -/
theorem list_heads (h : list expand fuel roots = some (.ok l)) {before after : List α}
    (heq : l = before ++ b :: after) :
    (∃ a ∈ before, Next expand a b) ∨
      ∃ pre post, roots = pre ++ b :: post ∧ ∀ a, Reach expand (· ∈ pre) a → a ∈ before := by
  induction roots using List.reverseRecOn generalizing l before after with
  | nil =>
    cases h
    simp at heq
  | append_singleton pre r ih =>
    obtain ⟨l', rest, hl', rfl, hgrows⟩ := list_append h
    rcases append_eq_append_cons heq with ⟨tail, htail⟩ | ⟨init, rfl, hinit⟩
    · rcases ih hl' htail with hparent | ⟨pre', post', rfl, hbefore⟩
      · exact .inl hparent
      · exact .inr ⟨pre', post' ++ [r], by simp, hbefore⟩
    · rcases hgrows.parent init b after hinit with hroot | ⟨a, ha, hnext⟩
      · obtain rfl := List.mem_singleton.mp hroot
        refine .inr ⟨pre, [], rfl, fun a ha => List.mem_append_left _ ((mem_list hl').mpr ha)⟩
      · exact .inl ⟨a, List.mem_append_right _ ha, hnext⟩

/-- In a forest, where a node is a successor of one other at most: every node comes before its
    successors precisely if no root is a successor of something that comes up later. -/
theorem inOrder_iff (hunique : ∀ a a' b, Next expand a b → Next expand a' b → a = a')
    (size : α → Nat) (hsize : ∀ a b, Next expand a b → size a < size b)
    (h : list expand fuel roots = some (.ok l)) :
    InOrder expand l ↔ ∀ pre b post, roots = pre ++ b :: post → ∀ a, Next expand a b →
      Reach expand (· ∈ roots) a → Reach expand (· ∈ pre) a := by
  constructor
  · rintro horder pre b post rfl a hnext hreach
    have hroots : pre ++ b :: post = (pre ++ [b]) ++ post := by simp
    rw [hroots] at h
    obtain ⟨l', rest, hl', rfl, -⟩ := list_append h
    obtain ⟨before, after, hsplit⟩ := List.append_of_mem
      ((mem_list hl').mpr (.of_root (List.mem_append_right pre (List.mem_singleton_self b))))
    have hbefore : a ∈ before := by
      refine horder before b (after ++ rest) (by rw [hsplit]; simp) a ?_ hnext
      exact (mem_list h).mpr (hroots ▸ hreach)
    have hlisted : a ∈ l' := by
      rw [hsplit]
      exact List.mem_append_left _ hbefore
    obtain ⟨r, hr, hpath⟩ := (mem_list hl').mp hlisted
    rcases List.mem_append.mp hr with hr | hr
    · exact ⟨r, hr, hpath⟩
    · -- nothing that is behind the root comes before it
      rw [List.mem_singleton.mp hr] at hpath
      have hle : size b ≤ size a := by
        clear hnext hreach hbefore hlisted
        induction hpath with
        | refl => exact Nat.le_refl _
        | tail _ hstep ih => exact ih.trans (hsize _ _ hstep).le
      exact absurd (hsize a b hnext) (Nat.not_lt.mpr hle)
  · intro hroots before b after heq a ha hnext
    rcases list_heads h heq with ⟨a', ha', hnext'⟩ | ⟨pre, post, hsplit, hbefore⟩
    · exact hunique a' a b hnext' hnext ▸ ha'
    · exact hbefore a (hroots pre b post hsplit a hnext ((mem_list h).mp ha))

end List

end LuodaRemote.Lib.Preorder
