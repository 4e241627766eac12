/-
  Resumable decoders: a decoder is handed a buffer, takes a prefix of it and returns an item,
  asks for more, or fails. It may take bytes and remember them in its state while it asks
  for more.

  `drain` calls the decoder until it asks for more. `feed` appends one chunk after the other
  to the buffer and drains it each time; `pull` appends chunks until there is one item. For a
  decoder that does not look at how much has arrived beyond what it takes (`Resumable`), both
  give what the decoder makes of all the chunks in one piece (`feed_eq`, `pull_item`).
-/
import Mathlib.Tactic

namespace LuodaRemote.Lib

structure Decoder (σ β α ε : Type) where
  decode : σ → List β → Except ε (Option α) × σ × List β
  /-- Bounds the number of items to come, so that `drain` ends. -/
  weight : σ → List β → ℕ
  weight_lt : ∀ {s : σ} {buf : List β} {a : α} {s' : σ} {buf' : List β},
    decode s buf = (.ok (some a), s', buf') → weight s' buf' < weight s buf

namespace Decoder

variable {σ β α ε : Type} {D : Decoder σ β α ε} {P : σ → Prop} {s s' : σ} {buf buf' : List β}

/-- What more bytes at the end of the buffer do to a call, in states that satisfy `P`. -/
structure Resumable (D : Decoder σ β α ε) (P : σ → Prop) : Prop where
  keep : ∀ {s : σ} (buf : List β), P s → P (D.decode s buf).2.1
  item : ∀ {s : σ} {buf : List β} {a : α} {s' : σ} {buf' : List β}, P s →
    D.decode s buf = (.ok (some a), s', buf') →
      ∀ rest, D.decode s (buf ++ rest) = (.ok (some a), s', buf' ++ rest)
  error : ∀ {s : σ} {buf : List β} {e : ε} {s' : σ} {buf' : List β}, P s →
    D.decode s buf = (.error e, s', buf') →
      ∀ rest, D.decode s (buf ++ rest) = (.error e, s', buf' ++ rest)
  /-- A call that asks for more may be made again when there is more. -/
  more : ∀ {s : σ} {buf : List β} {s' : σ} {buf' : List β}, P s →
    D.decode s buf = (.ok none, s', buf') →
      ∀ rest, D.decode s (buf ++ rest) = D.decode s' (buf' ++ rest)

theorem Resumable.keep_eq (hD : D.Resumable P) (hs : P s)
    {r : Except ε (Option α)} (hd : D.decode s buf = (r, s', buf')) : P s' := by
  have h := hD.keep buf hs
  rw [hd] at h
  exact h

/-- All items of the buffer, the error that ended it if there was one, and what is left. -/
def drain (D : Decoder σ β α ε) (s : σ) (buf : List β) : List α × Option ε × σ × List β :=
  match _hd : D.decode s buf with
  | (.ok none, s', buf') => ([], none, s', buf')
  | (.error e, s', buf') => ([], some e, s', buf')
  | (.ok (some a), s', buf') =>
    let r := D.drain s' buf'
    (a :: r.1, r.2)
termination_by D.weight s buf
decreasing_by exact D.weight_lt _hd

/-- Drain the buffer after each chunk, up to an error. -/
def feed (D : Decoder σ β α ε) (s : σ) (buf : List β) :
    List (List β) → List α × Option ε × σ × List β
  | [] => ([], none, s, buf)
  | chunk :: chunks =>
    match D.drain s (buf ++ chunk) with
    | (as, some e, s', buf') => (as, some e, s', buf')
    | (as, none, s', buf') =>
      let r := D.feed s' buf' chunks
      (as ++ r.1, r.2)

/-- The next item, with as many chunks as it takes. With the last chunk gone, a decoder that
    asks for more gives `none`. -/
def pull (D : Decoder σ β α ε) (s : σ) (buf : List β) :
    List (List β) → Except ε (Option α) × σ × List β × List (List β)
  | [] =>
    let (r, s', buf') := D.decode s buf
    (r, s', buf', [])
  | chunk :: chunks =>
    match D.decode s buf with
    | (.ok none, s', buf') => D.pull s' (buf' ++ chunk) chunks
    | (r, s', buf') => (r, s', buf', chunk :: chunks)

/-! ## Draining -/

theorem drain_more (hd : D.decode s buf = (.ok none, s', buf')) :
    D.drain s buf = ([], none, s', buf') := by
  rw [drain.eq_def]
  split <;> simp_all

theorem drain_error {e : ε} (hd : D.decode s buf = (.error e, s', buf')) :
    D.drain s buf = ([], some e, s', buf') := by
  rw [drain.eq_def]
  split <;> simp_all

theorem drain_item {a : α} (hd : D.decode s buf = (.ok (some a), s', buf')) :
    D.drain s buf = (a :: (D.drain s' buf').1, (D.drain s' buf').2) := by
  rw [drain.eq_def]
  split <;> simp_all

/-- A drained buffer that gets more bytes goes on from where it stopped. -/
theorem drain_append (hD : D.Resumable P) (hs : P s) {as : List α} (rest : List β)
    (hd : D.drain s buf = (as, none, s', buf')) :
    D.drain s (buf ++ rest) =
      (as ++ (D.drain s' (buf' ++ rest)).1, (D.drain s' (buf' ++ rest)).2) := by
  induction hw : D.weight s buf using Nat.strong_induction_on generalizing s buf as with
  | _ w ih =>
    rcases hc : D.decode s buf with ⟨e | _ | a, t, u⟩
    · rw [drain_error hc] at hd
      cases hd
    · rw [drain_more hc] at hd
      cases hd
      rw [List.nil_append]
      rcases hr : D.decode s' (buf' ++ rest) with ⟨e | _ | a, t, u⟩
      · rw [drain_error hr, drain_error ((hD.more hs hc rest).trans hr)]
      · rw [drain_more hr, drain_more ((hD.more hs hc rest).trans hr)]
      · rw [drain_item hr, drain_item ((hD.more hs hc rest).trans hr)]
    · rw [drain_item hc] at hd
      obtain ⟨has, hend⟩ := Prod.mk.inj hd
      have hrest : D.drain t u = ((D.drain t u).1, none, s', buf') := Prod.ext rfl hend
      rw [drain_item (hD.item hs hc rest),
        ih _ (hw ▸ D.weight_lt hc) (hD.keep_eq hs hc) hrest rfl, ← has]
      rfl

/-- An error stays the same whatever comes behind it. -/
theorem drain_append_error (hD : D.Resumable P) (hs : P s) {as : List α} {e : ε} (rest : List β)
    (hd : D.drain s buf = (as, some e, s', buf')) :
    D.drain s (buf ++ rest) = (as, some e, s', buf' ++ rest) := by
  induction hw : D.weight s buf using Nat.strong_induction_on generalizing s buf as with
  | _ w ih =>
    rcases hc : D.decode s buf with ⟨e' | _ | a, t, u⟩
    · rw [drain_error hc] at hd
      cases hd
      exact drain_error (hD.error hs hc rest)
    · rw [drain_more hc] at hd
      cases hd
    · rw [drain_item hc] at hd
      obtain ⟨has, hend⟩ := Prod.mk.inj hd
      have hrest : D.drain t u = ((D.drain t u).1, some e, s', buf') := Prod.ext rfl hend
      rw [drain_item (hD.item hs hc rest),
        ih _ (hw ▸ D.weight_lt hc) (hD.keep_eq hs hc) hrest rfl, ← has]

theorem keep_of_drain (hD : D.Resumable P) (hs : P s) {as : List α} {e : Option ε}
    (hd : D.drain s buf = (as, e, s', buf')) : P s' := by
  induction hw : D.weight s buf using Nat.strong_induction_on generalizing s buf as with
  | _ w ih =>
    rcases hc : D.decode s buf with ⟨e' | _ | a, t, u⟩
    · rw [drain_error hc] at hd
      cases hd
      exact hD.keep_eq hs hc
    · rw [drain_more hc] at hd
      cases hd
      exact hD.keep_eq hs hc
    · rw [drain_item hc] at hd
      exact ih _ (hw ▸ D.weight_lt hc) (hD.keep_eq hs hc) (Prod.ext rfl (Prod.mk.inj hd).2) rfl

/-- A drained buffer has no item in it. -/
theorem decode_of_drain (hD : D.Resumable P) (hs : P s) {as : List α}
    (hd : D.drain s buf = (as, none, s', buf')) : D.decode s' buf' = (.ok none, s', buf') := by
  induction hw : D.weight s buf using Nat.strong_induction_on generalizing s buf as with
  | _ w ih =>
    rcases hc : D.decode s buf with ⟨e | _ | a, t, u⟩
    · rw [drain_error hc] at hd
      cases hd
    · rw [drain_more hc] at hd
      cases hd
      have hagain := hD.more hs hc []
      rw [List.append_nil, List.append_nil] at hagain
      rw [← hagain, hc]
    · rw [drain_item hc] at hd
      exact ih _ (hw ▸ D.weight_lt hc) (hD.keep_eq hs hc) (Prod.ext rfl (Prod.mk.inj hd).2) rfl

/-! ## Any chunks -/

/-- What comes out does not depend on how the input was cut. -/
theorem feed_eq (hD : D.Resumable P) (hs : P s) {as : List α} (chunks : List (List β))
    (hempty : D.decode s buf = (.ok none, s, buf))
    (hd : D.drain s (buf ++ chunks.flatten) = (as, none, s', buf')) :
    D.feed s buf chunks = (as, none, s', buf') := by
  induction chunks generalizing s buf as with
  | nil =>
    rw [List.flatten_nil, List.append_nil, drain_more hempty] at hd
    exact hd
  | cons chunk chunks ih =>
    rw [List.flatten_cons, ← List.append_assoc] at hd
    unfold feed
    rcases hc : D.drain s (buf ++ chunk) with ⟨as₁, _ | e, s₁, buf₁⟩
    · rw [drain_append hD hs _ hc] at hd
      obtain ⟨has, hend⟩ := Prod.mk.inj hd
      have hfeed : D.drain s₁ (buf₁ ++ chunks.flatten) =
          ((D.drain s₁ (buf₁ ++ chunks.flatten)).1, none, s', buf') := Prod.ext rfl hend
      have hrest := ih (keep_of_drain hD hs hc) (decode_of_drain hD hs hc) hfeed
      dsimp only
      rw [hrest, ← has]
    · rw [drain_append_error hD hs _ hc] at hd
      cases hd

/-- Neither does the error that ends it. -/
theorem feed_error (hD : D.Resumable P) (hs : P s) {as : List α} {e : ε} (chunks : List (List β))
    (hempty : D.decode s buf = (.ok none, s, buf))
    (hd : D.drain s (buf ++ chunks.flatten) = (as, some e, s', buf')) :
    ∃ left, D.feed s buf chunks = (as, some e, s', left) := by
  induction chunks generalizing s buf as with
  | nil =>
    rw [List.flatten_nil, List.append_nil, drain_more hempty] at hd
    cases hd
  | cons chunk chunks ih =>
    rw [List.flatten_cons, ← List.append_assoc] at hd
    unfold feed
    rcases hc : D.drain s (buf ++ chunk) with ⟨as₁, _ | e₁, s₁, buf₁⟩
    · rw [drain_append hD hs _ hc] at hd
      obtain ⟨has, hend⟩ := Prod.mk.inj hd
      have hfeed : D.drain s₁ (buf₁ ++ chunks.flatten) =
          ((D.drain s₁ (buf₁ ++ chunks.flatten)).1, some e, s', buf') := Prod.ext rfl hend
      obtain ⟨left, hrest⟩ := ih (keep_of_drain hD hs hc) (decode_of_drain hD hs hc) hfeed
      refine ⟨left, ?_⟩
      dsimp only
      rw [hrest, ← has]
    · rw [drain_append_error hD hs _ hc] at hd
      cases hd
      exact ⟨buf₁, rfl⟩

/-- An item that is in the buffer and the chunks is found, and what is behind it is left. -/
theorem pull_item (hD : D.Resumable P) (hs : P s) {a : α} {rest : List β} (chunks : List (List β))
    (hd : D.decode s (buf ++ chunks.flatten) = (.ok (some a), s', rest)) :
    ∃ buf' chunks', D.pull s buf chunks = (.ok (some a), s', buf', chunks') ∧
      buf' ++ chunks'.flatten = rest := by
  induction chunks generalizing s buf with
  | nil =>
    rw [List.flatten_nil, List.append_nil] at hd
    unfold pull
    rw [hd]
    exact ⟨rest, [], rfl, by simp⟩
  | cons chunk chunks ih =>
    unfold pull
    rcases hc : D.decode s buf with ⟨e | _ | b, t, u⟩
    · rw [hD.error hs hc] at hd
      cases hd
    · dsimp only
      rw [hD.more hs hc, List.flatten_cons, ← List.append_assoc] at hd
      exact ih (hD.keep_eq hs hc) hd
    · rw [hD.item hs hc] at hd
      cases hd
      exact ⟨u, chunk :: chunks, rfl, rfl⟩

end Decoder

end LuodaRemote.Lib
