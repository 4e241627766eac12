/-
  Programs that call on something outside, with no fixed kind of call.

  A call succeeds or not, which `ok` says by the call and by how many were made before it. `Calls α`
  is a program that makes calls of `α` and keeps them with their outcomes, the newest one first.
  `lastOf f` is what the newest successful call that `f` knows about says.
-/
import Mathlib.Tactic

namespace LuodaRemote.Lib

variable {α β γ : Type}

/-- Calls with their outcomes, the newest one first. -/
abbrev CallLog (α : Type) := List (α × Bool)

abbrev Calls (α : Type) := StateM (CallLog α)

namespace Calls

def make (ok : α → ℕ → Bool) (call : α) : Calls α Bool := fun log =>
  (ok call log.length, (call, ok call log.length) :: log)

@[simp] theorem make_apply (ok : α → ℕ → Bool) (call : α) (log : CallLog α) :
    make ok call log = (ok call log.length, (call, ok call log.length) :: log) := rfl

@[simp] theorem pure_apply (a : β) (log : CallLog α) : (pure a : Calls α β) log = (a, log) := rfl

@[simp] theorem bind_apply (m : Calls α β) (f : β → Calls α γ) (log : CallLog α) :
    (m >>= f) log = f (m log).1 (m log).2 := rfl

/-- One program after another, each of which adds what it always adds. -/
theorem forM_adds {m : β → Calls α Unit} {adds : β → CallLog α}
    (hm : ∀ b log, m b log = ((), adds b ++ log)) (bs : List β) (log : CallLog α) :
    bs.forM m log = ((), (bs.reverse.flatMap adds) ++ log) := by
  induction bs generalizing log with
  | nil => rfl
  | cons b bs ih =>
    show bs.forM m (m b log).2 = _
    rw [hm, ih, List.reverse_cons, List.flatMap_append]
    simp

end Calls

/-- What the newest successful call that says anything says. -/
def lastOf (f : α → Option β) (log : CallLog α) : Option β :=
  log.findSome? fun call => if call.2 then f call.1 else none

section LastOf

variable {f : α → Option β}

@[simp] theorem lastOf_nil : lastOf f [] = none := rfl

@[simp] theorem lastOf_cons (call : α) (log : CallLog α) :
    lastOf f ((call, true) :: log) = (f call).or (lastOf f log) := by
  unfold lastOf
  rw [List.findSome?_cons]
  cases f call <;> rfl

@[simp] theorem lastOf_failed (call : α) (log : CallLog α) :
    lastOf f ((call, false) :: log) = lastOf f log := rfl

end LastOf

end LuodaRemote.Lib
