/-
  The option store (`Config::get_options`, `set_options`, `get_option`, `set_option` and the two
  helpers of libs/hbb_common/src/config.rs).

  An option is looked up in three layers: `OVERWRITE_SETTINGS`, then the options of the
  configuration, then `DEFAULT_SETTINGS`. Only the middle one is written, and nothing is kept there
  that is overwritten or equals the default. Setting an option to the empty string through
  `set_option` removes it, so that it falls back to its default; `option_store` says what is read
  back, and what is left alone, after any calls.
-/
import LuodaRemote.Lib.Run

namespace LuodaRemote
open Lib

/-- A `HashMap<String, String>`. -/
def Options : Type := String → Option String

namespace Options

/-- The entries of `n` replace those of `m`. -/
def extend (m n : Options) : Options := fun k => (n k).or (m k)

def insert (m : Options) (k v : String) : Options := fun j => if j = k then some v else m j

def remove (m : Options) (k : String) : Options := fun j => if j = k then none else m j

/-- Keep the entries that satisfy `p`. -/
def retain (m : Options) (p : String → String → Bool) : Options := fun k => (m k).filter (p k)

theorem insert_self (m : Options) (k v : String) : m.insert k v k = some v := if_pos rfl

theorem insert_of_ne (m : Options) {j k : String} (v : String) (h : j ≠ k) :
    m.insert k v j = m j := if_neg h

theorem remove_self (m : Options) (k : String) : m.remove k k = none := if_pos rfl

theorem remove_of_ne (m : Options) {j k : String} (h : j ≠ k) : m.remove k j = m j := if_neg h

end Options

/-- The layers of the store. -/
@[ext]
structure OptionStore where
  overwrite : Options
  options : Options
  defaults : Options

namespace OptionStore

def getOr (a b c : Options) (k : String) : Option String := ((a k).or (b k)).or (c k)

def isOptionCanSave (s : OptionStore) (k v : String) : Bool :=
  !((s.overwrite k).isSome || s.defaults k == some v)

def getOptions (s : OptionStore) : Options := (s.defaults.extend s.options).extend s.overwrite

def setOptions (s : OptionStore) (v : Options) : OptionStore :=
  { s with options := v.retain s.isOptionCanSave }

def getOption (s : OptionStore) (k : String) : String :=
  (getOr s.overwrite s.options s.defaults k).getD ""

def setOption (s : OptionStore) (k v : String) : OptionStore :=
  if s.isOptionCanSave k v = false then { s with options := s.options.remove k }
  else if v = "" then { s with options := s.options.remove k }
  else { s with options := s.options.insert k v }

variable (s : OptionStore)

/-! ## Reading -/

/-- The value of an option, if a layer has one. -/
theorem getOption_eq (k : String) : s.getOption k = (s.getOptions k).getD "" := by
  unfold getOption getOr getOptions Options.extend
  cases s.overwrite k with
  | none => simp
  | some v => simp

theorem getOption_overwrite {k v : String} (h : s.overwrite k = some v) : s.getOption k = v := by
  simp [getOption, getOr, h]

theorem getOption_of_not_overwrite {k : String} (h : s.overwrite k = none) :
    s.getOption k = ((s.options k).or (s.defaults k)).getD "" := by
  simp [getOption, getOr, h]

/-! ## Writing -/

@[simp] theorem overwrite_setOptions (v : Options) : (s.setOptions v).overwrite = s.overwrite := rfl

@[simp] theorem defaults_setOptions (v : Options) : (s.setOptions v).defaults = s.defaults := rfl

@[simp] theorem overwrite_setOption (k v : String) :
    (s.setOption k v).overwrite = s.overwrite := by
  unfold setOption
  split
  · rfl
  · split
    · rfl
    · rfl

@[simp] theorem defaults_setOption (k v : String) : (s.setOption k v).defaults = s.defaults := by
  unfold setOption
  split
  · rfl
  · split
    · rfl
    · rfl

theorem options_setOptions (v : Options) (k : String) :
    (s.setOptions v).options k = (v k).filter (s.isOptionCanSave k) := rfl

/-- What is dropped for being the default is read back from there. -/
theorem getOption_setOptions (v : Options) {k : String} (h : s.overwrite k = none) :
    (s.setOptions v).getOption k = ((v k).or (s.defaults k)).getD "" := by
  rw [getOption_of_not_overwrite _ (by simpa using h), options_setOptions, defaults_setOptions]
  cases hv : v k with
  | none => rfl
  | some x =>
    by_cases hx : s.defaults k = some x
    · rw [Option.filter_some_neg (by simp [isOptionCanSave, hx]), hx]
      rfl
    · rw [Option.filter_some_pos (by simp [isOptionCanSave, h, hx])]

theorem options_setOption_of_ne {j k : String} (v : String) (h : j ≠ k) :
    (s.setOption k v).options j = s.options j := by
  unfold setOption
  split
  · exact Options.remove_of_ne _ h
  · split
    · exact Options.remove_of_ne _ h
    · exact Options.insert_of_ne _ _ h

/-- The empty string stands for the default. -/
theorem getOption_setOption (k v : String) (h : s.overwrite k = none) :
    (s.setOption k v).getOption k = if v = "" then (s.defaults k).getD "" else v := by
  rw [getOption_of_not_overwrite _ (by simpa using h), defaults_setOption]
  unfold setOption
  by_cases hdefault : s.defaults k = some v
  · rw [if_pos (by simp [isOptionCanSave, h, hdefault])]
    simp [Options.remove_self, hdefault]
  · rw [if_neg (by simp [isOptionCanSave, h, hdefault])]
    by_cases hempty : v = ""
    · simp [hempty, Options.remove_self]
    · simp [hempty, Options.insert_self]

theorem getOption_setOption_of_ne {j k : String} (v : String) (h : j ≠ k) :
    (s.setOption k v).getOption j = s.getOption j := by
  unfold getOption getOr
  rw [overwrite_setOption, defaults_setOption, options_setOption_of_ne s v h]

/-- Writing back what was read for an option leaves it as it is. -/
theorem getOption_setOptions_same (v : Options) {k : String} (h : v k = s.getOptions k) :
    (s.setOptions v).getOption k = s.getOption k := by
  cases hover : s.overwrite k with
  | some x => rw [getOption_overwrite s hover, getOption_overwrite _ (by simpa using hover)]
  | none =>
    rw [getOption_setOptions s v hover, getOption_of_not_overwrite s hover, h]
    unfold getOptions Options.extend
    rw [hover]
    cases s.options k with
    | none => simp
    | some x => simp

/-! ## Calls -/

inductive Call where
  | setOption (k v : String)
  | setOptions (v : Options)

def step (s : OptionStore) : Call → OptionStore
  | .setOption k v => s.setOption k v
  | .setOptions v => s.setOptions v

theorem overwrite_step (c : Call) : (s.step c).overwrite = s.overwrite := by
  cases c with
  | setOption k v => exact overwrite_setOption s k v
  | setOptions v => rfl

theorem overwrite_run (calls : List Call) : (run step s calls).overwrite = s.overwrite := by
  have hall : Always step (fun t => t.overwrite = s.overwrite) s calls :=
    always_of_step (fun t c ht => (overwrite_step t c).trans ht) rfl calls
  exact hall.last

/-- The store after any calls: the two ways to read agree; an option that is not overwritten reads
    as it was set, with the default for the empty string, and the others are left alone; one that
    is overwritten never changes; and writing everything back that was read changes nothing. -/
theorem option_store (calls : List Call) :
    (∀ k, (run step s calls).getOption k = ((run step s calls).getOptions k).getD "") ∧
    (∀ k v, (run step s calls).overwrite k = none →
      ((run step s calls).setOption k v).getOption k =
        if v = "" then ((run step s calls).defaults k).getD "" else v) ∧
    (∀ k v j, j ≠ k →
      ((run step s calls).setOption k v).getOption j = (run step s calls).getOption j) ∧
    (∀ k v, s.overwrite k = some v → (run step s calls).getOption k = v) ∧
    (∀ k, ((run step s calls).setOptions (run step s calls).getOptions).getOption k =
      (run step s calls).getOption k) := by
  refine ⟨getOption_eq _, fun k v h => getOption_setOption _ k v h,
    fun k v j h => getOption_setOption_of_ne _ v h, fun k v h => ?_,
    fun k => getOption_setOptions_same _ _ rfl⟩
  refine getOption_overwrite _ ?_
  rw [overwrite_run]
  exact h

/-- An option with the default `Y`. -/
def defaultYes : OptionStore where
  overwrite := fun _ => none
  options := fun _ => none
  defaults := fun k => if k = "enable-audio" then some "Y" else none

theorem set_empty_reads_default :
    defaultYes.overwrite "enable-audio" = none ∧
      (defaultYes.setOption "enable-audio" "").getOption "enable-audio" ≠ "" := by
  decide

end OptionStore
end LuodaRemote
