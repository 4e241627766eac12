/-
  Options from the server (`handle_config_options` and the answer to a heartbeat in
  `start_hbbs_sync_async`, src/hbbs_http/sync.rs).

  A strategy is merged into all options, with the defaults and the overwritten ones among them, and
  written back through `set_options`. That does what it should (`handleConfigOptions_spec`). The
  time stamp that keeps the server from sending the strategy again is stored before the strategy is
  parsed. `strategy_kept_iff`: a strategy is never lost precisely in the runs in which no response
  brings a new time stamp together with a strategy that cannot be parsed.
-/
import LuodaRemote.Config.Store
import LuodaRemote.Lib.Decimal

namespace LuodaRemote
open Lib

/-- The `config_options` of a strategy, in the order of an iteration. -/
structure ConfigOptions where
  entries : List (String × String)
  nodup : (entries.map Prod.fst).Nodup

/-- The options and the local options of the machine. -/
structure SyncState where
  config : OptionStore
  localConfig : OptionStore

/-- What the answer to a heartbeat says about the strategy: the outer `none` is a field that is
    not there, the inner one a field that cannot be parsed. -/
structure HeartbeatResponse where
  modifiedAt : Option (Option Int64)
  strategy : Option (Option ConfigOptions)

namespace OptionStore

variable (s : OptionStore)

/-- One option of the strategy is merged in. -/
def mergeOption (options : Options) (kv : String × String) : Options :=
  if kv.2 = "" ∧ (s.defaults kv.1).getD "" = "" then options.remove kv.1
  else options.insert kv.1 kv.2

def handleConfigOptions (configOptions : ConfigOptions) : OptionStore :=
  s.setOptions (configOptions.entries.foldl s.mergeOption s.getOptions)

/-- `LocalConfig::set_option`. -/
def setLocalOption (k v : String) : OptionStore :=
  if s.isOptionCanSave k v = false then { s with options := s.options.remove k }
  else if k = "lang" ∧ v = "default" then { s with options := s.options.insert k "" }
  else if v = "" then { s with options := s.options.remove k }
  else { s with options := s.options.insert k v }

end OptionStore

namespace SyncState

def strategyTimestamp : String := "strategy_timestamp"

/-- The time stamp that goes with a heartbeat. -/
def modifiedAt (s : SyncState) : Int :=
  (parseSigned 64 (s.localConfig.getOption strategyTimestamp).toList).getD 0

def heartbeat (s : SyncState) (rsp : HeartbeatResponse) : SyncState where
  localConfig :=
    match rsp.modifiedAt with
    | some (some m) =>
      if m.toInt ≠ s.modifiedAt then
        s.localConfig.setLocalOption strategyTimestamp (toString m.toInt)
      else s.localConfig
    | _ => s.localConfig
  config :=
    match rsp.strategy with
    | some (some strategy) => s.config.handleConfigOptions strategy
    | _ => s.config

end SyncState

/-! ## The property -/

/-- The strategy was applied: its options read as it says, unless they are overwritten, the others
    as before, whatever the order of the iteration, and a second time changes nothing. -/
structure OptionStore.Applied (s s' : OptionStore) (strategy : ConfigOptions) : Prop where
  set : ∀ kv ∈ strategy.entries, s.overwrite kv.1 = none → s'.getOption kv.1 = kv.2
  others : ∀ k, k ∉ strategy.entries.map Prod.fst → s'.getOption k = s.getOption k
  overwritten : ∀ k, s.overwrite k ≠ none → s'.getOption k = s.getOption k
  order : ∀ other : ConfigOptions, other.entries.Perm strategy.entries →
    s.handleConfigOptions other = s'
  twice : s'.handleConfigOptions strategy = s'

namespace SyncState

/-- A strategy that can be parsed is applied, and a new time stamp is stored only with a strategy
    that was applied, if there is one. -/
structure Kept (s : SyncState) (rsp : HeartbeatResponse) : Prop where
  applied : ∀ strategy, rsp.strategy = some (some strategy) →
    s.config.Applied (s.heartbeat rsp).config strategy
  timestamp : (s.heartbeat rsp).localConfig.getOption strategyTimestamp ≠
      s.localConfig.getOption strategyTimestamp → rsp.strategy ≠ none →
    ∃ strategy, rsp.strategy = some (some strategy)

/-- The strategy can be parsed, or there is none, or no new time stamp comes with it. -/
def NotLost (s : SyncState) (rsp : HeartbeatResponse) : Prop :=
  rsp.strategy = some none → ∀ m : Int64, rsp.modifiedAt = some (some m) → m.toInt ≠ s.modifiedAt →
    s.localConfig.overwrite strategyTimestamp ≠ none

end SyncState

/-! ## Merging -/

namespace OptionStore

variable {s : OptionStore}

/-- What merging makes of an option of the strategy. -/
def merged (s : OptionStore) (k v : String) : Option String :=
  if v = "" ∧ (s.defaults k).getD "" = "" then none else some v

theorem mergeOption_self (options : Options) (k v : String) :
    s.mergeOption options (k, v) k = s.merged k v := by
  unfold mergeOption merged
  split
  · exact Options.remove_self _ _
  · exact Options.insert_self _ _ _

theorem mergeOption_of_ne (options : Options) {j k : String} (v : String) (h : j ≠ k) :
    s.mergeOption options (k, v) j = options j := by
  unfold mergeOption
  split
  · exact Options.remove_of_ne _ h
  · exact Options.insert_of_ne _ _ h

theorem foldl_merge_of_not_mem (entries : List (String × String)) (options : Options) {k : String}
    (h : k ∉ entries.map Prod.fst) : entries.foldl s.mergeOption options k = options k := by
  induction entries generalizing options with
  | nil => rfl
  | cons kv rest ih =>
    rw [List.map_cons, List.mem_cons, not_or] at h
    rw [List.foldl_cons, ih _ h.2]
    exact mergeOption_of_ne options kv.2 h.1

theorem foldl_merge_of_mem {entries : List (String × String)} (options : Options) {k v : String}
    (hnodup : (entries.map Prod.fst).Nodup) (h : (k, v) ∈ entries) :
    entries.foldl s.mergeOption options k = s.merged k v := by
  induction entries generalizing options with
  | nil => cases h
  | cons kv rest ih =>
    rw [List.map_cons, List.nodup_cons] at hnodup
    rw [List.foldl_cons]
    rcases List.mem_cons.mp h with rfl | hrest
    · -- the key does not come again
      rw [foldl_merge_of_not_mem rest _ hnodup.1]
      exact mergeOption_self options k v
    · exact ih _ hnodup.2 hrest

/-- An option of the strategy, as it is stored. -/
theorem options_handle_of_mem {strategy : ConfigOptions} {k v : String}
    (h : (k, v) ∈ strategy.entries) :
    (s.handleConfigOptions strategy).options k =
      (s.merged k v).filter (s.isOptionCanSave k) := by
  unfold handleConfigOptions
  rw [options_setOptions, foldl_merge_of_mem _ strategy.nodup h]

theorem options_handle_of_not_mem {strategy : ConfigOptions} {k : String}
    (h : k ∉ strategy.entries.map Prod.fst) :
    (s.handleConfigOptions strategy).options k = (s.getOptions k).filter (s.isOptionCanSave k) := by
  unfold handleConfigOptions
  rw [options_setOptions, foldl_merge_of_not_mem _ _ h]

@[simp] theorem overwrite_handle (s : OptionStore) (strategy : ConfigOptions) :
    (s.handleConfigOptions strategy).overwrite = s.overwrite := rfl

@[simp] theorem defaults_handle (s : OptionStore) (strategy : ConfigOptions) :
    (s.handleConfigOptions strategy).defaults = s.defaults := rfl

theorem mem_entries_of_key {entries : List (String × String)} {k : String}
    (h : k ∈ entries.map Prod.fst) : ∃ v, (k, v) ∈ entries := by
  obtain ⟨kv, hkv, rfl⟩ := List.mem_map.mp h
  exact ⟨kv.2, hkv⟩

theorem filter_canSave_overwritten {k : String} (h : s.overwrite k ≠ none) (o : Option String) :
    o.filter (s.isOptionCanSave k) = none := by
  have hsome : (s.overwrite k).isSome = true := Option.isSome_iff_ne_none.mpr h
  rw [Option.filter_eq_none_iff]
  intro v _
  simp [isOptionCanSave, hsome]

/-- What `set_options` kept is kept again. -/
theorem filter_getOptions_setOptions (s : OptionStore) (v : Options) (k : String) :
    ((s.setOptions v).getOptions k).filter (s.isOptionCanSave k) = (s.setOptions v).options k := by
  rw [options_setOptions]
  cases hover : s.overwrite k with
  | some x =>
    have hne : s.overwrite k ≠ none := by simp [hover]
    rw [filter_canSave_overwritten hne, filter_canSave_overwritten hne]
  | none =>
    unfold getOptions Options.extend
    rw [overwrite_setOptions, hover, defaults_setOptions, options_setOptions, Option.none_or]
    cases hkept : (v k).filter (s.isOptionCanSave k) with
    | some x =>
      have hsave : s.isOptionCanSave k x = true := by
        rw [Option.filter_eq_some_iff] at hkept
        exact hkept.2
      rw [Option.some_or, Option.filter_some_pos hsave]
    | none =>
      rw [Option.none_or]
      cases hdefault : s.defaults k with
      | none => rfl
      | some d => exact Option.filter_some_neg (by simp [isOptionCanSave, hdefault])

/-- `handle_config_options` applies a strategy. -/
theorem handleConfigOptions_spec (s : OptionStore) (strategy : ConfigOptions) :
    s.Applied (s.handleConfigOptions strategy) strategy where
  set := by
    rintro ⟨k, v⟩ hkv hover
    unfold handleConfigOptions
    rw [getOption_setOptions s _ hover, foldl_merge_of_mem _ strategy.nodup hkv]
    unfold merged
    split
    · next hempty =>
        rw [Option.none_or, hempty.2]
        exact hempty.1.symm
    · rfl
  others := fun k hk =>
    getOption_setOptions_same s _ (foldl_merge_of_not_mem _ _ hk)
  overwritten := fun k hk => by
    obtain ⟨v, hv⟩ := Option.ne_none_iff_exists'.mp hk
    rw [getOption_overwrite s hv, getOption_overwrite (s.handleConfigOptions strategy) hv]
  order := fun other hperm => by
    refine OptionStore.ext rfl (funext fun k => ?_) rfl
    have hkeys : k ∈ other.entries.map Prod.fst ↔ k ∈ strategy.entries.map Prod.fst :=
      (hperm.map Prod.fst).mem_iff
    by_cases hk : k ∈ strategy.entries.map Prod.fst
    · obtain ⟨v, hv⟩ := mem_entries_of_key hk
      rw [options_handle_of_mem hv, options_handle_of_mem (hperm.mem_iff.mpr hv)]
    · rw [options_handle_of_not_mem hk, options_handle_of_not_mem fun h => hk (hkeys.mp h)]
  twice := by
    refine OptionStore.ext rfl (funext fun k => ?_) rfl
    by_cases hk : k ∈ strategy.entries.map Prod.fst
    · obtain ⟨v, hv⟩ := mem_entries_of_key hk
      rw [options_handle_of_mem hv, options_handle_of_mem hv]
      rfl
    · rw [options_handle_of_not_mem hk]
      exact filter_getOptions_setOptions s _ k

theorem getOption_setLocalOption {s : OptionStore} {k v : String} (hover : s.overwrite k = none)
    (hlang : k ≠ "lang") (hv : v ≠ "") : (s.setLocalOption k v).getOption k = v := by
  have hsame : s.setLocalOption k v = s.setOption k v := by
    unfold setLocalOption setOption
    rw [if_neg (c := k = "lang" ∧ v = "default") fun h => hlang h.1]
  rw [hsame, getOption_setOption s k v hover, if_neg hv]

theorem getOption_setLocalOption_overwritten {s : OptionStore} {k : String} (v : String)
    (hover : s.overwrite k ≠ none) : (s.setLocalOption k v).getOption k = s.getOption k := by
  obtain ⟨x, hx⟩ := Option.ne_none_iff_exists'.mp hover
  have hsave : s.isOptionCanSave k v = false := by simp [isOptionCanSave, hx]
  unfold setLocalOption
  rw [if_pos hsave, getOption_overwrite s hx]
  exact getOption_overwrite _ hx

end OptionStore

/-! ## Every run -/

namespace SyncState

theorem parse_toString (m : Int64) : parseSigned 64 (toString m.toInt).toList = some m.toInt := by
  have hlo := m.le_toInt
  have hhi := m.toInt_lt
  exact parseSigned_toString (by simpa using hlo) (by simpa using hhi)

theorem toString_ne_empty (m : Int64) : toString m.toInt ≠ "" := by
  intro hempty
  have hparse := parse_toString m
  rw [hempty] at hparse
  cases hparse

/-- A new time stamp shows, unless it is overwritten. -/
theorem timestamp_changes_iff (s : SyncState) (rsp : HeartbeatResponse) :
    (s.heartbeat rsp).localConfig.getOption strategyTimestamp ≠
        s.localConfig.getOption strategyTimestamp ↔
      ∃ m : Int64, rsp.modifiedAt = some (some m) ∧ m.toInt ≠ s.modifiedAt ∧
        s.localConfig.overwrite strategyTimestamp = none := by
  constructor
  · intro hchanged
    simp only [heartbeat] at hchanged
    split at hchanged
    · next m hm =>
        split at hchanged
        · next hnew =>
            refine ⟨m, hm, hnew, ?_⟩
            by_contra hover
            exact hchanged (OptionStore.getOption_setLocalOption_overwritten _ hover)
        · exact absurd rfl hchanged
    · exact absurd rfl hchanged
  · rintro ⟨m, hm, hnew, hover⟩ hsame
    have hset : (s.heartbeat rsp).localConfig.getOption strategyTimestamp = toString m.toInt := by
      simp only [heartbeat, hm, if_pos hnew]
      exact OptionStore.getOption_setLocalOption hover (by decide) (toString_ne_empty m)
    -- the stored text would have been read as the same number
    refine hnew ?_
    rw [modifiedAt, ← hsame, hset, parse_toString]
    rfl

theorem kept_iff (s : SyncState) (rsp : HeartbeatResponse) : s.Kept rsp ↔ s.NotLost rsp := by
  constructor
  · intro hkept hstrategy m hm hnew hover
    obtain ⟨strategy, hparsed⟩ := hkept.timestamp
      ((timestamp_changes_iff s rsp).mpr ⟨m, hm, hnew, hover⟩) (by simp [hstrategy])
    rw [hstrategy] at hparsed
    cases hparsed
  · intro hlost
    refine ⟨fun strategy hstrategy => ?_, fun hchanged hsome => ?_⟩
    · have hconfig : (s.heartbeat rsp).config = s.config.handleConfigOptions strategy := by
        simp only [heartbeat, hstrategy]
      rw [hconfig]
      exact OptionStore.handleConfigOptions_spec s.config strategy
    · obtain ⟨m, hm, hnew, hover⟩ := (timestamp_changes_iff s rsp).mp hchanged
      cases hstrategy : rsp.strategy with
      | none => exact absurd hstrategy hsome
      | some parsed =>
        cases parsed with
        | some strategy => exact ⟨strategy, rfl⟩
        | none => exact absurd hover (hlost hstrategy m hm hnew)

/-- A strategy is kept at every step of a run precisely if none is lost to a time stamp. -/
theorem strategy_kept_iff (s : SyncState) (responses : List HeartbeatResponse) :
    Along heartbeat Kept s responses ↔ Along heartbeat NotLost s responses :=
  ⟨Along.mono fun t rsp h => (kept_iff t rsp).mp h,
    Along.mono fun t rsp h => (kept_iff t rsp).mpr h⟩

/-- Nothing is set. -/
def noOptions : SyncState :=
  ⟨⟨fun _ => none, fun _ => none, fun _ => none⟩, ⟨fun _ => none, fun _ => none, fun _ => none⟩⟩

/-- The strategy cannot be parsed, and its time stamp is stored all the same. -/
theorem strategy_lost : ¬ Along heartbeat Kept noOptions [⟨some (some 7), some none⟩] := by
  intro h
  have hlost := (kept_iff _ _).mp h.1
  exact hlost rfl 7 rfl (by decide) rfl

end SyncState
end LuodaRemote
