/-
  Options set from other processes (`get_options_`, `set_option` and `set_options` of src/ipc.rs
  and the service's answer to `Data::Options`).

  A client process reads all options from the service, changes its copy and sends all of them
  back. A read that gets no answer falls back to the options of the client's own process, and a
  write that finds no service only changes those. Each message is one step; the sessions of any
  number of clients, and the service's own `set_option`, interleave in any way.

  The writes carry no version. `no_option_lost`: nothing is lost, and no write changes an option it
  is not about, in the runs in which every write that arrives is based on what the service still
  has.
-/
import LuodaRemote.Config.Store

namespace LuodaRemote
open Lib

namespace OptionIpc

/-- A read, changes and a write, until the service has the write. -/
structure Session where
  client : Nat
  value : Options
  /-- How often the service's options had been written when it answered the read; `none` if it
      did not answer. -/
  base : Option Nat
  changed : List String
  /-- The write is on its way. -/
  sent : Bool

structure System where
  service : OptionStore
  /-- How often the options of the service were written. -/
  version : Nat
  clients : Nat → OptionStore
  sessions : List Session
  /-- What was last written for an option, by anyone. -/
  written : String → Option String

inductive Event where
  | read (client : Nat) (answered : Bool)
  /-- The copy of session `n` is changed; `none` removes the option. -/
  | change (n : Nat) (k : String) (v : Option String)
  | write (n : Nat) (connected : Bool)
  /-- The service handles the write of session `n`. -/
  | serve (n : Nat)
  /-- The service's own `Config::set_option`. -/
  | setOption (k v : String)

/-- How `ipc::set_option` changes the copy. -/
def setOptionChange (n : Nat) (key value : String) : Event :=
  .change n key (if value = "" then none else some value)

def changeCopy (value : Options) (k : String) (v : Option String) : Options :=
  match v with
  | some v => value.insert k v
  | none => value.remove k

def setClient (s : System) (client : Nat) (value : Options) : Nat → OptionStore :=
  Function.update s.clients client ((s.clients client).setOptions value)

def step (s : System) : Event → System
  | .read client answered =>
    if answered then
      { s with
        clients := setClient s client s.service.getOptions
        sessions := s.sessions ++ [⟨client, s.service.getOptions, some s.version, [], false⟩] }
    else
      { s with
        sessions := s.sessions ++ [⟨client, (s.clients client).getOptions, none, [], false⟩] }
  | .change n k v =>
    match s.sessions[n]? with
    | some x =>
      if x.sent then s
      else
        { s with sessions := s.sessions.set n
                   { x with value := changeCopy x.value k v, changed := k :: x.changed }
                 written := Function.update s.written k (some (v.getD "")) }
    | none => s
  | .write n connected =>
    match s.sessions[n]? with
    | some x =>
      if x.sent then s
      else
        { s with clients := setClient s x.client x.value
                 sessions := if connected then s.sessions.set n { x with sent := true }
                   else s.sessions.eraseIdx n }
    | none => s
  | .serve n =>
    match s.sessions[n]? with
    | some x =>
      if x.sent then
        { s with service := s.service.setOptions x.value
                 version := s.version + 1
                 sessions := s.sessions.eraseIdx n }
      else s
    | none => s
  | .setOption k v =>
    { s with service := s.service.setOption k v
             version := s.version + 1
             written := Function.update s.written k (some v) }

/-- No session is open, and nothing was written yet. -/
def System.start (service : OptionStore) (clients : Nat → OptionStore) : System where
  service := service
  version := 0
  clients := clients
  sessions := []
  written := fun _ => none

/-! ## The property -/

/-- The options that the service writes in this step on someone's behalf. -/
def System.sets (s : System) : Event → List String
  | .serve n => (s.sessions[n]?).elim [] Session.changed
  | .setOption k _ => [k]
  | _ => []

/-- A step changes no option of the service but those it is about. -/
def OthersKept (s : System) (e : Event) : Prop :=
  ∀ k, k ∉ s.sets e → (step s e).service.getOption k = s.service.getOption k

/-- The service has what was last written for every option. -/
def System.UpToDate (s : System) : Prop :=
  ∀ k v, s.written k = some v → s.service.getOption k = v

/-- An option that is set is not overwritten, and is made empty only if its default is; a write
    finds the service; and the service handles a write only if its options have not been written
    since it answered the read for it. -/
def Careful (s : System) : Event → Prop
  | .read _ _ => True
  | .change _ k v => s.service.overwrite k = none ∧ (v = none → (s.service.defaults k).getD "" = "")
  | .write _ connected => connected = true
  | .serve n => ∀ x, s.sessions[n]? = some x → x.base = some s.version
  | .setOption k v => s.service.overwrite k = none ∧ (v = "" → (s.service.defaults k).getD "" = "")

/-! ## Sessions that are up to date -/

/-- What the sessions stand for while the service has not been written since their read. -/
structure System.Sound (s : System) : Prop where
  base : ∀ x ∈ s.sessions, ∀ b, x.base = some b → b ≤ s.version
  value : ∀ x ∈ s.sessions, x.base = some s.version → ∀ k, k ∉ x.changed →
    x.value k = s.service.getOptions k

variable {s : System}

theorem sound_start (service : OptionStore) (clients : Nat → OptionStore) :
    (System.start service clients).Sound where
  base := fun _ hx => absurd hx List.not_mem_nil
  value := fun _ hx => absurd hx List.not_mem_nil

theorem changeCopy_self (value : Options) (k : String) (v : Option String) :
    changeCopy value k v k = v := by
  cases v with
  | some v => exact Options.insert_self value k v
  | none => exact Options.remove_self value k

theorem changeCopy_of_ne (value : Options) {j k : String} (v : Option String) (h : j ≠ k) :
    changeCopy value k v j = value j := by
  cases v with
  | some v => exact Options.insert_of_ne value v h
  | none => exact Options.remove_of_ne value h

/-- After a write of the service no session is up to date. -/
theorem System.Sound.stale (hs : s.Sound) {x : Session} (hx : x ∈ s.sessions) :
    x.base ≠ some (s.version + 1) := by
  intro hbase
  have hle := hs.base x hx _ hbase
  omega

theorem System.Sound.written (hs : s.Sound) {service : OptionStore} {sessions : List Session}
    {written : String → Option String} (hsub : ∀ x ∈ sessions, x ∈ s.sessions) :
    System.Sound { s with service := service, version := s.version + 1, sessions := sessions,
                          written := written } where
  base := fun x hx b hb => Nat.le_succ_of_le (hs.base x (hsub x hx) b hb)
  value := fun x hx hb => absurd hb (hs.stale (hsub x hx))

/-- A new session, or one that is changed. -/
theorem System.Sound.sessions (hs : s.Sound) {clients : Nat → OptionStore}
    {sessions : List Session} {written : String → Option String} (new : Session)
    (hsub : ∀ x ∈ sessions, x ∈ s.sessions ∨ x = new)
    (hbase : ∀ b, new.base = some b → b ≤ s.version)
    (hvalue : new.base = some s.version → ∀ k, k ∉ new.changed →
      new.value k = s.service.getOptions k) :
    System.Sound { s with clients := clients, sessions := sessions, written := written } where
  base := fun x hx b hb => by
    rcases hsub x hx with hold | rfl
    · exact hs.base x hold b hb
    · exact hbase b hb
  value := fun x hx hb => by
    rcases hsub x hx with hold | rfl
    · exact hs.value x hold hb
    · exact hvalue hb

theorem sound_step (hs : s.Sound) (e : Event) : (step s e).Sound := by
  cases e with
  | read client answered =>
    rw [step]
    split
    · refine hs.sessions ⟨client, s.service.getOptions, some s.version, [], false⟩
        (fun x hx => ?_) (fun b hb => ?_) (fun _ _ _ => rfl)
      · simpa using List.mem_append.mp hx
      · cases hb
        exact le_refl _
    · refine hs.sessions ⟨client, (s.clients client).getOptions, none, [], false⟩
        (fun x hx => ?_) nofun nofun
      simpa using List.mem_append.mp hx
  | change n k v =>
    rw [step]
    split
    · next x hx =>
        split
        · exact hs
        · refine hs.sessions { x with value := changeCopy x.value k v, changed := k :: x.changed }
            (fun y hy => List.mem_or_eq_of_mem_set hy) (hs.base x (List.mem_of_getElem? hx)) ?_
          intro hbase j hj
          rw [List.mem_cons, not_or] at hj
          exact (changeCopy_of_ne x.value v hj.1).trans
            (hs.value x (List.mem_of_getElem? hx) hbase j hj.2)
    · exact hs
  | write n connected =>
    rw [step]
    split
    · next x hx =>
        split
        · exact hs
        · refine hs.sessions { x with sent := true } (fun y hy => ?_)
            (hs.base x (List.mem_of_getElem? hx)) (hs.value x (List.mem_of_getElem? hx))
          split at hy
          · exact List.mem_or_eq_of_mem_set hy
          · exact .inl (List.mem_of_mem_eraseIdx hy)
    · exact hs
  | serve n =>
    rw [step]
    split
    · split
      · exact hs.written fun y hy => List.mem_of_mem_eraseIdx hy
      · exact hs
    · exact hs
  | setOption k v => exact hs.written fun y hy => hy

/-- A write that is up to date changes nothing else. -/
theorem othersKept_step (hs : s.Sound) (e : Event) (hcareful : Careful s e) : OthersKept s e := by
  intro k hk
  cases e with
  | serve n =>
    rw [step]
    split
    · next x hx =>
        split
        · rw [System.sets, hx] at hk
          refine OptionStore.getOption_setOptions_same s.service x.value ?_
          exact hs.value x (List.mem_of_getElem? hx) (hcareful x hx) k hk
        · rfl
    · rfl
  | setOption j v =>
    refine OptionStore.getOption_setOption_of_ne s.service v ?_
    simpa [System.sets] using hk
  | read client answered =>
    rw [step]
    split
    · rfl
    · rfl
  | change n j v =>
    rw [step]
    split
    · split
      · rfl
      · rfl
    · rfl
  | write n connected =>
    rw [step]
    split
    · split
      · rfl
      · rfl
    · rfl

/-! ## Sessions that overlap -/

/-- Some session will not be served: two are open, or one is out of date. -/
def System.Doomed (s : System) : Prop :=
  2 ≤ s.sessions.length ∨ ∃ x ∈ s.sessions, x.base ≠ some s.version

theorem System.Doomed.ne_nil (h : s.Doomed) : s.sessions ≠ [] := by
  intro hnil
  rcases h with hlen | ⟨x, hx, -⟩
  · rw [hnil] at hlen
    exact absurd hlen (by decide)
  · rw [hnil] at hx
    cases hx

theorem not_doomed (h : ¬ s.Doomed) :
    s.sessions = [] ∨ ∃ x, s.sessions = [x] ∧ x.base = some s.version := by
  obtain ⟨hlen, hbase⟩ := not_or.mp h
  cases hsessions : s.sessions with
  | nil => exact .inl rfl
  | cons x rest =>
    rw [hsessions] at hlen
    have hrest : rest = [] := by
      rw [← List.length_eq_zero_iff]
      simp only [List.length_cons] at hlen
      omega
    subst hrest
    refine .inr ⟨x, rfl, ?_⟩
    by_contra hne
    exact hbase ⟨x, by rw [hsessions]; exact List.mem_cons_self, hne⟩

theorem doomed_of_bases {s' : System} (h : s.Doomed)
    (hbases : s'.sessions.map Session.base = s.sessions.map Session.base)
    (hversion : s'.version = s.version) : s'.Doomed := by
  rcases h with hlen | ⟨x, hx, hne⟩
  · left
    have hsame := congrArg List.length hbases
    simp only [List.length_map] at hsame
    omega
  · right
    have hmem : x.base ∈ s'.sessions.map Session.base := by
      rw [hbases]
      exact List.mem_map_of_mem hx
    obtain ⟨y, hy, hbase⟩ := List.mem_map.mp hmem
    exact ⟨y, hy, by rw [hbase, hversion]; exact hne⟩

theorem map_base_set {sessions : List Session} {n : Nat} {x x' : Session}
    (hx : sessions[n]? = some x) (hbase : x'.base = x.base) :
    (sessions.set n x').map Session.base = sessions.map Session.base := by
  rw [List.map_set, hbase]
  refine List.ext_getElem? fun j => ?_
  by_cases hj : n = j
  · subst hj
    obtain ⟨hlt, -⟩ := List.getElem?_eq_some_iff.mp hx
    rw [List.getElem?_set_self (by simpa using hlt), List.getElem?_map, hx]
    rfl
  · rw [List.getElem?_set_ne hj]

/-- If one session is up to date, and still not all will be served, there are two. -/
theorem System.Doomed.two_le (h : s.Doomed) {x : Session} (hx : x ∈ s.sessions)
    (hbase : x.base = some s.version) : 2 ≤ s.sessions.length := by
  rcases h with hlen | ⟨y, hy, hne⟩
  · exact hlen
  · by_contra hlen
    have hpos := List.length_pos_of_mem hx
    obtain ⟨z, hz⟩ := List.length_eq_one_iff.mp (show s.sessions.length = 1 by omega)
    rw [hz, List.mem_singleton] at hx hy
    rw [hy, ← hx] at hne
    exact hne hbase

/-- A session is not ended by anything but its write being served, and that makes all others out
    of date. -/
theorem doomed_step (hs : s.Sound) (h : s.Doomed) (e : Event) (hcareful : Careful s e) :
    (step s e).Doomed := by
  cases e with
  | read client answered =>
    rw [step]
    split <;>
    · rcases h with hlen | ⟨x, hx, hne⟩
      · left
        simp only [List.length_append, List.length_singleton]
        omega
      · exact .inr ⟨x, List.mem_append_left _ hx, hne⟩
  | change n k v =>
    rw [step]
    split
    · next x hx =>
        split
        · exact h
        · exact doomed_of_bases h (map_base_set hx rfl) rfl
    · exact h
  | write n connected =>
    obtain rfl : connected = true := hcareful
    rw [step]
    split
    · next x hx =>
        split
        · exact h
        · exact doomed_of_bases h (map_base_set hx rfl) rfl
    · exact h
  | serve n =>
    rw [step]
    split
    · next x hx =>
        split
        · have hlen := h.two_le (List.mem_of_getElem? hx) (hcareful x hx)
          have hlt := (List.getElem?_eq_some_iff.mp hx).1
          -- one is left, and it was read before this write
          have hleft : s.sessions.eraseIdx n ≠ [] := by
            intro hnil
            have hzero := congrArg List.length hnil
            rw [List.length_eraseIdx_of_lt hlt, List.length_nil] at hzero
            omega
          obtain ⟨y, hy⟩ := List.exists_mem_of_ne_nil _ hleft
          exact .inr ⟨y, hy, hs.stale (List.mem_of_mem_eraseIdx hy)⟩
        · exact h
    · exact h
  | setOption k v =>
    obtain ⟨y, hy⟩ := List.exists_mem_of_ne_nil _ h.ne_nil
    exact .inr ⟨y, hy, hs.stale hy⟩

/-! ## Every run -/

/-- The session has `v` for the option, and the service will have it after the write. -/
def Carries (service : OptionStore) (x : Session) (k v : String) : Prop :=
  service.overwrite k = none ∧ ((x.value k).or (service.defaults k)).getD "" = v

/-- What was last written for an option is in the session that changes it, or else in the
    service. -/
def System.Tracks (s : System) : Prop :=
  ∀ k v, s.written k = some v →
    (∃ x ∈ s.sessions, k ∈ x.changed ∧ Carries s.service x k v) ∨
      ((∀ x ∈ s.sessions, k ∉ x.changed) ∧ s.service.getOption k = v)

theorem Carries.served {service : OptionStore} {x : Session} {k v : String}
    (h : Carries service x k v) : (service.setOptions x.value).getOption k = v := by
  rw [OptionStore.getOption_setOptions service x.value h.1]
  exact h.2

/-- With no session open, what was written is in the service. -/
theorem System.Tracks.upToDate (ht : s.Tracks) (hnil : s.sessions = []) : s.UpToDate := by
  intro k v hv
  rcases ht k v hv with ⟨x, hx, -⟩ | ⟨-, hservice⟩
  · rw [hnil] at hx
    cases hx
  · exact hservice

theorem System.UpToDate.tracks (hu : s.UpToDate) (hnone : ∀ x ∈ s.sessions, x.changed = []) :
    s.Tracks := by
  intro k v hv
  refine .inr ⟨fun x hx => ?_, hu k v hv⟩
  rw [hnone x hx]
  exact List.not_mem_nil

/-- A step that leaves one session with the same changes. -/
theorem System.Tracks.one {x x' : Session} (ht : s.Tracks) (hone : s.sessions = [x])
    {clients : Nat → OptionStore} (hvalue : x'.value = x.value)
    (hchanged : x'.changed = x.changed) :
    System.Tracks { s with clients := clients, sessions := [x'] } := by
  intro k v hv
  rcases ht k v hv with ⟨y, hy, hk, hcarries⟩ | ⟨hnot, hservice⟩
  · rw [hone, List.mem_singleton] at hy
    subst hy
    refine .inl ⟨x', List.mem_singleton_self x', by rw [hchanged]; exact hk, hcarries.1, ?_⟩
    rw [hvalue]
    exact hcarries.2
  · refine .inr ⟨fun y hy => ?_, hservice⟩
    rw [List.mem_singleton.mp hy, hchanged]
    exact hnot x (by rw [hone]; exact List.mem_singleton_self x)

theorem tracks_change {x : Session} {k : String} {v : Option String} (ht : s.Tracks)
    (hone : s.sessions = [x]) (hover : s.service.overwrite k = none)
    (hempty : v = none → (s.service.defaults k).getD "" = "") :
    System.Tracks
      { s with sessions := [{ x with value := changeCopy x.value k v, changed := k :: x.changed }]
               written := Function.update s.written k (some (v.getD "")) } := by
  intro j w hw
  by_cases hj : j = k
  · subst hj
    simp only [Function.update_self, Option.some_inj] at hw
    refine .inl ⟨_, List.mem_singleton_self _, List.mem_cons_self, hover, ?_⟩
    show (((changeCopy x.value j v) j).or (s.service.defaults j)).getD "" = w
    rw [changeCopy_self, ← hw]
    cases v with
    | some v => rfl
    | none => exact hempty rfl
  · simp only [Function.update_of_ne hj] at hw
    rcases ht j w hw with ⟨y, hy, hchanged, hcarries⟩ | ⟨hnot, hservice⟩
    · rw [hone, List.mem_singleton] at hy
      subst hy
      refine .inl ⟨_, List.mem_singleton_self _, List.mem_cons_of_mem k hchanged, hcarries.1, ?_⟩
      show (((changeCopy y.value k v) j).or (s.service.defaults j)).getD "" = w
      rw [changeCopy_of_ne y.value v hj]
      exact hcarries.2
    · refine .inr ⟨fun y hy => ?_, hservice⟩
      rw [List.mem_singleton.mp hy, List.mem_cons, not_or]
      exact ⟨hj, hnot x (by rw [hone]; exact List.mem_singleton_self x)⟩

/-- The index of the only session. -/
theorem set_only {sessions : List Session} {x y : Session} {n : Nat} (x' : Session)
    (hone : sessions = [x]) (hy : sessions[n]? = some y) :
    y = x ∧ sessions.set n x' = [x'] ∧ sessions.eraseIdx n = [] := by
  subst hone
  cases n with
  | zero =>
    cases hy
    exact ⟨rfl, rfl, rfl⟩
  | succ n => cases hy

/-- As long as sessions do not overlap, what was written is not lost. -/
theorem tracks_step (hs : s.Sound) (hnot : ¬ s.Doomed) (ht : s.Tracks) (e : Event)
    (hcareful : Careful s e) (hnext : ¬ (step s e).Doomed) : (step s e).Tracks := by
  have hshape := not_doomed hnot
  cases e with
  | read client answered =>
    -- a second session would be one too many
    have hnil : s.sessions = [] := by
      rcases hshape with hnil | ⟨x, hone, -⟩
      · exact hnil
      · refine absurd (.inl ?_) hnext
        rw [step]
        split
        · simp [hone]
        · simp [hone]
    have hup := ht.upToDate hnil
    rw [step]
    split
    · refine System.UpToDate.tracks (s := { s with clients := _, sessions := _ }) hup ?_
      simp [hnil]
    · refine System.UpToDate.tracks (s := { s with sessions := _ }) hup ?_
      simp [hnil]
  | change n k v =>
    rw [step]
    split
    · next y hy =>
        split
        · exact ht
        · rcases hshape with hnil | ⟨x, hone, -⟩
          · rw [hnil] at hy
            cases hy
          · obtain ⟨rfl, hset, -⟩ := set_only
              { y with value := changeCopy y.value k v, changed := k :: y.changed } hone hy
            rw [hset]
            exact tracks_change ht hone hcareful.1 hcareful.2
    · exact ht
  | write n connected =>
    obtain rfl : connected = true := hcareful
    rw [step]
    split
    · next y hy =>
        split
        · exact ht
        · rcases hshape with hnil | ⟨x, hone, -⟩
          · rw [hnil] at hy
            cases hy
          · obtain ⟨rfl, hset, -⟩ := set_only { y with sent := true } hone hy
            rw [if_pos rfl, hset]
            exact ht.one hone rfl rfl
    · exact ht
  | serve n =>
    have hkept := othersKept_step hs (.serve n) hcareful
    cases hy : s.sessions[n]? with
    | none =>
      simp only [step, hy]
      exact ht
    | some y =>
      cases hsent : y.sent with
      | false =>
        simp only [step, hy, hsent]
        exact ht
      | true =>
        rcases hshape with hnil | ⟨x, hone, -⟩
        · rw [hnil] at hy
          cases hy
        · obtain ⟨rfl, -, herase⟩ := set_only y hone hy
          simp only [OthersKept, System.sets, step, hy, hsent, if_true] at hkept ⊢
          rw [herase]
          refine System.UpToDate.tracks (s := { s with service := _, version := _,
                                                       sessions := _ }) ?_ nofun
          intro k v hv
          rcases ht k v hv with ⟨z, hz, -, hcarries⟩ | ⟨hnot, hservice⟩
          · rw [hone, List.mem_singleton] at hz
            subst hz
            exact hcarries.served
          · refine (hkept k ?_).trans hservice
            exact hnot y (by rw [hone]; exact List.mem_singleton_self y)
  | setOption k v =>
    -- an open session would be out of date
    have hnil : s.sessions = [] := by
      by_contra hne
      obtain ⟨x, hx⟩ := List.exists_mem_of_ne_nil _ hne
      exact hnext (.inr ⟨x, hx, hs.stale hx⟩)
    refine System.UpToDate.tracks ?_ ?_
    · intro j w hw
      have hup := ht.upToDate hnil
      by_cases hj : j = k
      · subst hj
        simp only [step, Function.update_self, Option.some_inj] at hw
        subst hw
        refine (OptionStore.getOption_setOption s.service j v hcareful.1).trans ?_
        split
        · next hempty => rw [hcareful.2 hempty, hempty]
        · rfl
      · simp only [step, Function.update_of_ne hj] at hw
        exact (OptionStore.getOption_setOption_of_ne s.service v hj).trans (hup j w hw)
    · intro x hx
      rw [show (step s (.setOption k v)).sessions = s.sessions from rfl, hnil] at hx
      cases hx

/-- In a careful run no write changes an option that it is not about; and if all sessions are over
    at the end, the service has what was last written for every option, so in particular what the
    only party that writes an option wrote last. -/
theorem no_option_lost (service : OptionStore) (clients : Nat → OptionStore) (events : List Event)
    (hcareful : Along step Careful (.start service clients) events) :
    Along step OthersKept (.start service clients) events ∧
      ((run step (.start service clients) events).sessions = [] →
        (run step (.start service clients) events).UpToDate) := by
  have hsound : Always step System.Sound (.start service clients) events :=
    always_of_step (P := System.Sound) (fun t e ht => sound_step ht e)
      (sound_start service clients) events
  refine ⟨hsound.along (fun t e ht he => othersKept_step ht e he) hcareful, fun hnil => ?_⟩
  have hstep : ∀ t e, t.Sound ∧ (t.Doomed ∨ t.Tracks) → Careful t e →
      (step t e).Sound ∧ ((step t e).Doomed ∨ (step t e).Tracks) := by
    rintro t e ⟨ht, htracks⟩ he
    refine ⟨sound_step ht e, ?_⟩
    by_cases hnext : (step t e).Doomed
    · exact .inl hnext
    · have hnot : ¬ t.Doomed := fun hd => hnext (doomed_step ht hd e he)
      exact .inr (tracks_step ht hnot (htracks.resolve_left hnot) e he hnext)
  have htracks := always_of_along hstep ⟨sound_start service clients, .inr nofun⟩ hcareful
  obtain ⟨-, hdoomed | ht⟩ := htracks.last
  · exact absurd hnil hdoomed.ne_nil
  · exact ht.upToDate hnil

/-- A store with nothing set. -/
def emptyStore : OptionStore := ⟨fun _ => none, fun _ => none, fun _ => none⟩

/-- Two clients set an option each, one after the other. -/
def inTurn : List Event :=
  [.read 0 true, setOptionChange 0 "enable-audio" "N", .write 0 true, .serve 0,
    .read 1 true, setOptionChange 0 "verification-method" "use-both-passwords", .write 0 true,
    .serve 0]

theorem no_option_lost_inTurn :
    (run step (.start emptyStore fun _ => emptyStore) inTurn).service.getOption "enable-audio" =
        "N" ∧
      Along step OthersKept (.start emptyStore fun _ => emptyStore) inTurn := by
  have hcareful : Along step Careful (.start emptyStore fun _ => emptyStore) inTurn := by
    refine ⟨trivial, ⟨rfl, nofun⟩, rfl, fun x hx => ?_, trivial, ⟨rfl, nofun⟩, rfl, fun x hx => ?_,
      trivial⟩
    · cases hx
      rfl
    · cases hx
      rfl
  have h := no_option_lost emptyStore (fun _ => emptyStore) inTurn hcareful
  exact ⟨h.2 rfl "enable-audio" "N" rfl, h.1⟩

/-- Both have read before the first one writes. -/
def atOnce : List Event :=
  [.read 0 true, .read 1 true, setOptionChange 0 "enable-audio" "N",
    setOptionChange 1 "verification-method" "use-both-passwords", .write 0 true, .serve 0,
    .write 0 true, .serve 0]

/-- The second write takes the first one back, with an option it is not about. -/
theorem option_lost :
    (run step (.start emptyStore fun _ => emptyStore) atOnce).sessions.length = 0 ∧
      ¬ (run step (.start emptyStore fun _ => emptyStore) atOnce).UpToDate ∧
      ¬ Along step OthersKept (.start emptyStore fun _ => emptyStore) atOnce := by
  refine ⟨rfl, fun h => ?_, fun h => ?_⟩
  · exact absurd (h "enable-audio" "N" rfl) (by decide)
  · obtain ⟨-, -, -, -, -, -, -, hlast, -⟩ := h
    exact absurd (hlast "enable-audio" (by decide)) (by decide)

end OptionIpc
end LuodaRemote
