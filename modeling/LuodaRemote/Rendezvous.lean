/-
  Registration with the rendezvous servers (src/rendezvous_mediator.rs, the id and the flags of
  libs/hbb_common/src/config.rs).

  There is one UDP mediator for each server, and all of them share the configuration and
  `SOLVING_PK_MISMATCH`. A mediator acts when its timer fires and when an answer is delivered to
  it. The requests sent and the answers given to them are kept, and any answer may be delivered at
  any time, again, or never.

  A confirmation is a flag for a host prefix and does not say which id it was given for.
  `register_peer_confirmed`: an id is registered only with a server that confirmed it, and a
  mismatch is left only by the server that reported it, in the runs in which every OK answers a
  request for the current id and does not cut into another server's mismatch, the id is not
  regenerated behind a confirmation, and no two servers share a prefix.
-/
import LuodaRemote.Lib.Decimal
import LuodaRemote.Lib.Run

namespace LuodaRemote
open Lib

namespace Rendezvous

/-! ## Configuration -/

/-- What the machine and the generator of random numbers give when an id is made. -/
structure Draw where
  hostname : Option String
  auto : Fin 900000
deriving DecidableEq

structure Config where
  id : String
  keyConfirmed : Bool
  keysConfirmed : String → Option Bool
  hostnameAsId : Bool
  publicKey : List UInt8
  uuid : List UInt8
  noRegisterDevice : Bool
  serial : Int

def autoId (n : Fin 900000) : String := toString (100000 + n.val)

namespace Config

def setId (c : Config) (id : String) : Config := { c with id := id }

def genId (c : Config) (d : Draw) : String :=
  if c.hostnameAsId then
    match d.hostname with
    | some h => h.map fun ch => if ch = ' ' then '-' else ch
    | none => autoId d.auto
  else autoId d.auto

def getId (c : Config) (d : Draw) : String × Config :=
  if c.id.isEmpty ∨ 6 < c.id.utf8ByteSize then (c.genId d, c.setId (c.genId d)) else (c.id, c)

def updateId (c : Config) (d : Draw) (new : Fin 900000) : Config :=
  (c.getId d).2.setId (autoId new)

def setKeyConfirmed (c : Config) (v : Bool) : Config :=
  if c.keyConfirmed = v then c
  else { c with keyConfirmed := v
                keysConfirmed := if v then c.keysConfirmed else fun _ => none }

def getHostKeyConfirmed (c : Config) (host : String) : Bool := c.keysConfirmed host == some true

def setHostKeyConfirmed (c : Config) (host : String) (v : Bool) : Config :=
  if c.getHostKeyConfirmed host = v then c
  else { c with keysConfirmed := Function.update c.keysConfirmed host (some v) }

end Config

/-! ## Messages -/

structure RegisterPk where
  id : String
  uuid : List UInt8
  pk : List UInt8
  noRegisterDevice : Bool
deriving DecidableEq

structure RegisterPeer where
  id : String
  serial : Int
deriving DecidableEq

/-- The result of a `RegisterPkResponse`; the remaining ones are only logged. -/
inductive PkResult where
  | ok
  | uuidMismatch
  | other
deriving DecidableEq

/-- A server's answer to a request that was sent to it. -/
structure Answer where
  host : String
  request : RegisterPk
  result : PkResult
deriving DecidableEq

/-! ## The mediators -/

def getHostPrefix (host : String) : String :=
  let x := host.toList.takeWhile (· ≠ '.')
  if (parseSigned 32 x).isSome then host else String.ofList x

structure State where
  config : Config
  /-- `SOLVING_PK_MISMATCH`. -/
  solving : String
  /-- The requests sent, the answers given to them, and the registrations sent, oldest first. -/
  requests : List (String × RegisterPk)
  answers : List Answer
  registrations : List (String × RegisterPeer)

namespace State

def registerPk (s : State) (host : String) (d : Draw) : State :=
  let (id, config) := s.config.getId d
  { s with config := config
           requests := s.requests ++
             [(host, ⟨id, config.uuid, config.publicKey, config.noRegisterDevice⟩)] }

def registerPeer (s : State) (host : String) (d : Draw) : State :=
  if s.solving ≠ "" ∧ s.solving ≠ host then s
  else if s.config.keyConfirmed = false ∨
      s.config.getHostKeyConfirmed (getHostPrefix host) = false then
    s.registerPk host d
  else
    let (id, config) := s.config.getId d
    { s with config := config
             registrations := s.registrations ++ [(host, ⟨id, config.serial⟩)] }

def handleUuidMismatch (s : State) (host : String) (d : Draw) (new : Fin 900000) : State :=
  if s.solving = "" ∨ s.solving = host then
    { s with config := (s.config.setKeyConfirmed false).updateId d new
             solving := host }.registerPk host d
  else s

/-- The identity is confirmed. -/
def confirm (s : State) (host : String) : State :=
  { s with config := (s.config.setKeyConfirmed true).setHostKeyConfirmed (getHostPrefix host) true
           solving := "" }

def registerPkResponse (s : State) (host : String) (result : PkResult) (d : Draw)
    (new : Fin 900000) : State :=
  match result with
  | .ok => (s.confirm host).registerPeer host d
  | .uuidMismatch => s.handleUuidMismatch host d new
  | .other => s

end State

inductive Event where
  /-- The timer of the mediator for `host` fires, and it is time to register. -/
  | tick (host : String) (d : Draw)
  /-- A `RegisterPeerResponse` of the server arrives. -/
  | peerResponse (host : String) (requestPk : Bool) (d : Draw)
  /-- The server answers the request with number `k`. -/
  | serve (k : Nat) (result : PkResult)
  /-- The answer with number `k` arrives. -/
  | deliver (k : Nat) (d : Draw) (new : Fin 900000)
deriving DecidableEq

def step (s : State) : Event → State
  | .tick host d => s.registerPeer host d
  | .peerResponse host requestPk d => if requestPk then s.registerPk host d else s
  | .serve k result =>
    match s.requests[k]? with
    | some (host, request) => { s with answers := s.answers ++ [⟨host, request, result⟩] }
    | none => s
  | .deliver k d new =>
    match s.answers[k]? with
    | some a => s.registerPkResponse a.host a.result d new
    | none => s

/-! ## The property -/

/-- The server has answered OK to a request with this id and the current key. -/
def State.HasConfirmed (s : State) (host id : String) : Prop :=
  ∃ a ∈ s.answers, a.host = host ∧ a.result = .ok ∧ a.request.id = id ∧
    a.request.pk = s.config.publicKey

/-- An id is registered only with a server that has confirmed it. -/
def State.Confirmed (s : State) : Prop :=
  ∀ m ∈ s.registrations, s.HasConfirmed m.1 m.2.id

/-- Only an answer of the server that reported a mismatch ends it. -/
def Steady (s : State) (e : Event) : Prop :=
  s.solving ≠ "" → (step s e).solving ≠ s.solving →
    ∃ k d new a, e = .deliver k d new ∧ s.answers[k]? = some a ∧ a.host = s.solving

/-- The mediators are those of `hosts`, the id is not regenerated while it is confirmed, and an OK
    answers a request for the current id and key, with no other server's mismatch open. -/
def Careful (hosts : Set String) (s : State) : Event → Prop
  | .tick host d =>
    host ∈ hosts ∧ (s.config.keyConfirmed = true → (s.config.getId d).1 = s.config.id)
  | .peerResponse host requestPk d =>
    host ∈ hosts ∧ (requestPk = true → s.config.keyConfirmed = true →
      (s.config.getId d).1 = s.config.id)
  | .serve _ _ => True
  | .deliver k d _ =>
    ∀ a, s.answers[k]? = some a → a.result = .ok →
      a.request.id = s.config.id ∧ a.request.pk = s.config.publicKey ∧
      (s.config.getId d).1 = s.config.id ∧ (s.solving = "" ∨ s.solving = a.host)

/-! ## The configuration -/

namespace Config

theorem getId_snd (c : Config) (d : Draw) : (c.getId d).2 = c.setId (c.getId d).1 := by
  unfold getId
  split
  · rfl
  · rfl

/-- The id depends on nothing that a confirmation changes. -/
theorem getId_fst {c c' : Config} (hid : c'.id = c.id) (has : c'.hostnameAsId = c.hostnameAsId)
    (d : Draw) : (c'.getId d).1 = (c.getId d).1 := by
  have hgen : c'.genId d = c.genId d := by
    unfold genId
    rw [has]
  unfold getId
  rw [hid, hgen]
  split
  · rfl
  · rfl

theorem setKeyConfirmed_same (c : Config) (v : Bool) :
    (c.setKeyConfirmed v).id = c.id ∧ (c.setKeyConfirmed v).publicKey = c.publicKey ∧
      (c.setKeyConfirmed v).hostnameAsId = c.hostnameAsId := by
  unfold setKeyConfirmed
  split
  · exact ⟨rfl, rfl, rfl⟩
  · exact ⟨rfl, rfl, rfl⟩

theorem setHostKeyConfirmed_same (c : Config) (host : String) (v : Bool) :
    (c.setHostKeyConfirmed host v).id = c.id ∧
      (c.setHostKeyConfirmed host v).publicKey = c.publicKey ∧
      (c.setHostKeyConfirmed host v).hostnameAsId = c.hostnameAsId ∧
      (c.setHostKeyConfirmed host v).keyConfirmed = c.keyConfirmed := by
  unfold setHostKeyConfirmed
  split
  · exact ⟨rfl, rfl, rfl, rfl⟩
  · exact ⟨rfl, rfl, rfl, rfl⟩

theorem setKeyConfirmed_keyConfirmed (c : Config) (v : Bool) :
    (c.setKeyConfirmed v).keyConfirmed = v := by
  unfold setKeyConfirmed
  split
  · assumption
  · rfl

theorem getHostKeyConfirmed_setKeyConfirmed_true (c : Config) (host : String) :
    (c.setKeyConfirmed true).getHostKeyConfirmed host = c.getHostKeyConfirmed host := by
  unfold setKeyConfirmed
  split
  · rfl
  · rfl

/-- A host that is confirmed now was so before, or is the one just confirmed. -/
theorem getHostKeyConfirmed_set {c : Config} {host other : String}
    (h : (c.setHostKeyConfirmed host true).getHostKeyConfirmed other = true) :
    other = host ∨ c.getHostKeyConfirmed other = true := by
  unfold setHostKeyConfirmed at h
  split at h
  · exact .inr h
  · by_cases hother : other = host
    · exact .inl hother
    · right
      simpa only [getHostKeyConfirmed, Function.update_of_ne hother] using h

end Config

/-! ## What the flags stand for -/

structure State.Recorded (hosts : Set String) (s : State) : Prop where
  requests : ∀ m ∈ s.requests, m.1 ∈ hosts
  answers : ∀ a ∈ s.answers, a.host ∈ hosts
  flags : ∀ host ∈ hosts, s.config.getHostKeyConfirmed (getHostPrefix host) = true →
    s.config.keyConfirmed = true ∧ s.HasConfirmed host s.config.id
  confirmed : s.Confirmed

variable {hosts : Set String} {s : State}

/-- With no key confirmed the id may change, and with one it is the same. -/
theorem State.Recorded.setId (hs : s.Recorded hosts) {id : String}
    (hid : s.config.keyConfirmed = true → id = s.config.id) :
    State.Recorded hosts { s with config := s.config.setId id } := by
  refine ⟨hs.requests, hs.answers, fun host hhost hflag => ?_, hs.confirmed⟩
  obtain ⟨hkey, a, ha, hof, hok, hrequest, hpk⟩ := hs.flags host hhost hflag
  exact ⟨hkey, a, ha, hof, hok, hrequest.trans (hid hkey).symm, hpk⟩

theorem State.Recorded.registerPk (hs : s.Recorded hosts) {host : String} (hhost : host ∈ hosts)
    {d : Draw} (hid : s.config.keyConfirmed = true → (s.config.getId d).1 = s.config.id) :
    (s.registerPk host d).Recorded hosts := by
  have hset := hs.setId hid
  rw [← Config.getId_snd] at hset
  refine ⟨fun m hm => ?_, hset.answers, hset.flags, hset.confirmed⟩
  rcases List.mem_append.mp hm with hold | hnew
  · exact hs.requests m hold
  · rw [List.mem_singleton.mp hnew]
    exact hhost

theorem State.Recorded.registerPeer (hs : s.Recorded hosts) {host : String} (hhost : host ∈ hosts)
    {d : Draw} (hid : s.config.keyConfirmed = true → (s.config.getId d).1 = s.config.id) :
    (s.registerPeer host d).Recorded hosts := by
  unfold State.registerPeer
  split
  · exact hs
  · split
    · exact hs.registerPk hhost hid
    · next hflags =>
        simp only [not_or, Bool.not_eq_false] at hflags
        obtain ⟨hkey, hflag⟩ := hflags
        have hset := hs.setId hid
        rw [← Config.getId_snd] at hset
        refine ⟨hset.requests, hset.answers, hset.flags, fun m hm => ?_⟩
        rcases List.mem_append.mp hm with hold | hnew
        · exact hset.confirmed m hold
        · rw [List.mem_singleton.mp hnew]
          obtain ⟨-, hconfirmed⟩ := hset.flags host hhost (by
            show ((s.config.getId d).2).getHostKeyConfirmed _ = true
            rw [Config.getId_snd]
            exact hflag)
          show State.HasConfirmed { s with config := (s.config.getId d).2 } host
            (s.config.getId d).1
          rw [Config.getId_snd] at hconfirmed ⊢
          exact hconfirmed

theorem State.Recorded.confirm (hinj : Set.InjOn getHostPrefix hosts) (hs : s.Recorded hosts)
    {a : Answer} (ha : a ∈ s.answers) (hok : a.result = .ok) (hid : a.request.id = s.config.id)
    (hpk : a.request.pk = s.config.publicKey) : (s.confirm a.host).Recorded hosts := by
  obtain ⟨hid₁, hpk₁, -⟩ := s.config.setKeyConfirmed_same true
  obtain ⟨hid₂, hpk₂, -, hkey⟩ :=
    (s.config.setKeyConfirmed true).setHostKeyConfirmed_same (getHostPrefix a.host) true
  have hpk' := hpk₂.trans hpk₁
  have hsame : ∀ host id, s.HasConfirmed host id → (s.confirm a.host).HasConfirmed host id := by
    rintro host id ⟨b, hb, hof, hok', hrequest, hbpk⟩
    exact ⟨b, hb, hof, hok', hrequest, hbpk.trans hpk'.symm⟩
  refine ⟨hs.requests, hs.answers, fun host hhost hflag => ?_, fun m hm => ?_⟩
  · refine ⟨hkey.trans (Config.setKeyConfirmed_keyConfirmed _ _), ?_⟩
    rw [show (s.confirm a.host).config.id = s.config.id from hid₂.trans hid₁]
    rcases Config.getHostKeyConfirmed_set hflag with hpre | hbefore
    · -- no other server has this prefix
      have hsame' := hinj hhost (hs.answers a ha) hpre
      exact hsame _ _ ⟨a, ha, hsame'.symm, hok, hid, hpk⟩
    · rw [Config.getHostKeyConfirmed_setKeyConfirmed_true] at hbefore
      exact hsame _ _ (hs.flags host hhost hbefore).2
  · exact hsame _ _ (hs.confirmed m hm)

/-- After a mismatch nothing is confirmed. -/
theorem State.Recorded.mismatch (hs : s.Recorded hosts) (d : Draw) (new : Fin 900000)
    (solving : String) :
    State.Recorded hosts { s with config := (s.config.setKeyConfirmed false).updateId d new
                                  solving := solving } := by
  have hupdate : (s.config.setKeyConfirmed false).updateId d new =
      (s.config.setKeyConfirmed false).setId (autoId new) := by
    unfold Config.updateId
    rw [Config.getId_snd]
    rfl
  obtain ⟨-, hpk, -⟩ := s.config.setKeyConfirmed_same false
  rw [hupdate]
  refine ⟨hs.requests, hs.answers, fun host hhost hflag => ?_, fun m hm => ?_⟩
  · exfalso
    unfold Config.setKeyConfirmed at hflag
    split at hflag
    · next hkey =>
        obtain ⟨hkey', -⟩ := hs.flags host hhost hflag
        rw [hkey] at hkey'
        cases hkey'
    · simp [Config.getHostKeyConfirmed, Config.setId] at hflag
  · obtain ⟨a, ha, hof, hok, hrequest, hapk⟩ := hs.confirmed m hm
    exact ⟨a, ha, hof, hok, hrequest, hapk.trans hpk.symm⟩

/-! ## Every run -/

theorem recorded_registerPkResponse (hinj : Set.InjOn getHostPrefix hosts)
    (hs : s.Recorded hosts) {k : Nat} {d : Draw} {new : Fin 900000} {a : Answer}
    (hanswer : s.answers[k]? = some a) (hcareful : Careful hosts s (.deliver k d new)) :
    (s.registerPkResponse a.host a.result d new).Recorded hosts := by
  have ha := List.mem_of_getElem? hanswer
  cases hresult : a.result with
  | ok =>
    obtain ⟨hid, hpk, hgen, -⟩ := hcareful a hanswer hresult
    have hconfirm := hs.confirm hinj ha hresult hid hpk
    refine hconfirm.registerPeer (hs.answers a ha) fun _ => ?_
    obtain ⟨hid₁, -, has₁⟩ := s.config.setKeyConfirmed_same true
    obtain ⟨hid₂, -, has₂, -⟩ :=
      (s.config.setKeyConfirmed true).setHostKeyConfirmed_same (getHostPrefix a.host) true
    have hsame : (s.confirm a.host).config.id = s.config.id := hid₂.trans hid₁
    rw [Config.getId_fst hsame (has₂.trans has₁) d, hsame]
    exact hgen
  | uuidMismatch =>
    show (s.handleUuidMismatch a.host d new).Recorded hosts
    unfold State.handleUuidMismatch
    split
    · refine (hs.mismatch d new a.host).registerPk (hs.answers a ha) fun hkey => ?_
      have hkey' : (s.config.setKeyConfirmed false).keyConfirmed = true := by
        have hsnd := hkey
        simp only [Config.updateId, Config.getId_snd, Config.setId] at hsnd
        exact hsnd
      rw [Config.setKeyConfirmed_keyConfirmed] at hkey'
      cases hkey'
    · exact hs
  | other => exact hs

theorem recorded_step (hinj : Set.InjOn getHostPrefix hosts) (hs : s.Recorded hosts)
    (e : Event) (hcareful : Careful hosts s e) : (step s e).Recorded hosts := by
  cases e with
  | tick host d => exact hs.registerPeer hcareful.1 hcareful.2
  | peerResponse host requestPk d =>
    rw [step]
    split
    · next hrequest => exact hs.registerPk hcareful.1 (hcareful.2 hrequest)
    · exact hs
  | serve k result =>
    rw [step]
    split
    · next host request hrequest =>
        have hmore : ∀ h id, s.HasConfirmed h id →
            State.HasConfirmed { s with answers := s.answers ++ [⟨host, request, result⟩] } h
              id := by
          rintro h id ⟨a, ha, hrest⟩
          exact ⟨a, List.mem_append_left _ ha, hrest⟩
        refine ⟨hs.requests, fun a ha => ?_, fun h hh hflag => ?_, fun m hm => ?_⟩
        · rcases List.mem_append.mp ha with hold | hnew
          · exact hs.answers a hold
          · rw [List.mem_singleton.mp hnew]
            exact hs.requests _ (List.mem_of_getElem? hrequest)
        · obtain ⟨hkey, hconfirmed⟩ := hs.flags h hh hflag
          exact ⟨hkey, hmore _ _ hconfirmed⟩
        · exact hmore _ _ (hs.confirmed m hm)
    · exact hs
  | deliver k d new =>
    rw [step]
    split
    · next a hanswer => exact recorded_registerPkResponse hinj hs hanswer hcareful
    · exact hs

@[simp] theorem solving_registerPk (s : State) (host : String) (d : Draw) :
    (s.registerPk host d).solving = s.solving := rfl

@[simp] theorem solving_registerPeer (s : State) (host : String) (d : Draw) :
    (s.registerPeer host d).solving = s.solving := by
  unfold State.registerPeer
  split
  · rfl
  · split
    · rfl
    · rfl

theorem solving_handleUuidMismatch (host : String) (d : Draw) (new : Fin 900000)
    (h : s.solving ≠ "") : (s.handleUuidMismatch host d new).solving = s.solving := by
  unfold State.handleUuidMismatch
  split
  · next hsolving =>
      rcases hsolving with hempty | hhost
      · exact absurd hempty h
      · exact hhost.symm
  · rfl

theorem steady_step (e : Event) (hcareful : Careful hosts s e) : Steady s e := by
  intro hopen hchanged
  cases e with
  | tick host d => exact absurd (solving_registerPeer s host d) hchanged
  | peerResponse host requestPk d =>
    rw [step] at hchanged
    split at hchanged
    · exact absurd rfl hchanged
    · exact absurd rfl hchanged
  | serve k result =>
    rw [step] at hchanged
    split at hchanged
    · exact absurd rfl hchanged
    · exact absurd rfl hchanged
  | deliver k d new =>
    rw [step] at hchanged
    split at hchanged
    · next a hanswer =>
        refine ⟨k, d, new, a, rfl, hanswer, ?_⟩
        cases hresult : a.result with
        | ok =>
          obtain ⟨-, -, -, hempty | hhost⟩ := hcareful a hanswer hresult
          · exact absurd hempty hopen
          · exact hhost.symm
        | uuidMismatch =>
          rw [hresult] at hchanged
          exact absurd (solving_handleUuidMismatch a.host d new hopen) hchanged
        | other =>
          rw [hresult] at hchanged
          exact absurd rfl hchanged
    · exact absurd rfl hchanged

/-- With servers of different prefixes, in a careful run an id is only registered with a server
    that confirmed it, and a mismatch is only ended by the server that reported it. -/
theorem register_peer_confirmed (hinj : Set.InjOn getHostPrefix hosts) (hs : s.Recorded hosts)
    (events : List Event) (hcareful : Along step (Careful hosts) s events) :
    Always step State.Confirmed s events ∧ Along step Steady s events := by
  have hrecorded : Always step (State.Recorded hosts) s events :=
    always_of_along (fun t e ht he => recorded_step hinj ht e he) hs hcareful
  exact ⟨hrecorded.mono fun t ht => ht.confirmed, hcareful.mono fun t e he => steady_step e he⟩

/-- A machine that was never registered. -/
def fresh : State where
  config := ⟨"123456", false, fun _ => none, false, [1], [2], false, 0⟩
  solving := ""
  requests := []
  answers := []
  registrations := []

theorem recorded_fresh (hosts : Set String) : fresh.Recorded hosts where
  requests := fun m hm => absurd hm List.not_mem_nil
  answers := fun a ha => absurd ha List.not_mem_nil
  flags := fun host _ hflag => by cases hflag
  confirmed := fun m hm => absurd hm List.not_mem_nil

def draw : Draw := ⟨none, 0⟩

/-- The id is in use at the server, a new one is confirmed there. -/
def renamed : List Event :=
  [.tick "one.example:21116" draw, .serve 0 .uuidMismatch, .deliver 0 draw 7, .serve 1 .ok,
    .deliver 1 draw 0]

theorem register_peer_confirmed_renamed :
    Always step State.Confirmed fresh renamed ∧ Along step Steady fresh renamed ∧
      (run step fresh renamed).registrations = [("one.example:21116", ⟨"100007", 0⟩)] := by
  have hcareful : Along step (Careful { "one.example:21116" }) fresh renamed := by
    refine ⟨⟨rfl, fun h => by cases h⟩, trivial, fun a ha hok => ?_, trivial, fun a ha _ => ?_,
      trivial⟩
    · cases ha
      cases hok
    · cases ha
      decide +kernel
  have h := register_peer_confirmed (Set.injOn_singleton _ _) (recorded_fresh _) renamed hcareful
  exact ⟨h.1, h.2, by decide +kernel⟩

/-- Two servers are asked; while the OK of the second is on its way, the first reports a mismatch
    and the id changes. -/
def staleOk : List Event :=
  [.tick "one.example:21116" draw, .tick "two.example:21116" draw, .serve 1 .ok,
    .serve 0 .uuidMismatch, .deliver 1 draw 7, .deliver 0 draw 0]

theorem unconfirmed_registered :
    ¬ Always step State.Confirmed fresh staleOk ∧ ¬ Along step Steady fresh staleOk := by
  constructor
  · intro h
    obtain ⟨a, ha, hhost, hok, hid, -⟩ := h.last ("two.example:21116", ⟨"100007", 0⟩)
      (by decide +kernel)
    have hanswers : (run step fresh staleOk).answers =
        [⟨"two.example:21116", ⟨"123456", [2], [1], false⟩, .ok⟩,
          ⟨"one.example:21116", ⟨"123456", [2], [1], false⟩, .uuidMismatch⟩] := by decide +kernel
    rw [hanswers] at ha
    simp only [List.mem_cons, List.not_mem_nil, or_false] at ha
    obtain rfl | rfl := ha
    · exact absurd hid (by decide +kernel)
    · cases hok
  · rintro ⟨-, -, -, -, -, hlast, -⟩
    obtain ⟨k, d, new, a, hevent, ha, hhost⟩ := hlast (by decide +kernel) (by decide +kernel)
    cases hevent
    have hfirst : (run step fresh (staleOk.take 5)).answers[0]? =
        some ⟨"two.example:21116", ⟨"123456", [2], [1], false⟩, .ok⟩ := by decide +kernel
    cases hfirst.symm.trans ha
    exact absurd hhost (by decide +kernel)

end Rendezvous
end LuodaRemote
