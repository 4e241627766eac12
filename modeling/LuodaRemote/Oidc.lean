/-
  Logging in to an account: calls that start a login, the tasks they spawn, and what the user is
  shown of it.

  All share one session. A call tells the task that is running to stop, waits until it has, and
  starts its own; a task asks the server again and again whether the user has logged in, as long as
  it is not told to stop, and writes down what it gets. Each access to the session under its lock
  is one step here, and so is each request, which is made under the lock, too.

  The waiting and the starting are two steps, so two calls can both find nothing running and both
  start a task; then the older one goes on writing over the newer one's session. And whether to
  stop is looked up before the server is asked: a login that comes in after the user has cancelled
  is written down all the same. `Undisturbed` says that neither happens, and that the user does not
  cancel what is about to start or to be written; `logins_do_not_mix` is what holds then.

  What the server is asked, and the client it is asked with, are left out: the answers are given
  with the steps.

  Source: `src/hbbs_http/account.rs`; `HbbHttpResponse` of `src/hbbs_http.rs`.
-/
import LuodaRemote.Lib.Run

namespace LuodaRemote

open Lib

namespace Oidc

/-! ## The session -/

def requestingAccountAuth : String := "Requesting account auth"

def waitingAccountAuth : String := "Waiting account auth"

def loginAccountAuth : String := "Login account auth"

structure OidcAuthUrl where
  code : String
  url : String
  deriving DecidableEq

/-- What is kept of the user. -/
structure UserPayload where
  name : String
  displayName : Option String
  avatar : Option String
  status : Int
  deriving DecidableEq

structure AuthBody where
  accessToken : String
  type : String
  tfaType : String := ""
  secret : String := ""
  user : UserPayload
  deriving DecidableEq

/-- `HbbHttpResponse`, or the error with which there is none. -/
inductive Response (α : Type) where
  | errorFormat
  | error (err : String)
  | dataTypeFormat
  | data (a : α)
  | failed (err : String)

/-- What a session has to show. -/
structure AuthState where
  stateMsg : String := requestingAccountAuth
  failedMsg : String := ""
  codeUrl : Option OidcAuthUrl := none
  authBody : Option AuthBody := none
  deriving DecidableEq

structure OidcSession extends AuthState where
  keepQuerying : Bool := false
  running : Bool := false

structure AuthResult where
  stateMsg : String
  failedMsg : String
  url : Option String
  authBody : Option AuthBody
  deriving DecidableEq

def AuthState.setState (stateMsg failedMsg : String) (a : AuthState) : AuthState :=
  { a with stateMsg := stateMsg, failedMsg := failedMsg }

def AuthState.getResult (a : AuthState) : AuthResult where
  stateMsg := a.stateMsg
  failedMsg := a.failedMsg
  url := a.codeUrl.map (·.url)
  authBody := a.authBody

namespace OidcSession

def reset (_ : OidcSession) : OidcSession := { keepQuerying := true, running := false }

def beforeTask (s : OidcSession) : OidcSession := { s.reset with running := true }

def afterTask (s : OidcSession) : OidcSession := { s with running := false }

def authCancel (s : OidcSession) : OidcSession := { s with keepQuerying := false }

end OidcSession

/-! ## Tasks -/

/-- Where an `auth_task` is: the access to the session, the request or the option that comes
    next. -/
inductive TaskPc where
  | auth
  /-- `set_state`, and nothing after it. -/
  | setFailed (stateMsg failedMsg : String)
  | setWaiting (codeUrl : OidcAuthUrl)
  | setCodeUrl (codeUrl : OidcAuthUrl)
  | keepQuerying (code : String)
  | query (code : String)
  | saveAccessToken (body : AuthBody)
  | saveUserInfo (body : AuthBody)
  | setLogin (body : AuthBody)
  | setAuthBody (body : AuthBody)
  | afterTask
  | done
  deriving DecidableEq

/-- What a step of a task meets with: the answers of the server, and whether the time for asking it
    is over, on either of the two looks at the clock. -/
structure Outcome where
  auth : Response OidcAuthUrl := .errorFormat
  query : Response AuthBody := .errorFormat
  elapsed : Bool := false
  elapsedAfter : Bool := false

def noAuthedOidc : String := "No authed oidc is found"

namespace TaskPc

/-- The task has a login and writes it down. -/
def logsIn : TaskPc → Bool
  | saveAccessToken _ | saveUserInfo _ | setLogin _ | setAuthBody _ => true
  | _ => false

def next (rememberMe keep : Bool) (o : Outcome) : TaskPc → TaskPc
  | auth =>
    match o.auth with
    | .data codeUrl => setWaiting codeUrl
    | .error err => setFailed requestingAccountAuth err
    | .failed err => setFailed requestingAccountAuth err
    | _ => setFailed requestingAccountAuth "Invalid auth response"
  | setFailed _ _ => afterTask
  | setWaiting codeUrl => setCodeUrl codeUrl
  | setCodeUrl codeUrl => keepQuerying codeUrl.code
  | keepQuerying code =>
    if keep && !o.elapsed then query code
    else if o.elapsedAfter then setFailed waitingAccountAuth "timeout"
    else afterTask
  | query code =>
    match o.query with
    | .data body =>
      if body.type = "access_token" ∧ rememberMe then saveAccessToken body else setLogin body
    | .error err =>
      if noAuthedOidc.toList <:+: err.toList then keepQuerying code
      else setFailed waitingAccountAuth err
    | _ => keepQuerying code
  | saveAccessToken body => saveUserInfo body
  | saveUserInfo body => setLogin body
  | setLogin body => setAuthBody body
  | setAuthBody _ => afterTask
  | afterTask => done
  | done => done

/-- What the step sets of what there is to show. -/
def sets : TaskPc → AuthState → AuthState
  | setFailed stateMsg failedMsg, a => a.setState stateMsg failedMsg
  | setWaiting _, a => a.setState waitingAccountAuth ""
  | setCodeUrl codeUrl, a => { a with codeUrl := some codeUrl }
  | setLogin _, a => a.setState loginAccountAuth ""
  | setAuthBody body, a => { a with authBody := some body }
  | _, a => a

end TaskPc

structure Task where
  rememberMe : Bool
  pc : TaskPc := .auth
  /-- What the task has set since the session was reset for it. -/
  shown : AuthState := {}

/-- Where an `account_auth` is: it waits, it has found nothing running, its task is spawned. -/
inductive CallPc where
  | waitStopQuerying
  | beforeTask
  | spawned
  deriving DecidableEq

structure Call where
  rememberMe : Bool
  pc : CallPc := .waitStopQuerying

/-! ## The client -/

/-- The session, `LocalConfig`, the calls of `account_auth` and the tasks of the same numbers. -/
structure Client where
  session : OidcSession := {}
  localConfig : String → Option String := fun _ => none
  calls : Nat → Option Call := fun _ => none
  tasks : Nat → Option Task := fun _ => none
  /-- The task that was started last. -/
  latest : Option Nat := none
  /-- `auth_cancel` was called since the last call of `account_auth`. -/
  cancelled : Bool := false

inductive Step where
  | accountAuth (call : Nat) (rememberMe : Bool)
  | call (call : Nat)
  | authCancel
  | task (task : Nat) (o : Outcome)

section

-- `user_info`, as JSON
variable (userInfo : UserPayload → String)

/-- What the step writes to `LocalConfig`. -/
def TaskPc.saves (localConfig : String → Option String) : TaskPc → String → Option String
  | saveAccessToken body => Function.update localConfig "access_token" (some body.accessToken)
  | saveUserInfo body => Function.update localConfig "user_info" (some (userInfo body.user))
  | _ => localConfig

namespace Client

def callStep (c : Nat) (w : Client) : Client :=
  match w.calls c with
  | some ⟨rememberMe, .waitStopQuerying⟩ =>
    if w.session.running then w
    else { w with calls := Function.update w.calls c (some ⟨rememberMe, .beforeTask⟩) }
  | some ⟨rememberMe, .beforeTask⟩ =>
    { w with
      session := w.session.beforeTask
      calls := Function.update w.calls c (some ⟨rememberMe, .spawned⟩)
      tasks := Function.update w.tasks c (some { rememberMe := rememberMe })
      latest := some c }
  | _ => w

def taskStep (t : Nat) (o : Outcome) (w : Client) : Client :=
  match w.tasks t with
  | none => w
  | some task =>
    let session := { w.session with toAuthState := task.pc.sets w.session.toAuthState }
    { w with
      session := if task.pc = .afterTask then session.afterTask else session
      localConfig := task.pc.saves userInfo w.localConfig
      tasks := Function.update w.tasks t (some { task with
        pc := task.pc.next task.rememberMe w.session.keepQuerying o
        shown := task.pc.sets task.shown }) }

def step (w : Client) : Step → Client
  | .accountAuth c rememberMe =>
    if (w.calls c).isSome then w
    else
      { w with
        session := w.session.authCancel
        calls := Function.update w.calls c (some { rememberMe := rememberMe })
        cancelled := false }
  | .call c => w.callStep c
  | .authCancel => { w with session := w.session.authCancel, cancelled := true }
  | .task t o => w.taskStep userInfo t o

end Client

end

namespace Client

/-! ## What should hold -/

/-- The task is between `before_task` and `after_task`. -/
def Active (w : Client) (t : Nat) : Prop := ∃ task, w.tasks t = some task ∧ task.pc ≠ .done

/-- One task at most, and what is shown is what the latest one has set. -/
structure Separate (w : Client) : Prop where
  single : ∀ t t', w.Active t → w.Active t' → t = t'
  latest : ∀ t task, w.latest = some t → w.tasks t = some task →
    w.session.getResult = task.shown.getResult

/-- No login is written down after it was cancelled. -/
def Obeys (w : Client) : Step → Prop
  | .task t _ => ∀ task, w.tasks t = some task → task.pc.logsIn = true → w.cancelled = false
  | _ => True

/-- A call has not yet started its task. -/
def Starting (w : Client) : Prop := ∃ c call, w.calls c = some call ∧ call.pc ≠ .spawned

/-- A call that starts its task finds none running; a login comes in while the server is still to
    be asked, or another login starting; and the user cancels when there is no login to be written
    down and none starting. -/
def Undisturbed (w : Client) : Step → Prop
  | .accountAuth _ _ => True
  | .call c => ∀ call, w.calls c = some call → call.pc = .beforeTask → w.session.running = false
  | .authCancel =>
    ¬ w.Starting ∧ ∀ t task, w.tasks t = some task → task.pc.logsIn = false
  | .task t o => ∀ task code body, w.tasks t = some task → task.pc = .query code →
      o.query = .data body → w.session.keepQuerying = true ∨ w.Starting

/-! ## What holds -/

variable {userInfo : UserPayload → String} {w : Client}

structure Inv (w : Client) : Prop where
  active : ∀ t, w.Active t → w.session.running = true ∧ w.latest = some t
  shown : ∀ t task, w.latest = some t → w.tasks t = some task →
    w.session.toAuthState = task.shown
  cancelled : w.cancelled = true → w.session.keepQuerying = false ∧ ¬ w.Starting ∧
    ∀ t task, w.tasks t = some task → task.pc.logsIn = false

/-- A task has a login if it had one, or was just given one. -/
theorem logsIn_next {pc : TaskPc} {rememberMe keep : Bool} {o : Outcome}
    (hnext : (pc.next rememberMe keep o).logsIn = true) :
    pc.logsIn = true ∨ ∃ code body, pc = .query code ∧ o.query = .data body := by
  cases pc with
  | auth =>
    cases hauth : o.auth
    all_goals
      simp only [TaskPc.next, hauth] at hnext
      cases hnext
  | keepQuerying code =>
    simp only [TaskPc.next] at hnext
    split_ifs at hnext
    all_goals cases hnext
  | query code =>
    cases hquery : o.query with
    | data body => exact Or.inr ⟨code, body, rfl, rfl⟩
    | error err =>
      simp only [TaskPc.next, hquery] at hnext
      split_ifs at hnext
      all_goals cases hnext
    | _ =>
      simp only [TaskPc.next, hquery] at hnext
      cases hnext
  | saveAccessToken body => exact Or.inl rfl
  | saveUserInfo body => exact Or.inl rfl
  | setLogin body => exact Or.inl rfl
  | _ => cases hnext

/-- Only the last step of a task ends it. -/
theorem next_ne_done {pc : TaskPc} {rememberMe keep : Bool} {o : Outcome}
    (hnext : pc.next rememberMe keep o ≠ .done) : pc ≠ .done ∧ pc ≠ .afterTask := by
  refine ⟨fun hpc => hnext ?_, fun hpc => hnext ?_⟩
  · rw [hpc]
    rfl
  · rw [hpc]
    rfl

theorem inv_callStep (hw : w.Inv) (c : Nat)
    (hu : ∀ call, w.calls c = some call → call.pc = .beforeTask → w.session.running = false) :
    (w.callStep c).Inv := by
  have hstarting : ∀ call, w.calls c = some call → call.pc ≠ .spawned → w.cancelled = false := by
    intro call hcall hpc
    rw [← Bool.not_eq_true]
    intro hcancelled
    exact (hw.cancelled hcancelled).2.1 ⟨c, call, hcall, hpc⟩
  unfold callStep
  split
  · rename_i rememberMe hcall
    split
    · exact hw
    · refine ⟨hw.active, hw.shown, fun hcancelled => ?_⟩
      have hno := hstarting _ hcall (fun hno => by cases hno)
      exact absurd (hno.symm.trans hcancelled) (by decide)
  · rename_i rememberMe hcall
    have hidle : ∀ t, ¬ w.Active t := by
      intro t hactive
      have hrunning := (hw.active t hactive).1
      rw [hu _ hcall rfl] at hrunning
      cases hrunning
    refine ⟨fun t hactive => ?_, fun t task hlatest htask => ?_, fun hcancelled => ?_⟩
    · by_cases ht : t = c
      · exact ⟨rfl, congrArg some ht.symm⟩
      · obtain ⟨task, htask, hpc⟩ := hactive
        exact absurd ⟨task, (Function.update_of_ne ht _ _).symm.trans htask, hpc⟩ (hidle t)
    · have ht : c = t := Option.some.inj hlatest
      dsimp only at htask
      rw [← ht, Function.update_self] at htask
      cases htask
      rfl
    · have hno := hstarting _ hcall (fun hno => by cases hno)
      exact absurd (hno.symm.trans hcancelled) (by decide)
  · exact hw

theorem inv_taskStep (hw : w.Inv) (t : Nat) (o : Outcome)
    (hu : w.Undisturbed (.task t o)) : (w.taskStep userInfo t o).Inv := by
  unfold taskStep
  cases htask : w.tasks t with
  | none => exact hw
  | some task =>
    dsimp only
    have hactive : task.pc ≠ .done → w.session.running = true ∧ w.latest = some t :=
      fun hpc => hw.active t ⟨task, htask, hpc⟩
    refine ⟨fun t' hactive' => ?_, fun t' task' hlatest htask' => ?_, fun hcancelled => ?_⟩
    · obtain ⟨task', htask', hpc'⟩ := hactive'
      dsimp only at htask'
      by_cases ht : t' = t
      · rw [ht, Function.update_self] at htask'
        cases htask'
        obtain ⟨hdone, hafter⟩ := next_ne_done hpc'
        rw [if_neg hafter, ht]
        exact hactive hdone
      · rw [Function.update_of_ne ht] at htask'
        obtain ⟨hrunning, hlatest⟩ := hw.active t' ⟨task', htask', hpc'⟩
        have hafter : task.pc ≠ .afterTask := by
          intro hafter
          have hlatest' := (hactive (by rw [hafter]; decide)).2
          exact ht (Option.some.inj (hlatest.symm.trans hlatest'))
        rw [if_neg hafter]
        exact ⟨hrunning, hlatest⟩
    · have hset : (if task.pc = .afterTask then
          OidcSession.afterTask { w.session with
            toAuthState := task.pc.sets w.session.toAuthState }
        else { w.session with
          toAuthState := task.pc.sets w.session.toAuthState }).toAuthState =
            task.pc.sets w.session.toAuthState := by
        split
        · rfl
        · rfl
      dsimp only at htask' hlatest ⊢
      rw [hset]
      by_cases ht : t' = t
      · rw [ht, Function.update_self] at htask'
        cases htask'
        exact congrArg task.pc.sets (hw.shown t task (ht ▸ hlatest) htask)
      · rw [Function.update_of_ne ht] at htask'
        -- an older task has nothing left to set
        have hdone : task.pc = .done := by
          by_contra hpc
          exact ht (Option.some.inj (hlatest.symm.trans (hactive hpc).2))
        rw [hdone]
        exact hw.shown t' task' hlatest htask'
    · obtain ⟨hkeep, hstarting, hlogin⟩ := hw.cancelled hcancelled
      refine ⟨?_, hstarting, fun t' task' htask' => ?_⟩
      · split
        · exact hkeep
        · exact hkeep
      · dsimp only at htask'
        by_cases ht : t' = t
        · rw [ht, Function.update_self] at htask'
          cases htask'
          rw [← Bool.not_eq_true]
          intro hnext
          rcases logsIn_next hnext with hpc | ⟨code, body, hpc, hquery⟩
          · rw [hlogin t task htask] at hpc
            cases hpc
          · rcases hu task code body htask hpc hquery with hyes | hyes
            · rw [hkeep] at hyes
              cases hyes
            · exact hstarting hyes
        · rw [Function.update_of_ne ht] at htask'
          exact hlogin t' task' htask'

theorem inv_step (hw : w.Inv) {a : Step} (hu : w.Undisturbed a) : (w.step userInfo a).Inv := by
  cases a with
  | accountAuth c rememberMe =>
    show (if (w.calls c).isSome then w else _).Inv
    split
    · exact hw
    · exact ⟨hw.active, hw.shown, fun hno => absurd hno Bool.false_ne_true⟩
  | call c => exact inv_callStep hw c hu
  | authCancel => exact ⟨hw.active, hw.shown, fun _ => ⟨rfl, hu⟩⟩
  | task t o => exact inv_taskStep hw t o hu

theorem Inv.separate (hw : w.Inv) : w.Separate := by
  refine ⟨fun t t' ht ht' => ?_, fun t task hlatest htask => ?_⟩
  · exact Option.some.inj ((hw.active t ht).2.symm.trans (hw.active t' ht').2)
  · rw [hw.shown t task hlatest htask]

theorem Inv.obeys (hw : w.Inv) (a : Step) : w.Obeys a := by
  cases a with
  | task t o =>
    intro task htask hlogin
    rw [← Bool.not_eq_true]
    intro hcancelled
    rw [(hw.cancelled hcancelled).2.2 t task htask] at hlogin
    cases hlogin
  | _ => trivial

theorem inv_start : Inv {} := by
  refine ⟨fun t hactive => ?_, fun t task hlatest => ?_, fun hno => ?_⟩
  · obtain ⟨task, htask, _⟩ := hactive
    cases htask
  · cases hlatest
  · cases hno

/-- Where logins do not disturb one another, one task runs at most, what is shown is the latest
    one's, and nothing is written down of a login after it was cancelled. -/
theorem logins_do_not_mix (userInfo : UserPayload → String) (steps : List Step)
    (hu : Along (step userInfo) Undisturbed {} steps) :
    Along (step userInfo) Obeys {} steps ∧ Always (step userInfo) Separate {} steps := by
  have hinv : Always (step userInfo) Inv {} steps :=
    always_of_along (fun w a hw ha => inv_step hw ha) inv_start hu
  exact ⟨hinv.steps fun w a hw => hw.obeys a, hinv.mono fun w hw => hw.separate⟩

section

def someUser : UserPayload := ⟨"u", none, none, 1⟩

def someLogin : AuthBody := { accessToken := "t", type := "access_token", user := someUser }

/-- A call that was made, and its task up to the point where the server is asked for the login. -/
def upToQuery (c : Nat) : List Step :=
  [.call c, .call c, .task c { auth := .data ⟨"c", "url"⟩ }, .task c {}, .task c {}, .task c {}]

/-- The answer, and the task to its end. -/
def afterQuery (t : Nat) : List Step :=
  .task t { query := .data someLogin } :: List.replicate 5 (.task t {})

/-- The user starts a second login while the server is asked for the first one, whose task sees
    that it is to stop; the second one comes to its end. -/
def twoLogins : List Step :=
  .accountAuth 0 true :: upToQuery 0 ++
    [.accountAuth 1 true, .call 1, .task 0 {}, .task 0 {}, .task 0 {}] ++
    upToQuery 1 ++ afterQuery 1

theorem logins_do_not_mix_two :
    Along (step (·.name)) Obeys {} twoLogins ∧ Always (step (·.name)) Separate {} twoLogins ∧
      (run (step (·.name)) {} twoLogins).session.authBody = some someLogin := by
  have hcall : ∀ (w : Client) (c : Nat), w.session.running = false → w.Undisturbed (.call c) :=
    fun w c hidle call _ _ => hidle
  have hquiet : ∀ (w : Client) (t : Nat) (o : Outcome), o.query = .errorFormat →
      w.Undisturbed (.task t o) := by
    intro w t o ho task code body _ _ hno
    rw [ho] at hno
    cases hno
  have hlater : ∀ (n : Nat) (w : Client), Along (step (·.name)) Undisturbed w
      (List.replicate n (.task 1 {})) := by
    intro n
    induction n with
    | zero => exact fun _ => trivial
    | succ n ih => exact fun w => ⟨hquiet _ _ _ rfl, ih _⟩
  have hall : Along (step (·.name)) Undisturbed {} twoLogins := by
    refine along_append.mpr ⟨along_append.mpr ⟨along_append.mpr ⟨?_, ?_⟩, ?_⟩, ?_⟩
    · exact ⟨trivial, hcall _ _ rfl, hcall _ _ rfl, hquiet _ _ _ rfl, hquiet _ _ _ rfl,
        hquiet _ _ _ rfl, hquiet _ _ _ rfl, trivial⟩
    · refine ⟨trivial, fun call hwaits hno => ?_, hquiet _ _ _ rfl, hquiet _ _ _ rfl,
        hquiet _ _ _ rfl, trivial⟩
      cases hwaits
      cases hno
    · exact ⟨hcall _ _ rfl, hcall _ _ rfl, hquiet _ _ _ rfl, hquiet _ _ _ rfl, hquiet _ _ _ rfl,
        hquiet _ _ _ rfl, trivial⟩
    · exact ⟨fun _ _ _ _ _ _ => Or.inl rfl, hlater 5 _⟩
  obtain ⟨hobeys, hseparate⟩ := logins_do_not_mix (·.name) twoLogins hall
  exact ⟨hobeys, hseparate, by decide +kernel⟩

/-- The user cancels between the look at the flag and the query, and the login that comes in is
    written down. And two calls that both found nothing running have two tasks running. -/
theorem cancelled_login_saved :
    (¬ Along (step (·.name)) Obeys {}
          (.accountAuth 0 true :: upToQuery 0 ++ .authCancel :: afterQuery 0) ∧
      (run (step (·.name)) {} (.accountAuth 0 true :: upToQuery 0 ++ .authCancel ::
        afterQuery 0)).localConfig "access_token" = some "t") ∧
    ¬ Always (step (·.name)) Separate {}
      [.accountAuth 0 true, .accountAuth 1 true, .call 0, .call 1, .call 0, .call 1] := by
  refine ⟨⟨fun hall => ?_, by decide +kernel⟩, fun hall => ?_⟩
  · have hsave := (along_append.mp hall).2.2.2.1 _ rfl rfl
    revert hsave
    decide +kernel
  · have hsame := hall.last.single 0 1 ⟨_, rfl, by decide⟩ ⟨_, rfl, by decide⟩
    cases hsame

end

end Client

end Oidc

end LuodaRemote
