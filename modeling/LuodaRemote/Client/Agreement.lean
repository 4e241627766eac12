/-
  Client and host agree on passwords: the answer an honest client computes from a typed or a
  preset password passes `validate_password` exactly when that password is one the host takes.

  A client keeps the hash of the password with the salt and answers with the hash of that and the
  challenge. The host has the temporary password in the clear, the permanent one hashed or, from
  older versions, in the clear, and a preset one if none was set. `IsPassword` says what it takes
  in terms of plaintexts; for the permanent password that is the code's own
  `matches_permanent_password_plain`. The passwords may change between `Hash` and `LoginRequest`,
  the salt may not.

  An empty entry is no password: the client then answers with what it remembers. What it
  remembers is accepted for as long as the password behind it is, so a remembered temporary
  password is of no use once the host has drawn another.

  Source: besides those of the client, `verify_h1`, `validate_password_plain`,
  `validate_password_storage` and `validate_password` of `src/server/connection.rs` and
  `Config::matches_permanent_password_plain` of `libs/hbb_common/src/config.rs`.
-/
import LuodaRemote.Client.Login
import LuodaRemote.Connection.Login

namespace LuodaRemote

open Lib

/-! ## What the host takes for a password -/

/-- `Config::matches_permanent_password_plain`: whether `input` is the permanent password in
    force, given what is stored and its salt. -/
def matchesPermanentPasswordPlain (h : Host) (storage salt input : String) : Bool :=
  if input.isEmpty then false
  else if storage.isEmpty then h.hardPassword == input
  else match decodePermanentPasswordH1FromStorage h storage with
    | some storedH1 =>
      if salt.isEmpty then false
      else constantTimeEq (h.sha256 (asBytes input ++ asBytes salt)) storedH1
    | none => storage == input

/-- `p` is the temporary or the permanent password, and that kind is enabled. -/
def IsPassword (h : Host) (env : Env) (salt p : String) : Prop :=
  temporaryEnabled env = true ∧ p = env.temporaryPassword ∨
    permanentEnabled env = true ∧
      matchesPermanentPasswordPlain h env.localPermanentPasswordStorage salt p = true

instance (h : Host) (env : Env) (salt p : String) : Decidable (IsPassword h env salt p) :=
  inferInstanceAs (Decidable (_ ∨ _))

/-! ## Comparing hashes -/

theorem foldl_or_eq_zero (xs : Bytes) (acc : UInt8) :
    xs.foldl (· ||| ·) acc = 0 ↔ acc = 0 ∧ ∀ x ∈ xs, x = 0 := by
  induction xs generalizing acc with
  | nil => simp
  | cons x xs ih =>
    rw [List.foldl_cons, ih, UInt8.or_eq_zero_iff, List.forall_mem_cons, and_assoc]

theorem zipWith_xor_eq_zero {a b : Bytes} (h : a.length = b.length) :
    (∀ x ∈ List.zipWith (· ^^^ ·) a b, x = 0) ↔ a = b := by
  induction a generalizing b with
  | nil =>
    cases b with
    | nil => simp
    | cons y b => simp at h
  | cons x a ih =>
    cases b with
    | nil => simp at h
    | cons y b =>
      rw [List.zipWith_cons_cons, List.forall_mem_cons, ih (by simpa using h),
        UInt8.xor_eq_zero_iff, List.cons.injEq]

theorem constantTimeEq_iff (a b : Bytes) : constantTimeEq a b = true ↔ a = b := by
  unfold constantTimeEq
  by_cases h : a.length = b.length
  · rw [if_neg (by omega), beq_iff_eq, foldl_or_eq_zero, zipWith_xor_eq_zero h]
    simp
  · rw [if_pos h]
    constructor
    · intro hfalse
      cases hfalse
    · intro hab
      exact absurd (congrArg List.length hab) h

/-! ## The answer of a client -/

section

variable {h : Host} {env : Env} {hash : Hash} {lr : LoginRequest} {p : String}

theorem verifyH1_iff (hinj : Function.Injective h.sha256) {h1 answered : Bytes}
    (hlr : lr.password = h.sha256 (answered ++ asBytes hash.challenge)) :
    verifyH1 h hash lr h1 = true ↔ h1 = answered := by
  unfold verifyH1
  rw [constantTimeEq_iff, hlr, hinj.eq_iff, List.append_cancel_right_eq]

/-- `lr` answers with the password `p`. -/
def AnswersWith (h : Host) (hash : Hash) (p : String) (lr : LoginRequest) : Prop :=
  lr.password =
    h.sha256 (h.sha256 (asBytes p ++ asBytes hash.salt) ++ asBytes hash.challenge)

theorem validatePasswordPlain_iff (hinj : Function.Injective h.sha256)
    (hlr : AnswersWith h hash p lr) (q : String) :
    validatePasswordPlain h hash lr q = true ↔ q ≠ "" ∧ q = p := by
  unfold validatePasswordPlain
  by_cases hq : q = ""
  · simp [hq]
  · rw [if_neg (by simpa using hq), verifyH1_iff hinj hlr, hinj.eq_iff,
      List.append_cancel_right_eq, asBytes_injective.eq_iff]
    simp [hq]

theorem validateTemporary_iff (hinj : Function.Injective h.sha256)
    (hlr : AnswersWith h hash p lr) (hp : p ≠ "") :
    validateTemporary h env hash lr = true ↔
      temporaryEnabled env = true ∧ p = env.temporaryPassword := by
  unfold validateTemporary
  rw [Bool.and_eq_true, validatePasswordPlain_iff hinj hlr]
  constructor
  · rintro ⟨henabled, _, hq⟩
    exact ⟨henabled, hq.symm⟩
  · intro ⟨henabled, hq⟩
    exact ⟨henabled, hq ▸ hp, hq.symm⟩

/-- The stored password: hashed, or in the clear if it does not decode. -/
theorem validatePasswordStorage_iff (hinj : Function.Injective h.sha256)
    (hlr : AnswersWith h hash p lr) (hp : p ≠ "") (hsalt : hash.salt ≠ "") {storage : String}
    (hstorage : storage ≠ "") :
    validatePasswordStorage h hash lr storage = true ↔
      matchesPermanentPasswordPlain h storage hash.salt p = true := by
  unfold validatePasswordStorage matchesPermanentPasswordPlain
  rw [if_neg (by simpa using hstorage), if_neg (by simpa using hp),
    if_neg (by simpa using hstorage)]
  cases hd : decodePermanentPasswordH1FromStorage h storage with
  | some h1 =>
    show verifyH1 h hash lr h1 = true ↔ _
    rw [verifyH1_iff hinj hlr]
    simp only [String.isEmpty_iff, hsalt, if_false, constantTimeEq_iff]
    exact eq_comm
  | none =>
    show validatePasswordPlain h hash lr storage = true ↔ (storage == p) = true
    rw [validatePasswordPlain_iff hinj hlr, beq_iff_eq]
    exact and_iff_right hstorage

theorem validatePermanent_iff (hinj : Function.Injective h.sha256)
    (hlr : AnswersWith h hash p lr) (hp : p ≠ "") (hsalt : hash.salt ≠ "") :
    validatePermanent h env hash lr = true ↔
      permanentEnabled env = true ∧
        matchesPermanentPasswordPlain h env.localPermanentPasswordStorage hash.salt p = true := by
  unfold validatePermanent
  rw [Bool.and_eq_true]
  refine and_congr_right fun _ => ?_
  by_cases hstorage : env.localPermanentPasswordStorage = ""
  · -- nothing was set: the preset password counts
    unfold matchesPermanentPasswordPlain
    rw [hstorage, if_pos (by rfl), if_neg (by simpa using hp), if_pos (by rfl),
      Bool.and_eq_true, validatePasswordPlain_iff hinj hlr, beq_iff_eq]
    simp
    intro hq
    exact hq ▸ hp
  · rw [if_neg (by simpa using hstorage)]
    exact validatePasswordStorage_iff hinj hlr hp hsalt hstorage

theorem validatePassword_snd (w : World) :
    (w.validatePassword h env).2 =
      (validateTemporary h env w.conn.hash w.conn.lr ||
        validatePermanent h env w.conn.hash w.conn.lr) := by
  unfold World.validatePassword
  by_cases ht : validateTemporary h env w.conn.hash w.conn.lr
  · rw [if_pos ht, ht]
    rfl
  · rw [if_neg ht, Bool.eq_false_of_not_eq_true ht]
    rfl

/-- The agreement, for any request with the right answer. -/
theorem answer_passes_iff (hinj : Function.Injective h.sha256) (hlr : AnswersWith h hash p lr)
    (hp : p ≠ "") (hsalt : hash.salt ≠ "") (w : World) (hw : w.conn.hash = hash)
    (hwlr : w.conn.lr = lr) :
    (w.validatePassword h env).2 = true ↔ IsPassword h env hash.salt p := by
  rw [validatePassword_snd, hw, hwlr, Bool.or_eq_true, validateTemporary_iff hinj hlr hp,
    validatePermanent_iff hinj hlr hp hsalt]
  rfl

end

/-! ## The requests of an honest client -/

namespace LoginConfigHandler

variable {c : Client} {env : ClientEnv} {lc : LoginConfigHandler} {hash : Hash} {p : String}

/-- Nothing goes before a preset or remembered password: no last or shared password and no
    request to switch sides, and no login to the operating system is asked for first. -/
structure Unused (c : Client) (lc : LoginConfigHandler) : Prop where
  password : lc.password = []
  shared : lc.sharedPassword.getD "" = ""
  switchUuid : lc.switchUuid.bind c.uuidFromStr = none
  terminal : ¬ (lc.connType = .terminal ∧ lc.isTerminalAdmin = true)

/-- The two ways in which a plaintext becomes a login. -/
inductive LogsIn (c : Client) (env : ClientEnv) (lc : LoginConfigHandler) (hash : Hash)
    (p : String) : Reply → Prop where
  | preset (hlc : lc.Unused c) : LogsIn c env lc hash p (lc.handleHash c env p hash)
  | typed (hlc : lc.hash = hash) (osUsername osPassword : String) (remember : Bool) :
      LogsIn c env lc hash p (lc.handleLoginFromUi c env osUsername osPassword p remember)

/-- What such a login leaves in the handler and what it sends. -/
structure Holds (c : Client) (hash : Hash) (password : Bytes) (r : Reply) : Prop where
  kept : r.lc.password = password
  source : r.lc.passwordSource = .undefined
  answer : ∃ lr, r.sent = some (.loginRequest lr) ∧
    lr.password = c.sha256 (password ++ asBytes hash.challenge)

theorem choose_preset (hf : CollisionFree c.sha256) (hlc : lc.Unused c) (hp : p ≠ "")
    (salt : String) : lc.choose c env p salt = ⟨c.h1 p salt, .undefined⟩ := by
  have hpreset : lc.last.preset c p salt =
      ⟨c.h1 p salt, .undefined⟩ := by
    simp [Choice.preset, last, hlc.password, hp]
  unfold choose
  rw [hpreset, Choice.shared_of_empty hlc.shared]
  exact Choice.keep c env (hf.nonempty _) _ _ _

theorem choose_config (env : ClientEnv) (hlc : lc.Unused c) (hconfig : lc.config.password ≠ [])
    (salt : String) :
    lc.choose c env "" salt = ⟨lc.config.password, .undefined⟩ := by
  have hpreset : lc.last.preset c "" salt = lc.last := by
    simp [Choice.preset]
  have hpeer : lc.last.peerConfig lc.config.password = ⟨lc.config.password, .undefined⟩ := by
    simp [Choice.peerConfig, last, hlc.password, hconfig]
  have hsame : (⟨lc.config.password, .undefined⟩ : Choice).peerConfig lc.config.password =
      ⟨lc.config.password, .undefined⟩ := by
    simp [Choice.peerConfig]
  have hkeep := @Choice.keep ⟨lc.config.password, .undefined⟩ c env hconfig lc.config.password
    lc.id salt
  unfold choose
  rw [hpreset, Choice.shared_of_empty hlc.shared, hpeer]
  rw [hsame] at hkeep
  exact hkeep

theorem holds_handleHash (hash : Hash) (hlc : lc.Unused c) {preset : String} {password : Bytes}
    (hchoose : lc.choose c env preset hash.salt = ⟨password, .undefined⟩)
    (hne : password ≠ []) : Holds c hash password (lc.handleHash c env preset hash) := by
  have hterminal : (lc.connType == .terminal && lc.isTerminalAdmin) = false := by
    simpa using hlc.terminal
  unfold handleHash
  rw [hlc.switchUuid]
  simp only [hchoose, hterminal]
  rw [if_neg (by simp), if_neg (by simpa using hne)]
  exact ⟨rfl, rfl, _, rfl, rfl⟩

theorem LogsIn.holds (hf : CollisionFree c.sha256) (hp : p ≠ "") {r : Reply}
    (hr : LogsIn c env lc hash p r) : Holds c hash (c.h1 p hash.salt) r := by
  cases hr with
  | preset hlc =>
    exact holds_handleHash hash hlc (choose_preset hf hlc hp hash.salt) (hf.nonempty _)
  | typed hlc osUsername osPassword remember =>
    unfold handleLoginFromUi
    rw [if_neg (by simpa using hp), hlc]
    exact ⟨rfl, rfl, _, rfl, rfl⟩

/-- With `remember` on, `handle_peer_info` saves the password of the login. -/
theorem saved_of_holds {password : Bytes} (hne : password ≠ []) {r : Reply}
    (hr : Holds c hash password r) (hremember : r.lc.remember = true) (stored : PeerConfig) :
    (r.lc.handlePeerInfo c stored).1.config.password = password := by
  show r.lc.rememberedPassword c stored = password
  unfold rememberedPassword
  rw [if_pos hremember, hr.kept, hr.source]
  by_cases hsame : password = stored.password
  · rw [if_neg (by simp [hsame]), ← hsame]
  · exact if_pos (by simp [hne, hsame, PasswordSource.isSharedAb])

end LoginConfigHandler

/-! ## The agreement -/

/-- A login from a plaintext passes exactly if the plaintext is a password of the host when it
    arrives; and what is saved after it passes on later connections with the same salt exactly as
    long as the plaintext is one. -/
theorem login_agreement (h : Host) (c : Client) (hsha : c.sha256 = h.sha256)
    (hf : CollisionFree h.sha256) (hash : Hash) (hsalt : hash.salt ≠ "") (p : String)
    (hp : p ≠ "") (cenv : ClientEnv) (lc : LoginConfigHandler) (r : Reply)
    (hr : lc.LogsIn c cenv hash p r) :
    (∃ lr, r.sent = some (.loginRequest lr) ∧
      ∀ (env : Env) (w : World), w.conn.hash = hash → w.conn.lr = lr →
        ((w.validatePassword h env).2 = true ↔ IsPassword h env hash.salt p)) ∧
    (r.lc.remember = true →
      ∀ (stored : PeerConfig) (cenv' : ClientEnv) (later : LoginConfigHandler) (hash' : Hash),
        later.Unused c →
        later.config.password = (r.lc.handlePeerInfo c stored).1.config.password →
        hash'.salt = hash.salt →
        ∃ lr, (later.handleHash c cenv' "" hash').sent = some (.loginRequest lr) ∧
          ∀ (env : Env) (w : World), w.conn.hash = hash' → w.conn.lr = lr →
            ((w.validatePassword h env).2 = true ↔ IsPassword h env hash.salt p)) := by
  have hfc : CollisionFree c.sha256 := hsha ▸ hf
  have hholds := hr.holds hfc hp
  have hne : c.h1 p hash.salt ≠ [] := hfc.nonempty _
  constructor
  · obtain ⟨lr, hsent, hlr⟩ := hholds.answer
    rw [Client.h1, hsha] at hlr
    exact ⟨lr, hsent, fun env w hw hwlr => answer_passes_iff hf.injective hlr hp hsalt w hw hwlr⟩
  · intro hremember stored cenv' later hash' hlater hconfig hsame
    rw [LoginConfigHandler.saved_of_holds hne hholds hremember stored] at hconfig
    have hchoose := LoginConfigHandler.choose_config cenv' hlater
      (by rw [hconfig]; exact hne) hash'.salt
    rw [hconfig] at hchoose
    obtain ⟨lr, hsent, hlr⟩ :=
      (LoginConfigHandler.holds_handleHash hash' hlater hchoose hne).answer
    rw [Client.h1, hsha, ← hsame] at hlr
    refine ⟨lr, hsent, fun env w hw hwlr => ?_⟩
    rw [← hsame]
    exact answer_passes_iff hf.injective hlr hp (by rw [hsame]; exact hsalt) w hw hwlr

/-- The digests for two temporary passwords, of which the second is drawn later. -/
def sampleDigests : List (Bytes × Bytes) :=
  let h1 : Bytes := [164, 38, 93, 139, 221, 226, 205, 3, 240, 215, 87, 80, 167, 237, 227, 186, 29,
    120, 138, 236, 151, 47, 178, 178, 145, 45, 229, 38, 182, 74, 117, 41]
  [(asBytes "abc123" ++ asBytes "k3w7zd", sampleH1),
    (sampleH1 ++ asBytes "p9x2mt", sampleAnswer),
    (sampleH1 ++ asBytes "q4n8sv", [65, 35, 173, 151, 98, 4, 224, 103, 82, 33, 203, 240, 210, 202,
      48, 216, 59, 160, 163, 0, 118, 211, 221, 245, 75, 67, 178, 79, 27, 161, 34, 229]),
    (asBytes "xyz789" ++ asBytes "k3w7zd", h1),
    (h1 ++ asBytes "q4n8sv", [175, 70, 12, 28, 30, 204, 2, 242, 158, 184, 47, 236, 56, 41, 34, 211,
      126, 181, 194, 189, 165, 17, 49, 78, 204, 214, 61, 158, 227, 240, 113, 119])]

def Host.sampleDigests : Host :=
  { Host.sample with sha256 := Digest.ofTable LuodaRemote.sampleDigests }

theorem collisionFree_sample : CollisionFree (Client.sample sampleDigests).sha256 :=
  Digest.collisionFree_ofTable (by decide +kernel) (by decide +kernel)

/-- A password that is typed and remembered, and a connection later on. -/
theorem login_agreement_sample :
    let c := Client.sample sampleDigests
    let lc := { LoginConfigHandler.sample .sample none with hash := .sample }
    let typed := lc.handleLoginFromUi c .sample "" "" "abc123" true
    let later := LoginConfigHandler.sample (typed.lc.handlePeerInfo c .sample).1.config none
    let hash' : Hash := ⟨"k3w7zd", "q4n8sv"⟩
    (∃ lr, typed.sent = some (.loginRequest lr) ∧
      ∀ (env : Env) (w : World), w.conn.hash = .sample → w.conn.lr = lr →
        ((w.validatePassword .sampleDigests env).2 = true ↔
          IsPassword .sampleDigests env "k3w7zd" "abc123")) ∧
    ∃ lr, (later.handleHash c .sample "" hash').sent = some (.loginRequest lr) ∧
      ∀ (env : Env) (w : World), w.conn.hash = hash' → w.conn.lr = lr →
        ((w.validatePassword .sampleDigests env).2 = true ↔
          IsPassword .sampleDigests env "k3w7zd" "abc123") := by
  intro c lc typed later hash'
  obtain ⟨hnow, hremembered⟩ := login_agreement .sampleDigests c rfl collisionFree_sample .sample
    (by decide) "abc123" (by decide) .sample lc typed (.typed rfl "" "" true)
  exact ⟨hnow, hremembered rfl .sample .sample later hash' ⟨rfl, rfl, rfl, by decide⟩ rfl rfl⟩

/-- The request of a reply, on a connection that sent `hash`: does it pass? -/
def Reply.passes (h : Host) (env : Env) (hash : Hash) (r : Reply) : Bool :=
  match r.sent with
  | some (.loginRequest lr) =>
    let conn := { Connection.start h .sample 1 (.v4 3232235778) hash none with lr := lr }
    (World.validatePassword h env { conn := conn, glob := .init (.new h false false false) }).2
  | _ => false

/-- The temporary password, typed and remembered, no longer passes once another is drawn,
    although the permanent password and the salt are as they were. And an empty entry passes,
    which is no password, since the last hash answers for it. -/
theorem remembered_temporary_password :
    let c := Client.sample sampleDigests
    let h := Host.sampleDigests
    let lc := { LoginConfigHandler.sample .sample none with hash := .sample }
    let typed := lc.handleLoginFromUi c .sample "" "" "abc123" true
    let saved := (typed.lc.handlePeerInfo c .sample).1.config
    let hash' : Hash := ⟨"k3w7zd", "q4n8sv"⟩
    let again := (LoginConfigHandler.sample saved none).handleHash c .sample "" hash'
    let blank := typed.lc.handleLoginFromUi c .sample "" "" "" false
    (typed.passes h .sample .sample = true ∧ again.passes h .sample hash' = true ∧
      Env.sampleLater.localPermanentPasswordStorage = Env.sample.localPermanentPasswordStorage ∧
      hash'.salt = Hash.sample.salt ∧ again.passes h .sampleLater hash' = false) ∧
    blank.passes h .sample .sample = true ∧ ¬ IsPassword h .sample "k3w7zd" "" := by
  decide +kernel

end LuodaRemote
