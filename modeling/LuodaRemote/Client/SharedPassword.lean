/-
  Shared passwords on the client: one that somebody else set (the password of a shared address
  book entry, or the default connect password of the build) must not end up in the peer's
  configuration or in the user's own address book.

  A `ClientSession` is a handler together with where its password really came from: `shared` has
  the plaintext and the salt it was hashed with, from the moment a shared password is chosen
  until another password takes its place. The handler itself keeps the plaintext only and hashes it
  anew with the salt of the latest `Hash`.

  `saved_iff` is the outcome for every sequence of messages and entries, also where the session
  moves to another window: nothing is saved precisely as long as the peer stays with its salt
  and no request to switch sides intervenes. A peer that sends a second `Hash` with another salt
  has the hash of the shared password written down.

  Source: as in `LuodaRemote.Client.Login`.
-/
import LuodaRemote.Client.Login
import LuodaRemote.Lib.Run

namespace LuodaRemote

open Lib

/-- Everything that acts on one handler, with what it finds. -/
inductive LoginEvent where
  | handleHash (env : ClientEnv) (passwordPreset : String) (hash : Hash)
  | handleLoginFromUi (env : ClientEnv) (osUsername osPassword password : String)
      (remember : Bool)
  | handleLoginError (stored : PeerConfig) (err : String)
  | handlePeerInfo (stored : PeerConfig)
  /-- The session is opened anew in another window, with `get_conn_token`. -/
  | moveToWindow (switchUuid sharedPassword : Option String) (random : BitVec 64)
      (config : PeerConfig)

structure ClientSession where
  lc : LoginConfigHandler
  /-- The plaintext and the salt behind `lc.password`, if it is a shared password. -/
  shared : Option (String × String)

namespace ClientSession

/-- A new handler, which has no password yet. -/
def new (lc : LoginConfigHandler) : ClientSession := ⟨lc, none⟩

/-- Whether one of the candidates between the last and the default connect password is there. -/
def ownCandidate (c : Client) (env : ClientEnv) (passwordPreset : String)
    (lc : LoginConfigHandler) : Bool :=
  !passwordPreset.isEmpty || !lc.config.password.isEmpty ||
    !((Choice.personalAbPassword c env lc.id).getD []).isEmpty

/-- Where the password comes from after `handle_hash`. -/
def sharedAfterHash (c : Client) (env : ClientEnv) (passwordPreset salt : String)
    (s : ClientSession) : Option (String × String) :=
  if (s.lc.switchUuid.bind c.uuidFromStr).isSome then s.shared
  else if s.lc.sharedPassword.getD "" ≠ "" then some (s.lc.sharedPassword.getD "", salt)
  else if s.lc.password ≠ [] then s.shared
  else if ownCandidate c env passwordPreset s.lc then none
  else if env.defaultConnectPassword ≠ "" then some (env.defaultConnectPassword, salt)
  else none

def step (c : Client) (s : ClientSession) : LoginEvent → ClientSession
  | .handleHash env preset hash =>
    ⟨(s.lc.handleHash c env preset hash).lc, s.sharedAfterHash c env preset hash.salt⟩
  | .handleLoginFromUi env osUsername osPassword password remember =>
    ⟨(s.lc.handleLoginFromUi c env osUsername osPassword password remember).lc,
      if password = "" ∧ s.lc.password ≠ [] then s.shared else none⟩
  | .handleLoginError stored err =>
    let lc := s.lc.handleLoginError stored err
    ⟨lc, if lc.password = [] then none else s.shared⟩
  | .handlePeerInfo stored => ⟨(s.lc.handlePeerInfo c stored).1, s.shared⟩
  | .moveToWindow switchUuid sharedPassword random config =>
    ⟨.init s.lc.id s.lc.connType switchUuid s.lc.forceRelay s.lc.otherServer sharedPassword
        s.lc.getConnToken s.lc.isTerminalAdmin s.lc.portForward random config,
      if s.lc.password = [] then none else s.shared⟩

/-- `handle_peer_info` neither writes a shared password down, where it was not, nor sends it on
    to the personal address book. -/
def NotSaved (c : Client) (s : ClientSession) : LoginEvent → Prop
  | .handlePeerInfo stored =>
    s.shared.isSome = true →
      ((s.lc.handlePeerInfo c stored).1.config.password = s.lc.password →
        stored.password = s.lc.password) ∧
      (s.lc.handlePeerInfo c stored).2 ≠ some (s.lc.id, s.lc.password)
  | _ => True

/-- The latest `Hash` has the salt of the shared password, whose source was not reset by a
    request to switch sides; or there is nothing to remember, or nothing new and no address
    book to tell. -/
def SaltKept (c : Client) (s : ClientSession) : LoginEvent → Prop
  | .handlePeerInfo stored =>
    ∀ origin ∈ s.shared, s.lc.remember = true →
      (s.lc.hash.salt = origin.2 ∧ s.lc.passwordSource ≠ .undefined) ∨
        (c.flutter = false ∧ stored.password = s.lc.password)
  | _ => True

instance (c : Client) (s : ClientSession) : DecidablePred (s.NotSaved c)
  | .handlePeerInfo _ => inferInstanceAs (Decidable (_ → _))
  | .handleHash .. | .handleLoginFromUi .. | .handleLoginError .. | .moveToWindow .. =>
    inferInstanceAs (Decidable True)

instance (c : Client) (s : ClientSession) : DecidablePred (s.SaltKept c)
  | .handlePeerInfo _ => inferInstanceAs (Decidable (∀ _ ∈ s.shared, _ → _))
  | .handleHash .. | .handleLoginFromUi .. | .handleLoginError .. | .moveToWindow .. =>
    inferInstanceAs (Decidable True)

/-! ## Where the password comes from -/

/-- The password of a shared source is its hash, and the source is remembered unless it was
    reset. -/
def Sound (c : Client) (s : ClientSession) : Prop :=
  ∀ p salt, s.shared = some (p, salt) → s.lc.password = c.h1 p salt ∧
    (s.lc.passwordSource = .sharedAb p ∨ s.lc.passwordSource = .undefined)

variable {c : Client} {env : ClientEnv} {s : ClientSession}

theorem sound_new (lc : LoginConfigHandler) : (new lc).Sound c := by
  intro p salt h
  cases h

/-- With neither of the others, only the default connect password is left. -/
theorem choose_of_none {lc : LoginConfigHandler} (hpassword : lc.password = [])
    (hshared : lc.sharedPassword.getD "" = "") {preset : String}
    (hown : ownCandidate c env preset lc = false) (salt : String) :
    lc.choose c env preset salt = lc.last.defaultConnect c env salt := by
  simp only [ownCandidate, Bool.or_eq_false_iff, Bool.not_eq_false', List.isEmpty_iff,
    String.isEmpty_iff] at hown
  obtain ⟨⟨hpreset, hconfig⟩, hab⟩ := hown
  have hsame : lc.last.personalAb c env lc.id = lc.last := by
    unfold Choice.personalAb
    rw [if_pos (by simp [LoginConfigHandler.last, hpassword])]
    cases hp : Choice.personalAbPassword c env lc.id with
    | none => rfl
    | some p =>
      rw [hp] at hab
      exact if_pos (by simpa using hab)
  unfold LoginConfigHandler.choose
  rw [hpreset, Choice.preset_empty, Choice.shared_of_empty hshared, hconfig,
    Choice.peerConfig_empty, hsame]

/-- A last password stays, if there is no shared one. -/
theorem choose_last {lc : LoginConfigHandler} (hpassword : lc.password ≠ [])
    (hshared : lc.sharedPassword.getD "" = "") (preset salt : String) :
    lc.choose c env preset salt = lc.last := by
  unfold LoginConfigHandler.choose
  rw [Choice.preset_keep hpassword, Choice.shared_of_empty hshared]
  exact Choice.keep c env hpassword _ _ _

/-- A shared password is chosen over all others. -/
theorem choose_shared (hf : CollisionFree c.sha256) {lc : LoginConfigHandler}
    (hshared : lc.sharedPassword.getD "" ≠ "") (preset salt : String) :
    lc.choose c env preset salt =
      ⟨c.h1 (lc.sharedPassword.getD "") salt, .sharedAb (lc.sharedPassword.getD "")⟩ := by
  unfold LoginConfigHandler.choose
  rw [Choice.shared_of_nonempty hshared]
  exact Choice.keep c env (hf.nonempty _) _ _ _

/-- What `handle_hash` settles on, when it is not a request to switch sides. -/
theorem handleHash_lc (env : ClientEnv) (hswitch : s.lc.switchUuid.bind c.uuidFromStr = none)
    (preset : String) (hash : Hash) :
    (s.lc.handleHash c env preset hash).lc.password =
        (s.lc.choose c env preset hash.salt).password ∧
      (s.lc.handleHash c env preset hash).lc.passwordSource =
        (s.lc.choose c env preset hash.salt).source := by
  unfold LoginConfigHandler.handleHash
  rw [hswitch]
  dsimp only
  split
  · exact ⟨rfl, rfl⟩
  · split
    · exact ⟨rfl, rfl⟩
    · exact ⟨rfl, rfl⟩

/-- The choice of `handle_hash`, case by case in the order of the candidates. -/
theorem choose_sound (hf : CollisionFree c.sha256) (hs : s.Sound c)
    (hswitch : s.lc.switchUuid.bind c.uuidFromStr = none) {preset now : String}
    {p salt : String} (h : s.sharedAfterHash c env preset now = some (p, salt)) :
    (s.lc.choose c env preset now).password = c.h1 p salt ∧
      ((s.lc.choose c env preset now).source = .sharedAb p ∨
        (s.lc.choose c env preset now).source = .undefined) := by
  unfold sharedAfterHash at h
  rw [hswitch, if_neg (by simp)] at h
  by_cases hshared : s.lc.sharedPassword.getD "" = ""
  · rw [if_neg (by simpa using hshared)] at h
    by_cases hpassword : s.lc.password = []
    · rw [if_neg (by simpa using hpassword)] at h
      cases hown : ownCandidate c env preset s.lc with
      | true =>
        rw [if_pos hown] at h
        cases h
      | false =>
        rw [hown, if_neg (by simp)] at h
        by_cases hdefault : env.defaultConnectPassword = ""
        · rw [if_neg (by simpa using hdefault)] at h
          cases h
        · rw [if_pos hdefault] at h
          cases h
          rw [choose_of_none hpassword hshared hown]
          have hchoice : s.lc.last.defaultConnect c env now =
              ⟨c.h1 env.defaultConnectPassword now, .sharedAb env.defaultConnectPassword⟩ := by
            simp [Choice.defaultConnect, LoginConfigHandler.last, hpassword, hdefault]
          rw [hchoice]
          exact ⟨rfl, .inl rfl⟩
    · rw [if_pos hpassword] at h
      rw [choose_last hpassword hshared]
      exact hs p salt h
  · rw [if_pos hshared] at h
    cases h
    rw [choose_shared hf hshared]
    exact ⟨rfl, .inl rfl⟩

theorem sound_handleHash (hf : CollisionFree c.sha256) (hs : s.Sound c) (env : ClientEnv)
    (preset : String) (hash : Hash) : (s.step c (.handleHash env preset hash)).Sound c := by
  intro p salt h
  cases hswitch : s.lc.switchUuid.bind c.uuidFromStr with
  | some uuid =>
    simp only [step, sharedAfterHash, hswitch] at h
    rw [if_pos (by rfl)] at h
    simp only [step, LoginConfigHandler.handleHash, hswitch]
    exact ⟨(hs p salt h).1, .inr trivial⟩
  | none =>
    obtain ⟨hpassword, hsource⟩ := handleHash_lc env hswitch preset hash
    obtain ⟨hhash, hfrom⟩ := choose_sound hf hs hswitch h
    refine ⟨hpassword.trans hhash, ?_⟩
    rw [← hsource] at hfrom
    exact hfrom

theorem sound_handleLoginFromUi (hs : s.Sound c) (env : ClientEnv)
    (osUsername osPassword password : String) (remember : Bool) :
    (s.step c (.handleLoginFromUi env osUsername osPassword password remember)).Sound c := by
  intro p salt h
  simp only [step] at h
  by_cases hkeep : password = "" ∧ s.lc.password ≠ []
  · rw [if_pos hkeep] at h
    have hlc : (s.lc.handleLoginFromUi c env osUsername osPassword password remember).lc =
        s.lc := by
      simp [LoginConfigHandler.handleLoginFromUi, hkeep.1, hkeep.2]
    simp only [step, hlc]
    exact hs p salt h
  · rw [if_neg hkeep] at h
    cases h

theorem handleLoginError_source (stored : PeerConfig) (err : String) (lc : LoginConfigHandler) :
    (lc.handleLoginError stored err).passwordSource = lc.passwordSource ∧
      ((lc.handleLoginError stored err).password = [] ∨
        (lc.handleLoginError stored err).password = lc.password) := by
  unfold LoginConfigHandler.handleLoginError LoginConfigHandler.setOption
  split_ifs <;> simp

theorem sound_handleLoginError (hs : s.Sound c) (stored : PeerConfig) (err : String) :
    (s.step c (.handleLoginError stored err)).Sound c := by
  intro p salt h
  simp only [step] at h
  by_cases hgone : (s.lc.handleLoginError stored err).password = []
  · rw [if_pos hgone] at h
    cases h
  · rw [if_neg hgone] at h
    obtain ⟨hsource, hpassword⟩ := handleLoginError_source stored err s.lc
    simp only [step, hsource, hpassword.resolve_left hgone]
    exact hs p salt h

theorem sound_moveToWindow (hs : s.Sound c) (switchUuid sharedPassword : Option String)
    (random : BitVec 64) (config : PeerConfig) :
    (s.step c (.moveToWindow switchUuid sharedPassword random config)).Sound c := by
  intro p salt h
  simp only [step] at h
  by_cases hgone : s.lc.password = []
  · rw [if_pos hgone] at h
    cases h
  · rw [if_neg hgone] at h
    have htoken : s.lc.getConnToken =
        some ⟨s.lc.password, s.lc.passwordSource, s.lc.sessionId⟩ := by
      simp [LoginConfigHandler.getConnToken, hgone]
    simp only [step, LoginConfigHandler.init, htoken, Option.map_some, Option.getD_some]
    exact hs p salt h

theorem sound_step (hf : CollisionFree c.sha256) (s : ClientSession) (e : LoginEvent)
    (hs : s.Sound c) : (s.step c e).Sound c := by
  cases e with
  | handleHash env preset hash => exact sound_handleHash hf hs env preset hash
  | handleLoginFromUi env osUsername osPassword password remember =>
    exact sound_handleLoginFromUi hs env osUsername osPassword password remember
  | handleLoginError stored err => exact sound_handleLoginError hs stored err
  | handlePeerInfo stored => exact hs
  | moveToWindow switchUuid sharedPassword random config =>
    exact sound_moveToWindow hs switchUuid sharedPassword random config

/-! ## What is saved -/

/-- A shared password is recognised by the salt it was hashed with. -/
theorem isSharedAb_iff (hf : CollisionFree c.sha256) {source : PasswordSource} {p : String}
    (hsource : source = .sharedAb p ∨ source = .undefined) (salt : String) (hash : Hash) :
    source.isSharedAb c (c.h1 p salt) hash = true ↔
      hash.salt = salt ∧ source ≠ .undefined := by
  have hne : (c.h1 p salt).isEmpty = false := by simp [Client.h1, hf.nonempty]
  unfold PasswordSource.isSharedAb
  rw [hne, if_neg (by simp)]
  rcases hsource with rfl | rfl
  · show (c.h1 p salt == c.h1 p hash.salt) = true ↔ _
    rw [beq_iff_eq, Client.h1, Client.h1, hf.injective.eq_iff, List.append_cancel_left_eq,
      asBytes_injective.eq_iff]
    simp [eq_comm]
  · simp

theorem isPersonalAb_of_source {source : PasswordSource} {p : String}
    (hsource : source = .sharedAb p ∨ source = .undefined) (password : Bytes) :
    source.isPersonalAb password = false := by
  unfold PasswordSource.isPersonalAb
  rcases hsource with rfl | rfl <;> simp

section

variable {lc : LoginConfigHandler} {p salt : String}

/-- Without `remember` a shared password is not saved, nor is anything else kept. -/
theorem handlePeerInfo_of_forget (hremember : lc.remember = false)
    (hsource : lc.passwordSource = .sharedAb p ∨ lc.passwordSource = .undefined)
    (stored : PeerConfig) :
    (lc.handlePeerInfo c stored).1.config.password = [] ∧
      (lc.handlePeerInfo c stored).2 = none := by
  have hsaved : lc.rememberedPassword c stored = [] := by
    simp [LoginConfigHandler.rememberedPassword, hremember, isPersonalAb_of_source hsource]
  simp [LoginConfigHandler.handlePeerInfo, LoginConfigHandler.syncToPersonalAb, hsaved]

/-- A shared password that is recognised leaves the configuration as it is. -/
theorem handlePeerInfo_of_shared (hremember : lc.remember = true)
    (hshared : lc.passwordSource.isSharedAb c lc.password lc.hash = true) (stored : PeerConfig) :
    (lc.handlePeerInfo c stored).1.config.password = stored.password ∧
      (lc.handlePeerInfo c stored).2 = none := by
  simp [LoginConfigHandler.handlePeerInfo, LoginConfigHandler.rememberedPassword,
    LoginConfigHandler.syncToPersonalAb, hremember, hshared]

/-- One that is not is taken for the user's own. -/
theorem handlePeerInfo_of_own (hremember : lc.remember = true) (hpassword : lc.password ≠ [])
    (hshared : lc.passwordSource.isSharedAb c lc.password lc.hash = false)
    (hsource : lc.passwordSource = .sharedAb p ∨ lc.passwordSource = .undefined)
    (stored : PeerConfig) :
    (lc.handlePeerInfo c stored).1.config.password = lc.password ∧
      (lc.handlePeerInfo c stored).2 =
        if c.flutter then some (lc.id, lc.password) else none := by
  have hsaved : lc.rememberedPassword c stored = lc.password := by
    by_cases hsame : lc.password = stored.password
    · simp [LoginConfigHandler.rememberedPassword, hremember, hsame]
    · simp [LoginConfigHandler.rememberedPassword, hremember, hsame, hpassword, hshared]
  simp [LoginConfigHandler.handlePeerInfo, LoginConfigHandler.syncToPersonalAb, hsaved,
    hpassword, hshared, isPersonalAb_of_source hsource]

end

/-- One `handle_peer_info` keeps a shared password to itself exactly under the condition. -/
theorem notSaved_iff (hf : CollisionFree c.sha256) (hs : s.Sound c) (e : LoginEvent) :
    s.NotSaved c e ↔ s.SaltKept c e := by
  cases e with
  | handlePeerInfo stored =>
    simp only [NotSaved, SaltKept]
    cases hshared : s.shared with
    | none => simp
    | some origin =>
      obtain ⟨p, salt⟩ := origin
      obtain ⟨hpassword, hsource⟩ := hs p salt hshared
      have hne : s.lc.password ≠ [] := hpassword ▸ hf.nonempty _
      have hiff := isSharedAb_iff hf hsource salt s.lc.hash
      rw [← hpassword] at hiff
      cases hremember : s.lc.remember with
      | false =>
        obtain ⟨hsaved, hsync⟩ := handlePeerInfo_of_forget (c := c) hremember hsource stored
        rw [hsaved, hsync]
        simp [hne.symm]
      | true =>
        cases hrecognised : s.lc.passwordSource.isSharedAb c s.lc.password s.lc.hash with
        | true =>
          obtain ⟨hsaved, hsync⟩ := handlePeerInfo_of_shared hremember hrecognised stored
          rw [hsaved, hsync]
          have hkept := hiff.mp hrecognised
          simp [hkept.1, hkept.2]
        | false =>
          obtain ⟨hsaved, hsync⟩ :=
            handlePeerInfo_of_own hremember hne hrecognised hsource stored
          rw [hsaved, hsync]
          rw [hrecognised] at hiff
          have hlost : ¬ (s.lc.hash.salt = salt ∧ s.lc.passwordSource ≠ .undefined) :=
            fun h => Bool.noConfusion (hiff.mpr h)
          constructor
          · intro h origin hmem _
            cases hmem
            obtain ⟨hstored, hsilent⟩ := h rfl
            refine .inr ⟨?_, hstored rfl⟩
            cases hflutter : c.flutter with
            | false => rfl
            | true => exact absurd (if_pos hflutter) hsilent
          · intro h _
            obtain ⟨hflutter, hstored⟩ := (h (p, salt) rfl rfl).resolve_left hlost
            exact ⟨fun _ => hstored, by simp [hflutter]⟩
  | handleHash env preset hash => exact Iff.rfl
  | handleLoginFromUi env osUsername osPassword password remember => exact Iff.rfl
  | handleLoginError stored err => exact Iff.rfl
  | moveToWindow switchUuid sharedPassword random config => exact Iff.rfl

/-- For every sequence of messages, entries and windows, no shared password is saved precisely as
    long as, whenever the peer lets the session in, its latest `Hash` has the salt the password
    was hashed with. -/
theorem shared_password_saved_iff (c : Client) (hf : CollisionFree c.sha256)
    (lc : LoginConfigHandler) (events : List LoginEvent) :
    Along (step c) (fun s e => s.NotSaved c e) (new lc) events ↔
      Along (step c) (fun s e => s.SaltKept c e) (new lc) events := by
  have hsound : Always (step c) (Sound c) (new lc) events :=
    always_of_step (fun s e hs => sound_step hf s e hs) (sound_new lc) events
  constructor
  · exact hsound.along fun s e hs hkept => (notSaved_iff hf hs e).mp hkept
  · exact hsound.along fun s e hs hkept => (notSaved_iff hf hs e).mpr hkept

end ClientSession

/-! ## A peer that changes its salt -/

/-- The digests of a shared password under two salts. -/
def sharedDigests : List (Bytes × Bytes) :=
  [(asBytes "abc123" ++ asBytes "k3w7zd", sampleH1),
    (sampleH1 ++ asBytes "p9x2mt", sampleAnswer),
    (sampleH1 ++ asBytes "q4n8sv", [65, 35, 173, 151, 98, 4, 224, 103, 82, 33, 203, 240, 210, 202,
      48, 216, 59, 160, 163, 0, 118, 211, 221, 245, 75, 67, 178, 79, 27, 161, 34, 229]),
    (asBytes "abc123" ++ asBytes "m5t1ra", [167, 38, 21, 148, 237, 31, 62, 130, 22, 85, 120, 19,
      137, 194, 161, 211, 76, 197, 133, 223, 151, 178, 78, 187, 191, 38, 106, 86, 179, 128, 86,
      43])]

/-- The shared entry of a peer whose own password was remembered before. -/
def ClientSession.sample : ClientSession :=
  .new (.sample ⟨[1, 2, 3], fun _ => ""⟩ (some "abc123"))

def oneSalt : List LoginEvent :=
  [.handleHash .sample "" .sample, .handlePeerInfo ⟨[1, 2, 3], fun _ => ""⟩]

/-- A second `Hash` with another salt before the peer lets the client in. -/
def twoSalts : List LoginEvent :=
  [.handleHash .sample "" .sample, .handleHash .sample "" ⟨"m5t1ra", "q4n8sv"⟩,
    .handlePeerInfo ⟨[1, 2, 3], fun _ => ""⟩]

theorem shared_password_saved_iff_oneSalt :
    Along (ClientSession.step (.sample sharedDigests))
      (fun s e => s.NotSaved (.sample sharedDigests) e) .sample oneSalt :=
  (ClientSession.shared_password_saved_iff (.sample sharedDigests)
    (Digest.collisionFree_ofTable (by decide +kernel) (by decide +kernel)) _ oneSalt).mpr
    ⟨trivial, by decide +kernel, trivial⟩

/-- The hash of the shared password replaces the remembered one, and goes to the personal address
    book. -/
theorem shared_password_saved :
    let step := ClientSession.step (.sample sharedDigests)
    (run step .sample twoSalts).shared = some ("abc123", "k3w7zd") ∧
      (run step .sample twoSalts).lc.config.password = sampleH1 ∧
      ¬ Along step (fun s e => s.NotSaved (.sample sharedDigests) e) .sample twoSalts := by
  refine ⟨by decide +kernel, by decide +kernel, ?_⟩
  rintro ⟨-, -, h, -⟩
  exact absurd h (by decide +kernel)

end LuodaRemote
