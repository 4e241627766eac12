/-
  The permanent password in the configuration (`libs/hbb_common/src/config.rs`).

  It is stored as `01` and the base64 of its hash with the salt. Older versions stored it plainly
  or sealed as `00` and a box; `load` and `store` hash such a password on the way. A sealed password
  that does not open on this machine stays as it is.

  A salt is drawn wherever one is needed and there is none yet. Once a hashed password has a salt,
  the salt is not changed any more: `password_in_force` says what that is good for.
-/
import LuodaRemote.Client.Agreement
import LuodaRemote.Config.Secrets
import LuodaRemote.Lib.Run

namespace LuodaRemote
open Lib

/-- `password` and `salt` of `Config`, in memory or on disk. -/
structure PasswordConfig where
  password : String
  salt : String
  deriving DecidableEq

/-- What `get_auto_password(DEFAULT_SALT_LEN)` draws. -/
structure AutoSalt where
  text : String
  length_text : text.length = 6

/-- The machine, with SHA-256. -/
structure PasswordHost extends Host, CryptHost where
  length_sha256 : ∀ data, (sha256 data).length = 32

/-- The configuration in memory and on disk. -/
structure PasswordStore where
  config : PasswordConfig
  file : PasswordConfig
  deriving DecidableEq

/-- The salts are those that are drawn on the way, if any are. -/
inductive PasswordEvent where
  | setPermanentPassword (password : String) (fresh stored : AutoSalt)
  | setSalt (salt : String) (stored : AutoSalt)
  | getSalt (fresh stored : AutoSalt)
  /-- `store`, and `load` when the program is started again. -/
  | storeLoad (stored loaded storedAgain : AutoSalt)

/-! ## The functions -/

/-- `if config.salt.is_empty() { config.salt = Config::get_auto_password(DEFAULT_SALT_LEN) }`. -/
def PasswordConfig.drawSalt (c : PasswordConfig) (fresh : AutoSalt) : PasswordConfig :=
  if c.salt.isEmpty then { c with salt := fresh.text } else c

namespace PasswordHost

variable (h : PasswordHost)

def isDisableChangePermanentPassword : Bool :=
  h.builtinOption "disable-change-permanent-password" == "Y"

def computePermanentPasswordH1 (password salt : String) : Bytes :=
  h.sha256 (asBytes password ++ asBytes salt)

def encodePermanentPasswordStorageFromH1 (h1 : Bytes) : String := "01" ++ h.base64Encode h1

def isPermanentPasswordHashedStorage (v : String) : Bool :=
  (decodePermanentPasswordH1FromStorage h.toHost v).isSome

def passwordIsEmptyOrNotHashed (storage : String) : Bool :=
  storage.isEmpty || !h.isPermanentPasswordHashedStorage storage

/-- The password as it is stored under the salt. -/
def hashed (password salt : String) : String :=
  h.encodePermanentPasswordStorageFromH1 (h.computePermanentPasswordH1 password salt)

/-- The migrated configuration, and whether it is another one. -/
def migratePermanentPasswordToHashedStorage (c : PasswordConfig) (fresh : AutoSalt) :
    PasswordConfig × Bool :=
  if c.password.isEmpty || h.isPermanentPasswordHashedStorage c.password then (c, false)
  else if CryptHost.startsWith00 (asBytes c.password) then
    let (plain, decrypted, looksLikePlaintext) :=
      h.toCryptHost.decryptStrOrOriginal c.password "00"
    if !decrypted && !looksLikePlaintext then (c, false)
    else
      let c := c.drawSalt fresh
      if h.isPermanentPasswordHashedStorage plain then ({ c with password := plain }, true)
      else ({ c with password := h.hashed plain c.salt }, true)
  else
    let c := c.drawSalt fresh
    ({ c with password := h.hashed c.password c.salt }, true)

/-- `Config::store`: a migrated copy is written. -/
def store (c : PasswordConfig) (stored : AutoSalt) : PasswordStore :=
  ⟨c, (h.migratePermanentPasswordToHashedStorage c stored).1⟩

/-- `Config::load`. What it stores for the sake of the id has the same password and salt. -/
def load (file : PasswordConfig) (loaded storedAgain : AutoSalt) : PasswordStore :=
  let (c, changed) := h.migratePermanentPasswordToHashedStorage file loaded
  if changed then h.store c storedAgain else ⟨c, file⟩

def computePermanentPasswordStorageForUpdate (config : PasswordConfig) (password : String)
    (fresh : AutoSalt) : PasswordConfig × String :=
  let config := config.drawSalt fresh
  (config, h.hashed password config.salt)

/-- Where no password is preset, `hardPassword` is empty: setting the empty password over none
    changes nothing then either. -/
def setPermanentPassword (s : PasswordStore) (password : String) (fresh stored : AutoSalt) :
    PasswordStore :=
  if h.isDisableChangePermanentPassword then s
  else if h.hardPassword == password && s.config.password.isEmpty then s
  else
    let (config, storage) :=
      if password.isEmpty then (s.config, "")
      else h.computePermanentPasswordStorageForUpdate s.config password fresh
    -- a salt that was drawn stays in memory
    if storage == config.password then { s with config }
    else h.store { config with password := storage } stored

def setSalt (s : PasswordStore) (salt : String) (stored : AutoSalt) : PasswordStore :=
  if salt == s.config.salt then s
  else if !h.passwordIsEmptyOrNotHashed s.config.password && !s.config.salt.isEmpty then s
  else h.store { s.config with salt } stored

/-- The salt, and what drawing one leaves behind. -/
def getSalt (s : PasswordStore) (fresh stored : AutoSalt) : String × PasswordStore :=
  if s.config.salt.isEmpty then (fresh.text, h.setSalt s fresh.text stored)
  else (s.config.salt, s)

def step (s : PasswordStore) : PasswordEvent → PasswordStore
  | .setPermanentPassword password fresh stored => h.setPermanentPassword s password fresh stored
  | .setSalt salt stored => h.setSalt s salt stored
  | .getSalt fresh stored => (h.getSalt s fresh stored).2
  | .storeLoad stored loaded storedAgain => h.load (h.store s.config stored).file loaded storedAgain

def matchesPlain (s : PasswordStore) (input : String) : Bool :=
  matchesPermanentPasswordPlain h.toHost s.config.password s.config.salt input

/-! ## Migration -/

variable {h} {c : PasswordConfig} {p : String}

theorem drawSalt_salt (c : PasswordConfig) (fresh : AutoSalt) : (c.drawSalt fresh).salt ≠ "" := by
  unfold PasswordConfig.drawSalt
  split
  · intro hempty
    have hlen := fresh.length_text
    rw [show fresh.text = "" from hempty] at hlen
    exact absurd hlen (by decide)
  · rename_i hne
    simpa using hne

theorem decode_hashed (p salt : String) :
    decodePermanentPasswordH1FromStorage h.toHost (h.hashed p salt) =
      some (h.computePermanentPasswordH1 p salt) := by
  have hversion : asBytes "01" = [48, 49] := by
    rw [asBytes, utf8_eq_flatMap]
    decide
  have hbytes : asBytes (h.hashed p salt) =
      48 :: 49 :: asBytes (h.base64Encode (h.computePermanentPasswordH1 p salt)) :=
    (utf8_append "01" _).trans (congrArg (· ++ _) hversion)
  simp only [decodePermanentPasswordH1FromStorage, hbytes, h.base64Decode_encode]
  exact if_pos (h.length_sha256 _)

theorem isHashed_hashed (p salt : String) :
    h.isPermanentPasswordHashedStorage (h.hashed p salt) = true := by
  rw [isPermanentPasswordHashedStorage, decode_hashed]
  rfl

theorem hashed_ne (p salt : String) : h.hashed p salt ≠ "" := by
  intro hempty
  have hhashed := isHashed_hashed (h := h) p salt
  rw [hempty, isPermanentPasswordHashedStorage, decodePermanentPasswordH1FromStorage,
    CryptHost.asBytes_empty] at hhashed
  cases hhashed

/-- Migration has nothing to do, whatever salt it could draw. -/
def Migrated (h : PasswordHost) (c : PasswordConfig) : Prop :=
  ∀ fresh, h.migratePermanentPasswordToHashedStorage c fresh = (c, false)

theorem migrated_of_hashed (hhashed : h.isPermanentPasswordHashedStorage c.password = true) :
    Migrated h c := by
  intro fresh
  rw [migratePermanentPasswordToHashedStorage, hhashed, Bool.or_true, if_pos rfl]

theorem migrated_of_empty (hempty : c.password = "") : Migrated h c := by
  intro fresh
  rw [migratePermanentPasswordToHashedStorage, hempty]
  rfl

/-- What is migrated stays as it is: it is hashed, or it could not be opened and still cannot. -/
theorem migrated_migrate (h : PasswordHost) (c : PasswordConfig) (fresh : AutoSalt) :
    Migrated h (h.migratePermanentPasswordToHashedStorage c fresh).1 := by
  rw [migratePermanentPasswordToHashedStorage]
  split
  · rename_i hdone
    intro fresh'
    rw [migratePermanentPasswordToHashedStorage, if_pos hdone]
  · rename_i htodo
    split
    · rename_i h00
      dsimp only
      split
      · -- sealed elsewhere: the next migration finds the same
        rename_i hclosed
        intro fresh'
        rw [migratePermanentPasswordToHashedStorage, if_neg htodo, if_pos h00]
        dsimp only
        rw [if_pos hclosed]
      · split
        · rename_i hplain
          exact migrated_of_hashed hplain
        · exact migrated_of_hashed (isHashed_hashed _ _)
    · exact migrated_of_hashed (isHashed_hashed _ _)

/-! ## The password in force -/

/-- The owner set `p`: it is stored hashed, or nothing is stored and `p` is empty or preset. -/
def InForce (h : PasswordHost) (p : String) (c : PasswordConfig) : Prop :=
  c.password = "" ∧ (p = "" ∨ p = h.hardPassword) ∨
    p ≠ "" ∧ c.salt ≠ "" ∧ c.password = h.hashed p c.salt

theorem InForce.migrated (hp : InForce h p c) : Migrated h c := by
  rcases hp with ⟨hempty, _⟩ | ⟨_, _, hstored⟩
  · exact migrated_of_empty hempty
  · refine migrated_of_hashed ?_
    rw [hstored]
    exact isHashed_hashed _ _

/-- Storing and loading again keeps the password. -/
theorem InForce.load (hp : InForce h p c) (loaded storedAgain : AutoSalt) :
    h.load c loaded storedAgain = ⟨c, c⟩ := by
  rw [PasswordHost.load, hp.migrated loaded]
  rfl

theorem inForce_set (hchange : h.isDisableChangePermanentPassword = false) (s : PasswordStore)
    (p : String) (fresh stored : AutoSalt) :
    InForce h p (h.setPermanentPassword s p fresh stored).config := by
  rw [setPermanentPassword, hchange, if_neg Bool.false_ne_true]
  split
  · rename_i hpreset
    obtain ⟨hhard, hempty⟩ := by simpa using hpreset
    exact .inl ⟨hempty, .inr hhard.symm⟩
  · by_cases hp : p = ""
    · subst hp
      rw [if_pos (by rfl)]
      dsimp only
      split
      · rename_i hsame
        exact .inl ⟨(eq_of_beq hsame).symm, .inl rfl⟩
      · exact .inl ⟨rfl, .inl rfl⟩
    · rw [if_neg (by simpa using hp), computePermanentPasswordStorageForUpdate]
      dsimp only
      split
      · rename_i hsame
        exact .inr ⟨hp, drawSalt_salt _ _, (eq_of_beq hsame).symm⟩
      · exact .inr ⟨hp, drawSalt_salt _ _, rfl⟩

theorem InForce.setSalt {s : PasswordStore} (hp : InForce h p s.config) (salt : String)
    (stored : AutoSalt) : InForce h p (h.setSalt s salt stored).config := by
  unfold PasswordHost.setSalt
  split
  · exact hp
  · split
    · exact hp
    · rename_i hfree
      rcases hp with ⟨hempty, hp⟩ | ⟨hp, hsalt, hstored⟩
      · exact .inl ⟨hempty, hp⟩
      · -- refused: the password is hashed and has a salt
        refine absurd ?_ hfree
        rw [passwordIsEmptyOrNotHashed, hstored, isHashed_hashed]
        simp [hashed_ne, hsalt]

/-- Nothing but setting another password takes it out of force. -/
theorem InForce.step {s : PasswordStore} (hp : InForce h p s.config) {e : PasswordEvent}
    (he : ∀ password fresh stored, e ≠ .setPermanentPassword password fresh stored) :
    InForce h p (h.step s e).config := by
  cases e with
  | setPermanentPassword password fresh stored => exact absurd rfl (he password fresh stored)
  | setSalt salt stored => exact hp.setSalt salt stored
  | getSalt fresh stored =>
    show InForce h p (h.getSalt s fresh stored).2.config
    unfold PasswordHost.getSalt
    split
    · exact hp.setSalt fresh.text stored
    · exact hp
  | storeLoad stored loaded storedAgain =>
    show InForce h p (h.load (h.store s.config stored).file loaded storedAgain).config
    rw [PasswordHost.store, hp.migrated stored]
    dsimp only
    rw [hp.load]
    exact hp

/-- The password in force is accepted. So is none other, but for a collision with it. -/
theorem InForce.matches_iff {s : PasswordStore} (hp : InForce h p s.config) {q : String} :
    (p ≠ "" → (h.computePermanentPasswordH1 q s.config.salt =
        h.computePermanentPasswordH1 p s.config.salt → q = p) →
      (h.matchesPlain s q = true ↔ q = p)) ∧
    (p = "" → (h.matchesPlain s q = true ↔ q ≠ "" ∧ q = h.hardPassword)) := by
  unfold matchesPlain matchesPermanentPasswordPlain
  by_cases hq : q = ""
  · subst hq
    rw [if_pos (by rfl)]
    refine ⟨fun hne _ => ?_, fun _ => ?_⟩
    · simpa using Ne.symm hne
    · simp
  rw [if_neg (by simpa using hq)]
  rcases hp with ⟨hempty, hp⟩ | ⟨hne, hsalt, hstored⟩
  · -- nothing is stored: the preset password counts
    rw [hempty, if_pos (by rfl), beq_iff_eq]
    refine ⟨fun hne _ => ?_, fun _ => ?_⟩
    · rw [hp.resolve_left hne, eq_comm]
    · rw [eq_comm]
      exact (and_iff_right hq).symm
  · rw [hstored, decode_hashed, if_neg (by simpa using hashed_ne p _)]
    dsimp only
    rw [if_neg (by simpa using hsalt), constantTimeEq_iff]
    refine ⟨fun _ hfree => ⟨hfree, ?_⟩, fun hempty => absurd hempty hne⟩
    rintro rfl
    rfl

/-- The password in force after a run is the one that was set last. -/
theorem inForce_run (hchange : h.isDisableChangePermanentPassword = false) (s : PasswordStore)
    (before : List PasswordEvent) (p : String) (fresh stored : AutoSalt)
    {after : List PasswordEvent}
    (hafter : ∀ e ∈ after, ∀ password fresh stored,
      e ≠ .setPermanentPassword password fresh stored) :
    InForce h p
      (run h.step s (before ++ .setPermanentPassword p fresh stored :: after)).config := by
  rw [run_append, run_cons]
  have hset := inForce_set hchange (run h.step s before) p fresh stored
  have hkept : Always h.step (fun s => InForce h p s.config)
      (h.setPermanentPassword (run h.step s before) p fresh stored) after :=
    always_of_along (fun _ _ hs he => hs.step he) hset (along_of_mem hafter)
  exact hkept.last

/-- From whatever was stored, and with whatever salts were drawn: once the owner has set a password,
    exactly this one is accepted, until another is set; once the password was taken away, exactly
    the preset one, if there is one. Migrating twice is migrating once. -/
theorem password_in_force (h : PasswordHost)
    (hchange : h.isDisableChangePermanentPassword = false) :
    (∀ (file : PasswordConfig) (loaded storedAgain : AutoSalt) (before after : List PasswordEvent)
        (p : String) (fresh stored : AutoSalt) (q : String),
      (∀ e ∈ after, ∀ password fresh stored,
        e ≠ .setPermanentPassword password fresh stored) →
      let s := run h.step (h.load file loaded storedAgain)
        (before ++ .setPermanentPassword p fresh stored :: after)
      (p ≠ "" → (h.computePermanentPasswordH1 q s.config.salt =
          h.computePermanentPasswordH1 p s.config.salt → q = p) →
        (h.matchesPlain s q = true ↔ q = p)) ∧
      (p = "" → (h.matchesPlain s q = true ↔ q ≠ "" ∧ q = h.hardPassword))) ∧
    ∀ (c : PasswordConfig) (fresh fresh' : AutoSalt),
      h.migratePermanentPasswordToHashedStorage
          (h.migratePermanentPasswordToHashedStorage c fresh).1 fresh' =
        ((h.migratePermanentPasswordToHashedStorage c fresh).1, false) := by
  refine ⟨?_, fun c fresh => migrated_migrate h c fresh⟩
  intro file loaded storedAgain before after p fresh stored q hafter
  exact (inForce_run hchange _ before p fresh stored hafter).matches_iff

/-! ## A machine -/

/-- `sha256("xyz789" ++ "k3w7zd")`. -/
def otherH1 : Bytes :=
  [164, 38, 93, 139, 221, 226, 205, 3, 240, 215, 87, 80, 167, 237, 227, 186, 29, 120, 138, 236,
    151, 47, 178, 178, 145, 45, 229, 38, 182, 74, 117, 41]

/-- Of SHA-256 it knows the digests of two passwords with the salt `k3w7zd`. -/
def knownDigest (data : Bytes) : Bytes :=
  if data = asBytes "abc123" ++ asBytes "k3w7zd" then sampleH1
  else if data = asBytes "xyz789" ++ asBytes "k3w7zd" then otherH1
  else List.replicate 32 0

/-- A Windows machine with a key pair and without presets. -/
def sample : PasswordHost :=
  { CryptHost.computer, Host.sample with
    sha256 := knownDigest
    length_sha256 := by
      intro data
      unfold knownDigest
      split
      · rfl
      · split <;> rfl }

def sampleSalt : AutoSalt := ⟨"q8v2mn", by decide⟩

/-- What the owner of a new machine stored, after the salt was asked for. -/
def sampleStore : PasswordStore :=
  run sample.step (sample.load ⟨"", "k3w7zd"⟩ sampleSalt sampleSalt)
    ([] ++ .setPermanentPassword "abc123" sampleSalt sampleSalt ::
      [.getSalt sampleSalt sampleSalt])

theorem sampleStore_salt : sampleStore.config.salt = "k3w7zd" := by
  have hset : (sample.setPermanentPassword ⟨⟨"", "k3w7zd"⟩, ⟨"", "k3w7zd"⟩⟩ "abc123" sampleSalt
      sampleSalt).config.salt = "k3w7zd" := by
    unfold setPermanentPassword
    split
    · rfl
    · split
      · rfl
      · dsimp only
        split <;> rfl
  show (sample.getSalt _ sampleSalt sampleSalt).2.config.salt = "k3w7zd"
  rw [getSalt, if_neg]
  · exact hset
  · exact ne_true_of_eq_false (congrArg String.isEmpty hset)

theorem password_in_force_sample :
    sample.matchesPlain sampleStore "abc123" = true ∧
      sample.matchesPlain sampleStore "xyz789" = false := by
  have hdigest : sample.computePermanentPasswordH1 "xyz789" "k3w7zd" ≠
      sample.computePermanentPasswordH1 "abc123" "k3w7zd" := by
    have hne : asBytes "xyz789" ++ asBytes "k3w7zd" ≠ asBytes "abc123" ++ asBytes "k3w7zd" :=
      fun heq => absurd (asBytes_injective (List.append_cancel_right heq)) (by decide)
    show knownDigest _ ≠ knownDigest _
    rw [knownDigest, if_neg hne, if_pos rfl, knownDigest, if_pos rfl]
    decide
  have hforce := fun q => (password_in_force sample rfl).1 ⟨"", "k3w7zd"⟩ sampleSalt sampleSalt []
    [.getSalt sampleSalt sampleSalt] "abc123" sampleSalt sampleSalt q (by simp)
  refine ⟨((hforce "abc123").1 (by decide) fun _ => rfl).mpr rfl, ?_⟩
  refine eq_false_of_ne_true fun hmatch => ?_
  refine absurd (((hforce "xyz789").1 (by decide) fun hsame => ?_).mp hmatch) (by decide)
  exact absurd (sampleStore_salt ▸ hsame) hdigest

end PasswordHost

end LuodaRemote
