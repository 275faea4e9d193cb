import SquawkBus.Messages.Basic
import SquawkBus.Serialization.BasicToken
import Mathlib.Data.Nat.Bits

/-!
# Authentication

`AuthenticationRepository`, with the apr1 hash of the password file, and `AuthenticationManager`.
`md5` stands for the digest of the OpenSSL library: a digest context is the bytes it has been
given so far, and a digest is always of the size announced for it.
-/

namespace SquawkBus.Server

open SquawkBus.Messages SquawkBus.Serialization

/-! ## apr1 -/

section Apr1

variable (md5 : Bytes → Bytes)

def itoa64 : Bytes := ascii "./0123456789ABCDEFGHIJKLMNOPQRSTUVWXYZabcdefghijklmnopqrstuvwxyz"

/-- `uint32_to_b64`: `n` characters of six bits each, the lowest first. -/
def uint32ToB64 (v : UInt32) : Nat → Bytes
  | 0 => []
  | n + 1 => itoa64.getD (v &&& 0x3f).toNat 0 :: uint32ToB64 (v >>> 6) n

def digestToString (digest : Bytes) : Bytes :=
  let byte := fun i => (digest.getD i 0).toUInt32
  uint32ToB64 (byte 0 <<< 16 ||| byte 6 <<< 8 ||| byte 12) 4 ++
    uint32ToB64 (byte 1 <<< 16 ||| byte 7 <<< 8 ||| byte 13) 4 ++
    uint32ToB64 (byte 2 <<< 16 ||| byte 8 <<< 8 ||| byte 14) 4 ++
    uint32ToB64 (byte 3 <<< 16 ||| byte 9 <<< 8 ||| byte 15) 4 ++
    uint32ToB64 (byte 4 <<< 16 ||| byte 10 <<< 8 ||| byte 5) 4 ++
    uint32ToB64 (byte 11) 2

/-- The loop `for (int n = password.size(); n > 0; n -= 16)`, which takes up to 16 bytes of the
seed in each round. -/
def apr1Seed (password seed : Bytes) : Bytes :=
  let size := (int password.length).toNat
  (List.range ((size + 15) / 16)).flatMap fun round => seed.take (size - 16 * round)

/-- The loop over the bits of the password's size: a zero byte or the first of the password. -/
def apr1Bits (password : Bytes) : Bytes :=
  (Nat.bits password.length).map fun bit => if bit then 0 else password.headD 0

/-- One of the thousand rounds. -/
def apr1Round (password salt digest : Bytes) (i : Nat) : Bytes :=
  md5 ((if i % 2 = 1 then password else digest) ++ (if i % 3 ≠ 0 then salt else []) ++
    (if i % 7 ≠ 0 then password else []) ++ (if i % 2 = 1 then digest else password))

def apr1HashPassword (password salt : Bytes) : Bytes :=
  let seed := md5 (password ++ salt ++ password)
  let digest := md5 (password ++ ascii "$apr1$" ++ salt ++ apr1Seed password seed ++
    apr1Bits password)
  digestToString ((List.range 1000).foldl (apr1Round md5 password salt) digest)

def apr1ExtractSalt (data : Bytes) : Except Exn Bytes :=
  match (data.drop 6).idxOf? 36 with
  | none => .error (.runtimeError "missing salt")
  | some i =>
      let salt := (data.drop 6).take i
      if 8 < salt.length then .error (.runtimeError "salt too long") else .ok salt

def encryptApr1Data (password data : Bytes) : Except Exn Bytes := do
  let salt ← apr1ExtractSalt data
  let hash := apr1HashPassword md5 password salt
  return ascii "$apr1$" ++ salt ++ ascii "$" ++ hash

def encryptData (password data : Bytes) : Except Exn Bytes :=
  if (ascii "$apr1$").isPrefixOf data then encryptApr1Data md5 password data
  else .error (.runtimeError "unhandled cipher")

end Apr1

/-! ## The repository and the manager -/

/-- The password records: a user and its encrypted password. -/
structure AuthenticationRepository where
  entries : OrdMap Bytes Bytes

namespace AuthenticationRepository

def authenticate (md5 : Bytes → Bytes) (repository : AuthenticationRepository)
    (username password : Bytes) : Except Exn Bool :=
  match repository.entries[username]? with
  | none => .ok false
  | some data => do
      let encrypted ← encryptData md5 password data
      return encrypted == data

end AuthenticationRepository

/-! ### The manager -/

structure AuthenticationManager where
  repository : AuthenticationRepository
  passwordFile : Option Bytes

namespace AuthenticationManager

/-- The constructor: no records yet. -/
def new (passwordFile : Option Bytes) : AuthenticationManager := ⟨⟨∅⟩, passwordFile⟩

/-- The records of the lines of a password file; the first record of a user counts. -/
def parse : List Bytes → OrdMap Bytes Bytes → Except Exn (OrdMap Bytes Bytes)
  | [], entries => .ok entries
  | line :: lines, entries =>
      if line.head? = some 35 then parse lines entries
      else
        match line.idxOf? 58 with
        | none => .error (.runtimeError "invalid password record")
        | some colon =>
            parse lines (entries.insertIfNew (line.take colon) (line.drop (colon + 1)))

/-- `load`, given the lines of the password file if it can be opened. -/
def load (manager : AuthenticationManager) (file : Option (List Bytes)) :
    Except Exn AuthenticationManager :=
  match manager.passwordFile with
  | none => .ok manager
  | some _ =>
      match file with
      | none => .error (.runtimeError "failed to open password file")
      | some lines => do
          let entries ← parse lines ∅
          return { manager with repository := ⟨entries⟩ }

/-! ### Logging in -/

def authenticateNone (manager : AuthenticationManager) : Option Bytes :=
  if manager.passwordFile.isSome then none else some (ascii "nobody")

def authenticateBasic (md5 : Bytes → Bytes) (manager : AuthenticationManager)
    (message : AuthenticationRequest) : Except Exn (Option Bytes) := do
  let (username, password) ← decodeBasicToken message.data
  let accepted ← manager.repository.authenticate md5 username password
  return if accepted then some username else none

def authenticate (md5 : Bytes → Bytes) (manager : AuthenticationManager)
    (message : AuthenticationRequest) : Except Exn (Option Bytes) :=
  if message.method = ascii "none" then .ok manager.authenticateNone
  else if message.method = ascii "basic" then manager.authenticateBasic md5 message
  else .ok none

/-! ## How authentication ends -/

/-- The exceptions of `authenticate` are all `std::runtime_error`s. -/
theorem isStdException_of_authenticate {md5 : Bytes → Bytes} {manager : AuthenticationManager}
    {message : AuthenticationRequest} {e : Exn} (h : manager.authenticate md5 message = .error e) :
    e.isStdException := by
  have hencrypt : ∀ {password data : Bytes}, encryptData md5 password data = .error e →
      e.isStdException := by
    intro password data h
    unfold encryptData encryptApr1Data apr1ExtractSalt at h
    split at h
    · split at h
      · cases h
        rfl
      · simp only at h
        split at h
        · cases h
          rfl
        · cases h
    · cases h
      rfl
  unfold authenticate at h
  split at h
  · cases h
  · split at h
    · unfold authenticateBasic decodeBasicToken at h
      simp only at h
      split at h
      · cases h
        rfl
      · unfold AuthenticationRepository.authenticate at h
        simp only [bind, Except.bind] at h
        split at h
        · next hauthenticate =>
          split at hauthenticate
          · cases hauthenticate
          · split at hauthenticate
            · next hfailed =>
              cases hauthenticate
              cases h
              exact hencrypt hfailed
            · cases hauthenticate
        · cases h
    · cases h

/-- The user that is let in has been named in the request, or is nobody. -/
theorem length_user_of_authenticate {md5 : Bytes → Bytes} {manager : AuthenticationManager}
    {message : AuthenticationRequest} {user : Bytes}
    (h : manager.authenticate md5 message = .ok (some user)) :
    user.length ≤ 6 + message.data.length := by
  unfold authenticate at h
  split at h
  · have hnobody : manager.authenticateNone = some user := Except.ok.inj h
    unfold authenticateNone at hnobody
    split at hnobody
    · cases hnobody
    · cases hnobody
      exact Nat.le_add_right 6 _
  · split at h
    · obtain ⟨⟨username, password⟩, htoken, h⟩ := Except.bind_eq_ok.mp h
      obtain ⟨accepted, -, h⟩ := Except.bind_eq_ok.mp h
      have huser : (if accepted then some username else none) = some user := Except.ok.inj h
      split at huser
      · cases huser
        exact (length_user_le htoken).trans (Nat.le_add_left _ 6)
      · cases huser
    · cases h

end AuthenticationManager

end SquawkBus.Server
