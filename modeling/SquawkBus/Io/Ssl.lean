import SquawkBus.Basic

/-!
# What OpenSSL answers

`Answers` holds what the functions of OpenSSL return during one call of a `TcpStream`: each is called
at most once in it. `Ssl` turns the returned codes into results and exceptions.
-/

namespace SquawkBus.Io

/-! ## What OpenSSL answers -/

/-- The value of `SSL_get_error`. -/
inductive SslError where
  | none
  | zeroReturn
  | wantRead
  | wantWrite
  | wantAccept
  | wantConnect
  | wantX509Lookup
  | wantAsync
  | wantAsyncJob
  | wantClientHelloCb
  | syscall
  | ssl
  | unknown
  deriving DecidableEq, Repr

/-- What `BIO_read_ex` does with a buffer, and the flags of the `BIO` after it. -/
structure BioRead where
  data : Option Bytes
  shouldRetry : Bool
  shouldWrite : Bool

/-- What `BIO_write_ex` does with some bytes, and the flags of the `BIO` after it. -/
structure BioWrite where
  written : Option Nat
  shouldRetry : Bool
  shouldWrite : Bool

/-- The answers of OpenSSL in one call of a stream. A `BIO` reads no more than the buffer holds and
writes no more than it is given. -/
structure Answers where
  /-- `SSL_do_handshake`, with the error behind a negative value. -/
  handshake : Int × SslError
  /-- `SSL_get_verify_result`. -/
  verifyResult : Int
  /-- `X509_verify_cert_error_string` of this result. -/
  verifyErrorString : String
  /-- Whether `SSL_get_peer_certificate` finds one. -/
  hasCertificate : Bool
  /-- `SSL_shutdown`, with the error behind a negative value. -/
  shutdown : Int × SslError
  read : Nat → BioRead
  write : Bytes → BioWrite
  /-- `SSL_get_error` after a `BIO_read_ex` that failed. -/
  error : SslError
  length_le_of_read : ∀ len buf, (read len).data = some buf → buf.length ≤ len
  le_of_write : ∀ buf n, (write buf).written = some n → n ≤ buf.length

namespace Ssl

/-! ## Errors -/

/-- `error_code`. -/
def errorCode : SslError → String
  | .none => "NONE"
  | .zeroReturn => "ZERO_RETURN"
  | .wantRead => "WANT_READ"
  | .wantWrite => "WANT_WRITE"
  | .wantAccept => "WANT_ACCEPT"
  | .wantConnect => "WANT_CONNECT"
  | .wantX509Lookup => "WANT_X509_LOOKUP"
  | .wantAsync => "WANT_ASYNC"
  | .wantAsyncJob => "WANT_ASYNC_JOB"
  | .wantClientHelloCb => "WANT_CLIENT_HELLO_CB"
  | .syscall => "SYSCALL"
  | .ssl => "SSL"
  | .unknown => "UNKNOWN"

/-- `error_description`. -/
def errorDescription : SslError → String
  | .none => "operation completed"
  | .zeroReturn => "peer closed connection"
  | .wantRead => "a read is required"
  | .wantWrite => "a write is required"
  | .wantAccept => "an accept would block and should be retried"
  | .wantConnect => "a connect would block and should be retried"
  | .wantX509Lookup => "the callback asked to be called again"
  | .wantAsync => "the async engine is still processing data"
  | .wantAsyncJob => "an async job could not be created"
  | .wantClientHelloCb => "the callback asked to be called again"
  | .syscall => "unrecoverable"
  | .ssl => "unrecoverable"
  | .unknown => "unknown"

/-! ## The calls -/

/-- `do_handshake`: whether it is complete, or `none` if it would block. -/
def doHandshake (answers : Answers) : Except Exn (Option Bool) :=
  let (ret, err) := answers.handshake
  if ret = 1 then .ok (some true)
  else if ret = 0 then .ok (some false)
  else if err = .wantRead ∨ err = .wantWrite then .ok none
  else .error (.runtimeError
    ("handshake failed: " ++ errorCode err ++ " - " ++ errorDescription err))

/-- `verify`. `X509_V_OK` is zero. -/
def verify (answers : Answers) : Except Exn Unit :=
  if answers.verifyResult ≠ 0 then .error (.runtimeError answers.verifyErrorString)
  else if answers.hasCertificate then .ok ()
  else .error (.runtimeError "no certificate was presented")

/-- `shutdown`: whether it is complete, or `none` if it would block. -/
def shutdown (answers : Answers) : Except Exn (Option Bool) :=
  let (ret, err) := answers.shutdown
  if ret = 1 then .ok (some true)
  else if ret = 0 then .ok (some false)
  else if err = .wantRead ∨ err = .wantWrite then .ok none
  else .error (.runtimeError "shutdown failed")

/-! ## How they end -/

/-- A handshake is complete when `SSL_do_handshake` has returned one. -/
theorem doHandshake_complete_iff (answers : Answers) :
    doHandshake answers = .ok (some true) ↔ answers.handshake.1 = 1 := by
  unfold doHandshake
  constructor
  · intro h
    by_contra hne
    simp only [if_neg hne] at h
    split at h
    · cases h
    · split at h <;> cases h
  · intro h
    simp only [if_pos h]

/-- The peer is verified when it has presented a certificate that passed. -/
theorem verify_eq_ok_iff (answers : Answers) :
    verify answers = .ok () ↔ answers.verifyResult = 0 ∧ answers.hasCertificate := by
  unfold verify
  constructor
  · intro h
    split at h
    · cases h
    · next hresult =>
      split at h
      · next hcertificate => exact ⟨not_not.mp hresult, hcertificate⟩
      · cases h
  · rintro ⟨hresult, hcertificate⟩
    rw [if_neg (not_not.mpr hresult), if_pos hcertificate]

/-- What `Ssl` throws is a `std::runtime_error`. -/
theorem isStdException_of_doHandshake {answers : Answers} {e : Exn}
    (h : doHandshake answers = .error e) : e.isStdException = true := by
  unfold doHandshake at h
  simp only at h
  split at h
  · cases h
  · split at h
    · cases h
    · split at h <;> cases h
      rfl

theorem isStdException_of_verify {answers : Answers} {e : Exn} (h : verify answers = .error e) :
    e.isStdException = true := by
  unfold verify at h
  split at h
  · cases h
    rfl
  · split at h <;> cases h
    rfl

theorem isStdException_of_shutdown {answers : Answers} {e : Exn} (h : shutdown answers = .error e) :
    e.isStdException = true := by
  unfold shutdown at h
  simp only at h
  split at h
  · cases h
  · split at h
    · cases h
    · split at h <;> cases h
      rfl

end Ssl

end SquawkBus.Io
