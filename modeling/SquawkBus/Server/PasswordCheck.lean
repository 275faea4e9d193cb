import SquawkBus.Library.Split
import SquawkBus.Server.Authentication

/-!
# Password authentication

With a password file, who is let in and as whom: exactly the user of a `basic` request whose token
names it together with a password that its record is the apr1 hash of. The parts are an inversion of
`decode_basic_token` and one of the comparison of a record with itself encrypted again.
-/

namespace SquawkBus.Server

open SquawkBus.Messages SquawkBus.Serialization

/-! ## Records -/

section Apr1

variable (md5 : Bytes → Bytes)

/-- The record of a password, in the format of `htpasswd`. -/
def apr1Record (password salt : Bytes) : Bytes :=
  ascii "$apr1$" ++ salt ++ ascii "$" ++ apr1HashPassword md5 password salt

/-- The salt of a record is what is between the second dollar and the third. -/
theorem apr1ExtractSalt_eq_ok_iff {data salt : Bytes} :
    apr1ExtractSalt data = .ok salt ↔
      ∃ rest, data.drop 6 = salt ++ 36 :: rest ∧ 36 ∉ salt ∧ salt.length ≤ 8 := by
  unfold apr1ExtractSalt
  constructor
  · intro h
    split at h
    · cases h
    · next i hi =>
      obtain ⟨hdata, hsalt⟩ := List.append_cons_of_idxOf? hi
      simp only at h
      split at h
      · cases h
      · next hlength =>
        cases h
        exact ⟨_, hdata, hsalt, Nat.le_of_not_lt hlength⟩
  · rintro ⟨rest, hdata, hsalt, hlength⟩
    rw [hdata, List.idxOf?_append_cons hsalt]
    simp [Nat.not_lt.mpr hlength]

variable {md5}

/-- A record with a proper salt is encrypted with its salt, whatever its hash is. -/
theorem encryptData_record {password salt hash : Bytes} (hlength : salt.length ≤ 8)
    (hdollar : 36 ∉ salt) :
    encryptData md5 password (ascii "$apr1$" ++ salt ++ ascii "$" ++ hash) =
      .ok (apr1Record md5 password salt) := by
  have hprefix : (ascii "$apr1$").isPrefixOf (ascii "$apr1$" ++ salt ++ ascii "$" ++ hash) = true := by
    rw [List.isPrefixOf_iff_prefix]
    exact ⟨salt ++ ascii "$" ++ hash, by simp⟩
  have hsalt : apr1ExtractSalt (ascii "$apr1$" ++ salt ++ ascii "$" ++ hash) = .ok salt :=
    apr1ExtractSalt_eq_ok_iff.mpr ⟨hash, by simp [ascii], hdollar, hlength⟩
  rw [encryptData, if_pos hprefix, encryptApr1Data, hsalt]
  rfl

/-- **A record is found again** when the password is encrypted with its salt: it is the record of this
password under a salt of at most eight characters. -/
theorem encryptData_eq_self_iff {password data : Bytes} :
    encryptData md5 password data = .ok data ↔
      ∃ salt, salt.length ≤ 8 ∧ 36 ∉ salt ∧ data = apr1Record md5 password salt := by
  constructor
  · intro h
    rw [encryptData] at h
    split at h
    · obtain ⟨salt, hsalt, hrecord⟩ := Except.bind_eq_ok.mp h
      obtain ⟨rest, -, hdollar, hlength⟩ := apr1ExtractSalt_eq_ok_iff.mp hsalt
      exact ⟨salt, hlength, hdollar, (Except.ok.inj hrecord).symm⟩
    · cases h
  · rintro ⟨salt, hlength, hdollar, rfl⟩
    exact encryptData_record hlength hdollar

end Apr1

namespace AuthenticationRepository

/-! ## The repository -/

/-- The repository accepts a password when the record of the user is one of this password. -/
theorem authenticate_iff {md5 : Bytes → Bytes} {repository : AuthenticationRepository}
    {username password : Bytes} :
    repository.authenticate md5 username password = .ok true ↔
      ∃ salt, salt.length ≤ 8 ∧ 36 ∉ salt ∧
        repository.entries[username]? = some (apr1Record md5 password salt) := by
  unfold authenticate
  cases hentry : repository.entries[username]? with
  | none => simp
  | some data =>
      have hself : (encryptData md5 password data >>= fun encrypted =>
          (pure (encrypted == data) : Except Exn Bool)) = .ok true ↔
          encryptData md5 password data = .ok data := by
        rw [Except.bind_eq_ok]
        constructor
        · rintro ⟨encrypted, hencrypted, hequal⟩
          rw [hencrypted, eq_of_beq (Except.ok.inj hequal)]
        · intro hencrypted
          exact ⟨data, hencrypted, by simp [pure, Except.pure]⟩
      simp only [Option.some.injEq]
      exact hself.trans encryptData_eq_self_iff

end AuthenticationRepository

namespace AuthenticationManager

/-! ## The manager -/

/-- **Password authentication is sound and complete**: with a password file, a user is returned
exactly for a `basic` request whose token holds the user name and a password that the user's record
is the hash of. Any other request gets no user, or an exception. -/
theorem authenticate_eq_user_iff (md5 : Bytes → Bytes) (manager : AuthenticationManager)
    (hfile : manager.passwordFile.isSome) (message : AuthenticationRequest) (user : Bytes) :
    manager.authenticate md5 message = .ok (some user) ↔
      message.method = ascii "basic" ∧ ∃ password,
        base64Decode message.data = user ++ 58 :: password ∧ 58 ∉ user ∧
        ∃ salt, salt.length ≤ 8 ∧ 36 ∉ salt ∧ manager.repository.entries[user]? =
          some (ascii "$apr1$" ++ salt ++ ascii "$" ++ apr1HashPassword md5 password salt) := by
  unfold authenticate
  constructor
  · intro h
    split at h
    · -- With a password file nobody gets in without a password.
      have hnobody : manager.authenticateNone = some user := Except.ok.inj h
      rw [authenticateNone, if_pos hfile] at hnobody
      cases hnobody
    · split at h
      · next hmethod =>
        obtain ⟨⟨username, password⟩, htoken, h⟩ := Except.bind_eq_ok.mp h
        obtain ⟨accepted, haccepted, h⟩ := Except.bind_eq_ok.mp h
        have huser : (if accepted then some username else none) = some user := Except.ok.inj h
        split at huser
        · next htrue =>
          obtain rfl := Option.some.inj huser
          obtain ⟨hdata, hcolon⟩ := decodeBasicToken_eq_ok_iff.mp htoken
          rw [htrue] at haccepted
          exact ⟨hmethod, password, hdata, hcolon,
            AuthenticationRepository.authenticate_iff.mp haccepted⟩
        · cases huser
      · cases h
  · rintro ⟨hmethod, password, hdata, hcolon, hrecord⟩
    have hnone : ¬ message.method = ascii "none" := by
      rw [hmethod]
      decide
    have htoken : decodeBasicToken message.data = .ok (user, password) :=
      decodeBasicToken_eq_ok_iff.mpr ⟨hdata, hcolon⟩
    have haccepted : manager.repository.authenticate md5 user password = .ok true :=
      AuthenticationRepository.authenticate_iff.mpr hrecord
    rw [if_neg hnone, if_pos hmethod, authenticateBasic, htoken]
    simp only [bind, Except.bind, haccepted]
    rfl

/-- Tom's record is that of the password `pw`, which he sends in the token `dG9tOnB3`. -/
theorem authenticate_eq_user_tom :
    let md5 : Bytes → Bytes := fun _ => List.replicate 16 0
    let manager : AuthenticationManager :=
      ⟨⟨Std.ExtTreeMap.insert ∅ (ascii "tom") (apr1Record md5 (ascii "pw") (ascii "salt"))⟩,
        some (ascii "passwords")⟩
    manager.authenticate md5 ⟨ascii "basic", ascii "dG9tOnB3"⟩ = .ok (some (ascii "tom")) :=
  (authenticate_eq_user_iff _ _ rfl _ _).mpr ⟨rfl, ascii "pw", by decide +kernel, by decide,
    ascii "salt", by decide, by decide, by rw [OrdMap.get_insert]; rfl⟩

end AuthenticationManager

end SquawkBus.Server
