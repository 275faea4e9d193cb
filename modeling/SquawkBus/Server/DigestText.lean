import SquawkBus.Library.Digits
import SquawkBus.Server.PasswordCheck
import Mathlib.Tactic.IntervalCases

/-!
# The text of an apr1 digest

`digest_to_string` writes sixteen bytes as 22 characters. It picks the bytes in an order of its own,
three to a word, and writes each word in four digits of base 64, the lowest first; the last byte takes
two. Nothing is lost on the way: the words have no more digits than are written, and every byte is in
exactly one of them. So two records with the same salt are the same text exactly when their digests are
the same bytes.
-/

namespace SquawkBus.Server

open SquawkBus.Serialization

/-! ## Words and their digits -/

/-- The characters `./0-9A-Za-z`. -/
def IsItoa64 (c : UInt8) : Prop :=
  c = 46 ∨ c = 47 ∨ (48 ≤ c ∧ c ≤ 57) ∨ (65 ≤ c ∧ c ≤ 90) ∨ (97 ≤ c ∧ c ≤ 122)

instance decidableIsItoa64 (c : UInt8) : Decidable (IsItoa64 c) :=
  inferInstanceAs (Decidable (_ ∨ _))

theorem isItoa64_getD : ∀ n < 64, IsItoa64 (itoa64.getD n 0) := by decide +kernel

theorem idxOf_itoa64_getD : ∀ n < 64, itoa64.idxOf (itoa64.getD n 0) = n := by decide +kernel

theorem itoa64_injective :
    ∀ m < 64, ∀ n < 64, itoa64.getD m 0 = itoa64.getD n 0 → m = n := by
  intro m hm n hn h
  rw [← idxOf_itoa64_getD m hm, ← idxOf_itoa64_getD n hn, h]

/-- **`uint32_to_b64` writes digits of base 64**, the lowest first. -/
theorem uint32ToB64_eq (v : UInt32) (n : Nat) :
    uint32ToB64 v n = (Digits.fixed 64 n v.toNat).map (itoa64.getD · 0) := by
  induction n generalizing v with
  | zero => rfl
  | succ n ih =>
      have hlow : (v &&& 0x3f).toNat = v.toNat % 64 := by
        rw [UInt32.toNat_and]
        exact Nat.and_two_pow_sub_one_eq_mod v.toNat 6
      have hrest : (v >>> 6).toNat = v.toNat / 64 := by
        rw [UInt32.toNat_shiftRight, Nat.shiftRight_eq_div_pow]
        rfl
      rw [uint32ToB64, ih, hlow, hrest]
      rfl

@[simp] theorem length_uint32ToB64 (v : UInt32) (n : Nat) : (uint32ToB64 v n).length = n := by
  rw [uint32ToB64_eq, List.length_map, Digits.length_fixed]

theorem isItoa64_of_mem_uint32ToB64 {v : UInt32} {n : Nat} {c : UInt8}
    (h : c ∈ uint32ToB64 v n) : IsItoa64 c := by
  rw [uint32ToB64_eq] at h
  obtain ⟨d, hd, rfl⟩ := List.mem_map.mp h
  exact isItoa64_getD d (Digits.lt_of_mem_fixed (by decide) d hd)

theorem uint32ToB64_injective {v w : UInt32} {n : Nat} (hv : v.toNat < 64 ^ n)
    (hw : w.toNat < 64 ^ n) (h : uint32ToB64 v n = uint32ToB64 w n) : v = w := by
  rw [uint32ToB64_eq, uint32ToB64_eq] at h
  apply UInt32.toNat_inj.mp
  exact Digits.map_fixed_injective (by decide) itoa64_injective hv hw h

/-- The word of three bytes. -/
def word (x y z : UInt8) : UInt32 := x.toUInt32 <<< 16 ||| y.toUInt32 <<< 8 ||| z.toUInt32

theorem toNat_word (x y z : UInt8) :
    (word x y z).toNat = x.toNat * 2 ^ 16 + y.toNat * 2 ^ 8 + z.toNat := by
  have hx := x.toNat_lt
  have hy := y.toNat_lt
  have hz := z.toNat_lt
  have hxs : (x.toUInt32 <<< 16).toNat = x.toNat <<< 16 := by
    rw [UInt32.toNat_shiftLeft, UInt8.toNat_toUInt32, Nat.shiftLeft_eq, Nat.shiftLeft_eq]
    exact Nat.mod_eq_of_lt (by show x.toNat * 2 ^ 16 < 2 ^ 32; omega)
  have hys : (y.toUInt32 <<< 8).toNat = y.toNat <<< 8 := by
    rw [UInt32.toNat_shiftLeft, UInt8.toNat_toUInt32, Nat.shiftLeft_eq, Nat.shiftLeft_eq]
    exact Nat.mod_eq_of_lt (by show y.toNat * 2 ^ 8 < 2 ^ 32; omega)
  have hyz : y.toNat <<< 8 ||| z.toNat = y.toNat * 2 ^ 8 + z.toNat := by
    rw [← Nat.shiftLeft_add_eq_or_of_lt hz, Nat.shiftLeft_eq]
  rw [word, UInt32.toNat_or, UInt32.toNat_or, hxs, hys, UInt8.toNat_toUInt32, Nat.or_assoc, hyz,
    ← Nat.shiftLeft_add_eq_or_of_lt (by omega), Nat.shiftLeft_eq, Nat.add_assoc]

/-- A word determines its three bytes. -/
theorem word_injective {x y z x' y' z' : UInt8} (h : word x y z = word x' y' z') :
    x = x' ∧ y = y' ∧ z = z' := by
  have hx := x.toNat_lt
  have hy := y.toNat_lt
  have hz := z.toNat_lt
  have hx' := x'.toNat_lt
  have hy' := y'.toNat_lt
  have hz' := z'.toNat_lt
  have hvalue := congrArg UInt32.toNat h
  rw [toNat_word, toNat_word] at hvalue
  refine ⟨?_, ?_, ?_⟩
  · apply UInt8.toNat_inj.mp
    omega
  · apply UInt8.toNat_inj.mp
    omega
  · apply UInt8.toNat_inj.mp
    omega

/-- Four digits are enough for a word. -/
theorem uint32ToB64_word_injective {x y z x' y' z' : UInt8}
    (h : uint32ToB64 (word x y z) 4 = uint32ToB64 (word x' y' z') 4) :
    x = x' ∧ y = y' ∧ z = z' := by
  have hlt (x y z : UInt8) : (word x y z).toNat < 64 ^ 4 := by
    have hx := x.toNat_lt
    have hy := y.toNat_lt
    have hz := z.toNat_lt
    rw [toNat_word]
    omega
  exact word_injective (uint32ToB64_injective (hlt x y z) (hlt x' y' z') h)

/-- Two digits are enough for a byte. -/
theorem uint32ToB64_byte_injective {x x' : UInt8}
    (h : uint32ToB64 x.toUInt32 2 = uint32ToB64 x'.toUInt32 2) : x = x' := by
  have hlt (x : UInt8) : x.toUInt32.toNat < 64 ^ 2 := by
    have hx := x.toNat_lt
    rw [UInt8.toNat_toUInt32]
    omega
  have hword := congrArg UInt32.toNat (uint32ToB64_injective (hlt x) (hlt x') h)
  rw [UInt8.toNat_toUInt32, UInt8.toNat_toUInt32] at hword
  exact UInt8.toNat_inj.mp hword

/-! ## The digest -/

/-- The byte `md5[i]`. -/
def digestByte (digest : Bytes) (i : Nat) : UInt8 := digest.getD i 0

theorem digestToString_eq (digest : Bytes) :
    digestToString digest =
      uint32ToB64 (word (digestByte digest 0) (digestByte digest 6) (digestByte digest 12)) 4 ++
      uint32ToB64 (word (digestByte digest 1) (digestByte digest 7) (digestByte digest 13)) 4 ++
      uint32ToB64 (word (digestByte digest 2) (digestByte digest 8) (digestByte digest 14)) 4 ++
      uint32ToB64 (word (digestByte digest 3) (digestByte digest 9) (digestByte digest 15)) 4 ++
      uint32ToB64 (word (digestByte digest 4) (digestByte digest 10) (digestByte digest 5)) 4 ++
      uint32ToB64 (digestByte digest 11).toUInt32 2 := rfl

theorem length_digestToString (digest : Bytes) : (digestToString digest).length = 22 := by
  simp [digestToString_eq]

theorem isItoa64_of_mem_digestToString {digest : Bytes} {c : UInt8}
    (h : c ∈ digestToString digest) : IsItoa64 c := by
  rw [digestToString_eq] at h
  simp only [List.mem_append] at h
  rcases h with ((((h | h) | h) | h) | h) | h <;> exact isItoa64_of_mem_uint32ToB64 h

/-- Each of the sixteen bytes is in one of the words. -/
theorem digestByte_eq_of_digestToString {d d' : Bytes} (h : digestToString d = digestToString d') :
    ∀ i < 16, digestByte d i = digestByte d' i := by
  rw [digestToString_eq, digestToString_eq] at h
  obtain ⟨h, h11⟩ := List.append_inj' h (by simp)
  obtain ⟨h, h4⟩ := List.append_inj' h (by simp)
  obtain ⟨h, h3⟩ := List.append_inj' h (by simp)
  obtain ⟨h, h2⟩ := List.append_inj' h (by simp)
  obtain ⟨h0, h1⟩ := List.append_inj' h (by simp)
  obtain ⟨b0, b6, b12⟩ := uint32ToB64_word_injective h0
  obtain ⟨b1, b7, b13⟩ := uint32ToB64_word_injective h1
  obtain ⟨b2, b8, b14⟩ := uint32ToB64_word_injective h2
  obtain ⟨b3, b9, b15⟩ := uint32ToB64_word_injective h3
  obtain ⟨b4, b10, b5⟩ := uint32ToB64_word_injective h4
  have b11 := uint32ToB64_byte_injective h11
  intro i hi
  interval_cases i <;> assumption

/-- **No bit is lost**: two digests of sixteen bytes with the same text are the same. -/
theorem digestToString_inj {d d' : Bytes} (hd : d.length = 16) (hd' : d'.length = 16) :
    digestToString d = digestToString d' ↔ d = d' := by
  constructor
  · intro h
    refine List.ext_getElem (hd.trans hd'.symm) fun i hi hi' => ?_
    have hbyte := digestByte_eq_of_digestToString h i (by omega)
    simpa [digestByte, hi, hi'] using hbyte
  · intro h
    rw [h]

/-! ## Records -/

section Records

variable (md5 : Bytes → Bytes)

/-- The digest that `apr1_hash_password` turns into text. -/
def apr1Digest (password salt : Bytes) : Bytes :=
  (List.range 1000).foldl (apr1Round md5 password salt)
    (md5 (password ++ ascii "$apr1$" ++ salt ++
      apr1Seed password (md5 (password ++ salt ++ password)) ++ apr1Bits password))

theorem apr1HashPassword_eq (password salt : Bytes) :
    apr1HashPassword md5 password salt = digestToString (apr1Digest md5 password salt) := rfl

variable {md5}

theorem length_apr1Digest (hmd5 : ∀ bytes, (md5 bytes).length = 16) (password salt : Bytes) :
    (apr1Digest md5 password salt).length = 16 := by
  rw [apr1Digest]
  generalize List.range 1000 = rounds
  cases rounds using List.reverseRecOn with
  | nil => exact hmd5 _
  | append_singleton rounds i =>
      rw [List.foldl_append]
      exact hmd5 _

/-- The stored record of a digest. -/
def digestRecord (salt digest : Bytes) : Bytes :=
  ascii "$apr1$" ++ salt ++ ascii "$" ++ digestToString digest

/-- A password is accepted against a stored digest exactly when its own digest is that one. -/
theorem authenticate_digestRecord (hmd5 : ∀ bytes, (md5 bytes).length = 16)
    {repository : AuthenticationRepository} {user salt digest : Bytes} (hsalt : salt.length ≤ 8)
    (hdollar : 36 ∉ salt) (hdigest : digest.length = 16)
    (hentry : repository.entries[user]? = some (digestRecord salt digest)) (password : Bytes) :
    repository.authenticate md5 user password =
      .ok (decide (apr1Digest md5 password salt = digest)) := by
  have hequal : apr1Record md5 password salt = digestRecord salt digest ↔
      apr1Digest md5 password salt = digest := by
    rw [apr1Record, digestRecord, apr1HashPassword_eq, List.append_cancel_left_eq]
    exact digestToString_inj (length_apr1Digest hmd5 password salt) hdigest
  have hencrypted : encryptData md5 password (digestRecord salt digest) =
      .ok (apr1Record md5 password salt) := encryptData_record hsalt hdollar
  rw [AuthenticationRepository.authenticate, hentry]
  show (encryptData md5 password (digestRecord salt digest) >>= fun encrypted =>
    (pure (encrypted == digestRecord salt digest) : Except Exn Bool)) = _
  rw [hencrypted]
  show Except.ok (apr1Record md5 password salt == digestRecord salt digest) = _
  rw [beq_eq_decide, decide_eq_decide.mpr hequal]

/-- **The text form of a digest is faithful**: digests of sixteen bytes with the same text are the same;
the text is 22 characters of `./0-9A-Za-z`, none of which is a dollar or a colon; and so a password is
accepted exactly when its digest is the stored one. -/
theorem digestToString_faithful :
    (∀ d d' : Bytes, d.length = 16 → d'.length = 16 → digestToString d = digestToString d' → d = d') ∧
    (∀ d : Bytes, d.length = 16 → (digestToString d).length = 22 ∧
      (∀ c ∈ digestToString d, IsItoa64 c) ∧ 36 ∉ digestToString d ∧ 58 ∉ digestToString d) ∧
    ∀ md5 : Bytes → Bytes, (∀ bytes, (md5 bytes).length = 16) →
      ∀ (repository : AuthenticationRepository) (user password salt d : Bytes),
        salt.length ≤ 8 → 36 ∉ salt → d.length = 16 →
        repository.entries[user]? =
          some (ascii "$apr1$" ++ salt ++ ascii "$" ++ digestToString d) →
        repository.authenticate md5 user password =
          .ok (decide (apr1Digest md5 password salt = d)) := by
  refine ⟨fun d d' hd hd' => (digestToString_inj hd hd').mp, fun d _ => ⟨length_digestToString d,
    fun c hc => isItoa64_of_mem_digestToString hc, ?_, ?_⟩, ?_⟩
  · intro hdollar
    exact absurd (isItoa64_of_mem_digestToString hdollar) (by decide)
  · intro hcolon
    exact absurd (isItoa64_of_mem_digestToString hcolon) (by decide)
  · intro md5 hmd5 repository user password salt d hsalt hdollar hd hentry
    exact authenticate_digestRecord hmd5 hsalt hdollar hd hentry password

theorem digestToString_faithful_zeros :
    (digestToString (List.replicate 16 0)).length = 22 ∧
      AuthenticationRepository.authenticate (fun _ => List.replicate 16 0)
        ⟨(∅ : OrdMap Bytes Bytes).insert (ascii "user")
          (ascii "$apr1$" ++ ascii "salt" ++ ascii "$" ++ digestToString (List.replicate 16 0))⟩
        (ascii "user") (ascii "password") =
      .ok (decide (apr1Digest (fun _ => List.replicate 16 0) (ascii "password") (ascii "salt") =
        List.replicate 16 0)) :=
  ⟨(digestToString_faithful.2.1 _ rfl).1,
    digestToString_faithful.2.2 _ (fun _ => rfl) _ _ _ _ _ (by decide) (by decide) rfl
      (by rw [OrdMap.get_insert, if_pos rfl])⟩

end Records

end SquawkBus.Server
