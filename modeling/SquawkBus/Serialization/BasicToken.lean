import SquawkBus.Basic
import SquawkBus.Library.Split

/-!
# Basic tokens

`base64_decode` and `decode_basic_token`: the credentials of an authentication request.
-/

namespace SquawkBus.Serialization

/-! ## Decoding -/

def base64Alphabet : Bytes :=
  ascii "ABCDEFGHIJKLMNOPQRSTUVWXYZabcdefghijklmnopqrstuvwxyz0123456789+/"

/-- The table `T`, with `none` for `-1`. -/
def base64Value (c : UInt8) : Option UInt32 := (base64Alphabet.idxOf? c).map UInt32.ofNat

/-- The loop of `base64_decode` with its accumulator `a` of 32 bits, shifted left without masking,
and `b`, the number of bits that have arrived beyond the eight of the next byte. -/
def base64DecodeLoop (a : UInt32) (b : Int) (out : Bytes) : Bytes → Bytes
  | [] => out
  | c :: cs =>
      match base64Value c with
      | none => out
      | some value =>
          let a := (a <<< 6) + value
          let b := b + 6
          if 0 ≤ b then base64DecodeLoop a (b - 8) (out ++ [(a >>> UInt32.ofInt b).toUInt8]) cs
          else base64DecodeLoop a b out cs

def base64Decode (s : Bytes) : Bytes := base64DecodeLoop 0 (-8) [] s

/-! ## Tokens -/

def decodeBasicToken (token : Bytes) : Except Exn (Bytes × Bytes) :=
  let s := base64Decode token
  match s.idxOf? 58 with
  | none => .error (.runtimeError "token has no ':' separator")
  | some i => .ok (s.take i, s.drop (i + 1))

/-! ## What comes of a token -/

theorem length_base64DecodeLoop_le (a : UInt32) (b : Int) (out s : Bytes) :
    (base64DecodeLoop a b out s).length ≤ out.length + s.length := by
  induction s generalizing a b out with
  | nil => exact Nat.le_refl _
  | cons c cs ih =>
      unfold base64DecodeLoop
      split
      · exact Nat.le_add_right _ _
      · next value _ =>
        simp only
        split
        · refine Nat.le_trans (ih _ _ _) ?_
          simp only [List.length_append, List.length_cons, List.length_nil]
          omega
        · refine Nat.le_trans (ih _ _ _) ?_
          rw [List.length_cons]
          omega

/-- A token is no shorter than the user name in it. -/
theorem length_user_le {token user password : Bytes}
    (h : decodeBasicToken token = .ok (user, password)) : user.length ≤ token.length := by
  unfold decodeBasicToken at h
  simp only at h
  split at h
  · cases h
  · next i _ =>
    obtain ⟨rfl, -⟩ := Prod.mk.inj (Except.ok.inj h)
    have hdecode := length_base64DecodeLoop_le 0 (-8) [] token
    rw [List.length_take]
    refine Nat.le_trans (Nat.min_le_right _ _) ?_
    simpa [base64Decode] using hdecode

/-- **What is in a token**: the user name up to the first colon, and the password behind it. -/
theorem decodeBasicToken_eq_ok_iff {token user password : Bytes} :
    decodeBasicToken token = .ok (user, password) ↔
      base64Decode token = user ++ 58 :: password ∧ 58 ∉ user := by
  unfold decodeBasicToken
  simp only
  constructor
  · intro h
    split at h
    · cases h
    · next i hi =>
      obtain ⟨rfl, rfl⟩ := Prod.mk.inj (Except.ok.inj h)
      exact List.append_cons_of_idxOf? hi
  · rintro ⟨htoken, huser⟩
    rw [htoken, List.idxOf?_append_cons huser]
    simp

end SquawkBus.Serialization
