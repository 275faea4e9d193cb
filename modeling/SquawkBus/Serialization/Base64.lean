import SquawkBus.Library.Base64
import Mathlib.Tactic.IntervalCases
import SquawkBus.Serialization.BasicToken

/-!
# Encoding in base64

`base64_encode`, and what it has to do with `base64_decode` and with the standard. Neither of the two
masks its accumulator: bits of all the bytes so far stay in it until they are shifted out at the top, and
a right shift may bring copies of the sign back in. The bits taken are below both, whatever has gone
before; so each group of three bytes is encoded and decoded from any accumulator alike.
-/

namespace SquawkBus.Serialization

/-! ## The encoder -/

/-- The variables of `base64_encode`: the accumulator `a`, an `int`, `b`, the number of its bits that
are to be written less six, and the text so far. -/
structure Base64Encoder where
  a : Int
  b : Int
  out : Bytes

/-- `"ABC…"[(a >> b) & 0x3F]`; the shift of an `int` is the one that rounds down. -/
def base64Char (a b : Int) : UInt8 := base64Alphabet.getD ((a >>> b.toNat) % 64).toNat 0

namespace Base64Encoder

/-- The loop `while (b >= 0)`. -/
def emit (encoder : Base64Encoder) : Base64Encoder :=
  if 0 ≤ encoder.b then
    emit { encoder with
      out := encoder.out ++ [base64Char encoder.a encoder.b]
      b := encoder.b - 6 }
  else encoder
termination_by (encoder.b + 1).toNat

/-- The loop over the bytes takes in `c`. -/
def next (encoder : Base64Encoder) (c : UInt8) : Base64Encoder :=
  emit { encoder with a := int (encoder.a * 2 ^ 8) + c.toNat, b := encoder.b + 8 }

/-- `if (b > -6)`: bits are left over. -/
def finish (encoder : Base64Encoder) : Bytes :=
  if -6 < encoder.b then
    encoder.out ++ [base64Char (int (encoder.a * 2 ^ 8)) (encoder.b + 8)]
  else encoder.out

end Base64Encoder

/-- The loop `while (out.size() % 4)`. -/
def base64Pad (out : Bytes) : Bytes :=
  if out.length % 4 = 0 then out else base64Pad (out ++ ascii "=")
termination_by (4 - out.length % 4) % 4
decreasing_by
  rw [List.length_append, show (ascii "=").length = 1 from rfl]
  omega

def base64Encode (bytes : Bytes) : Bytes :=
  base64Pad (bytes.foldl Base64Encoder.next ⟨0, -6, []⟩).finish

/-! ## What one byte adds to the text -/

namespace Base64Encoder

theorem emit_neg {a b : Int} (h : b < 0) (out : Bytes) : emit ⟨a, b, out⟩ = ⟨a, b, out⟩ := by
  rw [emit, if_neg (Int.not_le.mpr h)]

theorem emit_nonneg {a b : Int} (h : 0 ≤ b) (out : Bytes) :
    emit ⟨a, b, out⟩ = emit ⟨a, b - 6, out ++ [base64Char a b]⟩ := by
  rw [emit, if_pos h]

/-- The accumulator after the byte `c`. -/
def shifted (a : Int) (c : UInt8) : Int := int (a * 2 ^ 8) + c.toNat

theorem next_first (a : Int) (out : Bytes) (c : UInt8) :
    next ⟨a, -6, out⟩ c = ⟨shifted a c, -4, out ++ [base64Char (shifted a c) 2]⟩ := by
  show emit ⟨shifted a c, 2, out⟩ = _
  rw [emit_nonneg (by decide), emit_neg (by decide)]
  rfl

theorem next_second (a : Int) (out : Bytes) (c : UInt8) :
    next ⟨a, -4, out⟩ c = ⟨shifted a c, -2, out ++ [base64Char (shifted a c) 4]⟩ := by
  show emit ⟨shifted a c, 4, out⟩ = _
  rw [emit_nonneg (by decide), emit_neg (by decide)]
  rfl

/-- The third byte of a group gives two characters. -/
theorem next_third (a : Int) (out : Bytes) (c : UInt8) :
    next ⟨a, -2, out⟩ c =
      ⟨shifted a c, -6, out ++ [base64Char (shifted a c) 6, base64Char (shifted a c) 0]⟩ := by
  show emit ⟨shifted a c, 6, out⟩ = _
  rw [emit_nonneg (by decide), emit_nonneg (by decide), emit_neg (by decide)]
  show (⟨_, _, (out ++ [_]) ++ [_]⟩ : Base64Encoder) = _
  rw [List.append_assoc]
  rfl

/-- The bits below the eighth are those of the byte just taken in, the bits above it those of the
accumulator before, as far as it was not shifted out. -/
theorem shifted_spec (a : Int) (c : UInt8) :
    ∃ k, shifted a c = a * 2 ^ 8 + c.toNat + 2 ^ 32 * k := by
  obtain ⟨k, hk, -, -⟩ := int_spec (a * 2 ^ 8)
  refine ⟨-k, ?_⟩
  unfold shifted
  omega

end Base64Encoder

/-! ## Groups -/

theorem base64Alphabet_eq : ∀ n < 64, base64Alphabet.getD n 0 = Base64.standardSymbol n := by
  decide +kernel

/-- A character taken from the accumulator is the symbol of the six bits there. -/
theorem base64Char_eq {a b : Int} {n : Nat} (h : (a / 2 ^ b.toNat) % 64 = n) :
    base64Char a b = Base64.standardSymbol n := by
  have hn : n < 64 := by omega
  rw [base64Char, Int.shiftRight_eq_div_pow, Nat.cast_pow, Nat.cast_ofNat, h, Int.toNat_natCast]
  exact base64Alphabet_eq n hn

section Groups

variable (a : Int) (x y z : UInt8)

open Base64Encoder

/-- The characters of the first byte, of the second and of the third, from any accumulator. -/
theorem base64Char_first : base64Char (shifted a x) 2 = Base64.standardSymbol (x.toNat / 4) := by
  obtain ⟨k, hk⟩ := shifted_spec a x
  have hx := x.toNat_lt
  apply base64Char_eq
  rw [hk]
  show (a * 2 ^ 8 + x.toNat + 2 ^ 32 * k) / 2 ^ 2 % 64 = _
  omega

theorem base64Char_second : base64Char (shifted (shifted a x) y) 4 =
    Base64.standardSymbol (x.toNat % 4 * 16 + y.toNat / 16) := by
  obtain ⟨k, hk⟩ := shifted_spec a x
  obtain ⟨l, hl⟩ := shifted_spec (shifted a x) y
  have hx := x.toNat_lt
  have hy := y.toNat_lt
  apply base64Char_eq
  rw [hl, hk]
  show ((a * 2 ^ 8 + x.toNat + 2 ^ 32 * k) * 2 ^ 8 + y.toNat + 2 ^ 32 * l) / 2 ^ 4 % 64 = _
  omega

theorem base64Char_third : base64Char (shifted (shifted a y) z) 6 =
    Base64.standardSymbol (y.toNat % 16 * 4 + z.toNat / 64) := by
  obtain ⟨k, hk⟩ := shifted_spec a y
  obtain ⟨l, hl⟩ := shifted_spec (shifted a y) z
  have hy := y.toNat_lt
  have hz := z.toNat_lt
  apply base64Char_eq
  rw [hl, hk]
  show ((a * 2 ^ 8 + y.toNat + 2 ^ 32 * k) * 2 ^ 8 + z.toNat + 2 ^ 32 * l) / 2 ^ 6 % 64 = _
  omega

theorem base64Char_fourth : base64Char (shifted a z) 0 = Base64.standardSymbol (z.toNat % 64) := by
  obtain ⟨k, hk⟩ := shifted_spec a z
  have hz := z.toNat_lt
  apply base64Char_eq
  rw [hk]
  show (a * 2 ^ 8 + z.toNat + 2 ^ 32 * k) / 2 ^ 0 % 64 = _
  omega

end Groups

theorem base64Pad_of_whole {out : Bytes} (h : out.length % 4 = 0) : base64Pad out = out := by
  rw [base64Pad, if_pos h]

theorem base64Pad_of_part {out : Bytes} (h : out.length % 4 ≠ 0) :
    base64Pad out = base64Pad (out ++ ascii "=") := by
  rw [base64Pad, if_neg h]

theorem base64Pad_three {out : Bytes} (h : out.length % 4 = 3) : base64Pad out = out ++ [61] := by
  rw [base64Pad_of_part (by omega)]
  apply base64Pad_of_whole
  rw [List.length_append]
  show (out.length + 1) % 4 = 0
  omega

theorem base64Pad_two {out : Bytes} (h : out.length % 4 = 2) : base64Pad out = out ++ [61, 61] := by
  have hthree : (out ++ ascii "=").length % 4 = 3 := by
    rw [List.length_append]
    show (out.length + 1) % 4 = 3
    omega
  rw [base64Pad_of_part (by omega), base64Pad_three hthree, List.append_assoc]
  rfl

open Base64Encoder in
/-- Bits left over are written as if a zero byte followed. -/
theorem finish_eq {a b : Int} (h : -6 < b) (out : Bytes) :
    finish ⟨a, b, out⟩ = out ++ [base64Char (shifted a 0) (b + 8)] := by
  have hzero : shifted a 0 = int (a * 2 ^ 8) := Int.add_zero _
  rw [finish, if_pos h, hzero]

/-- **Encoding, group by group**, from any accumulator and behind any whole groups. -/
theorem base64Pad_finish (bytes : Bytes) (a : Int) (out : Bytes) (hout : out.length % 4 = 0) :
    base64Pad (bytes.foldl Base64Encoder.next ⟨a, -6, out⟩).finish =
      out ++ Base64.encode Base64.standardSymbol Base64.standardPad bytes := by
  induction bytes using Base64.group_induction generalizing a out with
  | nil =>
      show base64Pad out = out ++ []
      rw [base64Pad_of_whole hout, List.append_nil]
  | one x =>
      rw [List.foldl_cons, List.foldl_nil, Base64Encoder.next_first, finish_eq (by decide),
        base64Char_first, Base64.encode_one]
      show base64Pad ((out ++ [_]) ++ [base64Char _ 4]) = _
      rw [base64Char_second, base64Pad_two]
      · simp [Base64.standardPad]
      · simp only [List.length_append, List.length_cons, List.length_nil]
        omega
  | two x y =>
      rw [List.foldl_cons, List.foldl_cons, List.foldl_nil, Base64Encoder.next_first,
        Base64Encoder.next_second, finish_eq (by decide), base64Char_first, base64Char_second,
        Base64.encode_two]
      show base64Pad (((out ++ [_]) ++ [_]) ++ [base64Char _ 6]) = _
      rw [base64Char_third, base64Pad_three]
      · simp [Base64.standardPad]
      · simp only [List.length_append, List.length_cons, List.length_nil]
        omega
  | group x y z bytes ih =>
      rw [List.foldl_cons, List.foldl_cons, List.foldl_cons, Base64Encoder.next_first,
        Base64Encoder.next_second, Base64Encoder.next_third, ih, Base64.encode_group,
        base64Char_first, base64Char_second, base64Char_third, base64Char_fourth]
      · simp
      · simp only [List.length_append, List.length_cons, List.length_nil]
        omega

/-- **`base64_encode` is the standard's encoding.** -/
theorem base64Encode_eq (bytes : Bytes) :
    base64Encode bytes = Base64.encode Base64.standardSymbol Base64.standardPad bytes :=
  base64Pad_finish bytes 0 [] rfl

/-! ## Decoding -/

theorem base64Value_standardSymbol :
    ∀ n < 64, base64Value (Base64.standardSymbol n) = some (UInt32.ofNat n) := by
  decide +kernel

theorem base64Value_standardPad : base64Value Base64.standardPad = none := by decide +kernel

/-- The decoder's accumulator after the sextet `n`. -/
def unshifted (a : UInt32) (n : Nat) : UInt32 := (a <<< 6) + UInt32.ofNat n

theorem toNat_unshifted (a : UInt32) (n : Nat) :
    (unshifted a n).toNat = (a.toNat * 64 + n) % 2 ^ 32 := by
  simp [unshifted, UInt32.toNat_shiftLeft, Nat.shiftLeft_eq]

/-- A symbol that does not complete a byte. -/
theorem base64DecodeLoop_short {n : Nat} (hn : n < 64) (a : UInt32) {b : Int} (hb : b + 6 < 0)
    (out cs : Bytes) :
    base64DecodeLoop a b out (Base64.standardSymbol n :: cs) =
      base64DecodeLoop (unshifted a n) (b + 6) out cs := by
  rw [base64DecodeLoop, base64Value_standardSymbol n hn]
  exact if_neg (Int.not_le.mpr hb)

/-- A symbol that completes a byte. -/
theorem base64DecodeLoop_byte {n : Nat} (hn : n < 64) (a : UInt32) {b : Int} (hb : 0 ≤ b + 6)
    (out cs : Bytes) :
    base64DecodeLoop a b out (Base64.standardSymbol n :: cs) =
      base64DecodeLoop (unshifted a n) (b + 6 - 8)
        (out ++ [(unshifted a n >>> UInt32.ofInt (b + 6)).toUInt8]) cs := by
  rw [base64DecodeLoop, base64Value_standardSymbol n hn]
  exact if_pos hb

/-- Padding ends the text. -/
theorem base64DecodeLoop_pad (a : UInt32) (b : Int) (out cs : Bytes) :
    base64DecodeLoop a b out (Base64.standardPad :: cs) = out := by
  rw [base64DecodeLoop, base64Value_standardPad]

/-- The bytes that the second symbol of a group completes, the third and the fourth. -/
theorem byte_second (a : UInt32) (x : UInt8) {r : Nat} (hr : r < 16) :
    (unshifted (unshifted a (x.toNat / 4)) (x.toNat % 4 * 16 + r) >>> 4).toUInt8 = x := by
  apply UInt8.toNat_inj.mp
  have hx := x.toNat_lt
  simp only [UInt32.toNat_toUInt8, UInt32.toNat_shiftRight, toNat_unshifted,
    Nat.shiftRight_eq_div_pow]
  show ((a.toNat * 64 + x.toNat / 4) % 2 ^ 32 * 64 + (x.toNat % 4 * 16 + r)) % 2 ^ 32 / 2 ^ 4 %
    2 ^ 8 = x.toNat
  omega

theorem byte_third (a : UInt32) (y : UInt8) (q : Nat) {r : Nat} (hr : r < 4) :
    (unshifted (unshifted a (q * 16 + y.toNat / 16)) (y.toNat % 16 * 4 + r) >>> 2).toUInt8 = y := by
  apply UInt8.toNat_inj.mp
  have hy := y.toNat_lt
  simp only [UInt32.toNat_toUInt8, UInt32.toNat_shiftRight, toNat_unshifted,
    Nat.shiftRight_eq_div_pow]
  show ((a.toNat * 64 + (q * 16 + y.toNat / 16)) % 2 ^ 32 * 64 + (y.toNat % 16 * 4 + r)) % 2 ^ 32 /
    2 ^ 2 % 2 ^ 8 = y.toNat
  omega

theorem byte_fourth (a : UInt32) (z : UInt8) (q : Nat) :
    (unshifted (unshifted a (q * 4 + z.toNat / 64)) (z.toNat % 64) >>> 0).toUInt8 = z := by
  apply UInt8.toNat_inj.mp
  have hz := z.toNat_lt
  simp only [UInt32.toNat_toUInt8, UInt32.toNat_shiftRight, toNat_unshifted,
    Nat.shiftRight_eq_div_pow]
  show ((a.toNat * 64 + (q * 4 + z.toNat / 64)) % 2 ^ 32 * 64 + z.toNat % 64) % 2 ^ 32 / 2 ^ 0 %
    2 ^ 8 = z.toNat
  omega

/-- The first two symbols of a group give its first byte. -/
theorem base64DecodeLoop_first (a : UInt32) (x : UInt8) {r : Nat} (hr : r < 16) (out cs : Bytes) :
    base64DecodeLoop a (-8) out (Base64.standardSymbol (x.toNat / 4) ::
        Base64.standardSymbol (x.toNat % 4 * 16 + r) :: cs) =
      base64DecodeLoop (unshifted (unshifted a (x.toNat / 4)) (x.toNat % 4 * 16 + r)) (-4)
        (out ++ [x]) cs := by
  have hx := x.toNat_lt
  rw [base64DecodeLoop_short (by omega) a (by decide),
    base64DecodeLoop_byte (by omega) _ (by decide)]
  show base64DecodeLoop _ (-4) (out ++ [((_ : UInt32) >>> 4).toUInt8]) cs = _
  rw [byte_second a x hr]

/-- The third symbol of a group gives its second byte. -/
theorem base64DecodeLoop_second (a : UInt32) (y : UInt8) {q r : Nat} (hr : r < 4)
    (out cs : Bytes) :
    base64DecodeLoop (unshifted a (q * 16 + y.toNat / 16)) (-4) out
        (Base64.standardSymbol (y.toNat % 16 * 4 + r) :: cs) =
      base64DecodeLoop (unshifted (unshifted a (q * 16 + y.toNat / 16)) (y.toNat % 16 * 4 + r)) (-6)
        (out ++ [y]) cs := by
  rw [base64DecodeLoop_byte (by omega) _ (by decide)]
  show base64DecodeLoop _ (-6) (out ++ [((_ : UInt32) >>> 2).toUInt8]) cs = _
  rw [byte_third a y q hr]

/-- The fourth symbol of a group gives its third byte. -/
theorem base64DecodeLoop_third (a : UInt32) (z : UInt8) {q : Nat} (out cs : Bytes) :
    base64DecodeLoop (unshifted a (q * 4 + z.toNat / 64)) (-6) out
        (Base64.standardSymbol (z.toNat % 64) :: cs) =
      base64DecodeLoop (unshifted (unshifted a (q * 4 + z.toNat / 64)) (z.toNat % 64)) (-8)
        (out ++ [z]) cs := by
  rw [base64DecodeLoop_byte (by omega) _ (by decide)]
  show base64DecodeLoop _ (-8) (out ++ [((_ : UInt32) >>> 0).toUInt8]) cs = _
  rw [byte_fourth a z q]

/-- The accumulator of the source is an `int`. Its right shift brings in copies of the sign, but not
among the eight bits that are taken. -/
theorem toNat_shiftRight_int (a : UInt32) {b : Nat} (hb : b < 8) :
    ((int a.toNat >>> b) % 256).toNat = (a >>> UInt32.ofNat b).toUInt8.toNat := by
  have ha := a.toNat_lt
  obtain ⟨k, hk, -, -⟩ := int_spec a.toNat
  have hshift : (UInt32.ofNat b).toNat % 32 = b := by
    rw [UInt32.toNat_ofNat']
    omega
  rw [UInt32.toNat_toUInt8, UInt32.toNat_shiftRight, hshift, Nat.shiftRight_eq_div_pow,
    Int.shiftRight_eq_div_pow]
  interval_cases b <;> omega

/-- **Decoding, group by group**, from any accumulator. -/
theorem base64DecodeLoop_encode (bytes : Bytes) (a : UInt32) (out : Bytes) :
    base64DecodeLoop a (-8) out (Base64.encode Base64.standardSymbol Base64.standardPad bytes) =
      out ++ bytes := by
  induction bytes using Base64.group_induction generalizing a out with
  | nil => exact (List.append_nil out).symm
  | one x =>
      rw [Base64.encode_one, ← Nat.add_zero (x.toNat % 4 * 16),
        base64DecodeLoop_first a x (by decide), base64DecodeLoop_pad]
  | two x y =>
      have hy := y.toNat_lt
      rw [Base64.encode_two, ← Nat.add_zero (y.toNat % 16 * 4),
        base64DecodeLoop_first a x (by omega), base64DecodeLoop_second _ y (by decide),
        base64DecodeLoop_pad, List.append_assoc]
      rfl
  | group x y z bytes ih =>
      have hy := y.toNat_lt
      have hz := z.toNat_lt
      rw [Base64.encode_group, base64DecodeLoop_first a x (by omega),
        base64DecodeLoop_second _ y (by omega), base64DecodeLoop_third, ih]
      simp

/-- **Base64 is the standard's**, for byte lists of any length: encoding gives the padded text of the
groups of three bytes, and decoding that text gives the bytes back. -/
theorem base64_standard (bytes : Bytes) :
    base64Encode bytes = Base64.encode Base64.standardSymbol Base64.standardPad bytes ∧
      base64Decode (base64Encode bytes) = bytes := by
  refine ⟨base64Encode_eq bytes, ?_⟩
  rw [base64Encode_eq]
  exact base64DecodeLoop_encode bytes 0 []

/-! ## Basic tokens -/

def encodeBasicToken (username password : Bytes) : Bytes :=
  base64Encode (username ++ ascii ":" ++ password)

theorem base64Decode_encodeBasicToken (username password : Bytes) :
    base64Decode (encodeBasicToken username password) = username ++ 58 :: password := by
  rw [encodeBasicToken, base64Encode_eq]
  show base64DecodeLoop 0 (-8) [] _ = _
  rw [base64DecodeLoop_encode, List.append_assoc]
  rfl

/-- **Credentials survive the token**: what a client encodes, the server decodes, if there is no colon
in the user name; and no two pairs have the same token unless they are the same once joined. -/
theorem basicToken_credentials :
    (∀ username password : Bytes, 58 ∉ username →
      decodeBasicToken (encodeBasicToken username password) = .ok (username, password)) ∧
    ∀ username password username' password' : Bytes,
      encodeBasicToken username password = encodeBasicToken username' password' →
        username ++ ascii ":" ++ password = username' ++ ascii ":" ++ password' := by
  constructor
  · intro username password hcolon
    rw [decodeBasicToken_eq_ok_iff]
    exact ⟨base64Decode_encodeBasicToken username password, hcolon⟩
  · intro username password username' password' htoken
    have hdecoded := congrArg base64Decode htoken
    rw [base64Decode_encodeBasicToken, base64Decode_encodeBasicToken] at hdecoded
    rw [List.append_assoc, List.append_assoc]
    exact hdecoded

theorem basicToken_credentials_colons :
    decodeBasicToken (encodeBasicToken (ascii "") (ascii ":a:")) = .ok (ascii "", ascii ":a:") ∧
      (encodeBasicToken (ascii "a:b") (ascii "c") = encodeBasicToken (ascii "a") (ascii "b:c") →
        ascii "a:b" ++ ascii ":" ++ ascii "c" = ascii "a" ++ ascii ":" ++ ascii "b:c") :=
  ⟨basicToken_credentials.1 _ _ (by decide), basicToken_credentials.2 _ _ _ _⟩

end SquawkBus.Serialization
