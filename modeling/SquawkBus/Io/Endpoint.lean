import Mathlib.Tactic.TFAE
import SquawkBus.Library.Split
import SquawkBus.Server.SpecLine

/-!
# Endpoints

`Endpoint` is a host and a port, written `host:port`. Which endpoints can be read is decided by what is
written for them: those are read back that are read from any text at all (`roundTrip`).
-/

namespace SquawkBus.Io

open SquawkBus.Server (stoi decimalValue isDigit isSpace Decimal)

/-! ## Endpoints -/

structure Endpoint where
  host : Bytes
  port : UInt16
  deriving DecidableEq

namespace Endpoint

/-- `Endpoint()`. -/
def blank : Endpoint := ⟨[], 0⟩

/-- `empty`. -/
def isEmpty (endpoint : Endpoint) : Bool := endpoint.host.isEmpty && endpoint.port == 0

/-- `operator std::string`. -/
def text (endpoint : Endpoint) : Bytes := endpoint.host ++ 58 :: ascii (toString endpoint.port.toNat)

def parse (text : Bytes) : Except Exn Endpoint :=
  match text.idxOf? 58 with
  | some colon => do
      let port ← stoi (text.drop (colon + 1))
      if port ≤ 0 ∨ 65535 < port then .error (.runtimeError "invalid port")
      else .ok ⟨text.take colon, UInt16.ofNat port.toInt.toNat⟩
  | none => .error (.runtimeError "invalid endpoint")

theorem isEmpty_iff {endpoint : Endpoint} : endpoint.isEmpty = true ↔ endpoint = .blank := by
  cases endpoint
  simp [isEmpty, blank]

/-! ## Numbers in decimal -/

theorem ascii_toString (n : Nat) :
    ascii (toString n) = (Nat.toDigits 10 n).map fun c => c.toNat.toUInt8 := by
  rw [ascii, Nat.toString_eq_repr, Nat.toList_repr]

/-- The byte of a digit. -/
theorem toNat_of_isDigit {c : Char} (h : c.isDigit) :
    c.toNat.toUInt8.toNat = c.toNat ∧ 48 ≤ c.toNat ∧ c.toNat ≤ 57 := by
  simp only [Char.isDigit, Bool.and_eq_true, decide_eq_true_eq, ge_iff_le, UInt32.le_iff_toNat_le] at h
  obtain ⟨hlo, hhi⟩ : 48 ≤ c.toNat ∧ c.toNat ≤ 57 := h
  refine ⟨?_, hlo, hhi⟩
  rw [Nat.toUInt8_eq, UInt8.toNat_ofNat', Nat.mod_eq_of_lt]
  omega

theorem isDigit_of_mem_toString {n : Nat} : ∀ c ∈ ascii (toString n), isDigit c := by
  intro c hc
  rw [ascii_toString] at hc
  obtain ⟨d, hd, rfl⟩ := List.mem_map.mp hc
  obtain ⟨hvalue, hlo, hhi⟩ := toNat_of_isDigit
    (Nat.isDigit_of_mem_toDigits (by decide) (by decide) hd)
  simp only [isDigit, Bool.and_eq_true, decide_eq_true_eq, UInt8.le_iff_toNat_le, hvalue]
  exact ⟨hlo, hhi⟩

theorem decimalValue_toString (n : Nat) : decimalValue (ascii (toString n)) = n := by
  have hfold : ∀ (cs : List Char) (init : Nat), (∀ c ∈ cs, c.isDigit) →
      (cs.map fun c => c.toNat.toUInt8).foldl (fun n c => 10 * n + (c.toNat - 48)) init =
        Nat.ofDigitChars 10 cs init := by
    intro cs
    induction cs with
    | nil =>
        intro init _
        rfl
    | cons c cs ih =>
        intro init hdigits
        obtain ⟨hvalue, -⟩ := toNat_of_isDigit (hdigits c List.mem_cons_self)
        rw [List.map_cons, List.foldl_cons, Nat.ofDigitChars_cons, hvalue]
        exact ih _ fun d hd => hdigits d (List.mem_cons_of_mem _ hd)
  rw [decimalValue, ascii_toString, hfold _ _ fun c hc =>
    Nat.isDigit_of_mem_toDigits (by decide) (by decide) hc]
  exact Nat.ofDigitChars_ten_toDigits

theorem decimal_toString (n : Nat) : Decimal (ascii (toString n)) n := by
  have hne : ascii (toString n) ≠ [] := by
    rw [ascii_toString]
    simp
  have hdecimal := Decimal.natural _ hne isDigit_of_mem_toString
  rwa [decimalValue_toString] at hdecimal

/-- **A number is read back from its digits.** -/
theorem stoi_toString {n : Nat} (h : n < 2 ^ 31) :
    stoi (ascii (toString n)) = .ok (Int32.ofNat n) :=
  (decimal_toString n).stoi_eq (by omega) (by omega)

/-! ## Reading an endpoint -/

theorem inRange_iff (port : Int32) :
    ¬ (port ≤ 0 ∨ 65535 < port) ↔ 0 < port.toInt ∧ port.toInt < 2 ^ 16 := by
  have hzero : (0 : Int32).toInt = 0 := rfl
  have hmax : (65535 : Int32).toInt = 65535 := rfl
  rw [Int32.le_iff_toInt_le, Int32.lt_iff_toInt_lt, hzero, hmax]
  omega

/-- A port in range survives being made narrower. -/
theorem ofNat_toNat_of_inRange {port : Int32} (hpos : 0 < port.toInt) (hlt : port.toInt < 2 ^ 16) :
    UInt16.ofNat port.toInt.toNat ≠ 0 ∧
      Int32.ofNat (UInt16.ofNat port.toInt.toNat).toNat = port := by
  have hvalue : (UInt16.ofNat port.toInt.toNat).toNat = port.toInt.toNat :=
    UInt16.toNat_ofNat_of_lt' (show port.toInt.toNat < 2 ^ 16 by omega)
  refine ⟨fun hzero => ?_, ?_⟩
  · rw [hzero] at hvalue
    have : (0 : UInt16).toNat = 0 := rfl
    omega
  · rw [← Int32.toInt_inj, hvalue, Int32.toInt_ofNat_of_lt (by omega)]
    omega

/-- What is read: the host up to the first colon, and a port behind it. -/
theorem parse_eq_ok_iff {text : Bytes} {endpoint : Endpoint} :
    parse text = .ok endpoint ↔ ∃ port, text = endpoint.host ++ 58 :: port ∧ 58 ∉ endpoint.host ∧
      endpoint.port ≠ 0 ∧ stoi port = .ok (Int32.ofNat endpoint.port.toNat) := by
  constructor
  · intro h
    unfold parse at h
    split at h
    · next colon hcolon =>
      obtain ⟨htext, hhost⟩ := List.append_cons_of_idxOf? hcolon
      simp only [bind, Except.bind] at h
      split at h
      · cases h
      · next port hport =>
        split at h
        · cases h
        · next hrange =>
          obtain rfl := Except.ok.inj h
          obtain ⟨hpos, hlt⟩ := (inRange_iff port).mp hrange
          obtain ⟨hne, hback⟩ := ofNat_toNat_of_inRange hpos hlt
          exact ⟨_, htext, hhost, hne, by rw [hport, hback]⟩
    · cases h
  · rintro ⟨port, rfl, hhost, hne, hport⟩
    have hdrop : (endpoint.host ++ 58 :: port).drop (endpoint.host.length + 1) = port := by simp
    have hlt := endpoint.port.toNat_lt
    have hpos : endpoint.port.toNat ≠ 0 := fun hzero => hne (UInt16.toNat_inj.mp hzero)
    have hvalue : (Int32.ofNat endpoint.port.toNat).toInt = endpoint.port.toNat :=
      Int32.toInt_ofNat_of_lt (by omega)
    have hrange := (inRange_iff (Int32.ofNat endpoint.port.toNat)).mpr (by omega)
    unfold parse
    rw [List.idxOf?_append_cons hhost]
    simp only [hdrop, hport, bind, Except.bind, hrange, if_false, hvalue, Int.toNat_natCast,
      UInt16.ofNat_toNat, List.take_left]

/-! ## The round trip -/

/-- **Endpoints are read back**: those are that can be read at all, which are those whose host has no
colon and whose port is not zero. -/
theorem roundTrip (endpoint : Endpoint) :
    [parse endpoint.text = .ok endpoint, ∃ text, parse text = .ok endpoint,
      58 ∉ endpoint.host ∧ endpoint.port ≠ 0].TFAE := by
  tfae_have 1 → 2
  | h => ⟨_, h⟩
  tfae_have 2 → 3 := by
    rintro ⟨text, h⟩
    obtain ⟨-, -, hhost, hport, -⟩ := parse_eq_ok_iff.mp h
    exact ⟨hhost, hport⟩
  tfae_have 3 → 1 := by
    rintro ⟨hhost, hport⟩
    have hlt := endpoint.port.toNat_lt
    exact parse_eq_ok_iff.mpr ⟨_, rfl, hhost, hport, stoi_toString (by omega)⟩
  tfae_finish

end Endpoint

end SquawkBus.Io
