import Mathlib

/-!
# Bytes

Little-endian numbers and UTF-8.

* `leNat_leBytes`, `leBytes_leNat`: numbers and byte strings of one length correspond.
* `decodeUtf8_encodeUtf8`: a text survives its encoding.
* `prefix_of_decodeUtf8`: what a piece of an encoded text decodes to is a piece of that text.
-/

namespace FluxGuard

/-- The low `n` bytes of a number, lowest first. -/
def leBytes : ℕ → ℕ → List UInt8
  | 0, _ => []
  | n + 1, v => .ofNat v :: leBytes n (v / 256)

/-- The number of little-endian bytes. -/
def leNat (bytes : List UInt8) : ℕ := bytes.foldr (fun b n => b.toNat + 256 * n) 0

@[simp] theorem length_leBytes (n v : ℕ) : (leBytes n v).length = n := by
  induction n generalizing v with
  | zero => rfl
  | succ n ih => rw [leBytes, List.length_cons, ih]

theorem take_leBytes {k n : ℕ} (h : k ≤ n) (v : ℕ) : (leBytes n v).take k = leBytes k v := by
  induction k generalizing n v with
  | zero => rfl
  | succ k ih =>
    cases n with
    | zero => omega
    | succ n => rw [leBytes, leBytes, List.take_succ_cons, ih (by omega)]

theorem leNat_cons (b : UInt8) (bytes : List UInt8) : leNat (b :: bytes) = b.toNat + 256 * leNat bytes := rfl

/-- The bytes of a number that is too large give its remainder. -/
theorem leNat_leBytes (n v : ℕ) : leNat (leBytes n v) = v % 256 ^ n := by
  induction n generalizing v with
  | zero => rw [Nat.pow_zero, Nat.mod_one]; rfl
  | succ n ih =>
    have hpow : 256 ^ (n + 1) = 256 * 256 ^ n := Nat.pow_succ'
    rw [leBytes, leNat_cons, ih, UInt8.toNat_ofNat', hpow, Nat.mod_mul]

/-- A number that fits is read back from its bytes. -/
theorem leNat_leBytes_of_lt {n v : ℕ} (h : v < 256 ^ n) : leNat (leBytes n v) = v := by
  rw [leNat_leBytes, Nat.mod_eq_of_lt h]

/-- Bytes are those of the number they give. -/
theorem leBytes_leNat (bytes : List UInt8) : leBytes bytes.length (leNat bytes) = bytes := by
  induction bytes with
  | nil => rfl
  | cons b bytes ih =>
    have hb := b.toNat_lt
    have h1 : UInt8.ofNat (b.toNat + 256 * leNat bytes) = b := by
      rw [← UInt8.toNat_inj, UInt8.toNat_ofNat']; omega
    have h2 : (b.toNat + 256 * leNat bytes) / 256 = leNat bytes := by omega
    rw [List.length_cons, leNat_cons, leBytes, h1, h2, ih]

theorem leNat_lt (bytes : List UInt8) : leNat bytes < 256 ^ bytes.length := by
  induction bytes with
  | nil => simp [leNat]
  | cons b bytes ih =>
    have hb := b.toNat_lt
    have hpow : 256 ^ (bytes.length + 1) = 256 * 256 ^ bytes.length := Nat.pow_succ'
    rw [List.length_cons, leNat_cons, hpow]
    omega

/-! ## UTF-8 -/

/-- `str.encode`, in UTF-8. -/
def encodeUtf8 (s : List Char) : List UInt8 := s.flatMap String.utf8EncodeChar

/-- Strict decoding. -/
def decodeUtf8 (bytes : List UInt8) : Option (List Char) := bytes.toByteArray.utf8Decode?.map Array.toList

theorem toByteArray_encodeUtf8 (s : List Char) : (encodeUtf8 s).toByteArray = s.utf8Encode := rfl

/-- What was encoded decodes to what it was. -/
theorem decodeUtf8_encodeUtf8 (s : List Char) : decodeUtf8 (encodeUtf8 s) = some s := by
  unfold decodeUtf8
  rw [toByteArray_encodeUtf8, List.utf8Decode?_utf8Encode]
  rfl

/-- What decodes was encoded. -/
theorem encodeUtf8_of_decodeUtf8 {bytes : List UInt8} {p : List Char} (h : decodeUtf8 bytes = some p) :
    encodeUtf8 p = bytes := by
  obtain ⟨a, ha, rfl⟩ := Option.map_eq_some_iff.1 h
  have hsome : bytes.toByteArray.utf8Decode?.isSome = true := by rw [ha]; rfl
  have hback := ByteArray.utf8Encode_get_utf8Decode? (h := hsome)
  rw [← List.toByteArray_inj, toByteArray_encodeUtf8, ← hback]
  simp only [ha, Option.get_some]

/-- A piece of an encoded text that decodes at all decodes to a piece of the text. -/
theorem prefix_of_decodeUtf8 {bytes : List UInt8} {p s : List Char} (hb : bytes <+: encodeUtf8 s)
    (h : decodeUtf8 bytes = some p) : p <+: s := by
  obtain ⟨t, ht⟩ := hb
  refine List.isPrefix_of_utf8Encode_append_eq_utf8Encode t.toByteArray ?_
  rw [← toByteArray_encodeUtf8, ← toByteArray_encodeUtf8, encodeUtf8_of_decodeUtf8 h, ← ht, List.toByteArray_append]

end FluxGuard
