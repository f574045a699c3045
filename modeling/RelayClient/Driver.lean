import RelayClient.Protocol
import Mathlib.Data.String.Basic

/-!
# The driver's address of a public key

`address` in the driver crate: the address of an uncompressed public key (65 bytes, a leading `0x04`) is `0x`
followed by the hex digits of the last 20 bytes of the Keccak-256 digest of the key without its first byte.
Keccak-256 is a parameter: any hash with 32-byte digests.

* `address_format`: the empty key panics on `&public_key[1..]`, and every other key gets `0x` followed by exactly
  40 lowercase hex digits;
* `address_eq_iff`: two non-empty keys get the same address exactly when their digests end in the same 20
  bytes, since `hex::encode` loses nothing.
-/

namespace RelayClient

/-- `sha3::Keccak256::digest`, as a parameter: a hash with 32-byte digests. -/
structure Keccak256 where
  digest : Bytes → Bytes
  length_digest : ∀ b, (digest b).length = 32

/-- A stand-in with 32-byte digests for concrete runs: the input padded with zeros or cut to 32 bytes (no hash). -/
def Keccak256.reference : Keccak256 := ⟨fun b => (b ++ List.replicate 32 0).take 32, fun b => by simp⟩

/-- The message of the panic of `&buf[start..]` past the end of `buf`. -/
def sliceStartPanic (start length : Nat) : String :=
  "range start index " ++ toString start ++ " out of range for slice of length " ++ toString length

/-- `address(public_key)`: drop the leading `0x04`, hash the rest, keep the last 20 bytes of the digest and write
them in hex behind `0x`; `&public_key[1..]` panics on an empty key. -/
def address (K : Keccak256) (publicKey : Bytes) : Except String String :=
  if publicKey.length < 1 then .error (sliceStartPanic 1 publicKey.length)
  else .ok ("0x" ++ hexEncode ((K.digest (publicKey.drop 1)).drop 12))

/-! ### `hex::encode` -/

/-- The two digits `hex::encode` writes for a byte, high half first. -/
def hexPair (b : UInt8) : List Char := [Nat.digitChar (b.toNat / 16), Nat.digitChar (b.toNat % 16)]

/-- A lowercase hex digit. -/
def IsHexDigit (c : Char) : Prop := c.isDigit ∨ ('a' ≤ c ∧ c ≤ 'f')

instance : DecidablePred IsHexDigit := fun _ => instDecidableOr

theorem data_hexEncode (bytes : Bytes) : (hexEncode bytes).data = bytes.flatMap hexPair := by
  simp [hexEncode, List.flatMap, Function.comp_def]
  rfl

private theorem length_hexPair (b : UInt8) : (hexPair b).length = 2 := rfl

/-- The sixteen digits are distinct. -/
private theorem digitChar_inj {m n : Nat} (hm : m < 16) (hn : n < 16) (h : Nat.digitChar m = Nat.digitChar n) :
    m = n := by
  have key : ∀ m < 16, ∀ n < 16, Nat.digitChar m = Nat.digitChar n → m = n := by decide
  exact key m hm n hn h

private theorem hexPair_inj {a b : UInt8} (h : hexPair a = hexPair b) : a = b := by
  have ha := a.toNat_lt_size
  have hb := b.toNat_lt_size
  simp only [UInt8.size] at ha hb
  simp only [hexPair, List.cons.injEq, and_true] at h
  have hd := digitChar_inj (by omega) (by omega) h.1
  have hm := digitChar_inj (Nat.mod_lt _ (by decide)) (Nat.mod_lt _ (by decide)) h.2
  exact UInt8.eq_of_val_eq (Fin.ext (show a.toNat = b.toNat by omega))

private theorem hexPair_hexDigit (b : UInt8) : ∀ c ∈ hexPair b, IsHexDigit c := by
  have key : ∀ n < 16, IsHexDigit (Nat.digitChar n) := by decide
  have hb := b.toNat_lt_size
  simp only [UInt8.size] at hb
  simp only [hexPair, List.mem_cons, List.mem_singleton, List.not_mem_nil, or_false]
  rintro c (rfl | rfl)
  · exact key _ (by omega)
  · exact key _ (Nat.mod_lt _ (by decide))

/-- Two digits per byte. -/
theorem length_hexEncode (bytes : Bytes) : (hexEncode bytes).length = 2 * bytes.length := by
  induction bytes with
  | nil => rfl
  | cons b bs ih =>
    simp only [String.length, data_hexEncode, List.flatMap_cons, List.length_append, length_hexPair,
      List.length_cons] at ih ⊢
    omega

/-- `hex::encode` loses nothing: the digits determine the bytes. -/
theorem hexEncode_inj {xs ys : Bytes} (h : hexEncode xs = hexEncode ys) : xs = ys := by
  have hd : xs.flatMap hexPair = ys.flatMap hexPair := by rw [← data_hexEncode, ← data_hexEncode, h]
  induction xs generalizing ys with
  | nil => cases ys <;> simp_all [hexPair]
  | cons x xs ih =>
    cases ys with
    | nil => simp [hexPair] at hd
    | cons y ys =>
      simp only [List.flatMap_cons] at hd
      obtain ⟨h₁, h₂⟩ := List.append_inj hd (by rfl)
      rw [hexPair_inj h₁, ih (String.ext (by rw [data_hexEncode, data_hexEncode, h₂])) h₂]

/-! ### `address` -/

/-- The empty key panics on `&public_key[1..]`; every other key gets `0x` followed by exactly 40 lowercase hex
digits. -/
theorem address_format (K : Keccak256) :
    address K [] = .error "range start index 1 out of range for slice of length 0" ∧
      ∀ publicKey : Bytes, publicKey ≠ [] → ∃ ds : List Char,
        address K publicKey = .ok ⟨'0' :: 'x' :: ds⟩ ∧ ds.length = 40 ∧ ∀ c ∈ ds, IsHexDigit c := by
  refine ⟨rfl, fun publicKey h => ?_⟩
  have hl : ¬ publicKey.length < 1 := by simpa [Nat.lt_one_iff] using h
  refine ⟨(hexEncode ((K.digest (publicKey.drop 1)).drop 12)).data, ?_, ?_, ?_⟩
  · simp [address, hl]
    rfl
  · have := length_hexEncode ((K.digest (publicKey.drop 1)).drop 12)
    simp only [String.length, List.length_drop, K.length_digest] at this
    exact this
  · intro c hc
    rw [data_hexEncode, List.mem_flatMap] at hc
    obtain ⟨b, -, hb⟩ := hc
    exact hexPair_hexDigit b c hb

theorem address_format_reference :
    address Keccak256.reference [] = .error "range start index 1 out of range for slice of length 0" ∧
      [4, 7] ≠ ([] : Bytes) ∧ ∃ ds : List Char, address Keccak256.reference [4, 7] = .ok ⟨'0' :: 'x' :: ds⟩ ∧
        ds.length = 40 ∧ ∀ c ∈ ds, IsHexDigit c :=
  ⟨(address_format Keccak256.reference).1, by decide, (address_format Keccak256.reference).2 [4, 7] (by decide)⟩

/-- Two non-empty keys get the same address exactly when their digests end in the same 20 bytes. -/
theorem address_eq_iff (K : Keccak256) {k k' : Bytes} (h : k ≠ []) (h' : k' ≠ []) :
    address K k = address K k' ↔ (K.digest (k.drop 1)).drop 12 = (K.digest (k'.drop 1)).drop 12 := by
  have hl : ¬ k.length < 1 := by simpa [Nat.lt_one_iff] using h
  have hl' : ¬ k'.length < 1 := by simpa [Nat.lt_one_iff] using h'
  simp only [address, hl, hl', if_false, Except.ok.injEq]
  constructor
  · intro he
    exact hexEncode_inj (String.ext (by simpa using congrArg String.data he))
  · intro he
    rw [he]

theorem address_eq_iff_reference : [4, 7] ≠ ([] : Bytes) ∧ [4, 8] ≠ ([] : Bytes) ∧
    (address Keccak256.reference [4, 7] = address Keccak256.reference [4, 8] ↔
      (Keccak256.reference.digest [7]).drop 12 = (Keccak256.reference.digest [8]).drop 12) :=
  ⟨by decide, by decide, address_eq_iff Keccak256.reference (by decide) (by decide)⟩

end RelayClient
