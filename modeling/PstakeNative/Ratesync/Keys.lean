import Mathlib

/-! # Rate-sync store keys

The rate-sync module stores its next host-chain id under `host_chain_id`, its params under
`params`, and each host chain under `host_chain` followed by the chain's id as eight big-endian
bytes. Keys are byte strings; a store prefix scan returns the keys a byte string begins.
-/

namespace PstakeNative.Ratesync

def hostChainIDKeyPrefix : String := "host_chain_id"

def hostChainKeyPrefix : String := "host_chain"

def paramsKeyPrefix : String := "params"

/-- `KeyPrefix`: `[]byte(p)`, the UTF-8 bytes of `p`. -/
def keyPrefix (p : String) : List UInt8 := p.toUTF8.data.toList

def hostChainIDKey : List UInt8 := keyPrefix hostChainIDKeyPrefix

/-- `binary.BigEndian.PutUint64`: byte `i` is `byte(v >> (56 - 8 i))`. -/
def putUint64 (v : UInt64) : List UInt8 :=
  [56, 48, 40, 32, 24, 16, 8, 0].map fun k => (v.toNat >>> k).toUInt8

def hostChainKey (id : UInt64) : List UInt8 := keyPrefix hostChainKeyPrefix ++ putUint64 id

/-- Reading bytes as a big-endian number. -/
def bigEndian (bs : List UInt8) : Nat := bs.foldl (fun acc b => acc * 256 + b.toNat) 0

theorem toUInt8_toNat (n : Nat) : n.toUInt8.toNat = n % 256 := by
  simp [Nat.toUInt8, UInt8.ofNat, UInt8.toNat, BitVec.toNat_ofNat]

/-- `x >>> k` is `x >>> (k + 8)` followed by the byte at `k`. -/
theorem shiftRight_byte (x k k' : Nat) (h : k' = k + 8) :
    (x >>> k') * 256 + (x >>> k) % 256 = x >>> k := by
  rw [h, Nat.shiftRight_add, Nat.shiftRight_eq_div_pow (x >>> k) 8]
  exact Nat.div_add_mod' _ _

/-- The eight bytes `PutUint64` writes decode big-endian to the number. -/
theorem bigEndian_putUint64 (v : UInt64) : bigEndian (putUint64 v) = v.toNat := by
  have hv : v.toNat >>> 56 < 256 := by
    have hlt : v.toNat < 2 ^ 64 := v.toNat_lt_size
    rw [Nat.shiftRight_eq_div_pow]; omega
  simp only [putUint64, bigEndian, List.map, List.foldl, toUInt8_toNat, Nat.zero_mul,
    Nat.zero_add, Nat.mod_eq_of_lt hv]
  rw [shiftRight_byte _ 48 56 rfl, shiftRight_byte _ 40 48 rfl, shiftRight_byte _ 32 40 rfl,
    shiftRight_byte _ 24 32 rfl, shiftRight_byte _ 16 24 rfl, shiftRight_byte _ 8 16 rfl,
    shiftRight_byte _ 0 8 rfl, Nat.shiftRight_zero]

theorem putUint64_length (v : UInt64) : (putUint64 v).length = 8 := rfl

theorem putUint64_injective {a b : UInt64} (h : putUint64 a = putUint64 b) : a = b :=
  UInt64.toNat.inj (by rw [← bigEndian_putUint64 a, h, bigEndian_putUint64])

/-- The bytes after the prefix of a host-chain key are the eight bytes of its id. -/
theorem hostChainKey_drop (id : UInt64) :
    (hostChainKey id).drop (keyPrefix hostChainKeyPrefix).length = putUint64 id :=
  List.drop_left' rfl

/-- Host-chain keys are injective and decode to their id, and the params key is not in the
host-chain key family. -/
theorem hostChainKey_family :
    (∀ a b : UInt64, hostChainKey a = hostChainKey b → a = b) ∧
    (∀ id : UInt64, bigEndian ((hostChainKey id).drop (keyPrefix hostChainKeyPrefix).length) =
      id.toNat) ∧
    ¬ keyPrefix hostChainKeyPrefix <+: keyPrefix paramsKeyPrefix :=
  ⟨fun _ _ h => putUint64_injective (List.append_cancel_left h),
    fun id => by rw [hostChainKey_drop, bigEndian_putUint64], by decide⟩

/-- A prefix scan of the host-chain key family also returns the key of the next host-chain id,
which is no host chain's key. -/
theorem hostChainIDKey_in_hostChainKey_scan :
    keyPrefix hostChainKeyPrefix <+: hostChainIDKey ∧ ∀ id, hostChainIDKey ≠ hostChainKey id := by
  refine ⟨by decide, fun id h => ?_⟩
  have hlen := congrArg List.length h
  have hid : hostChainIDKey.length = 13 := by decide
  have hpre : (keyPrefix hostChainKeyPrefix).length = 10 := by decide
  simp only [hostChainKey, List.length_append, putUint64_length, hid, hpre] at hlen
  omega

end PstakeNative.Ratesync
