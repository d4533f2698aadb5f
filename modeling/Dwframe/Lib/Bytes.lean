import Mathlib.Algebra.GroupWithZero.Nat
import Mathlib.Data.List.Basic

/-!
# Numbers as bytes

`toBytes n v` are the `n` low bytes of `v`, lowest first, and `ofBytes` reads them back.
`byteswap` reverses the bytes of a number of a given width.
-/
namespace Dwframe.Lib

def toBytes : Nat → Nat → List UInt8
  | 0, _ => []
  | n + 1, v => UInt8.ofNat v :: toBytes n (v / 256)

def ofBytes : List UInt8 → Nat
  | [] => 0
  | b :: rest => b.toNat + 256 * ofBytes rest

@[simp] theorem length_toBytes (n v : Nat) : (toBytes n v).length = n := by
  induction n generalizing v with
  | zero => rfl
  | succ n ih => simp [toBytes, ih]

theorem ofBytes_toBytes {n v : Nat} (fits : v < 256 ^ n) : ofBytes (toBytes n v) = v := by
  induction n generalizing v with
  | zero =>
    have zero : v = 0 := by simpa using fits
    simp [toBytes, ofBytes, zero]
  | succ n ih =>
    have rest : v / 256 < 256 ^ n := by
      rw [Nat.div_lt_iff_lt_mul (by decide), ← Nat.pow_succ]
      exact fits
    rw [toBytes, ofBytes, ih rest, UInt8.toNat_ofNat']
    omega

theorem toBytes_ofBytes (bytes : List UInt8) : toBytes bytes.length (ofBytes bytes) = bytes := by
  induction bytes with
  | nil => rfl
  | cons b rest ih =>
    have := b.toNat_lt
    have low : UInt8.ofNat (b.toNat + 256 * ofBytes rest) = b := by
      rw [← UInt8.toNat_inj, UInt8.toNat_ofNat']
      omega
    have high : (b.toNat + 256 * ofBytes rest) / 256 = ofBytes rest := by omega
    rw [List.length_cons, ofBytes, toBytes, low, high, ih]

/-- The number with the `n` bytes of `v` in reverse. -/
def byteswap (n v : Nat) : Nat := ofBytes (toBytes n v).reverse

theorem toBytes_byteswap (n v : Nat) : toBytes n (byteswap n v) = (toBytes n v).reverse := by
  have read_back := toBytes_ofBytes (toBytes n v).reverse
  rwa [List.length_reverse, length_toBytes] at read_back

theorem byteswap_byteswap {n v : Nat} (fits : v < 256 ^ n) : byteswap n (byteswap n v) = v := by
  rw [byteswap, toBytes_byteswap, List.reverse_reverse, ofBytes_toBytes fits]

end Dwframe.Lib
