import Mathlib.Algebra.Group.Nat.Defs
import Modem.Bus.Wire.Layout

/-! # Words read back

A word is read back as what fits into its bytes, in either order of bytes. -/

namespace Modem.Bus.Wire

theorem ofLowBytes_lowBytes (width n : Nat) : ofLowBytes (lowBytes width n) = n % 256 ^ width := by
  induction width generalizing n with
  | zero => simp [lowBytes, ofLowBytes, Nat.mod_one]
  | succ width ih =>
    have low : (UInt8.ofNat (n % 256)).toNat = n % 256 := by
      rw [UInt8.toNat_ofNat']
      omega
    rw [lowBytes, ofLowBytes, ih, low, Nat.pow_succ, Nat.mul_comm (256 ^ width), Nat.mod_mul]

namespace ByteOrder

theorem ofWordBytes_wordBytes (order : ByteOrder) (width n : Nat) :
    order.ofWordBytes (order.wordBytes width n) = n % 256 ^ width := by
  cases order <;> simp [wordBytes, ofWordBytes, ofLowBytes_lowBytes]

end ByteOrder

end Modem.Bus.Wire
