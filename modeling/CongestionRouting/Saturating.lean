namespace CongestionRouting

def saturate16 (n : Nat) : UInt16 := UInt16.ofNat (min n 0xffff)

def saturate32 (n : Nat) : UInt32 := UInt32.ofNat (min n 0xffffffff)

@[simp]
theorem toNat_saturate16 (n : Nat) : (saturate16 n).toNat = min n 0xffff := by
  simp only [saturate16, UInt16.toNat_ofNat']
  omega

@[simp]
theorem toNat_saturate32 (n : Nat) : (saturate32 n).toNat = min n 0xffffffff := by
  simp only [saturate32, UInt32.toNat_ofNat']
  omega

/-- Stopping early and stopping late reach the same word. -/
theorem saturate32_add (m n : Nat) :
    saturate32 ((saturate32 m).toNat + n) = saturate32 (m + n) := by
  apply UInt32.toNat_inj.1
  simp only [toNat_saturate32]
  omega

theorem saturate32_toNat (w : UInt32) : saturate32 w.toNat = w := by
  apply UInt32.toNat_inj.1
  have := w.toNat_lt
  simp only [toNat_saturate32]
  omega

end CongestionRouting
