import CanOpen.Node.Transmission

/-! # Frames as the monitor shows them -/

namespace CanOpen.Cli

def classify (cobId : UInt16) : String :=
  if cobId = 0x000 then "NMT"
  else if cobId = 0x080 then "SYNC"
  else if 0x081 ≤ cobId ∧ cobId ≤ 0x0FF then "EMCY"
  else if cobId = 0x100 then "TIME"
  else if 0x180 ≤ cobId ∧ cobId ≤ 0x57F then "PDO"
  else if 0x580 ≤ cobId ∧ cobId ≤ 0x5FF then "SDO tx"
  else if 0x600 ≤ cobId ∧ cobId ≤ 0x67F then "SDO rx"
  else if 0x700 ≤ cobId ∧ cobId ≤ 0x77F then "heartbeat"
  else if cobId = 0x7E4 ∨ cobId = 0x7E5 then "LSS"
  else ""

section Ranges

variable {cobId : UInt16}

theorem classify_emergency (low : 0x081 ≤ cobId.toNat) (high : cobId.toNat ≤ 0x0FF) :
    classify cobId = "EMCY" := by
  unfold classify
  simp only [← UInt16.toNat_inj, UInt16.le_iff_toNat_le, UInt16.reduceToNat]
  rw [if_neg (by omega), if_neg (by omega), if_pos ⟨low, high⟩]

theorem classify_pdo (low : 0x180 ≤ cobId.toNat) (high : cobId.toNat ≤ 0x57F) :
    classify cobId = "PDO" := by
  unfold classify
  simp only [← UInt16.toNat_inj, UInt16.le_iff_toNat_le, UInt16.reduceToNat]
  rw [if_neg (by omega), if_neg (by omega), if_neg (by omega), if_neg (by omega),
    if_pos ⟨low, high⟩]

theorem classify_sdoResponse (low : 0x580 ≤ cobId.toNat) (high : cobId.toNat ≤ 0x5FF) :
    classify cobId = "SDO tx" := by
  unfold classify
  simp only [← UInt16.toNat_inj, UInt16.le_iff_toNat_le, UInt16.reduceToNat]
  rw [if_neg (by omega), if_neg (by omega), if_neg (by omega), if_neg (by omega),
    if_neg (by omega), if_pos ⟨low, high⟩]

theorem classify_heartbeat (low : 0x700 ≤ cobId.toNat) (high : cobId.toNat ≤ 0x77F) :
    classify cobId = "heartbeat" := by
  unfold classify
  simp only [← UInt16.toNat_inj, UInt16.le_iff_toNat_le, UInt16.reduceToNat]
  rw [if_neg (by omega), if_neg (by omega), if_neg (by omega), if_neg (by omega),
    if_neg (by omega), if_neg (by omega), if_neg (by omega), if_pos ⟨low, high⟩]

end Ranges

end CanOpen.Cli
