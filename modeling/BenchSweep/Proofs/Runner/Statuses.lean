import BenchSweep.WaitStatus

/-!
# Reading wait statuses

What the masks and shifts of a wait status come to, and the outcomes that are read with them.

* `WaitStatus.lowBits_eq`, `WaitStatus.code_eq` : the bits of a status are digits of its word.
* `WaitStatus.wasKilled_iff` : the look at the sign of a byte finds the signals.
* `Outcome.ofStatus_eq` : the outcome by the low bits.
* `Outcome.ofStatus_exited`, `Outcome.ofStatus_killed_of_le` : the outcomes of exit codes and of
  signals.
* `Outcome.ofStatus_signed` : the outcome of every signed number of 32 bits.
-/

namespace BenchSweep

namespace WaitStatus

/-! ## Bits -/

/-- A mask without the sign bit leaves no negative number. -/
theorem toInt_and_ofNat (x : Int32) {mask : Nat} (h : mask < 2147483648) :
    (x &&& Int32.ofNat mask).toInt = ((x.toBitVec.toNat &&& mask : Nat) : Int) := by
  have hle : x.toBitVec.toNat &&& mask ≤ mask := Nat.and_le_right
  rw [← Int32.toInt_toBitVec, Int32.toBitVec_and, BitVec.toInt_and, Int32.toBitVec_ofNat',
    BitVec.toNat_ofNat, Nat.mod_eq_of_lt (by omega)]
  apply Int.bmod_eq_of_le <;> omega

/-- So it leaves the natural number of the bits that are under the mask. -/
theorem toNatClampNeg_and_ofNat (x : Int32) {mask : Nat} (h : mask < 2147483648) :
    (x &&& Int32.ofNat mask).toNatClampNeg = x.toBitVec.toNat &&& mask := by
  rw [← Int32.toNat_toInt, toInt_and_ofNat x h, Int.toNat_natCast]

/-- The low seven bits are the remainder of a division by 128. -/
theorem lowBits_eq (s : WaitStatus) : s.lowBits = s.word.toNat % 128 := by
  calc s.lowBits = s.word.toNat &&& 127 := toNatClampNeg_and_ofNat s.signed (by decide)
    _ = s.word.toNat % 128 := Nat.and_two_pow_sub_one_eq_mod _ 7

/-- The shift of a negative number brings in ones from above, which the mask does not reach. -/
theorem code_eq (s : WaitStatus) : s.code = s.word.toNat / 256 % 256 := by
  have hshift : (s.signed >>> 8).toBitVec = s.word.toBitVec.sshiftRight 8 := rfl
  have hlt := s.word.toNat_lt
  calc s.code = (s.word.toBitVec.sshiftRight 8).toNat &&& 255 := by
        rw [← hshift]
        exact toNatClampNeg_and_ofNat _ (by decide)
    _ = (s.word.toBitVec.sshiftRight 8).toNat % 256 := Nat.and_two_pow_sub_one_eq_mod _ 8
    _ = s.word.toNat / 256 % 256 := by
        rw [BitVec.toNat_sshiftRight, UInt32.toNat_toBitVec, Nat.shiftRight_eq_div_pow,
          Nat.shiftRight_eq_div_pow]
        split <;> omega

/-- One more than a signal is at least two as a signed byte, and nothing else is. -/
theorem two_le_toInt8_iff : ∀ n < 128, 2 ≤ (Int32.ofNat n + 1).toInt8 ↔ 1 ≤ n ∧ n ≤ 126 := by
  decide

/-- The status of a process that a signal killed is one whose low bits are a signal. -/
theorem wasKilled_iff (s : WaitStatus) :
    s.wasKilled = true ↔ 1 ≤ s.lowBits ∧ s.lowBits ≤ 126 := by
  have hlt : s.lowBits < 128 := by
    rw [lowBits_eq]
    omega
  have hmasked : s.signed &&& 0x7F = Int32.ofNat s.lowBits := by
    apply Int32.toInt_inj.1
    rw [Int32.toInt_ofNat_of_lt (by omega), lowBits_eq]
    calc (s.signed &&& 0x7F).toInt = ((s.word.toNat &&& 127 : Nat) : Int) :=
          toInt_and_ofNat s.signed (by decide)
      _ = ((s.word.toNat % 128 : Nat) : Int) := by
          rw [Nat.and_two_pow_sub_one_eq_mod _ 7]
  rw [wasKilled, hmasked, decide_eq_true_eq, two_le_toInt8_iff _ hlt]

/-! ## Endings -/

/-- A process that exited has no low bits. -/
theorem lowBits_exited (code : Nat) : (exited code).lowBits = 0 := by
  rw [lowBits_eq, exited, UInt32.toNat_ofNat']
  omega

/-- Of an exit code eight bits are kept. -/
theorem code_exited (code : Nat) : (exited code).code = code % 256 := by
  rw [code_eq, exited, UInt32.toNat_ofNat']
  omega

/-- The low bits of a process that was killed are its signal, core dump or not. -/
theorem lowBits_killed (signal : Nat) (coreDumped : Bool) :
    (killed signal coreDumped).lowBits = signal % 128 := by
  rw [lowBits_eq, killed, UInt32.toNat_ofNat']
  cases coreDumped <;> simp only [Bool.false_eq_true, if_true, if_false] <;> omega

/-- The status is that of the code zero if the last eight bits of the code are zero. -/
theorem exited_eq_zero_iff (code : Nat) : exited code = exited 0 ↔ code % 256 = 0 := by
  constructor
  · intro h
    rw [← code_exited, h, code_exited]
  · intro h
    rw [exited, h]
    rfl

/-- The word zero is the status of the code zero. -/
theorem word_eq_zero_iff (status : WaitStatus) : status.word = 0 ↔ status = exited 0 := by
  obtain ⟨word⟩ := status
  rw [WaitStatus.mk.injEq]
  rfl

end WaitStatus

namespace Outcome

/-- The outcome is told by the low bits, but for the status zero. -/
theorem ofStatus_eq (s : WaitStatus) :
    ofStatus s =
      if s.word = 0 then .success
      else if s.lowBits = 0 then .exited s.code
      else if s.lowBits = 127 then .exited (-1)
      else .killed s.lowBits := by
  have hkilled : s.wasKilled = true ↔ s.lowBits ≠ 0 ∧ s.lowBits ≠ 127 := by
    rw [WaitStatus.wasKilled_iff, WaitStatus.lowBits_eq]
    omega
  by_cases hexited : s.lowBits = 0
  · simp [ofStatus, WaitStatus.hasExited, hexited]
  · by_cases hstopped : s.lowBits = 127 <;>
      simp [ofStatus, WaitStatus.hasExited, hkilled, hexited, hstopped]

/-- Of an exit code the last eight bits count. -/
theorem ofStatus_exited (code : Nat) :
    ofStatus (.exited code) =
      if code % 256 = 0 then .success else .exited ((code % 256 : Nat) : Int) := by
  simp only [ofStatus_eq, WaitStatus.word_eq_zero_iff, WaitStatus.exited_eq_zero_iff,
    WaitStatus.lowBits_exited, WaitStatus.code_exited, if_true]

/-- A signal kills with a core dump or without one. -/
theorem ofStatus_killed_of_le {signal : Nat} (coreDumped : Bool) (hpos : 1 ≤ signal)
    (hle : signal ≤ 126) : ofStatus (.killed signal coreDumped) = .killed signal := by
  have hlow : (WaitStatus.killed signal coreDumped).lowBits = signal := by
    rw [WaitStatus.lowBits_killed]
    omega
  have hword : (WaitStatus.killed signal coreDumped).word ≠ 0 := by
    intro h
    rw [WaitStatus.lowBits_eq, h, UInt32.toNat_zero] at hlow
    omega
  rw [ofStatus_eq, if_neg hword, hlow, if_neg (by omega), if_neg (by omega)]

end Outcome

/-! ## Signed numbers -/

namespace WaitStatus

/-- The status that is handed over as a signed number. -/
def ofSigned (raw : Int32) : WaitStatus := ⟨raw.toUInt32⟩

/-- The word of a signed number is the number modulo 2 ^ 32. -/
theorem word_ofSigned (raw : Int32) :
    ((ofSigned raw).word.toNat : Int) = raw.toInt % 4294967296 := by
  have hbits : (ofSigned raw).word.toNat = raw.toBitVec.toNat := rfl
  have hlt := raw.toBitVec.isLt
  rw [hbits, ← Int32.toInt_toBitVec, BitVec.toInt_eq_toNat_bmod, Int.bmod_def]
  split <;> omega

/-- The low bits of a signed number are a remainder, also if it is negative. -/
theorem lowBits_ofSigned (raw : Int32) : ((ofSigned raw).lowBits : Int) = raw.toInt % 128 := by
  have hword := word_ofSigned raw
  rw [lowBits_eq]
  omega

/-- So are the eight bits of the exit code. -/
theorem code_ofSigned (raw : Int32) :
    ((ofSigned raw).code : Int) = raw.toInt / 256 % 256 := by
  have hword := word_ofSigned raw
  rw [code_eq]
  omega

/-- The word zero stands for the number zero alone. -/
theorem word_ofSigned_eq_zero_iff (raw : Int32) : (ofSigned raw).word = 0 ↔ raw = 0 := by
  constructor
  · intro h
    have hword := word_ofSigned raw
    have hle := raw.le_toInt
    have hlt := raw.toInt_lt
    rw [h] at hword
    apply Int32.toInt_inj.1
    show raw.toInt = 0
    simp at hword
    omega
  · rintro rfl
    rfl

end WaitStatus

namespace Outcome

/-- The outcome of a signed number by its remainder. -/
theorem ofStatus_ofSigned (raw : Int32) :
    ofStatus (.ofSigned raw) =
      if raw = 0 then .success
      else if raw.toInt % 128 = 0 then .exited (raw.toInt / 256 % 256)
      else if raw.toInt % 128 = 127 then .exited (-1)
      else .killed (raw.toInt % 128) := by
  have hlow := WaitStatus.lowBits_ofSigned raw
  have hexited : (WaitStatus.ofSigned raw).lowBits = 0 ↔ raw.toInt % 128 = 0 := by omega
  have hstopped : (WaitStatus.ofSigned raw).lowBits = 127 ↔ raw.toInt % 128 = 127 := by omega
  rw [ofStatus_eq, hlow, WaitStatus.code_ofSigned]
  simp only [WaitStatus.word_ofSigned_eq_zero_iff, hexited, hstopped]

/-- Every signed number is of one of four kinds. -/
theorem ofStatus_ofSigned_cases (raw : Int32) :
    (raw = 0 ∧ raw.toInt % 128 = 0 ∧ ofStatus (.ofSigned raw) = .success) ∨
      (raw ≠ 0 ∧ raw.toInt % 128 = 0 ∧
        ofStatus (.ofSigned raw) = .exited (raw.toInt / 256 % 256)) ∨
      (raw ≠ 0 ∧ raw.toInt % 128 = 127 ∧ ofStatus (.ofSigned raw) = .exited (-1)) ∨
      raw ≠ 0 ∧ (1 ≤ raw.toInt % 128 ∧ raw.toInt % 128 ≤ 126) ∧
        ofStatus (.ofSigned raw) = .killed (raw.toInt % 128) := by
  rw [ofStatus_ofSigned]
  by_cases hzero : raw = 0
  · rw [if_pos hzero]
    exact Or.inl ⟨hzero, by rw [hzero]; rfl, rfl⟩
  · rw [if_neg hzero]
    by_cases hexited : raw.toInt % 128 = 0
    · rw [if_pos hexited]
      exact Or.inr (Or.inl ⟨hzero, hexited, rfl⟩)
    · rw [if_neg hexited]
      by_cases hstopped : raw.toInt % 128 = 127
      · rw [if_pos hstopped]
        exact Or.inr (Or.inr (Or.inl ⟨hzero, hstopped, rfl⟩))
      · rw [if_neg hstopped]
        exact Or.inr (Or.inr (Or.inr ⟨hzero, by omega, rfl⟩))

/-- The outcome of every signed number of 32 bits: success for zero alone, and else by the low
seven bits `low` the exit code in the eight bits from bit 8 on, a signal, whatever stands in the
bits above it, or the code -1 of a process that has not ended.  The failures are all but zero, codes
have eight bits or are -1, and signals are from 1 to 126.  The kernel's word for an exit code from 1
to 255, and for a signal from 1 to 126 with a core dump or without one, has that outcome. -/
theorem ofStatus_signed :
    (∀ raw : Int32,
      let outcome := ofStatus (.ofSigned raw)
      let low := raw.toInt % 128
      (outcome = .success ↔ raw = 0) ∧
        (raw ≠ 0 → low = 0 → outcome = .exited (raw.toInt / 256 % 256)) ∧
        (1 ≤ low → low ≤ 126 → outcome = .killed low) ∧
        (low = 127 → outcome = .exited (-1)) ∧
        (outcome.isFailure = true ↔ raw ≠ 0) ∧
        (∀ code, outcome = .exited code → code = -1 ∨ 0 ≤ code ∧ code ≤ 255) ∧
        ∀ signal, outcome = .killed signal → 1 ≤ signal ∧ signal ≤ 126) ∧
      (∀ code : Nat, 1 ≤ code → code ≤ 255 → ofStatus (.exited code) = .exited code) ∧
      ∀ (signal : Nat) coreDumped, 1 ≤ signal → signal ≤ 126 →
        ofStatus (.killed signal coreDumped) = .killed signal := by
  refine ⟨fun raw => ?_, fun code hpos hle => ?_, fun signal coreDumped hpos hle => ?_⟩
  · intro outcome low
    have hcode : 0 ≤ raw.toInt / 256 % 256 ∧ raw.toInt / 256 % 256 ≤ 255 := by omega
    rcases ofStatus_ofSigned_cases raw with ⟨hraw, hlow, h⟩ | ⟨hraw, hlow, h⟩ | ⟨hraw, hlow, h⟩ |
      ⟨hraw, hlow, h⟩ <;> simp only [outcome, low, h] <;> grind [isFailure]
  · have hlast : code % 256 = code := Nat.mod_eq_of_lt (by omega)
    rw [ofStatus_exited, hlast, if_neg (by omega)]
  · exact ofStatus_killed_of_le coreDumped hpos hle

end Outcome

end BenchSweep
