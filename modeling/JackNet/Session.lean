import Mathlib.Data.Nat.Log
import Mathlib.Algebra.Order.Group.Nat
import Mathlib.Algebra.Group.Int

/-!
# Session parameters and sub-period sizing

A port list cuts each period into sub-periods of `P` frames per channel, one packet each, with
`P` the largest power of two for which a sample of every channel fits the packet, clamped to the
period. The constructor of `JackPortList` sizes for `max fReturnAudioChannels fSendAudioChannels`
channels; `JackOptimizedPortList` sizes again for its ports with a buffer, on both ends of the
connection. All three computations are `subPeriodFor` with their own channel count.

The code takes the logarithm in floating point. Here it is exact: `powTwoLog` is the value the
expression has in real arithmetic, and the integer conversions around it are the code's. The float
quotient of the two logarithms falls just below the exact one at some powers of two (a quotient of
`2 ^ 13` truncates to `12`) and just above it below some others (one channel at 4194303 bytes gives
`2 ^ 20` frames); the results that size a period hold for the exact value.
-/

namespace JackNet

/-- `sizeof(packet_header_t)`: `fPacketType[7]`, `fDataType` and `fDataStream` take 9 bytes,
padded to 12 ahead of the seven `uint32_t` fields. -/
def sizeofPacketHeader : Nat := 40

/-- The fields of `session_params_t` that the audio port lists read. `fMtu` and `fPeriodSize` are
`uint32_t`; the channel counts are `int32_t` and never negative in a session. -/
structure SessionParams where
  fMtu : Nat
  fSendAudioChannels : Nat
  fReturnAudioChannels : Nat
  fPeriodSize : Nat
  fMtu_lt : fMtu < 2 ^ 32
  fPeriodSize_lt : fPeriodSize < 2 ^ 32

/-- `PACKET_AVAILABLE_SIZE(params)`, for an MTU that holds a header. -/
def SessionParams.packetAvailableSize (params : SessionParams) : Nat :=
  params.fMtu - sizeofPacketHeader

/-- The `int` a wider or unsigned value converts to: its residue modulo `2 ^ 32`, in
`[-2 ^ 31, 2 ^ 31)`. -/
def toInt32 (x : Int) : Int := Int.bmod x (2 ^ 32)

theorem toInt32_of_lt {x : Int} (h0 : -2 ^ 31 ≤ x) (h1 : x < 2 ^ 31) : toInt32 x = x := by
  simp only [toInt32, Int.bmod]
  split <;> omega

theorem toInt32_natCast {n : Nat} (h : n < 2 ^ 31) : toInt32 n = n :=
  toInt32_of_lt (by omega) (by omega)

theorem toInt32_lt (x : Int) : toInt32 x < 2 ^ 31 := by
  simp only [toInt32, Int.bmod]
  split <;> omega

/-- A count converted to `int` is never more than the count: it wraps to a negative value. -/
theorem toInt32_natCast_le (n : Nat) : toInt32 n ≤ n := by
  simp only [toInt32, Int.bmod]
  split <;> omega

/-- `⌊log₂ n⌋` (and `0` at `0`), halving at most `fuel` times. -/
def log2Floor : Nat → Nat → Nat
  | 0, _ => 0
  | fuel + 1, n => if n < 2 then 0 else log2Floor fuel (n / 2) + 1

theorem log2Floor_eq_log {fuel n : Nat} (h : n ≤ fuel) : log2Floor fuel n = Nat.log 2 n := by
  induction fuel generalizing n with
  | zero => simp [log2Floor, Nat.le_zero.mp h]
  | succ fuel ih =>
    rw [log2Floor]
    split
    · exact (Nat.log_of_lt ‹_›).symm
    · rw [Nat.log_of_one_lt_of_le (by decide) (by omega), ih (by omega)]

/-- `(int) powf(2.f, (int)(log(float(bytes) / width) / log(2.)))` with the logarithm taken exactly.
From `bytes / width ≥ 1` on it is the largest power of two at most `bytes / width`. Between `1 / 2`
and `1` the logarithm truncates to `0` and the power is `1`; at `1 / 2` and below the logarithm
truncates to a negative number and the power to `0`. A packet size of zero or less has no
logarithm and its conversion to `int` is undefined; the model takes `0`, which is what x86
computes. -/
def powTwoLog (bytes : Int) (width : Nat) : Nat :=
  if bytes ≤ 0 then 0
  else if width ≤ bytes.toNat then 2 ^ log2Floor (bytes.toNat / width) (bytes.toNat / width)
  else if width < 2 * bytes.toNat then 1
  else 0

/-- The sub-period of a layout sized for `channels` channels: the whole period when there is
nothing to size against, else `powTwoLog` clamped to the period. -/
def subPeriodFor (periodSize : Nat) (packetSize : Int) (channels : Nat) : Nat :=
  if channels = 0 then periodSize
  else
    let period := powTwoLog packetSize (channels * 4)
    if period > periodSize then periodSize else period

theorem powTwoLog_of_le {bytes : Nat} {width : Nat} (hw : 0 < width) (h : width ≤ bytes) :
    powTwoLog bytes width = 2 ^ Nat.log 2 (bytes / width) := by
  have hb : ¬ (bytes : Int) ≤ 0 := by omega
  simp only [powTwoLog, hb, if_false, Int.toNat_ofNat, h, if_true]
  rw [log2Floor_eq_log le_rfl]

/-- The power fits: `powTwoLog bytes width` samples of `width` bytes take at most `bytes`. -/
theorem powTwoLog_mul_le {bytes width : Nat} (hw : 0 < width) (h : width ≤ bytes) :
    powTwoLog bytes width * width ≤ bytes := by
  rw [powTwoLog_of_le hw h]
  calc 2 ^ Nat.log 2 (bytes / width) * width ≤ bytes / width * width :=
        Nat.mul_le_mul_right _ (Nat.pow_log_le_self 2 (by
          have := Nat.div_pos h hw
          omega))
    _ ≤ bytes := Nat.div_mul_le_self bytes width

@[simp] theorem subPeriodFor_zero (periodSize : Nat) (packetSize : Int) :
    subPeriodFor periodSize packetSize 0 = periodSize := rfl

theorem subPeriodFor_of_pos {periodSize bytes channels : Nat} (hc : 0 < channels)
    (h : channels * 4 ≤ bytes) :
    subPeriodFor periodSize bytes channels =
      min (2 ^ Nat.log 2 (bytes / (channels * 4))) periodSize := by
  rw [subPeriodFor, if_neg (by omega), ← powTwoLog_of_le (by omega) h]
  simp only [gt_iff_lt, Nat.min_def]
  split <;> split <;> omega

theorem subPeriodFor_le (periodSize : Nat) (packetSize : Int) (channels : Nat) :
    subPeriodFor periodSize packetSize channels ≤ periodSize := by
  unfold subPeriodFor
  split
  · exact le_rfl
  · dsimp only
    split <;> omega

theorem one_le_subPeriodFor {periodSize bytes channels : Nat} (hp : 1 ≤ periodSize)
    (h : channels * 4 ≤ bytes) : 1 ≤ subPeriodFor periodSize bytes channels := by
  rcases Nat.eq_zero_or_pos channels with rfl | hc
  · exact hp
  · rw [subPeriodFor_of_pos hc h]
    exact Nat.le_min.mpr ⟨Nat.one_le_two_pow, hp⟩

/-- A sub-period of every sized channel fits the packet. -/
theorem subPeriodFor_mul_le {periodSize bytes channels : Nat} (hc : 0 < channels)
    (h : channels * 4 ≤ bytes) : subPeriodFor periodSize bytes channels * (channels * 4) ≤ bytes :=
  calc subPeriodFor periodSize bytes channels * (channels * 4)
      ≤ powTwoLog bytes (channels * 4) * (channels * 4) := by
        rw [subPeriodFor_of_pos hc h, ← powTwoLog_of_le (by omega) h]
        exact Nat.mul_le_mul_right _ (Nat.min_le_left _ _)
    _ ≤ bytes := powTwoLog_mul_le (by omega) h

/-- Sizing for more channels never gives a longer sub-period. -/
theorem subPeriodFor_anti {periodSize bytes m n : Nat} (hmn : m ≤ n) (h : n * 4 ≤ bytes) :
    subPeriodFor periodSize bytes n ≤ subPeriodFor periodSize bytes m := by
  rcases Nat.eq_zero_or_pos m with rfl | hm
  · exact subPeriodFor_le _ _ _
  · rw [subPeriodFor_of_pos (by omega) h, subPeriodFor_of_pos hm (by omega)]
    exact min_le_min_right _ (Nat.pow_le_pow_right (by decide)
      (Nat.log_mono_right (Nat.div_le_div_left (by omega) (by omega))))

theorem powTwoLog_pow_two_or_zero (bytes : Int) (width : Nat) :
    (∃ k, powTwoLog bytes width = 2 ^ k) ∨ powTwoLog bytes width = 0 := by
  unfold powTwoLog
  split
  · exact .inr rfl
  · split
    · exact .inl ⟨_, rfl⟩
    · split
      · exact .inl ⟨0, rfl⟩
      · exact .inr rfl

/-- A sized sub-period is a power of two, unless it is the whole period (or sizing failed). -/
theorem subPeriodFor_pow_two_or_eq (periodSize : Nat) (packetSize : Int) (channels : Nat)
    (h : 0 < subPeriodFor periodSize packetSize channels) :
    (∃ k, subPeriodFor periodSize packetSize channels = 2 ^ k) ∨
      subPeriodFor periodSize packetSize channels = periodSize := by
  unfold subPeriodFor at h ⊢
  split
  · exact .inr rfl
  · dsimp only at h ⊢
    split
    · exact .inr rfl
    · rcases powTwoLog_pow_two_or_zero packetSize (channels * 4) with hk | hk
      · exact .inl hk
      · simp_all

/-- A power-of-two period is a whole number of sub-periods. -/
theorem subPeriodFor_dvd {periodSize : Nat} (packetSize : Int) (channels : Nat) {e : Nat}
    (he : periodSize = 2 ^ e) (h : 0 < subPeriodFor periodSize packetSize channels) :
    subPeriodFor periodSize packetSize channels ∣ periodSize := by
  rcases subPeriodFor_pow_two_or_eq periodSize packetSize channels h with ⟨k, hk⟩ | hk
  · have hle := subPeriodFor_le periodSize packetSize channels
    rw [hk, he] at hle ⊢
    exact Nat.pow_dvd_pow 2 ((Nat.pow_le_pow_iff_right (by decide)).mp hle)
  · exact ⟨1, by rw [hk, Nat.mul_one]⟩

end JackNet
