import JackNet.PortList.Basic

/-!
# How a period is cut into packets

`JackPortList`'s constructor fixes the sub-period for the session's channel count, and with it
`GetNumPackets` and `GetCycleSize`, which the driver paces its cycle by.
`JackOptimizedPortList::GetNumPackets` sizes again, every cycle, for the ports that have a buffer.
Both take the sub-period from `subPeriodFor`.

The packet size is an `int` and the packet counts are returned as `int`s, so the statements bound
them below `2 ^ 31`; `GetCycleSize` is a product taken in 32-bit unsigned arithmetic. Past those
ranges the counts and the cycle size wrap, and the counterexamples below are there.
-/

namespace JackNet

/-- The sub-cycles of a sizing: a sub-period `P` from one frame up to the period, a power of two
unless it is the whole period, and `numPackets` slices `[s * P, (s + 1) * P)` inside the period
with less than a sub-period after them, and nothing when the period is a power of two. -/
structure Tiling (periodSize P : Nat) (numPackets : Int) : Prop where
  one_le : 1 ≤ P
  le_period : P ≤ periodSize
  pow_two_or_eq : (∃ k, P = 2 ^ k) ∨ P = periodSize
  numPackets_eq : numPackets = (periodSize / P : Nat)
  covered : numPackets * P ≤ periodSize
  remainder : periodSize < (numPackets + 1) * P
  exact : (∃ e, periodSize = 2 ^ e) → numPackets * P = periodSize

/-- Every sizing of a period below `2 ^ 31` by channels that fit the packet tiles it. -/
theorem tiling_subPeriodFor {periodSize bytes channels : Nat} (hp : 1 ≤ periodSize)
    (hp' : periodSize < 2 ^ 31) (h : channels * 4 ≤ bytes) :
    Tiling periodSize (subPeriodFor periodSize bytes channels)
      (toInt32 (periodSize / subPeriodFor periodSize bytes channels : Nat)) := by
  have h1 := one_le_subPeriodFor hp h
  have h2 := subPeriodFor_le periodSize bytes channels
  have h3 := subPeriodFor_pow_two_or_eq periodSize bytes channels h1
  have h4 := fun e (he : periodSize = 2 ^ e) => subPeriodFor_dvd bytes channels he h1
  generalize subPeriodFor periodSize bytes channels = P at *
  have hq := Nat.div_le_self periodSize P
  rw [toInt32_natCast (by omega)]
  refine ⟨h1, h2, h3, rfl, ?_, ?_, ?_⟩
  · exact_mod_cast Nat.div_mul_le_self periodSize P
  · have := Nat.lt_mul_div_succ periodSize h1
    rw [Nat.mul_comm] at this
    exact_mod_cast this
  · rintro ⟨e, he⟩
    exact_mod_cast Nat.div_mul_cancel (h4 e he)

/-- The packet size of the constructor, an `int`, holds `PACKET_AVAILABLE_SIZE` when that is
below `2 ^ 31`; a sizing for channels that fit it only reads it then. -/
theorem subPeriodFor_packetSize {params : SessionParams} {channels : Nat}
    (h : 4 * channels ≤ params.packetAvailableSize) (h' : params.packetAvailableSize < 2 ^ 31) :
    subPeriodFor params.fPeriodSize (toInt32 (params.fMtu - sizeofPacketHeader)) channels =
      subPeriodFor params.fPeriodSize params.packetAvailableSize channels := by
  rcases Nat.eq_zero_or_pos channels with rfl | hc
  · rfl
  · unfold SessionParams.packetAvailableSize at h h'
    rw [show ((params.fMtu : Int) - sizeofPacketHeader) = ((params.fMtu - sizeofPacketHeader : Nat) : Int)
      by omega, toInt32_natCast h']
    rfl

/-- `JackOptimizedPortList::GetNumPackets` on a list of the session whose active ports fit the
packet: it does not trap, and it counts the period in sub-periods sized for those ports. -/
theorem getNumPackets_ofSession (params : SessionParams) (bufs : List PortBuffer)
    (hA : 4 * (JackPortList.ofSession params bufs).activePorts ≤ params.packetAvailableSize)
    (hpacket : params.packetAvailableSize < 2 ^ 31)
    (hperiod : 1 ≤ params.fPeriodSize ∧ params.fPeriodSize < 2 ^ 31) :
    JackOptimizedPortList.getNumPackets (JackPortList.ofSession params bufs) =
      .ok (↑(params.fPeriodSize / subPeriodFor params.fPeriodSize params.packetAvailableSize
          (JackPortList.ofSession params bufs).activePorts),
        JackOptimizedPortList.resize (JackPortList.ofSession params bufs)) := by
  have hP := subPeriodFor_packetSize hA hpacket
  refine JackOptimizedPortList.getNumPackets_eq_ok _ |>.mpr ⟨?_, ?_⟩
  · simp only [JackOptimizedPortList.resize_fSubPeriodSize, JackPortList.ofSession_fPeriodSize,
      JackPortList.ofSession_fPacketSize, hP]
    exact one_le_subPeriodFor hperiod.1 (by omega)
  · simp only [JackOptimizedPortList.numPackets_resize, JackPortList.ofSession_fPeriodSize,
      JackPortList.ofSession_fPacketSize, hP,
      toInt32_natCast (Nat.lt_of_le_of_lt (Nat.div_le_self _ _) hperiod.2)]

/-- The sub-cycles tile the period, for the constructor's sizing and for the optimized layout's,
when the period and the packet size are `int`s and the channels sized for fit the packet. -/
theorem subCycles_tile_period (params : SessionParams) (bufs : List PortBuffer)
    (hperiod : 1 ≤ params.fPeriodSize ∧ params.fPeriodSize < 2 ^ 31)
    (hpacket : params.packetAvailableSize < 2 ^ 31) :
    (4 * max params.fReturnAudioChannels params.fSendAudioChannels ≤
        params.packetAvailableSize →
      ∃ n, (JackPortList.ofSession params bufs).getNumPackets = .ok n ∧
        Tiling params.fPeriodSize (JackPortList.ofSession params bufs).fSubPeriodSize n) ∧
    (4 * (JackPortList.ofSession params bufs).activePorts ≤ params.packetAvailableSize →
      ∃ n l, JackOptimizedPortList.getNumPackets (JackPortList.ofSession params bufs) = .ok (n, l) ∧
        Tiling params.fPeriodSize l.fSubPeriodSize n) := by
  constructor
  · intro h
    have hP : (JackPortList.ofSession params bufs).fSubPeriodSize = subPeriodFor params.fPeriodSize
        params.packetAvailableSize (max params.fReturnAudioChannels params.fSendAudioChannels) := by
      rw [JackPortList.ofSession_fSubPeriodSize, subPeriodFor_packetSize h hpacket]
    have ht := tiling_subPeriodFor hperiod.1 hperiod.2
      (show max params.fReturnAudioChannels params.fSendAudioChannels * 4 ≤
        params.packetAvailableSize by omega)
    refine ⟨_, JackPortList.getNumPackets_eq_ok.mpr ⟨by rw [hP]; exact ht.one_le, rfl⟩, ?_⟩
    rw [JackPortList.numPackets, hP, JackPortList.ofSession_fPeriodSize]
    exact ht
  · intro h
    refine ⟨_, _, getNumPackets_ofSession params bufs h hpacket hperiod, ?_⟩
    rw [JackOptimizedPortList.resize_fSubPeriodSize, JackPortList.ofSession_fPeriodSize,
      JackPortList.ofSession_fPacketSize, subPeriodFor_packetSize h hpacket,
      ← toInt32_natCast (Nat.lt_of_le_of_lt (Nat.div_le_self _ _) hperiod.2)]
    exact tiling_subPeriodFor hperiod.1 hperiod.2 (by omega)

/-- More channels, so shorter sub-periods, never give fewer packets. -/
theorem div_subPeriodFor_mono {periodSize bytes m n : Nat} (hmn : m ≤ n) (h : n * 4 ≤ bytes) :
    periodSize / subPeriodFor periodSize bytes m ≤ periodSize / subPeriodFor periodSize bytes n := by
  rcases Nat.eq_zero_or_pos periodSize with rfl | hp
  · simp
  · exact Nat.div_le_div_left (subPeriodFor_anti hmn h) (one_le_subPeriodFor hp h)

theorem activePorts_le_length (l : JackPortList) : l.activePorts ≤ l.fPortBuffer.length :=
  List.countP_le_length _

/-- The scenario of the specification: an MTU of 1500, two channels and a period of 1024 frames
give sub-periods of 128 frames, eight per cycle. -/
theorem subCycles_tile_period_mtu1500 : Tiling 1024 128 8 := by
  obtain ⟨n, hn, h⟩ := (subCycles_tile_period ⟨1500, 2, 2, 1024, by decide, by decide⟩ []
    ⟨by decide, by decide⟩ (by decide)).1 (by decide)
  obtain rfl : n = 8 := Except.ok.inj (hn.symm.trans rfl)
  exact h

/-- The sub-cycles do not always tile the period, although the channels fit the packet: a period
of three frames gets one sub-period of two; an MTU of `2 ^ 32 - 1` makes the `int` packet size
negative and the sub-period zero, which the constructor divides by; a period of `2 ^ 31` frames in
sub-periods of one frame makes the `int` packet count negative. -/
theorem subCycles_tile_period_fails :
    (4 * 1 ≤ (⟨48, 1, 1, 3, by decide, by decide⟩ : SessionParams).packetAvailableSize ∧
      (JackPortList.new ⟨48, 1, 1, 3, by decide, by decide⟩ 1 >>= fun l =>
        l.getNumPackets.map (· * (l.fSubPeriodSize : Int))) = .ok 2) ∧
    (4 * 1 ≤ (⟨2 ^ 32 - 1, 1, 1, 1, by decide, by decide⟩ : SessionParams).packetAvailableSize ∧
      JackPortList.new ⟨2 ^ 32 - 1, 1, 1, 1, by decide, by decide⟩ 1 = .error .divisionByZero) ∧
    (4 * 1 ≤ (⟨44, 1, 1, 2 ^ 31, by decide, by decide⟩ : SessionParams).packetAvailableSize ∧
      (JackPortList.new ⟨44, 1, 1, 2 ^ 31, by decide, by decide⟩ 1 >>= fun l =>
        l.getNumPackets.map (· * (l.fSubPeriodSize : Int))) = .ok (-2 ^ 31)) :=
  ⟨⟨by decide, rfl⟩, ⟨by decide, rfl⟩, ⟨by decide, rfl⟩⟩

/-- The packet counts of the optimized layout, for every number of ports with a buffer up to the
session's channel count: more ports never give fewer packets, never more than the constructor's
count, and never more than `GetCycleSize` pays for while that product fits in 32 bits. -/
theorem packetCount_monotone_bounded (params : SessionParams) (bufs : List PortBuffer)
    (hfit : 4 * max params.fReturnAudioChannels params.fSendAudioChannels ≤
      params.packetAvailableSize)
    (hpacket : params.packetAvailableSize < 2 ^ 31)
    (hperiod : 1 ≤ params.fPeriodSize ∧ params.fPeriodSize < 2 ^ 31)
    (hN : bufs.length ≤ max params.fReturnAudioChannels params.fSendAudioChannels) :
    ∃ n l N, JackOptimizedPortList.getNumPackets (JackPortList.ofSession params bufs) = .ok (n, l) ∧
      (JackPortList.ofSession params bufs).getNumPackets = .ok N ∧
      (∀ bufs' : List PortBuffer,
        bufs'.length ≤ max params.fReturnAudioChannels params.fSendAudioChannels →
        (JackPortList.ofSession params bufs).activePorts ≤
          (JackPortList.ofSession params bufs').activePorts →
        ∃ n' l', JackOptimizedPortList.getNumPackets (JackPortList.ofSession params bufs') =
          .ok (n', l') ∧ n ≤ n') ∧
      n ≤ N ∧
      (params.fMtu * (params.fPeriodSize / (JackPortList.ofSession params bufs).fSubPeriodSize) <
          2 ^ 32 → n * params.fMtu ≤ (JackPortList.ofSession params bufs).getCycleSize) := by
  have hA (b : List PortBuffer) (hb : b.length ≤ max params.fReturnAudioChannels
      params.fSendAudioChannels) : 4 * (JackPortList.ofSession params b).activePorts ≤
        params.packetAvailableSize := by
    have := activePorts_le_length (JackPortList.ofSession params b)
    simp only [JackPortList.ofSession_fPortBuffer] at this
    omega
  have hP : (JackPortList.ofSession params bufs).fSubPeriodSize = subPeriodFor params.fPeriodSize
      params.packetAvailableSize (max params.fReturnAudioChannels params.fSendAudioChannels) := by
    rw [JackPortList.ofSession_fSubPeriodSize, subPeriodFor_packetSize hfit hpacket]
  have hle : params.fPeriodSize / subPeriodFor params.fPeriodSize params.packetAvailableSize
      (JackPortList.ofSession params bufs).activePorts ≤ params.fPeriodSize /
        subPeriodFor params.fPeriodSize params.packetAvailableSize
          (max params.fReturnAudioChannels params.fSendAudioChannels) :=
    div_subPeriodFor_mono ((activePorts_le_length _).trans hN) (by omega)
  have hN' : (JackPortList.ofSession params bufs).getNumPackets = .ok ↑(params.fPeriodSize /
      subPeriodFor params.fPeriodSize params.packetAvailableSize
        (max params.fReturnAudioChannels params.fSendAudioChannels)) := by
    refine JackPortList.getNumPackets_eq_ok.mpr ⟨hP ▸ one_le_subPeriodFor hperiod.1 (by omega), ?_⟩
    rw [JackPortList.numPackets, hP, JackPortList.ofSession_fPeriodSize,
      toInt32_natCast (Nat.lt_of_le_of_lt (Nat.div_le_self _ _) hperiod.2)]
  refine ⟨_, _, _, getNumPackets_ofSession params bufs (hA bufs hN) hpacket hperiod, hN',
    fun bufs' hN' hmn => ⟨_, _, getNumPackets_ofSession params bufs' (hA bufs' hN') hpacket hperiod,
      ?_⟩, by exact_mod_cast hle, fun hcycle => ?_⟩
  · exact_mod_cast div_subPeriodFor_mono hmn (by have := hA bufs' hN'; omega)
  · rw [hP] at hcycle
    rw [JackPortList.getCycleSize, JackPortList.ofSession_fCycleSize, hP,
      Nat.mod_eq_of_lt hcycle, Nat.mul_comm params.fMtu]
    exact_mod_cast Nat.mul_le_mul_right _ hle

/-- Two ports of a session sized for two channels, one of them active: four packets of 256
frames where the constructor planned eight of 128, within `GetCycleSize`. -/
theorem packetCount_monotone_bounded_mtu1500 :
    (JackOptimizedPortList.getNumPackets
        (JackPortList.ofSession ⟨1500, 2, 2, 1024, by decide, by decide⟩ [.remote, .null])).map
        (·.1) = .ok 4 ∧
      (JackPortList.ofSession ⟨1500, 2, 2, 1024, by decide, by decide⟩ [.remote, .null]).getNumPackets
        = .ok 8 ∧
      (4 : Int) * 1500 ≤ ↑(JackPortList.ofSession ⟨1500, 2, 2, 1024, by decide, by decide⟩
        [.remote, .null]).getCycleSize := by
  obtain ⟨n, l, N, h1, -, -, -, h5⟩ := packetCount_monotone_bounded
    ⟨1500, 2, 2, 1024, by decide, by decide⟩ [.remote, .null]
    (by decide) (by decide) ⟨by decide, by decide⟩ (by decide)
  have hn : JackOptimizedPortList.getNumPackets (JackPortList.ofSession
      ⟨1500, 2, 2, 1024, by decide, by decide⟩ [.remote, .null]) = .ok (4, JackOptimizedPortList.resize
        (JackPortList.ofSession ⟨1500, 2, 2, 1024, by decide, by decide⟩ [.remote, .null])) := rfl
  obtain ⟨rfl, -⟩ := Prod.ext_iff.mp (Except.ok.inj (h1.symm.trans hn))
  exact ⟨by rw [hn]; rfl, rfl, h5 (by decide)⟩

/-- The packet counts are not always monotone and bounded by `GetCycleSize`: with a period of
`2 ^ 31` frames, the count of one active port times the MTU is past the 32-bit cycle size, and the
`int` count of two active ports is negative where one active port gives `2 ^ 30`. -/
theorem packetCount_monotone_bounded_fails :
    ((JackOptimizedPortList.getNumPackets
        (JackPortList.ofSession ⟨1500, 1, 1, 2 ^ 31, by decide, by decide⟩ [.remote])).map
        (·.1 * 1500)) = .ok 12582912000 ∧
      (JackPortList.ofSession ⟨1500, 1, 1, 2 ^ 31, by decide, by decide⟩ [.remote]).getCycleSize =
        3992977408 ∧
    ((JackOptimizedPortList.getNumPackets
        (JackPortList.ofSession ⟨48, 2, 2, 2 ^ 31, by decide, by decide⟩ [.remote, .null])).map
        (·.1)) = .ok (2 ^ 30) ∧
    ((JackOptimizedPortList.getNumPackets
        (JackPortList.ofSession ⟨48, 2, 2, 2 ^ 31, by decide, by decide⟩ [.remote, .remote])).map
        (·.1)) = .ok (-2 ^ 31) :=
  ⟨rfl, rfl, rfl, rfl⟩

end JackNet
