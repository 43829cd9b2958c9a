import JackNet.PortList.FixedCycle
import JackNet.PortList.OptimizedCycle

/-!
# The optimized layout agrees with the fixed one

`JackOptimizedPortList` sends only the ports with a buffer, each slice behind its port index, and
sizes its sub-period for those ports; `JackPortList` sends every port at a fixed place, with the
sub-period of the session's channels. The two cut a period differently, so their packets differ,
but a whole cycle of either must leave the receiver with the same samples.

For a session whose period is a power of two and whose channels fit the packet, and a sender whose
ports all have host buffers, both cycles cover the period exactly (`numPackets_mul_subPeriodFor`),
so a whole cycle of either layout leaves each receiver port with the sender's samples over the
period and its own after it (`exchangeCycle_delivers_period`, one per layout), and the two agree
(`optimizedLayout_agrees_with_fixed`).
-/

namespace JackNet

/-- A power-of-two period below `2 ^ 31` is cut into whole sub-periods, for any number of channels
whose slices fit the packet. -/
theorem numPackets_mul_subPeriodFor {periodSize bytes channels : Nat}
    (he : ∃ e, periodSize = 2 ^ e) (h31 : periodSize < 2 ^ 31) (h : channels * 4 ≤ bytes) :
    (toInt32 ↑(periodSize / subPeriodFor periodSize bytes channels)).toNat *
      subPeriodFor periodSize bytes channels = periodSize := by
  have ht := tiling_subPeriodFor (he.elim fun _ he => he ▸ Nat.one_le_two_pow) h31 h
  have hexact := ht.exact he
  rw [ht.numPackets_eq] at hexact ⊢
  rw [Int.toNat_ofNat]
  exact_mod_cast hexact

/-- A port of a list of host buffers has a buffer exactly when it is in range. -/
theorem isSet_getD_map_samples (bufs : List (Nat → Sample)) (p : Nat) :
    ((bufs.map PortBuffer.samples).getD p PortBuffer.null).isSet = decide (p < bufs.length) := by
  by_cases hp : p < bufs.length
  · simp [List.getD_eq_getElem?_getD, List.getElem?_eq_getElem hp, hp]
  · simp [List.getD_eq_getElem?_getD, List.getElem?_eq_none (Nat.le_of_not_lt hp), hp]

namespace JackPortList

/-- A whole cycle of the fixed layout, for a session whose period is a power of two below `2 ^ 31`
and whose channels fit the packet, leaves each receiver port with the sender's samples over the
period and its own after it. -/
theorem exchangeCycle_delivers_period (sender receiver : ByteOrder) (params : SessionParams)
    {bufs rbufs : List (Nat → Sample)} (net : NetBuffer) (cycle : Int) :
    let l := ofSession params (bufs.map .samples)
    (∃ e, params.fPeriodSize = 2 ^ e) → params.fPeriodSize < 2 ^ 31 →
    4 * max params.fReturnAudioChannels params.fSendAudioChannels ≤ params.packetAvailableSize →
    params.packetAvailableSize < 2 ^ 31 → rbufs.length = bufs.length →
    bufs.length * l.fSubPeriodBytesSize ≤ net.capacity →
    ∃ n codes r, l.getNumPackets = .ok n ∧
      exchangeCycle sender receiver l cycle net (ofSession params (rbufs.map .samples))
        ((List.range n.toNat).map Int.ofNat) = .ok (codes, r) ∧
      r.fPortBuffer = (List.zipWith (fun data rdata j =>
        if j < params.fPeriodSize then data j else rdata j) bufs rbufs).map .samples := by
  intro l he h31 hfit hpacket hlen hcap
  have hN : l.numPackets.toNat * l.fSubPeriodSize = params.fPeriodSize := by
    have h := numPackets_mul_subPeriodFor he h31
      (show max params.fReturnAudioChannels params.fSendAudioChannels * 4 ≤
        params.packetAvailableSize by omega)
    rw [← subPeriodFor_packetSize hfit hpacket, ← ofSession_fSubPeriodSize params] at h
    exact h
  have h1 : 1 ≤ params.fPeriodSize := he.elim fun _ he => he ▸ Nat.one_le_two_pow
  have hn : l.getNumPackets = .ok l.numPackets := getNumPackets_eq_ok.mpr
    ⟨Nat.pos_of_ne_zero fun h0 => by rw [h0, Nat.mul_zero] at hN; omega, rfl⟩
  refine ⟨_, _, _, hn, exchangeCycle_range sender receiver params bufs rbufs net cycle _ hn hlen
    hcap, ?_⟩
  simp only [hN]

end JackPortList

namespace JackOptimizedPortList

/-- A whole cycle of the optimized layout: the sub-periods of all `N` sub-cycles over a period of
`N * P` frames replace the silence of the cleanup, so the receiver holds the sender's samples over
the period and its own after it. -/
theorem receivedSamples_range (data rdata : Nat → Sample) {periodSize P N : Nat}
    (hN : N * P = periodSize) (h0 : 0 < N) :
    receivedSamples data rdata periodSize P ((List.range N).map Int.ofNat) =
      fun j => if j < periodSize then data j else rdata j := by
  funext j
  have hslices : (∃ s ∈ (List.range N).map Int.ofNat, s.toNat * P ≤ j ∧ j < s.toNat * P + P) ↔
      j < periodSize := by
    simp only [List.mem_map, List.mem_range, exists_exists_and_eq_and, Int.toNat_ofNat,
      ← hN, ← JackPortList.exists_slice_iff]
    rfl
  have hzero : (0 : Int) ∈ (List.range N).map Int.ofNat :=
    List.mem_map.mpr ⟨0, List.mem_range.mpr h0, rfl⟩
  simp only [receivedSamples, hslices, hzero, true_and]
  by_cases hj : j < periodSize <;> simp [hj]

/-- A whole cycle of the optimized layout, for a session whose period is a power of two below
`2 ^ 31`, from a sender whose ports all have host buffers and whose slices fit the packet, leaves
each receiver port with the sender's samples over the period and its own after it. -/
theorem exchangeCycle_delivers_period (params : SessionParams) {bufs rbufs : List (Nat → Sample)}
    (net : NetBuffer) (cycle : Int) :
    let lf := JackPortList.ofSession params (bufs.map .samples)
    let lo := resize lf
    (∃ e, params.fPeriodSize = 2 ^ e) → params.fPeriodSize < 2 ^ 31 →
    4 * bufs.length ≤ params.packetAvailableSize → params.packetAvailableSize < 2 ^ 31 →
    rbufs.length = bufs.length → bufs.length * lo.fSubPeriodBytesSize ≤ net.capacity →
    ∃ n ro, getNumPackets lf = .ok (n, lo) ∧
      exchangeCycle lo cycle net (JackPortList.ofSession params (rbufs.map .samples))
        ((List.range n.toNat).map Int.ofNat) = .ok ro ∧
      ro.fPortBuffer = (List.zipWith (fun data rdata j =>
        if j < params.fPeriodSize then data j else rdata j) bufs rbufs).map .samples := by
  intro lf lo he h31 hfit hpacket hlen hcapo
  -- every port has a buffer, so the optimized layout sizes for all of them
  have hact : lo.activePorts = bufs.length := by
    simp [lo, lf, JackPortList.activePorts, List.countP_eq_length]
  have hPo : lo.fSubPeriodSize =
      subPeriodFor params.fPeriodSize params.packetAvailableSize bufs.length := by
    rw [← hact]
    exact subPeriodFor_packetSize (show 4 * lo.activePorts ≤ _ by omega) hpacket
  -- the cycle covers the period
  have hNo : lo.numPackets.toNat * lo.fSubPeriodSize = params.fPeriodSize := by
    have h := numPackets_mul_subPeriodFor he h31
      (show bufs.length * 4 ≤ params.packetAvailableSize by omega)
    rw [← hPo] at h
    exact h
  have h1 : 1 ≤ params.fPeriodSize := he.elim fun _ he => he ▸ Nat.one_le_two_pow
  have hN0 : 0 < lo.numPackets.toNat := Nat.pos_of_ne_zero fun h => by
    rw [h, Nat.zero_mul] at hNo
    omega
  have hl : getNumPackets lf = .ok (lo.numPackets, lo) := (getNumPackets_eq_ok _).mpr
    ⟨Nat.pos_of_ne_zero fun h0 => by
      rw [show lo.fSubPeriodSize = 0 from h0, Nat.mul_zero] at hNo
      omega, rfl⟩
  have hsubs : ∀ s ∈ (List.range lo.numPackets.toNat).map Int.ofNat, 0 ≤ s ∧ s < lo.numPackets :=
    fun s hs => by
      obtain ⟨k, hk, rfl⟩ := List.mem_map.mp hs
      exact ⟨Int.natCast_nonneg k, Int.lt_toNat.mp (List.mem_range.mp hk)⟩
  -- the run from the receiver as it is constructed
  obtain ⟨ro, hruno, hR⟩ := exchangeCycle_received params (bufs.map .samples)
    (rbufs.map .samples) cycle _ _ lo hl (by simp) (by simp) (by simp only [List.length_map]; omega)
    h31 (by rw [hact]; omega) hpacket
    (fun p hp => by
      simp only [isSet_getD_map_samples, decide_eq_true_eq, hact] at hp ⊢
      omega) hsubs net _ [] (by rwa [hact]) (Received.ofSession params _ _ _)
    (fun _ h => absurd h (List.not_mem_nil _))
  rw [List.nil_append, sinceCleanup_of_pairwise ((List.pairwise_lt_range _).map Int.ofNat
    fun a b h => Int.ofNat_lt.mpr h) fun s hs => (hsubs s hs).1] at hR
  -- each port in range holds the received period, and there is no other
  refine ⟨_, ro, hl, hruno, List.ext_getElem? fun p => ?_⟩
  by_cases hp : p < bufs.length
  · have hq : p < rbufs.length := hlen ▸ hp
    rw [hR.sent p bufs[p] rbufs[p] (by simp [hp]) (by simp [hq]), receivedSamples_range _ _ hNo hN0]
    simp [List.getElem?_zipWith, hp, hq]
  · have hq : rbufs.length ≤ p := hlen ▸ Nat.le_of_not_lt hp
    rw [hR.unsent p (by rw [isSet_getD_map_samples]; simpa using hp)]
    simp only [List.getElem?_map, List.getElem?_zipWith, List.getElem?_eq_none hq,
      List.getElem?_eq_none (Nat.le_of_not_lt hp), Option.map_none', ite_self]

/-- The optimized layout delivers what the fixed layout delivers: over a whole cycle of a session
whose period is a power of two, both leave the receiver's ports equal to the sender's period. -/
theorem optimizedLayout_agrees_with_fixed (sender receiver : ByteOrder) (params : SessionParams)
    (bufs rbufs : List (Nat → Sample)) (net : NetBuffer) (cycle : Int) :
    let lf := JackPortList.ofSession params (bufs.map .samples)
    let lo := resize lf
    (∃ e, params.fPeriodSize = 2 ^ e) → params.fPeriodSize < 2 ^ 31 →
    4 * max params.fReturnAudioChannels params.fSendAudioChannels ≤ params.packetAvailableSize →
    params.packetAvailableSize < 2 ^ 31 →
    bufs.length ≤ max params.fReturnAudioChannels params.fSendAudioChannels →
    rbufs.length = bufs.length →
    bufs.length * lf.fSubPeriodBytesSize ≤ net.capacity →
    bufs.length * lo.fSubPeriodBytesSize ≤ net.capacity →
    ∃ nf no codes rf ro, lf.getNumPackets = .ok nf ∧ getNumPackets lf = .ok (no, lo) ∧
      JackPortList.exchangeCycle sender receiver lf cycle net
          (JackPortList.ofSession params (rbufs.map .samples))
          ((List.range nf.toNat).map Int.ofNat) = .ok (codes, rf) ∧
      exchangeCycle lo cycle net (JackPortList.ofSession params (rbufs.map .samples))
          ((List.range no.toNat).map Int.ofNat) = .ok ro ∧
      ro.fPortBuffer = rf.fPortBuffer ∧
      rf.fPortBuffer = (List.zipWith (fun data rdata j =>
        if j < params.fPeriodSize then data j else rdata j) bufs rbufs).map .samples := by
  intro lf lo he h31 hfit hpacket hports hlen hcapf hcapo
  obtain ⟨nf, codes, rf, hnf, hf, hrf⟩ := JackPortList.exchangeCycle_delivers_period sender
    receiver params net cycle he h31 hfit hpacket hlen hcapf
  obtain ⟨no, ro, hno, ho, hro⟩ := exchangeCycle_delivers_period params net cycle he h31 (by omega)
    hpacket hlen hcapo
  exact ⟨nf, no, codes, rf, ro, hnf, hno, hf, ho, hro.trans hrf.symm, hrf⟩

/-- The 1500-byte session of two channels and 1024 frames, one port: the fixed layout sends eight
packets of 128 frames from a little-endian to a big-endian host, the optimized layout four of 256
frames, and both leave the receiver's port with the sender's whole period. -/
theorem optimizedLayout_agrees_with_fixed_mtu1500 :
    ∃ codes rf ro,
      JackPortList.exchangeCycle .little .big (JackPortList.ofSession
          ⟨1500, 2, 2, 1024, by decide, by decide⟩ ([fun i => BitVec.ofNat 32 i].map .samples))
          0 ⟨1460, fun _ => 0⟩ (JackPortList.ofSession ⟨1500, 2, 2, 1024, by decide, by decide⟩
            ([fun _ => 7].map .samples)) ((List.range 8).map Int.ofNat) = .ok (codes, rf) ∧
      exchangeCycle (resize (JackPortList.ofSession ⟨1500, 2, 2, 1024, by decide, by decide⟩
          ([fun i => BitVec.ofNat 32 i].map .samples))) 0 ⟨1460, fun _ => 0⟩
          (JackPortList.ofSession ⟨1500, 2, 2, 1024, by decide, by decide⟩
            ([fun _ => 7].map .samples)) ((List.range 4).map Int.ofNat) = .ok ro ∧
      ro.fPortBuffer = rf.fPortBuffer ∧
      rf.fPortBuffer = [.samples fun j => if j < 1024 then BitVec.ofNat 32 j else 7] := by
  have hf8 : (JackPortList.ofSession ⟨1500, 2, 2, 1024, by decide, by decide⟩
      ([fun i => BitVec.ofNat 32 i].map .samples)).getNumPackets = .ok 8 :=
    JackPortList.getNumPackets_eq_ok.mpr ⟨by decide, by decide⟩
  have ho4 : getNumPackets (JackPortList.ofSession ⟨1500, 2, 2, 1024, by decide, by decide⟩
      ([fun i => BitVec.ofNat 32 i].map .samples)) = .ok (4, resize (JackPortList.ofSession
        ⟨1500, 2, 2, 1024, by decide, by decide⟩ ([fun i => BitVec.ofNat 32 i].map .samples))) :=
    (getNumPackets_eq_ok _).mpr ⟨by decide, Prod.ext (by decide) rfl⟩
  obtain ⟨nf, no, codes, rf, ro, hnf, hno, hf, ho, heq, hrf⟩ := optimizedLayout_agrees_with_fixed
    .little .big ⟨1500, 2, 2, 1024, by decide, by decide⟩ [fun i => BitVec.ofNat 32 i] [fun _ => 7]
    ⟨1460, fun _ => 0⟩ 0 ⟨10, rfl⟩ (by decide) (by decide) (by decide) (by decide) rfl
    (by decide) (by decide)
  obtain rfl : nf = 8 := Except.ok.inj (hnf.symm.trans hf8)
  obtain rfl : no = 4 := (Prod.mk.inj (Except.ok.inj (hno.symm.trans ho4))).1
  exact ⟨codes, rf, ro, hf, ho, heq, hrf⟩

end JackOptimizedPortList

end JackNet
