import Mathlib.Data.List.Zip
import JackNet.PortList.Fixed

/-!
# A cycle of the fixed layout

The driver sends a cycle as `GetNumPackets()` packets, sub-cycles `0, 1, …` in order: the sender's
`RenderToNetwork` fills the packet and the receiver's `RenderFromNetwork` reads it back, with the
size and port count the send returned. The driver is not part of this file's source, so
`exchangeCycle` is that calling pattern, written down.

For two port lists of one session whose ports all have host buffers, on hosts of either byte
order, each packet moves one sub-period of every port into the receiver, whatever the receiver held,
and runs the loss check (`exchangePacket_receivedSlices`). The layout has no state across packets
but the last sub-cycle, so a run of packets lost, repeated or reordered reports exactly the
sub-cycles that do not follow the one before, and leaves each receiver port with the sender's
samples on the sub-periods that came (`exchangeCycle_receivedSlices`). The cycle in order is the
case of sub-cycles `0, …, N - 1` (`exchangeCycle_range`): no report, and the first `N` sub-periods
delivered, the whole period when it is a power of two.
-/

namespace JackNet

namespace JackPortList

/-- A cycle of the fixed layout as the driver runs it: at each sub-cycle the sender `l` renders its
packet into `net`, and the receiver reads it with the size and port count the send returned.
Returns the codes of the receives, in order, and the receiver at the end. -/
def exchangeCycle (sender receiver : ByteOrder) (l : JackPortList) (cycle : Int) :
    NetBuffer → JackPortList → List Int → Except Fault (List Int × JackPortList)
  | _, r, [] => .ok ([], r)
  | net, r, sub_cycle :: sub_cycles => do
    let (net, size, port_num) ← renderToNetwork sender l net sub_cycle
    let (res, r) ← renderFromNetwork receiver r net cycle sub_cycle size.toNat port_num
    let (codes, r) ← exchangeCycle sender receiver l cycle net r sub_cycles
    pure (res :: codes, r)

/-- The samples of a receiver port that held `rdata`, once the packets of the sub-cycles `subs`
have arrived, in any order, with gaps and repeats: the sender's `data` on each sub-period of `P`
frames that came, `rdata` elsewhere. -/
def receivedSlices (P : Nat) (subs : List Nat) (data rdata : Nat → Sample) : Nat → Sample :=
  fun j => if ∃ s ∈ subs, s * P ≤ j ∧ j < s * P + P then data j else rdata j

section ReceivedSlices

variable (P : Nat) (data rdata : Nat → Sample)

@[simp] theorem receivedSlices_nil : receivedSlices P [] data rdata = rdata := by
  funext j
  simp [receivedSlices]

/-- What the packet of sub-cycle `s` writes into a receiver port. -/
theorem overwrite_slice (s : Nat) :
    overwrite rdata (s * P) (slice data (s * P) P) = receivedSlices P [s] data rdata := by
  funext j
  simp only [overwrite, receivedSlices, length_slice, List.mem_singleton, exists_eq_left]
  split
  · rename_i h
    rw [getD_slice _ _ (by omega), Nat.add_sub_cancel' h.1]
  · rfl

/-- The packets after the one of sub-cycle `s`. -/
theorem receivedSlices_cons (s : Nat) (subs : List Nat) :
    receivedSlices P subs data (receivedSlices P [s] data rdata) =
      receivedSlices P (s :: subs) data rdata := by
  funext j
  simp only [receivedSlices, List.mem_singleton, exists_eq_left, List.exists_mem_cons]
  by_cases h : ∃ s' ∈ subs, s' * P ≤ j ∧ j < s' * P + P <;> simp [h]

/-- A sub-period of `P` frames that holds frame `j` is among the first `N` exactly when `j` lies in
the first `N * P` frames. -/
theorem exists_slice_iff {N P j : Nat} : (∃ k < N, k * P ≤ j ∧ j < k * P + P) ↔ j < N * P := by
  constructor
  · rintro ⟨k, hk, -, hj⟩
    calc j < k * P + P := hj
      _ = (k + 1) * P := (Nat.succ_mul k P).symm
      _ ≤ N * P := Nat.mul_le_mul_right P hk
  · intro hj
    have hP : 0 < P := Nat.pos_of_ne_zero fun h => by simp [h] at hj
    exact ⟨j / P, (Nat.div_lt_iff_lt_mul hP).mpr hj, Nat.div_mul_le_self j P,
      Nat.lt_div_mul_add hP⟩

/-- The first `N` sub-periods, as a cycle in order delivers them. -/
theorem receivedSlices_range (N : Nat) : receivedSlices P (List.range N) =
    fun data rdata j => if j < N * P then data j else rdata j := by
  funext data rdata j
  simp only [receivedSlices, List.mem_range, ← exists_slice_iff]

variable {P}

theorem zipWith_receivedSlices_nil {bufs rb : List (Nat → Sample)}
    (hlen : rb.length = bufs.length) : List.zipWith (receivedSlices P []) bufs rb = rb :=
  List.ext_getElem (by simp [hlen]) fun q _ _ => by simp

theorem zipWith_receivedSlices_cons (s : Nat) (subs : List Nat) (bufs rb : List (Nat → Sample)) :
    List.zipWith (receivedSlices P subs) bufs (List.zipWith (receivedSlices P [s]) bufs rb) =
      List.zipWith (receivedSlices P (s :: subs)) bufs rb := by
  simp only [List.zipWith_zipWith_right, List.zipWith3_same_left, receivedSlices_cons]

end ReceivedSlices

theorem lossCodes_range' (k m : Nat) :
    List.zipWith (fun prev (s : Nat) => if (s : Int) ≠ prev + 1 then NET_PACKET_ERROR else 0)
      (((k : Int) - 1) :: (List.range' k m).map Int.ofNat) (List.range' k m) = List.replicate m 0 := by
  induction m generalizing k with
  | zero => rfl
  | succ m ih =>
    rw [List.range'_succ, List.map_cons, Int.ofNat_eq_coe, List.zipWith_cons_cons, if_neg (by omega),
      List.replicate_succ, ← ih (k + 1), show ((k + 1 : Nat) : Int) - 1 = k by omega]

/-- In order, each sub-cycle follows the one before: no receive reports a missing packet. -/
theorem lossCodes_range (N : Nat) :
    List.zipWith (fun prev (s : Nat) => if (s : Int) ≠ prev + 1 then NET_PACKET_ERROR else 0)
      (-1 :: (List.range N).map Int.ofNat) (List.range N) = List.replicate N 0 := by
  rw [List.range_eq_range']
  exact lossCodes_range' 0 N

section Cycle

variable (sender receiver : ByteOrder) {l : JackPortList} {bufs rbufs : List (Nat → Sample)}
  (cycle : Int)

/-- One packet of sub-cycle `k`, between hosts of any byte orders: the receive moves sub-period
`k` of every port into the receiver and runs the loss check. -/
theorem exchangePacket_receivedSlices (hl : l.fPortBuffer = bufs.map .samples)
    (hbytes : l.fSubPeriodBytesSize = l.fSubPeriodSize * 4) (hperiod : l.fPeriodSize < 2 ^ 32)
    {rb : List (Nat → Sample)} (hlen : rb.length = bufs.length) {k : Nat}
    (hk : (k : Int) < l.numPackets) (net : NetBuffer)
    (hcap : bufs.length * l.fSubPeriodBytesSize ≤ net.capacity) :
    ∃ net', renderToNetwork sender l net k =
        .ok (net', toInt32 ↑(bufs.length * l.fSubPeriodBytesSize), bufs.length) ∧
      net'.capacity = net.capacity ∧ ∀ last copy_size port_num, -2 ^ 31 ≤ last + 1 →
        last + 1 < 2 ^ 31 →
        renderFromNetwork receiver { l with fPortBuffer := rb.map .samples, fLastSubCycle := last }
            net' cycle k copy_size port_num =
          .ok (if (k : Int) ≠ last + 1 then NET_PACKET_ERROR else 0,
            { l with
              fPortBuffer := (List.zipWith (receivedSlices l.fSubPeriodSize [k]) bufs rb).map .samples
              fLastSubCycle := k }) := by
  obtain ⟨hP, hoff, hend⟩ := slice_le_period_of_lt_numPackets hperiod (Int.natCast_nonneg k) hk
  have hk4 : l.fSubPeriodBytesSize / 4 = l.fSubPeriodSize := by omega
  have h4 : 4 ≤ l.fSubPeriodBytesSize := by omega
  have hper : unsignedOffset k l.fSubPeriodSize + ↑(l.fSubPeriodBytesSize / 4) ≤ l.fPeriodSize := by
    rw [hoff, hk4]
    exact_mod_cast hend
  have hslice : (unsignedOffset k l.fSubPeriodSize).toNat = k * l.fSubPeriodSize := by
    rw [hoff, Int.toNat_ofNat, Int.toNat_ofNat]
  have hN : l.fNPorts = bufs.length := by simp [fNPorts, hl]
  obtain ⟨net', hsend, hc, hw⟩ := renderToNetworkLE_ok l net k hl hper (by rwa [hN])
  rw [hN] at hsend
  refine ⟨net', renderToNetwork_eq_ok l net k sender h4 hsend, hc,
    fun last copy_size port_num h0 h1 => ?_⟩
  -- the receiver's ports after the packet
  have hzip : rb.mapIdx (fun p data => PortBuffer.samples
      (overwrite data (unsignedOffset k l.fSubPeriodSize).toNat
        (net'.words .little (p * l.fSubPeriodBytesSize) (l.fSubPeriodBytesSize / 4)))) =
      (List.zipWith (receivedSlices l.fSubPeriodSize [k]) bufs rb).map .samples := by
    refine List.mapIdx_eq_iff.mpr fun q => ?_
    simp only [List.getElem?_map, List.getElem?_zipWith]
    by_cases hq : q < bufs.length
    · rw [List.getElem?_eq_getElem hq, List.getElem?_eq_getElem (hlen ▸ hq),
        hw q _ (List.getElem?_eq_getElem hq), hslice, hk4]
      simp only [Option.map_some', overwrite_slice]
    · rw [List.getElem?_eq_none (by omega), List.getElem?_eq_none (by omega)]
      rfl
  let r : JackPortList := { l with fPortBuffer := rb.map .samples, fLastSubCycle := last }
  have hrecv := (renderFromNetworkLE_ok r net' k rfl hper (by simpa [r, fNPorts, hlen, hc] using hcap)
    cycle copy_size port_num).trans (lossCheck_eq_of_lt _ h0 h1)
  rw [renderFromNetwork_eq_ok { l with fPortBuffer := rb.map .samples, fLastSubCycle := last } net' k
    receiver h4 cycle copy_size port_num hrecv]
  simp only [hzip]

/-- The run lemma for any sub-cycles, in any order: each packet reports whether it follows the one
before, and the receiver ends with the sub-periods that came written over its samples. -/
theorem exchangeCycle_receivedSlices (hl : l.fPortBuffer = bufs.map .samples)
    (hbytes : l.fSubPeriodBytesSize = l.fSubPeriodSize * 4) (hperiod : l.fPeriodSize < 2 ^ 32) :
    ∀ (subs : List Nat) (rb : List (Nat → Sample)) (last : Int) (net : NetBuffer),
      rb.length = bufs.length → -2 ^ 31 ≤ last + 1 → last + 1 < 2 ^ 31 →
      (∀ s ∈ subs, (s : Int) < l.numPackets) →
      bufs.length * l.fSubPeriodBytesSize ≤ net.capacity →
      exchangeCycle sender receiver l cycle net
          { l with fPortBuffer := rb.map .samples, fLastSubCycle := last } (subs.map Int.ofNat) =
        .ok (List.zipWith (fun prev (s : Nat) => if (s : Int) ≠ prev + 1 then NET_PACKET_ERROR else 0)
            (last :: subs.map Int.ofNat) subs,
          { l with
            fPortBuffer := (List.zipWith (receivedSlices l.fSubPeriodSize subs) bufs rb).map .samples
            fLastSubCycle := (subs.map Int.ofNat).getLastD last })
  | [], rb, last, _, hlen, _, _, _, _ => by
    rw [zipWith_receivedSlices_nil hlen]
    rfl
  | s :: ss, rb, last, net, hlen, h0, h1, hsub, hcap => by
    obtain ⟨net', hsend, hc, hrecv⟩ := exchangePacket_receivedSlices sender receiver cycle hl hbytes
      hperiod hlen (hsub s (.head _)) net hcap
    rw [List.map_cons, Int.ofNat_eq_coe, exchangeCycle, hsend, ok_bind]
    simp only [hrecv last _ _ h0 h1, ok_bind]
    -- the packet's sub-cycle, below a packet count that is an `int`, is the next `last`
    have hs : (s : Int) + 1 < 2 ^ 31 :=
      Int.lt_of_le_of_lt (Int.add_one_le_iff.mpr (hsub s (.head _))) (toInt32_lt _)
    rw [exchangeCycle_receivedSlices hl hbytes hperiod ss _ s net' (by simp [hlen])
      (Int.le_trans (by decide) (Int.le_add_one (Int.natCast_nonneg s))) hs
      (fun s' hs' => hsub s' (.tail _ hs')) (by rwa [hc]), zipWith_receivedSlices_cons,
      List.getLastD_cons]
    rfl

end Cycle

/-- The cycle in order, sub-cycles `0, …, N - 1` of a list of a session: no receive reports a
missing packet, and each receiver port gets the sender's first `N` sub-periods. -/
theorem exchangeCycle_range (sender receiver : ByteOrder) (params : SessionParams)
    (bufs rbufs : List (Nat → Sample)) (net : NetBuffer) (cycle n : Int) :
    let l := ofSession params (bufs.map .samples)
    let N := n.toNat
    l.getNumPackets = .ok n → rbufs.length = bufs.length →
    bufs.length * l.fSubPeriodBytesSize ≤ net.capacity →
    exchangeCycle sender receiver l cycle net (ofSession params (rbufs.map .samples))
        ((List.range N).map Int.ofNat) =
      .ok (List.replicate N 0, { l with
        fPortBuffer := (List.zipWith (fun data rdata j =>
          if j < N * l.fSubPeriodSize then data j else rdata j) bufs rbufs).map .samples
        fLastSubCycle := ((List.range N).map Int.ofNat).getLastD (-1) }) := by
  intro l N hn hlen hcap
  have hrun := exchangeCycle_receivedSlices sender receiver cycle (ofSession_fPortBuffer params _)
    rfl params.fPeriodSize_lt (List.range N) rbufs (-1) net hlen (by decide) (by decide)
    (fun s hs => (getNumPackets_eq_ok.mp hn).2 ▸ Int.lt_toNat.mp (List.mem_range.mp hs)) hcap
  rwa [lossCodes_range, receivedSlices_range] at hrun

/-- A cycle of the fixed layout in order, between hosts of any byte orders: no call faults, no
receive reports a missing packet, and each receiver port ends with the sender's samples on the
`N` sub-periods of the cycle, the whole period when it is a power of two. -/
theorem fixedLayout_delivers_cycle (sender receiver : ByteOrder) (params : SessionParams)
    (bufs rbufs : List (Nat → Sample)) (net : NetBuffer) (cycle n : Int) :
    let l := ofSession params (bufs.map .samples)
    let N := n.toNat
    l.getNumPackets = .ok n → rbufs.length = bufs.length →
    bufs.length * l.fSubPeriodBytesSize ≤ net.capacity →
    ∃ r', exchangeCycle sender receiver l cycle net (ofSession params (rbufs.map .samples))
        ((List.range N).map Int.ofNat) = .ok (List.replicate N 0, r') ∧
      (∀ (p : Nat) data rdata, bufs[p]? = some data → rbufs[p]? = some rdata →
        r'.fPortBuffer[p]? = some (.samples fun j =>
          if j < N * l.fSubPeriodSize then data j else rdata j)) ∧
      ((∃ e, params.fPeriodSize = 2 ^ e) → params.fPeriodSize < 2 ^ 31 →
        4 * max params.fReturnAudioChannels params.fSendAudioChannels ≤
          params.packetAvailableSize → params.packetAvailableSize < 2 ^ 31 →
        N * l.fSubPeriodSize = params.fPeriodSize) := by
  intro l N hn hlen hcap
  refine ⟨_, exchangeCycle_range sender receiver params bufs rbufs net cycle n hn hlen hcap,
    fun p data rdata hd hrd => ?_, fun ⟨e, he⟩ h31 hfit hpacket => ?_⟩
  · simp only [List.getElem?_map, List.getElem?_zipWith, hd, hrd]
    rfl
  · -- the constructor's sizing tiles a power-of-two period
    have ht : Tiling params.fPeriodSize l.fSubPeriodSize l.numPackets := by
      have hP : l.fSubPeriodSize = subPeriodFor params.fPeriodSize params.packetAvailableSize
          (max params.fReturnAudioChannels params.fSendAudioChannels) := by
        rw [ofSession_fSubPeriodSize, subPeriodFor_packetSize hfit hpacket]
      have := tiling_subPeriodFor (he ▸ Nat.one_le_two_pow) h31
        (show max params.fReturnAudioChannels params.fSendAudioChannels * 4 ≤
          params.packetAvailableSize by omega)
      rwa [← hP] at this
    have hexact := ht.exact ⟨e, he⟩
    rw [ht.numPackets_eq] at hexact
    simp only [N, (getNumPackets_eq_ok.mp hn).2, ht.numPackets_eq, Int.toNat_ofNat]
    exact_mod_cast hexact

/-- Two ports of the 1500-byte session of two channels and 1024 frames, from a little-endian sender
to a big-endian receiver: eight packets of 128 frames, no report, and the receiver's first port
holds the sender's whole period. -/
theorem fixedLayout_delivers_cycle_mtu1500 :
    ∃ r', exchangeCycle .little .big (ofSession ⟨1500, 2, 2, 1024, by decide, by decide⟩
        ([fun i => BitVec.ofNat 32 i, fun _ => 0].map .samples)) 0 ⟨1460, fun _ => 0⟩
        (ofSession ⟨1500, 2, 2, 1024, by decide, by decide⟩ ([fun _ => 7, fun _ => 7].map .samples))
        ((List.range 8).map Int.ofNat) = .ok (List.replicate 8 0, r') ∧
      r'.fPortBuffer[0]? = some (.samples fun j => if j < 1024 then BitVec.ofNat 32 j else 7) := by
  have hP : (ofSession ⟨1500, 2, 2, 1024, by decide, by decide⟩
      ([fun i => BitVec.ofNat 32 i, fun _ => 0].map .samples)).fSubPeriodSize = 128 := by
    decide
  obtain ⟨r', hrun, hports, -⟩ := fixedLayout_delivers_cycle .little .big
    ⟨1500, 2, 2, 1024, by decide, by decide⟩ [fun i => BitVec.ofNat 32 i, fun _ => 0]
    [fun _ => 7, fun _ => 7] ⟨1460, fun _ => 0⟩ 0 8 (getNumPackets_eq_ok.mpr ⟨by decide, by decide⟩)
    rfl (by decide)
  rw [hP] at hports
  exact ⟨r', hrun, hports 0 _ _ rfl rfl⟩

/-- The fixed layout under any loss, repetition or reordering of packets, between hosts of any
byte orders: each receive reports exactly the sub-cycles that do not follow the one before, and
each receiver port ends with the sender's samples on the sub-periods that came. -/
theorem fixedLayout_any_packet_order (sender receiver : ByteOrder) (params : SessionParams)
    (bufs rbufs : List (Nat → Sample)) (net : NetBuffer) (cycle : Int) (subs : List Nat) (n : Int) :
    let l := ofSession params (bufs.map .samples)
    l.getNumPackets = .ok n → rbufs.length = bufs.length →
    bufs.length * l.fSubPeriodBytesSize ≤ net.capacity → (∀ s ∈ subs, (s : Int) < n) →
    ∃ r', exchangeCycle sender receiver l cycle net (ofSession params (rbufs.map .samples))
        (subs.map Int.ofNat) = .ok (List.zipWith (fun prev (s : Nat) =>
          if (s : Int) ≠ prev + 1 then NET_PACKET_ERROR else 0) (-1 :: subs.map Int.ofNat) subs, r') ∧
      ∀ (p : Nat) data rdata, bufs[p]? = some data → rbufs[p]? = some rdata →
        r'.fPortBuffer[p]? = some (.samples fun j =>
          if ∃ s ∈ subs, s * l.fSubPeriodSize ≤ j ∧ j < s * l.fSubPeriodSize + l.fSubPeriodSize
          then data j else rdata j) := by
  intro l hn hlen hcap hsub
  have hrun := exchangeCycle_receivedSlices sender receiver cycle (ofSession_fPortBuffer params _)
    rfl params.fPeriodSize_lt subs rbufs (-1) net hlen (by decide) (by decide)
    (fun s hs => (getNumPackets_eq_ok.mp hn).2 ▸ hsub s hs) hcap
  refine ⟨_, hrun, fun p data rdata hd hrd => ?_⟩
  simp only [List.getElem?_map, List.getElem?_zipWith, hd, hrd]
  rfl

/-- The 1500-byte session of two channels and 1024 frames, eight packets of 128 frames, from a
big-endian sender to a little-endian receiver, packets 3, 0 and 1 arriving in that order: 3 comes
first and 0 after it, so both are reported, and 1 follows 0. The receiver's port holds the sender's
frames 0 to 255 and 384 to 511, and its own samples elsewhere. -/
theorem fixedLayout_any_packet_order_late_packet :
    ∃ r', exchangeCycle .big .little (ofSession ⟨1500, 2, 2, 1024, by decide, by decide⟩
        [.samples fun i => BitVec.ofNat 32 i]) 0 ⟨1460, fun _ => 0⟩
        (ofSession ⟨1500, 2, 2, 1024, by decide, by decide⟩ [.samples fun _ => 7]) [3, 0, 1] =
        .ok ([NET_PACKET_ERROR, NET_PACKET_ERROR, 0], r') ∧
      r'.fPortBuffer[0]? = some (.samples fun j =>
        if j < 256 ∨ 384 ≤ j ∧ j < 512 then BitVec.ofNat 32 j else 7) := by
  have hP : (ofSession ⟨1500, 2, 2, 1024, by decide, by decide⟩
      ([fun i => BitVec.ofNat 32 i].map .samples)).fSubPeriodSize = 128 := by
    decide
  obtain ⟨r', hrun, hports⟩ := fixedLayout_any_packet_order .big .little
    ⟨1500, 2, 2, 1024, by decide, by decide⟩ [fun i => BitVec.ofNat 32 i] [fun _ => 7]
    ⟨1460, fun _ => 0⟩ 0 [3, 0, 1] 8 (getNumPackets_eq_ok.mpr ⟨by decide, by decide⟩) rfl
    (by decide) (by decide)
  refine ⟨r', hrun, ?_⟩
  have hslices (j : Nat) : (∃ s ∈ [3, 0, 1], s * 128 ≤ j ∧ j < s * 128 + 128) ↔
      j < 256 ∨ 384 ≤ j ∧ j < 512 := by
    simp only [List.mem_cons, List.mem_singleton, List.not_mem_nil, or_false, exists_eq_or_imp,
      exists_eq_left]
    omega
  rw [hports 0 (fun i => BitVec.ofNat 32 i) (fun _ => 7) rfl rfl, hP]
  simp only [hslices]

end JackPortList

end JackNet
