import JackNet.PortList.Sizing

/-!
# The fixed layout, on both byte orders

`JackPortList` sends every port's slice of the sub-cycle, `fSubPeriodBytesSize` bytes at
`port_index * fSubPeriodBytesSize`. The little-endian build copies them with `memcpy`; the
big-endian build copies sample by sample through `SwapFloat`, so that the packet holds
little-endian floats either way.

A `memcpy` of `fSubPeriodBytesSize` bytes copies `fSubPeriodBytesSize / 4` samples: the byte count
is `4 * fSubPeriodSize` in this layout (and `4 * fSubPeriodSize + 4` in the optimized one), always a
whole number of samples.
-/

namespace JackNet

namespace JackPortList

/-- `RenderToNetwork` of the little-endian build. Returns the packet, the payload size (an `int`)
and `port_num`. -/
def renderToNetworkLE (l : JackPortList) (net : NetBuffer) (sub_cycle : Int) :
    Except Fault (NetBuffer × Int × Nat) := do
  let net ← forLoop l.fNPorts (fun port_index net => do
    let src ← l.readPort port_index (unsignedOffset sub_cycle l.fSubPeriodSize)
      (l.fSubPeriodBytesSize / 4)
    net.writeSamples .little (port_index * l.fSubPeriodBytesSize) src) net
  pure (net, toInt32 ↑(l.fNPorts * l.fSubPeriodBytesSize), l.fNPorts)

/-- `RenderToNetwork` of the big-endian build. -/
def renderToNetworkBE (l : JackPortList) (net : NetBuffer) (sub_cycle : Int) :
    Except Fault (NetBuffer × Int × Nat) := do
  let net ← forLoop l.fNPorts (fun port_index net =>
    forLoop (l.fSubPeriodBytesSize / 4) (fun sample net => do
      let src ← l.readPort port_index (unsignedOffset sub_cycle l.fSubPeriodSize + sample) 1
      net.writeSamples .big (port_index * l.fSubPeriodBytesSize + 4 * sample)
        (src.map swapFloat)) net) net
  pure (net, toInt32 ↑(l.fNPorts * l.fSubPeriodBytesSize), l.fNPorts)

/-- `RenderFromNetwork` of the little-endian build. `cycle`, `copy_size` and `port_num` are not
read. -/
def renderFromNetworkLE (l : JackPortList) (net : NetBuffer) (cycle sub_cycle : Int)
    (copy_size port_num : Nat) : Except Fault (Int × JackPortList) := do
  let l' ← forLoop l.fNPorts (fun port_index l' => do
    let src ← net.readSamples .little (port_index * l.fSubPeriodBytesSize)
      (l.fSubPeriodBytesSize / 4)
    l'.writePort port_index (unsignedOffset sub_cycle l.fSubPeriodSize) src) l
  l'.lossCheck sub_cycle

/-- `RenderFromNetwork` of the big-endian build. -/
def renderFromNetworkBE (l : JackPortList) (net : NetBuffer) (cycle sub_cycle : Int)
    (copy_size port_num : Nat) : Except Fault (Int × JackPortList) := do
  let l' ← forLoop l.fNPorts (fun port_index l' =>
    forLoop (l.fSubPeriodBytesSize / 4) (fun sample l' => do
      let src ← net.readSamples .big (port_index * l.fSubPeriodBytesSize + 4 * sample) 1
      l'.writePort port_index (unsignedOffset sub_cycle l.fSubPeriodSize + sample)
        (src.map swapFloat)) l') l
  l'.lossCheck sub_cycle

/-- The render calls of the build for `host`. -/
def renderToNetwork : ByteOrder → JackPortList → NetBuffer → Int →
    Except Fault (NetBuffer × Int × Nat)
  | .little => renderToNetworkLE
  | .big => renderToNetworkBE

/-- `RenderFromNetwork` of the build for `host`. -/
def renderFromNetwork : ByteOrder → JackPortList → NetBuffer → Int → Int → Nat → Nat →
    Except Fault (Int × JackPortList)
  | .little => renderFromNetworkLE
  | .big => renderFromNetworkBE

/-! Every receive ends with the loss check: the copy loops leave `fLastSubCycle` alone. -/

section LossCheck

variable {l l' : JackPortList} {net : NetBuffer} {cycle sub_cycle : Int} {copy_size port_num : Nat}
  {res : Int}

/-- A little-endian `RenderFromNetwork` that returns reports a missing packet exactly when its
sub-cycle does not follow `fLastSubCycle`, and stores its sub-cycle there. -/
theorem renderFromNetworkLE_lossCheck
    (h : l.renderFromNetworkLE net cycle sub_cycle copy_size port_num = .ok (res, l')) :
    res = (if sub_cycle ≠ l.fLastSubCycle + 1 then NET_PACKET_ERROR else 0) ∧
      l'.fLastSubCycle = sub_cycle := by
  obtain ⟨l₁, hloop, hres⟩ := bind_eq_ok.mp h
  have hlast := forLoop_fLastSubCycle (fun _ _ _ hb => by
    obtain ⟨_, _, hw⟩ := bind_eq_ok.mp hb
    exact writePort_fLastSubCycle hw) hloop
  obtain ⟨-, -, rfl, rfl⟩ := lossCheck_eq_ok.mp hres
  exact ⟨by rw [hlast], rfl⟩

end LossCheck

/-! The big-endian per-sample loops against the little-endian slice copies, one port at a time. -/

section PerPort

variable (l : JackPortList) (net : NetBuffer) (p : Nat) (offset : Int) (a : Nat)

/-- What a little-endian `memcpy` of `k` samples of port `p` to byte `a` of the packet needs and
does. -/
theorem sendPort_little_eq_ok {k : Nat} {net' : NetBuffer} :
    (do let src ← l.readPort p offset k; net.writeSamples .little a src) = .ok net' ↔
      ∃ data, l.fPortBuffer[p]? = some (.samples data) ∧ 0 ≤ offset ∧
        offset + k ≤ l.fPeriodSize ∧ a + 4 * k ≤ net.capacity ∧
        net' = net.store .little a (slice data offset.toNat k) := by
  simp only [bind_eq_ok, readPort_eq_ok, NetBuffer.writeSamples_eq_ok]
  constructor
  · rintro ⟨_, ⟨data, hb, h0, h1, rfl⟩, h2, rfl⟩
    exact ⟨data, hb, h0, h1, by simpa using h2, rfl⟩
  · rintro ⟨data, hb, h0, h1, h2, rfl⟩
    exact ⟨_, ⟨data, hb, h0, h1, rfl⟩, by simpa using h2, rfl⟩

/-- Sending one port: the big-endian loop over `k ≥ 1` samples succeeds exactly when the
little-endian `memcpy` does, with the same bytes. -/
theorem sendPort_big_eq_ok {k : Nat} (hk : 0 < k) {net' : NetBuffer} :
    forLoop k (fun sample net => do
      let src ← l.readPort p (offset + sample) 1
      net.writeSamples .big (a + 4 * sample) (src.map swapFloat)) net = .ok net' ↔
    (do let src ← l.readPort p offset k; net.writeSamples .little a src) = .ok net' := by
  rw [sendPort_little_eq_ok]
  constructor
  · intro h
    have := forLoop_inv (fun i s => (i = 0 ∧ s = net) ∨ ∃ data,
        l.fPortBuffer[p]? = some (.samples data) ∧ 0 ≤ offset ∧ offset + i ≤ l.fPeriodSize ∧
        a + 4 * i ≤ net.capacity ∧ s = net.store .little a (slice data offset.toNat i))
      (.inl ⟨rfl, rfl⟩) ?_ h
    · rcases this with ⟨rfl, -⟩ | hk'
      · omega
      · exact hk'
    intro i s s' _ hinv hbody
    obtain ⟨src, hsrc, hw⟩ := bind_eq_ok.mp hbody
    obtain ⟨data', hb', h0', h1', rfl⟩ := readPort_eq_ok.mp hsrc
    obtain ⟨hcap, rfl⟩ := NetBuffer.writeSamples_eq_ok.mp hw
    have hi : (offset + (i : Int)).toNat = offset.toNat + i := by omega
    rw [slice_one, hi]
    right
    rcases hinv with ⟨rfl, rfl⟩ | ⟨data, hb, h0, h1, h2, rfl⟩
    · refine ⟨data', hb', by omega, by omega, by simpa using hcap, ?_⟩
      simpa using NetBuffer.store_snoc _ a [] (bytes32_swapFloat (data' offset.toNat))
    · obtain rfl : data = data' := by simpa [hb] using hb'
      refine ⟨data, hb, h0, by omega, by simpa using hcap, ?_⟩
      have := NetBuffer.store_snoc net a (slice data offset.toNat i)
        (bytes32_swapFloat (data (offset.toNat + i)))
      rw [length_slice, ← slice_succ] at this
      exact this
  · rintro ⟨data, hb, h0, h1, h2, rfl⟩
    refine forLoop_eq_of_step (fun i => net.store .little a (slice data offset.toNat i))
      (by simp) fun i hi => ?_
    have hi' : (offset + (i : Int)).toNat = offset.toNat + i := by omega
    rw [bind_eq_ok]
    refine ⟨[data (offset.toNat + i)],
      readPort_eq_ok.mpr ⟨data, hb, by omega, by omega, by rw [hi', slice_one]⟩, ?_⟩
    rw [NetBuffer.writeSamples_eq_ok]
    have := NetBuffer.store_snoc net a (slice data offset.toNat i)
      (bytes32_swapFloat (data (offset.toNat + i)))
    rw [length_slice, ← slice_succ] at this
    exact ⟨by simp only [List.length_map, List.length_singleton, NetBuffer.capacity_store]; omega,
      this.symm⟩

/-- What a little-endian `memcpy` of `k` samples from byte `a` of the packet into port `p`
needs and does. -/
theorem receivePort_little_eq_ok {k : Nat} {l' : JackPortList} :
    (do let src ← net.readSamples .little a k; l.writePort p offset src) = .ok l' ↔
      ∃ data, l.fPortBuffer[p]? = some (.samples data) ∧ 0 ≤ offset ∧
        offset + k ≤ l.fPeriodSize ∧ a + 4 * k ≤ net.capacity ∧
        l' = l.withBuffer p (.samples (overwrite data offset.toNat (net.words .little a k))) := by
  simp only [bind_eq_ok, writePort_eq_ok, NetBuffer.readSamples_eq_ok]
  constructor
  · rintro ⟨_, ⟨h2, rfl⟩, data, hb, h0, h1, rfl⟩
    exact ⟨data, hb, h0, by simpa using h1, h2, rfl⟩
  · rintro ⟨data, hb, h0, h1, h2, rfl⟩
    exact ⟨_, ⟨h2, rfl⟩, data, hb, h0, by simpa using h1, rfl⟩

/-- Receiving one port: the big-endian loop over `k ≥ 1` samples succeeds exactly when the
little-endian `memcpy` does, with the same samples. -/
theorem receivePort_big_eq_ok {k : Nat} (hk : 0 < k) {l' : JackPortList} :
    forLoop k (fun sample l' => do
      let src ← net.readSamples .big (a + 4 * sample) 1
      l'.writePort p (offset + sample) (src.map swapFloat)) l = .ok l' ↔
    (do let src ← net.readSamples .little a k; l.writePort p offset src) = .ok l' := by
  rw [receivePort_little_eq_ok]
  -- the port after `i` samples, and one more sample written into it
  let after (data : Nat → Sample) (i : Nat) :=
    l.withBuffer p (.samples (overwrite data offset.toNat (net.words .little a i)))
  have hstep (data : Nat → Sample) (i : Nat) (hi : (offset + (i : Int)).toNat = offset.toNat + i) :
      (after data i).withBuffer p (.samples (overwrite
        (overwrite data offset.toNat (net.words .little a i)) (offset + (i : Int)).toNat
        [swapFloat (net.word .big (a + 4 * i))])) = after data (i + 1) := by
    dsimp only [after]
    rw [withBuffer_withBuffer, hi, NetBuffer.swapFloat_word, NetBuffer.words_succ,
      ← overwrite_snoc, NetBuffer.length_words]
  constructor
  · intro h
    have := forLoop_inv (fun i s => (i = 0 ∧ s = l) ∨ ∃ data,
        l.fPortBuffer[p]? = some (.samples data) ∧ 0 ≤ offset ∧ offset + i ≤ l.fPeriodSize ∧
        a + 4 * i ≤ net.capacity ∧ s = after data i)
      (.inl ⟨rfl, rfl⟩) ?_ h
    · rcases this with ⟨rfl, -⟩ | hk'
      · omega
      · exact hk'
    intro i s s' _ hinv hbody
    obtain ⟨src, hsrc, hw⟩ := bind_eq_ok.mp hbody
    obtain ⟨hcap, rfl⟩ := NetBuffer.readSamples_eq_ok.mp hsrc
    obtain ⟨data', hb', h0', h1', rfl⟩ := writePort_eq_ok.mp hw
    have hi : (offset + (i : Int)).toNat = offset.toNat + i := by omega
    right
    rcases hinv with ⟨rfl, rfl⟩ | ⟨data, hb, h0, h1, h2, rfl⟩
    · refine ⟨data', hb', by omega, by simpa using h1', by simpa using hcap, ?_⟩
      simp [after, NetBuffer.words_one, NetBuffer.swapFloat_word, overwrite_nil]
    · have hp : p < l.fPortBuffer.length := (List.getElem?_eq_some_iff.mp hb).1
      obtain rfl : overwrite data offset.toNat (net.words .little a i) = data' := by
        simpa [after, hp] using hb'
      have : offset + i + 1 ≤ l.fPeriodSize := by simpa [after] using h1'
      exact ⟨data, hb, h0, by omega, by simpa using hcap, hstep data i hi⟩
  · rintro ⟨data, hb, h0, h1, h2, rfl⟩
    have hp : p < l.fPortBuffer.length := (List.getElem?_eq_some_iff.mp hb).1
    refine forLoop_eq_of_step (after data) ?_ fun i hi => ?_
    · simp only [after, NetBuffer.words, List.range_zero, List.map_nil, overwrite_nil]
      exact withBuffer_self l hb
    have hi' : (offset + (i : Int)).toNat = offset.toNat + i := by omega
    rw [bind_eq_ok]
    refine ⟨[net.word .big (a + 4 * i)], NetBuffer.readSamples_eq_ok.mpr ⟨by omega, rfl⟩, ?_⟩
    rw [writePort_eq_ok]
    refine ⟨_, by simp [after, hp], by omega, ?_, (hstep data i hi').symm⟩
    simp only [after, withBuffer_fPeriodSize, List.length_map, List.length_singleton]
    omega

end PerPort

/-! The two builds over all ports. -/

section Builds

variable (l : JackPortList) (net : NetBuffer) (sub_cycle : Int)

/-- With a sub-period of at least one sample, the big-endian `RenderToNetwork` fails exactly
when the little-endian one does, and otherwise fills the packet with the same bytes. -/
theorem renderToNetworkBE_toOption (hk : 4 ≤ l.fSubPeriodBytesSize) :
    (l.renderToNetworkBE net sub_cycle).toOption = (l.renderToNetworkLE net sub_cycle).toOption := by
  simp only [renderToNetworkBE, renderToNetworkLE, toOption_bind]
  rw [forLoop_toOption_congr fun p s _ => toOption_eq_of_ok_iff fun _ =>
    sendPort_big_eq_ok l s p _ _ (by omega)]

/-- With a sub-period of at least one sample, the big-endian `RenderFromNetwork` fails exactly
when the little-endian one does, and otherwise leaves the same samples in the ports. -/
theorem renderFromNetworkBE_toOption (hk : 4 ≤ l.fSubPeriodBytesSize) (cycle : Int)
    (copy_size port_num : Nat) :
    (l.renderFromNetworkBE net cycle sub_cycle copy_size port_num).toOption =
      (l.renderFromNetworkLE net cycle sub_cycle copy_size port_num).toOption := by
  simp only [renderFromNetworkBE, renderFromNetworkLE, toOption_bind]
  rw [forLoop_toOption_congr fun p s _ => toOption_eq_of_ok_iff fun _ =>
    receivePort_big_eq_ok s net p _ _ (by omega)]

/-- A send of the little-endian build is the send of either build. -/
theorem renderToNetwork_eq_ok (host : ByteOrder) (hk : 4 ≤ l.fSubPeriodBytesSize)
    {x : NetBuffer × Int × Nat} (h : l.renderToNetworkLE net sub_cycle = .ok x) :
    renderToNetwork host l net sub_cycle = .ok x := by
  cases host
  · exact h
  · exact eq_ok_of_toOption_eq (renderToNetworkBE_toOption l net sub_cycle hk) h

/-- A receive of the little-endian build is the receive of either build. -/
theorem renderFromNetwork_eq_ok (host : ByteOrder) (hk : 4 ≤ l.fSubPeriodBytesSize) (cycle : Int)
    (copy_size port_num : Nat) {x : Int × JackPortList}
    (h : l.renderFromNetworkLE net cycle sub_cycle copy_size port_num = .ok x) :
    renderFromNetwork host l net cycle sub_cycle copy_size port_num = .ok x := by
  cases host
  · exact h
  · exact eq_ok_of_toOption_eq
      (renderFromNetworkBE_toOption l net sub_cycle hk cycle copy_size port_num) h

end Builds

/-! The little-endian builds move each port's slice to its place in the packet and back. -/

section RoundTrip

variable (l : JackPortList) (net : NetBuffer) (sub_cycle : Int) {bufs : List (Nat → Sample)}

/-- `RenderToNetwork` of ports that all have buffers, at a sub-cycle inside the period and into a
packet with room for every slice, puts the slice of port `p` at `p * fSubPeriodBytesSize`. -/
theorem renderToNetworkLE_ok (hbufs : l.fPortBuffer = bufs.map .samples)
    (hper : unsignedOffset sub_cycle l.fSubPeriodSize + ↑(l.fSubPeriodBytesSize / 4) ≤ l.fPeriodSize)
    (hcap : l.fNPorts * l.fSubPeriodBytesSize ≤ net.capacity) :
    ∃ net', l.renderToNetworkLE net sub_cycle =
        .ok (net', toInt32 ↑(l.fNPorts * l.fSubPeriodBytesSize), l.fNPorts) ∧
      net'.capacity = net.capacity ∧ ∀ p data, bufs[p]? = some data →
        net'.words .little (p * l.fSubPeriodBytesSize) (l.fSubPeriodBytesSize / 4) =
          slice data (unsignedOffset sub_cycle l.fSubPeriodSize).toNat (l.fSubPeriodBytesSize / 4) := by
  have hk : 4 * (l.fSubPeriodBytesSize / 4) ≤ l.fSubPeriodBytesSize := by omega
  have hN : l.fNPorts = bufs.length := by simp [fNPorts, hbufs]
  have hrun := @forLoop_ok _
    (fun port_index net => do
      let src ← l.readPort port_index (unsignedOffset sub_cycle l.fSubPeriodSize)
        (l.fSubPeriodBytesSize / 4)
      net.writeSamples .little (port_index * l.fSubPeriodBytesSize) src)
    (fun i s => s.capacity = net.capacity ∧ ∀ q data, q < i → bufs[q]? = some data →
      ∀ j < l.fSubPeriodBytesSize / 4, s.word .little (q * l.fSubPeriodBytesSize + 4 * j) =
        data ((unsignedOffset sub_cycle l.fSubPeriodSize).toNat + j))
    l.fNPorts net ⟨rfl, by omega⟩ ?_
  · obtain ⟨net', hloop, hc, hw⟩ := hrun
    refine ⟨net', by rw [renderToNetworkLE, hloop]; rfl, hc, fun p data hp => ?_⟩
    have hpN : p < l.fNPorts := hN ▸ (List.getElem?_eq_some_iff.mp hp).1
    exact List.map_congr_left fun j hj => hw p data hpN hp j (List.mem_range.mp hj)
  intro i s hi ⟨hc, hs⟩
  obtain ⟨data, hdata⟩ : ∃ data, bufs[i]? = some data :=
    Option.isSome_iff_exists.mp (by simp [← hN, hi])
  have hend := slot_end_le hi hk
  refine ⟨_, (sendPort_little_eq_ok l s i _ _).mpr
      ⟨data, by simp [hbufs, hdata], unsignedOffset_nonneg _ _, hper, by omega, rfl⟩,
    by simp [hc], fun q d hq hd j hj => ?_⟩
  rcases Nat.lt_succ_iff_lt_or_eq.mp hq with hq | rfl
  · have := slot_end_le hq hk
    rw [NetBuffer.word_store_of_disjoint (Or.inl (by omega))]
    exact hs q d hq hd j hj
  · obtain rfl : data = d := Option.some.inj (hdata.symm.trans hd)
    rw [NetBuffer.word_store (by simpa using hj)]
    simp [slice, hj]

/-- `RenderFromNetwork` into ports that all have buffers, at a sub-cycle inside the period and
from a packet that holds every slice: port `p` gets the samples at `p * fSubPeriodBytesSize` and
keeps its other samples, the rest of the list stays, and the loss check runs. -/
theorem renderFromNetworkLE_ok (hbufs : l.fPortBuffer = bufs.map .samples)
    (hper : unsignedOffset sub_cycle l.fSubPeriodSize + ↑(l.fSubPeriodBytesSize / 4) ≤ l.fPeriodSize)
    (hcap : l.fNPorts * l.fSubPeriodBytesSize ≤ net.capacity) (cycle : Int)
    (copy_size port_num : Nat) :
    l.renderFromNetworkLE net cycle sub_cycle copy_size port_num =
      { l with fPortBuffer := (bufs.mapIdx fun p data => .samples
        (overwrite data (unsignedOffset sub_cycle l.fSubPeriodSize).toNat
          (net.words .little (p * l.fSubPeriodBytesSize) (l.fSubPeriodBytesSize / 4)))) }.lossCheck
        sub_cycle := by
  have hk : 4 * (l.fSubPeriodBytesSize / 4) ≤ l.fSubPeriodBytesSize := by omega
  have hN : l.fNPorts = bufs.length := by simp [fNPorts, hbufs]
  -- the list after `i` turns of the loop: the first `i` ports written
  let after (i : Nat) : JackPortList := { l with fPortBuffer := (bufs.mapIdx fun q data =>
    .samples (if q < i then overwrite data (unsignedOffset sub_cycle l.fSubPeriodSize).toNat
      (net.words .little (q * l.fSubPeriodBytesSize) (l.fSubPeriodBytesSize / 4)) else data)) }
  rw [renderFromNetworkLE, forLoop_eq_of_step after ?_ fun i hi => ?_, ok_bind]
  · dsimp only [after]
    congr 2
    exact List.mapIdx_eq_mapIdx_iff.mpr fun q hq => by rw [if_pos (hN ▸ hq)]
  · have hl : bufs.mapIdx (fun _ data => PortBuffer.samples data) = l.fPortBuffer :=
      List.mapIdx_eq_iff.mpr fun q => by simp [hbufs]
    simp only [after, Nat.not_lt_zero, if_false, hl]
  · obtain ⟨data, hdata⟩ : ∃ data, bufs[i]? = some data :=
      Option.isSome_iff_exists.mp (by simp [← hN, hi])
    have hend := slot_end_le hi hk
    refine (receivePort_little_eq_ok (after i) net i _ _).mpr
      ⟨data, by simp [after, hdata], unsignedOffset_nonneg _ _, hper, by omega, ?_⟩
    dsimp only [after, withBuffer]
    congr 1
    refine List.mapIdx_eq_iff.mpr fun q => ?_
    simp only [List.getElem?_set, List.length_mapIdx, List.getElem?_mapIdx]
    by_cases hq : i = q
    · subst q
      simp [hdata, (List.getElem?_eq_some_iff.mp hdata).1]
    · rw [if_neg hq]
      simp only [show q < i + 1 ↔ q < i by omega]

end RoundTrip

/-- The fixed layout fits the packet: `N` ports of a session whose channels fit it send at most
`PACKET_AVAILABLE_SIZE` bytes, and `RenderToNetwork` into a packet of that size completes. -/
theorem renderToNetwork_fits_packet (host : ByteOrder) (params : SessionParams)
    (bufs : List (Nat → Sample)) (sub_cycle : Int) (net : NetBuffer)
    (hfit : 4 * max params.fReturnAudioChannels params.fSendAudioChannels ≤
      params.packetAvailableSize)
    (hpacket : params.packetAvailableSize < 2 ^ 31)
    (hN : bufs.length ≤ max params.fReturnAudioChannels params.fSendAudioChannels)
    (n : Int) (hn : (ofSession params (bufs.map .samples)).getNumPackets = .ok n)
    (h0 : 0 ≤ sub_cycle) (hs : sub_cycle < n) (hcap : net.capacity = params.packetAvailableSize) :
    bufs.length * (ofSession params (bufs.map .samples)).fSubPeriodBytesSize ≤
      params.packetAvailableSize ∧
    ∃ net', renderToNetwork host (ofSession params (bufs.map .samples)) net sub_cycle =
      .ok (net', ↑(bufs.length * (ofSession params (bufs.map .samples)).fSubPeriodBytesSize),
        bufs.length) := by
  obtain ⟨hP, hoff, hend⟩ := slice_le_period_of_lt_numPackets params.fPeriodSize_lt h0
    ((getNumPackets_eq_ok.mp hn).2 ▸ hs)
  have hk : (ofSession params (bufs.map .samples)).fSubPeriodBytesSize / 4 =
      (ofSession params (bufs.map .samples)).fSubPeriodSize := by simp
  -- the constructor's sub-period, times the sized channels, fits the packet
  have hfits : bufs.length * (ofSession params (bufs.map .samples)).fSubPeriodBytesSize ≤
      params.packetAvailableSize := by
    rcases Nat.eq_zero_or_pos (max params.fReturnAudioChannels params.fSendAudioChannels) with hC | hC
    · simp [show bufs.length = 0 by omega]
    · have hmul : subPeriodFor params.fPeriodSize params.packetAvailableSize
            (max params.fReturnAudioChannels params.fSendAudioChannels) *
          (max params.fReturnAudioChannels params.fSendAudioChannels * 4) ≤
          params.packetAvailableSize :=
        subPeriodFor_mul_le hC (by omega)
      calc bufs.length * (ofSession params (bufs.map .samples)).fSubPeriodBytesSize
          ≤ max params.fReturnAudioChannels params.fSendAudioChannels *
              ((ofSession params (bufs.map .samples)).fSubPeriodSize * 4) :=
            Nat.mul_le_mul_right _ hN
        _ = (ofSession params (bufs.map .samples)).fSubPeriodSize *
              (max params.fReturnAudioChannels params.fSendAudioChannels * 4) := Nat.mul_left_comm _ _ _
        _ ≤ params.packetAvailableSize := by
            rwa [ofSession_fSubPeriodSize, subPeriodFor_packetSize hfit hpacket]
  have hN' : (ofSession params (bufs.map .samples)).fNPorts = bufs.length := by simp [fNPorts]
  obtain ⟨net', hsend, -, -⟩ := renderToNetworkLE_ok (ofSession params (bufs.map .samples)) net
    sub_cycle (ofSession_fPortBuffer params (bufs.map .samples))
    (by rw [hoff, hk]; exact_mod_cast hend) (by rw [hN', hcap]; exact hfits)
  have h31 : bufs.length * (ofSession params (bufs.map .samples)).fSubPeriodBytesSize < 2 ^ 31 := by
    omega
  rw [hN', toInt32_natCast h31] at hsend
  exact ⟨hfits, net', renderToNetwork_eq_ok _ net sub_cycle host
    (by rw [ofSession_fSubPeriodBytesSize]; omega) hsend⟩

/-- Two ports of the 1500-byte session of two channels and 1024 frames, at sub-cycle 7 on a
big-endian host: 2 slices of 512 bytes, within the 1460 bytes of the packet. -/
theorem renderToNetwork_fits_packet_mtu1500 :
    2 * 512 ≤ 1460 ∧
    ∃ net', renderToNetwork .big (ofSession ⟨1500, 2, 2, 1024, by decide, by decide⟩
        ([fun i => BitVec.ofNat 32 i, fun _ => 0].map .samples)) ⟨1460, fun _ => 0⟩ 7 =
      .ok (net', ↑(2 * 512), 2) := by
  have hb : (ofSession ⟨1500, 2, 2, 1024, by decide, by decide⟩
      ([fun i => BitVec.ofNat 32 i, fun _ => 0].map .samples)).fSubPeriodBytesSize = 512 := by
    decide
  have h := renderToNetwork_fits_packet .big ⟨1500, 2, 2, 1024, by decide, by decide⟩
    [fun i => BitVec.ofNat 32 i, fun _ => 0] 7 ⟨1460, fun _ => 0⟩ (by decide) (by decide)
    (by decide) 8 (getNumPackets_eq_ok.mpr ⟨by decide, by decide⟩) (by decide) (by decide) rfl
  rw [hb] at h
  exact h

end JackPortList

end JackNet
