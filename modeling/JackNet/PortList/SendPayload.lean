import JackNet.PortList.OptimizedTransfer

/-!
# What a send puts in the packet

`RenderToNetwork` copies each port's slice of the sub-cycle into the packet buffer and returns how
many bytes it filled; the driver sends those bytes. Beyond the slices landing at their places, two
things matter: every byte below the returned size is written by this send, so nothing the buffer
held before goes out, and no byte from that size on is touched.

Both follow from one closed form per layout: the send is a single little-endian copy, from byte 0,
of the words the layout sends. For the fixed layout that is every port's slice in port order, on
either build (`renderToNetwork_payload`); for the optimized layout, each port with a buffer as its
index and then its slice (`renderToNetworkLE_payload`).
-/

namespace JackNet

/-- `n` slices of `P` samples are `n * P` samples. -/
theorem length_flatMap_slice (bufs : List (Nat → Sample)) (offset P : Nat) :
    (bufs.flatMap fun data => slice data offset P).length = bufs.length * P := by
  induction bufs with
  | nil => simp
  | cons data bufs ih =>
    rw [List.flatMap_cons, List.length_append, length_slice, ih, List.length_cons, Nat.succ_mul,
      Nat.add_comm]

namespace JackPortList

/-- The send loop of the fixed layout on a little-endian host is one copy of every port's slice,
in port order. -/
theorem renderToNetworkLE_eq_store (l : JackPortList) (net : NetBuffer) (sub_cycle : Int)
    {bufs : List (Nat → Sample)} (hbufs : l.fPortBuffer = bufs.map .samples)
    (hbytes : l.fSubPeriodBytesSize = l.fSubPeriodSize * 4)
    (hper : unsignedOffset sub_cycle l.fSubPeriodSize + l.fSubPeriodSize ≤ l.fPeriodSize)
    (hcap : bufs.length * l.fSubPeriodBytesSize ≤ net.capacity) :
    l.renderToNetworkLE net sub_cycle = .ok (net.store .little 0 (bufs.flatMap fun data =>
        slice data (unsignedOffset sub_cycle l.fSubPeriodSize).toNat l.fSubPeriodSize),
      toInt32 ↑(bufs.length * l.fSubPeriodBytesSize), bufs.length) := by
  have hN : l.fNPorts = bufs.length := by simp [fNPorts, hbufs]
  have hk : l.fSubPeriodBytesSize / 4 = l.fSubPeriodSize := by omega
  -- the packet after the first `i` ports
  let sent (i : Nat) := net.store .little 0 ((bufs.take i).flatMap fun data =>
    slice data (unsignedOffset sub_cycle l.fSubPeriodSize).toNat l.fSubPeriodSize)
  rw [renderToNetworkLE, forLoop_eq_of_step sent (by simp [sent]) fun i hi => ?_, ok_bind, hN]
  · simp only [sent, List.take_of_length_le le_rfl]
    rfl
  obtain ⟨data, hd⟩ : ∃ data, bufs[i]? = some data := ⟨_, List.getElem?_eq_getElem (hN ▸ hi)⟩
  have hlen := length_flatMap_slice (bufs.take i)
    (unsignedOffset sub_cycle l.fSubPeriodSize).toNat l.fSubPeriodSize
  rw [List.length_take_of_le (hN ▸ hi).le] at hlen
  have hend : i * l.fSubPeriodBytesSize + 4 * (l.fSubPeriodBytesSize / 4) ≤ (sent i).capacity :=
    (slot_end_le (hN ▸ hi) (by omega)).trans (hN ▸ hcap)
  rw [(sendPort_little_eq_ok l (sent i) i _ _).mpr ⟨data, by simp [hbufs, hd],
    unsignedOffset_nonneg _ _, by rw [hk]; exact hper, hend, rfl⟩]
  simp only [sent, List.take_succ, hd, Option.toList_some, List.flatMap_append, List.flatMap_cons,
    List.flatMap_nil, List.append_nil, ← NetBuffer.store_append, hlen, hk, Nat.zero_add]
  rw [hbytes, Nat.mul_comm _ 4, Nat.mul_left_comm]

/-- The send of the fixed layout, on either build, is one copy of the ports' slices, in port
order, to the start of the packet, and nothing past them. -/
theorem renderToNetwork_payload (host : ByteOrder) (params : SessionParams)
    (bufs : List (Nat → Sample)) (net : NetBuffer) (sub_cycle n : Int) :
    let l := ofSession params (bufs.map .samples)
    l.getNumPackets = .ok n → 0 ≤ sub_cycle → sub_cycle < n →
    bufs.length * l.fSubPeriodBytesSize ≤ net.capacity →
    renderToNetwork host l net sub_cycle = .ok (net.store .little 0 (bufs.flatMap fun data =>
        slice data (sub_cycle.toNat * l.fSubPeriodSize) l.fSubPeriodSize),
      toInt32 ↑(bufs.length * l.fSubPeriodBytesSize), bufs.length) := by
  intro l hn h0 hsub hcap
  obtain ⟨hP, hoff, hend⟩ := slice_le_period_of_lt_numPackets params.fPeriodSize_lt h0
    ((getNumPackets_eq_ok.mp hn).2 ▸ hsub)
  have h := renderToNetworkLE_eq_store l net sub_cycle (ofSession_fPortBuffer params _) rfl
    (by rw [hoff]; exact_mod_cast hend) hcap
  rw [hoff, Int.toNat_ofNat] at h
  exact renderToNetwork_eq_ok l net sub_cycle host (show 4 ≤ l.fSubPeriodSize * 4 by omega) h

/-- A session of 8 frames and two channels, so one packet of 8 frames per port, on a big-endian
host, into a packet whose bytes all held `0xff`: byte 4 is the low byte of port 0's sample 1,
byte 63 the high byte of port 1's sample 7, and byte 64, past the 64 bytes reported, still holds
`0xff`. -/
theorem renderToNetwork_payload_small_period :
    ∃ net', renderToNetwork .big (ofSession ⟨1500, 2, 2, 8, by decide, by decide⟩
        ([fun i => BitVec.ofNat 32 i, fun i => BitVec.ofNat 32 (i * 2 ^ 24)].map .samples))
        ⟨1460, fun _ => 0xff⟩ 0 = .ok (net', 64, 2) ∧
      net'.byte 4 = 1 ∧ net'.byte 63 = 7 ∧ net'.byte 64 = 0xff := by
  have h := renderToNetwork_payload .big ⟨1500, 2, 2, 8, by decide, by decide⟩
    [fun i => BitVec.ofNat 32 i, fun i => BitVec.ofNat 32 (i * 2 ^ 24)] ⟨1460, fun _ => 0xff⟩ 0 1
    (getNumPackets_eq_ok.mpr ⟨by decide, by decide⟩) le_rfl (by decide) (by decide)
  exact ⟨_, h, by decide, by decide, by decide⟩

end JackPortList

namespace JackOptimizedPortList

/-- The words the first `i` turns of the optimized send loop store from byte 0 of the packet: for
each port below `i` with a host buffer, in port order, its index and then its `P` samples from
`offset`. -/
def slotWordsBelow (bufs : List PortBuffer) (offset P i : Nat) : List Sample :=
  (List.range i).flatMap fun q => match bufs.getD q .null with
    | .samples data => BitVec.ofNat 32 q :: slice data offset P
    | _ => []

/-- The words the optimized layout sends, from byte 0 of the packet: those of every port. -/
def slotWords (bufs : List PortBuffer) (offset P : Nat) : List Sample :=
  slotWordsBelow bufs offset P bufs.length

/-- Each port with a buffer sends its index and `P` samples. -/
theorem length_slotWordsBelow {bufs : List PortBuffer} (hbufs : ∀ b ∈ bufs, b ≠ .remote)
    (offset P i : Nat) :
    (slotWordsBelow bufs offset P i).length = (activeBelow bufs i).length * (P + 1) := by
  induction i with
  | zero => simp [slotWordsBelow]
  | succ i ih =>
    simp only [slotWordsBelow, List.range_succ, List.flatMap_append, List.length_append] at ih ⊢
    rw [ih, activeBelow_succ, List.length_append]
    simp only [List.flatMap_cons, List.flatMap_nil, List.append_nil]
    cases hb : bufs.getD i .null with
    | null => simp
    | remote =>
      refine absurd rfl (hbufs .remote ?_)
      rw [List.getD_eq_getElem?_getD] at hb
      cases hq : bufs[i]? with
      | none => simp [hq] at hb
      | some b => exact (Option.getD_some ▸ hq ▸ hb) ▸ List.getElem?_mem hq
    | samples data => simp [Nat.succ_mul]

theorem slotWordsBelow_succ (bufs : List PortBuffer) (offset P i : Nat) :
    slotWordsBelow bufs offset P (i + 1) = slotWordsBelow bufs offset P i ++
      match bufs.getD i .null with
      | .samples data => BitVec.ofNat 32 i :: slice data offset P
      | _ => [] := by
  simp only [slotWordsBelow, List.range_succ, List.flatMap_append, List.flatMap_cons,
    List.flatMap_nil, List.append_nil]

section Send

variable (l : JackPortList) (net : NetBuffer) (sub_cycle : Int)

/-- The send loop of the optimized layout is one copy of its slots: each port with a buffer, in
port order, as its index and then its slice. -/
theorem renderToNetworkLE_eq_store (hbufs : ∀ b ∈ l.fPortBuffer, b ≠ .remote)
    (hbytes : l.fSubPeriodBytesSize = l.fSubPeriodSize * 4 + 4)
    (hper : unsignedOffset sub_cycle l.fSubPeriodSize + l.fSubPeriodSize ≤ l.fPeriodSize)
    (hcap : l.activePorts * l.fSubPeriodBytesSize ≤ net.capacity) :
    renderToNetworkLE l net sub_cycle = .ok (net.store .little 0 (slotWords l.fPortBuffer
        (unsignedOffset sub_cycle l.fSubPeriodSize).toNat l.fSubPeriodSize),
      toInt32 ↑(l.activePorts * l.fSubPeriodBytesSize), l.activePorts) := by
  rw [renderToNetworkLE, forLoop_eq_of_step (fun i => (net.store .little 0 (slotWordsBelow
    l.fPortBuffer (unsignedOffset sub_cycle l.fSubPeriodSize).toNat l.fSubPeriodSize i),
    (activeBelow l.fPortBuffer i).length)) (by simp [slotWordsBelow]) fun i hi => ?_, ok_bind]
  · rw [show (activeBelow l.fPortBuffer l.fNPorts).length = l.activePorts from
      JackPortList.length_activeIndices l]
    rfl
  obtain ⟨b, hb⟩ : ∃ b, l.fPortBuffer[i]? = some b := ⟨_, List.getElem?_eq_getElem hi⟩
  have hget : l.fPortBuffer.getD i .null = b := by simp [List.getD_eq_getElem?_getD, hb]
  have hle := JackPortList.length_activeBelow_succ_le hi
  dsimp only
  rw [slotWordsBelow_succ, activeBelow_succ, hget] at *
  cases b with
  | null =>
    rw [sendActivePort_of_not_isSet l _ sub_cycle hb rfl]
    simp
  | remote => exact absurd rfl (hbufs _ (List.getElem?_mem hb))
  | samples data =>
    simp only [PortBuffer.isSet_samples, if_true, List.length_append, List.length_singleton]
      at hle ⊢
    -- the slot lies inside the packet, right after the words before it
    have hend : (activeBelow l.fPortBuffer i).length * l.fSubPeriodBytesSize +
        l.fSubPeriodBytesSize ≤ (net.store .little 0 (slotWordsBelow l.fPortBuffer
          (unsignedOffset sub_cycle l.fSubPeriodSize).toNat l.fSubPeriodSize i)).capacity := by
      rw [NetBuffer.capacity_store, ← Nat.succ_mul]
      exact (Nat.mul_le_mul_right _ hle).trans hcap
    have hat : (activeBelow l.fPortBuffer i).length * l.fSubPeriodBytesSize = 0 + 4 *
        (slotWordsBelow l.fPortBuffer (unsignedOffset sub_cycle l.fSubPeriodSize).toNat
          l.fSubPeriodSize i).length := by
      rw [length_slotWordsBelow hbufs, hbytes, Nat.zero_add,
        show l.fSubPeriodSize * 4 + 4 = 4 * (l.fSubPeriodSize + 1) by omega, Nat.mul_left_comm]
    generalize slotWordsBelow l.fPortBuffer (unsignedOffset sub_cycle l.fSubPeriodSize).toNat
      l.fSubPeriodSize i = words at hend hat ⊢
    rw [sendActivePort_of_samples l _ sub_cycle hb hbytes hper hend, hat, NetBuffer.store_append,
      show 0 + 4 * words.length + 4 = 0 + 4 * (words ++ [BitVec.ofNat 32 i]).length by
        simp [Nat.mul_add], NetBuffer.store_append]
    simp

end Send

/-- The send of the optimized layout, sized by `GetNumPackets`, is one copy of its slots to the
start of the packet: each active port's index and slice, in port order, and nothing past them. -/
theorem renderToNetworkLE_payload (params : SessionParams) (sbufs : List PortBuffer)
    (net : NetBuffer) (sub_cycle n : Int) (l : JackPortList) :
    getNumPackets (JackPortList.ofSession params sbufs) = .ok (n, l) →
    (∀ b ∈ sbufs, b ≠ .remote) → 0 ≤ sub_cycle → sub_cycle < n →
    l.activePorts * l.fSubPeriodBytesSize ≤ net.capacity →
    renderToNetworkLE l net sub_cycle = .ok (net.store .little 0
        (slotWords sbufs (sub_cycle.toNat * l.fSubPeriodSize) l.fSubPeriodSize),
      toInt32 ↑(l.activePorts * l.fSubPeriodBytesSize), l.activePorts) := by
  intro hl hs h0 hsub hcap
  obtain ⟨hn, hper, hbufs, -, hb⟩ := getNumPackets_ok_fields _ hl
  rw [JackPortList.ofSession_fPortBuffer] at hbufs
  obtain ⟨-, hoff, hend⟩ := JackPortList.slice_le_period_of_lt_numPackets
    (by rw [hper]; simpa using params.fPeriodSize_lt) h0 (hn ▸ hsub)
  have h := renderToNetworkLE_eq_store l net sub_cycle (hbufs ▸ hs) hb
    (by rw [hoff]; exact_mod_cast hend) hcap
  rwa [hoff, Int.toNat_ofNat, hbufs] at h

/-- A session of 8 frames, its second port alone with a buffer, into a packet whose bytes all held
`0xff`: one slot of 36 bytes, port index 1 in byte 0, the low byte of the port's sample 0 in
byte 4, and byte 36, past the slot, still `0xff`. -/
theorem renderToNetworkLE_payload_second_port :
    ∃ net', renderToNetworkLE (resize (JackPortList.ofSession
        ⟨1500, 2, 2, 8, by decide, by decide⟩ [.null, .samples fun i => BitVec.ofNat 32 (i + 5)]))
        ⟨1460, fun _ => 0xff⟩ 0 = .ok (net', 36, 1) ∧
      net'.byte 0 = 1 ∧ net'.byte 4 = 5 ∧ net'.byte 36 = 0xff := by
  have hl : getNumPackets (JackPortList.ofSession ⟨1500, 2, 2, 8, by decide, by decide⟩
      [.null, .samples fun i => BitVec.ofNat 32 (i + 5)]) = .ok (1, resize (JackPortList.ofSession
        ⟨1500, 2, 2, 8, by decide, by decide⟩ [.null, .samples fun i => BitVec.ofNat 32 (i + 5)])) :=
    (getNumPackets_eq_ok _).mpr ⟨by decide, Prod.ext (by decide) rfl⟩
  have h := renderToNetworkLE_payload ⟨1500, 2, 2, 8, by decide, by decide⟩
    [.null, .samples fun i => BitVec.ofNat 32 (i + 5)] ⟨1460, fun _ => 0xff⟩ 0 1 _ hl
    (by simp) le_rfl (by decide) (by decide)
  exact ⟨_, h, by decide, by decide, by decide⟩

end JackOptimizedPortList

end JackNet
