import JackNet.PortList.Optimized
import JackNet.PortList.ActivePorts

/-!
# The optimized layout carries every slice to its port

`RenderToNetwork` of `JackOptimizedPortList` (little-endian build) puts the `k`-th port with a
buffer into slot `k` of the packet: its index as a 32-bit word, then its slice of the sub-cycle.
`RenderFromNetwork` reads the index in front of slot `k` and copies the slice into that port when
the receiver has a buffer at position `k`: the code tests the position, not the port the slot
names. When the receiver has buffers at the first `port_num` positions and at every port the
sender sends, each packet carries every slice to its port, and a cycle of increasing sub-cycles
leaves the sender's samples in the received slices of each port.

The buffers here are host buffers or `NULL`; a `(sample_t*)-1` entry, which only
`ActivePortsFromNetwork` stores, has no samples to read or write.
-/

namespace JackNet

namespace JackOptimizedPortList

/-- What the cleanup leaves in an entry: a host buffer silent over the period, any other entry as
it was. -/
def clearedBuffer (periodSize : Nat) : PortBuffer → PortBuffer
  | .samples data => .samples (overwrite data 0 (List.replicate periodSize 0))
  | b => b

@[simp] theorem isSet_clearedBuffer (periodSize : Nat) (b : PortBuffer) :
    (clearedBuffer periodSize b).isSet = b.isSet := by
  cases b <;> rfl

/-! The send loop puts the active ports, in order, into consecutive slots of the packet. -/

section Send

variable (l : JackPortList) (net : NetBuffer) (sub_cycle : Int)

/-- A turn of the send loop on a port without a buffer sends nothing. -/
theorem sendActivePort_of_not_isSet {i pn : Nat} {b : PortBuffer} (hb : l.fPortBuffer[i]? = some b)
    (hset : b.isSet = false) : sendActivePort l sub_cycle i (net, pn) = .ok (net, pn) := by
  simp [sendActivePort, JackPortList.buffer_eq_ok.mpr hb, hset]
  rfl

/-- A turn of the send loop on a host buffer, sized as `GetNumPackets` sizes it, at a sub-cycle
inside the period and with room for slot `pn`: the port's index, then its slice, go to slot `pn`. -/
theorem sendActivePort_of_samples {i pn : Nat} {data : Nat → Sample}
    (hb : l.fPortBuffer[i]? = some (.samples data))
    (hbytes : l.fSubPeriodBytesSize = l.fSubPeriodSize * 4 + 4)
    (hper : unsignedOffset sub_cycle l.fSubPeriodSize + l.fSubPeriodSize ≤ l.fPeriodSize)
    (hend : pn * l.fSubPeriodBytesSize + l.fSubPeriodBytesSize ≤ net.capacity) :
    sendActivePort l sub_cycle i (net, pn) = .ok
      ((net.store .little (pn * l.fSubPeriodBytesSize) [BitVec.ofNat 32 i]).store .little
        (pn * l.fSubPeriodBytesSize + 4)
        (slice data (unsignedOffset sub_cycle l.fSubPeriodSize).toNat l.fSubPeriodSize), pn + 1) := by
  have hK : (l.fSubPeriodBytesSize - 4) / 4 = l.fSubPeriodSize := by omega
  have hread : l.readPort i (unsignedOffset sub_cycle l.fSubPeriodSize)
      ((l.fSubPeriodBytesSize - 4) / 4) =
      .ok (slice data (unsignedOffset sub_cycle l.fSubPeriodSize).toNat l.fSubPeriodSize) :=
    JackPortList.readPort_eq_ok.mpr ⟨data, hb, unsignedOffset_nonneg _ _, by rw [hK]; exact hper,
      by rw [hK]⟩
  simp only [sendActivePort, JackPortList.buffer_eq_ok.mpr hb, ok_bind, PortBuffer.isSet_samples,
    if_true, hread]
  rw [NetBuffer.writeSamples_eq_ok.mpr ⟨by simp; omega, rfl⟩, ok_bind,
    NetBuffer.writeSamples_eq_ok.mpr ⟨by simp; omega, rfl⟩]
  rfl

/-- `RenderToNetwork` of a list whose set buffers are host buffers, sized as `GetNumPackets`
sizes it, at a sub-cycle inside the period and into a packet with room for a slot per active
port: slot `k` holds the index of the `k`-th active port and then its slice of the sub-cycle. -/
theorem renderToNetworkLE_ok (hbufs : ∀ b ∈ l.fPortBuffer, b ≠ .remote)
    (hbytes : l.fSubPeriodBytesSize = l.fSubPeriodSize * 4 + 4)
    (hper : unsignedOffset sub_cycle l.fSubPeriodSize + l.fSubPeriodSize ≤ l.fPeriodSize)
    (hcap : l.activePorts * l.fSubPeriodBytesSize ≤ net.capacity) :
    ∃ net', renderToNetworkLE l net sub_cycle =
        .ok (net', toInt32 ↑(l.activePorts * l.fSubPeriodBytesSize), l.activePorts) ∧
      net'.capacity = net.capacity ∧ ∀ k q, l.activeIndices[k]? = some q →
        net'.word .little (k * l.fSubPeriodBytesSize) = BitVec.ofNat 32 q ∧
        ∃ data, l.fPortBuffer[q]? = some (.samples data) ∧
          net'.words .little (k * l.fSubPeriodBytesSize + 4) l.fSubPeriodSize =
            slice data (unsignedOffset sub_cycle l.fSubPeriodSize).toNat l.fSubPeriodSize := by
  have hrun := @forLoop_ok _ (sendActivePort l sub_cycle)
    (fun i (s : NetBuffer × Nat) => s.1.capacity = net.capacity ∧
      s.2 = (activeBelow l.fPortBuffer i).length ∧ ∀ k q, (activeBelow l.fPortBuffer i)[k]? = some q →
        s.1.word .little (k * l.fSubPeriodBytesSize) = BitVec.ofNat 32 q ∧
        ∃ data, l.fPortBuffer[q]? = some (.samples data) ∧
          s.1.words .little (k * l.fSubPeriodBytesSize + 4) l.fSubPeriodSize =
            slice data (unsignedOffset sub_cycle l.fSubPeriodSize).toNat l.fSubPeriodSize)
    l.fNPorts (net, 0) ⟨rfl, rfl, by simp⟩ ?_
  · obtain ⟨⟨net', pn⟩, hloop, hc, hpn, hslots⟩ := hrun
    have hpn' : pn = l.activePorts := hpn.trans (JackPortList.length_activeIndices l)
    subst hpn'
    exact ⟨net', by rw [renderToNetworkLE, hloop]; rfl, hc, hslots⟩
  intro i ⟨net₁, pn⟩ hi ⟨hc, hpn, hslots⟩
  dsimp only at hc hpn hslots
  obtain ⟨b, hb⟩ : ∃ b, l.fPortBuffer[i]? = some b := ⟨_, List.getElem?_eq_getElem hi⟩
  have hsucc : activeBelow l.fPortBuffer (i + 1) =
      activeBelow l.fPortBuffer i ++ if b.isSet then [i] else [] := by
    rw [activeBelow_succ, List.getD_eq_getElem?_getD, hb, Option.getD_some]
  cases hset : b.isSet with
  | false =>
    refine ⟨(net₁, pn), sendActivePort_of_not_isSet l net₁ sub_cycle hb hset, ?_⟩
    dsimp only
    rw [hsucc, hset, if_neg Bool.false_ne_true, List.append_nil]
    exact ⟨hc, hpn, hslots⟩
  | true =>
    obtain ⟨data, rfl⟩ : ∃ data, b = .samples data := by
      cases b with
      | null => cases hset
      | remote => exact absurd rfl (hbufs _ (List.getElem?_mem hb))
      | samples data => exact ⟨data, rfl⟩
    simp only [PortBuffer.isSet_samples, if_true] at hsucc
    -- slot `pn` lies inside the packet
    have hle := JackPortList.length_activeBelow_succ_le hi
    rw [hsucc, List.length_append, List.length_singleton] at hle
    have hend : (pn + 1) * l.fSubPeriodBytesSize ≤ net₁.capacity :=
      hc ▸ (Nat.mul_le_mul_right _ (hpn ▸ hle)).trans hcap
    rw [Nat.succ_mul] at hend
    refine ⟨_, sendActivePort_of_samples l net₁ sub_cycle hb hbytes hper hend, by simp [hc],
      by simp [hsucc, hpn], fun k q hk => ?_⟩
    rw [hsucc] at hk
    by_cases hk' : k < pn
    · -- an earlier slot, below the new one
      rw [List.getElem?_append_left (by omega)] at hk
      have hkp : k * l.fSubPeriodBytesSize + l.fSubPeriodBytesSize ≤ pn * l.fSubPeriodBytesSize := by
        rw [← Nat.succ_mul]; exact Nat.mul_le_mul_right _ hk'
      obtain ⟨hw, data', hd', hws⟩ := hslots k q hk
      refine ⟨?_, data', hd', ?_⟩
      · rw [NetBuffer.word_store_of_disjoint (Or.inl (by omega)),
          NetBuffer.word_store_of_disjoint (Or.inl (by omega)), hw]
      · rw [NetBuffer.words_store_of_disjoint (Or.inl (by omega)),
          NetBuffer.words_store_of_disjoint (Or.inl (by omega)), hws]
    · -- the new slot
      rw [List.getElem?_append_right (by omega)] at hk
      obtain ⟨hlt, hq⟩ := List.getElem?_eq_some_iff.mp hk
      rw [List.getElem_singleton] at hq
      subst hq
      obtain rfl : k = pn := by
        rw [List.length_singleton] at hlt
        omega
      have hslot := NetBuffer.store_slot net₁ .little (k * l.fSubPeriodBytesSize)
        (BitVec.ofNat 32 i) (slice data (unsignedOffset sub_cycle l.fSubPeriodSize).toNat
          l.fSubPeriodSize)
      rw [length_slice] at hslot
      exact ⟨hslot.1, data, hb, hslot.2⟩

end Send

/-! What the cleanup and the copy loop change when they complete, whatever the packet. -/

section Frame

variable {r : JackPortList} {net : NetBuffer} {sub_cycle : Int}

/-- A cleanup that completes silences every host buffer and keeps every other entry. -/
theorem cleanup_frame {r₁ : JackPortList} (h : cleanup r = .ok r₁) :
    r₁.fPeriodSize = r.fPeriodSize ∧ r₁.fPacketSize = r.fPacketSize ∧
      ∀ p : Nat, r₁.fPortBuffer[p]? = r.fPortBuffer[p]?.map (clearedBuffer r.fPeriodSize) := by
  have hinv := forLoop_inv (fun i (s : JackPortList) => s.fPeriodSize = r.fPeriodSize ∧
      s.fPacketSize = r.fPacketSize ∧ ∀ p : Nat, s.fPortBuffer[p]? = r.fPortBuffer[p]?.map
        fun b => if p < i then clearedBuffer r.fPeriodSize b else b)
    ⟨rfl, rfl, fun p => by simp⟩ (fun i s s' _ ⟨h1, h2, h3⟩ hbody => by
      obtain ⟨b, hb, hs'⟩ := bind_eq_ok.mp hbody
      have hsb := JackPortList.buffer_eq_ok.mp hb
      have hri : r.fPortBuffer[i]? = some b := by simpa using (h3 i).symm.trans hsb
      -- entry `i` ends cleared, the others stay as they were
      suffices hi : s'.fPeriodSize = s.fPeriodSize ∧ s'.fPacketSize = s.fPacketSize ∧
          s'.fPortBuffer[i]? = some (clearedBuffer r.fPeriodSize b) ∧
          ∀ p, i ≠ p → s'.fPortBuffer[p]? = s.fPortBuffer[p]? by
        refine ⟨hi.1.trans h1, hi.2.1.trans h2, fun p => ?_⟩
        by_cases hp : i = p
        · subst hp
          rw [hi.2.2.1, hri, Option.map_some', if_pos (Nat.lt_succ_self i)]
        · rw [hi.2.2.2 p hp, h3 p]
          simp only [show p < i + 1 ↔ p < i by omega]
      split at hs'
      · obtain ⟨data, hd, -, -, rfl⟩ := JackPortList.writePort_eq_ok.mp hs'
        obtain rfl := Option.some.inj (hsb.symm.trans hd)
        refine ⟨rfl, rfl, ?_, fun p hp => List.getElem?_set_ne hp⟩
        rw [JackPortList.withBuffer_fPortBuffer, List.getElem?_set_self
          (List.getElem?_eq_some_iff.mp hsb).1, h1]
        rfl
      · cases hs'
        refine ⟨rfl, rfl, ?_, fun _ _ => rfl⟩
        cases b with
        | null => exact hsb
        | _ => exact absurd rfl ‹_›) h
  obtain ⟨h1, h2, h3⟩ := hinv
  refine ⟨h1, h2, fun p => ?_⟩
  rw [h3 p]
  cases h : r.fPortBuffer[p]? with
  | none => rfl
  | some b => rw [Option.map_some', Option.map_some',
      if_pos (show p < r.fNPorts from (List.getElem?_eq_some_iff.mp h).1)]

/-- A copy loop that completes, on any packet, keeps which ports are `NULL` and changes only the
ports named by the indices in front of its slots. -/
theorem copyFromNetwork_frame {port_num : Nat} {r₂ : JackPortList}
    (h : copyFromNetwork r net sub_cycle port_num = .ok r₂) :
    r₂.fPortBuffer.map PortBuffer.isSet = r.fPortBuffer.map PortBuffer.isSet ∧
      ∀ p : Nat, (∀ k < port_num, (net.word .little
        (k * (subPeriodFor r.fPeriodSize r.fPacketSize port_num * 4 + 4) % 2 ^ 32)).toNat ≠ p) →
      r₂.fPortBuffer[p]? = r.fPortBuffer[p]? := by
  have hinv : _ ∧ _ := forLoop_inv (fun i (s : JackPortList) =>
      s.fPortBuffer.map PortBuffer.isSet = r.fPortBuffer.map PortBuffer.isSet ∧
      ∀ p : Nat, (∀ k < i, (net.word .little
        (k * (subPeriodFor r.fPeriodSize r.fPacketSize port_num * 4 + 4) % 2 ^ 32)).toNat ≠ p) →
      s.fPortBuffer[p]? = r.fPortBuffer[p]?)
    ⟨rfl, fun _ _ => rfl⟩ (fun i s s' _ ⟨h1, h2⟩ hbody => by
      obtain ⟨w, hw, hs'⟩ := bind_eq_ok.mp hbody
      obtain ⟨-, rfl⟩ := NetBuffer.readWord_eq_ok.mp hw
      obtain ⟨b, -, hs'⟩ := bind_eq_ok.mp hs'
      split at hs'
      · obtain ⟨src, -, hs'⟩ := bind_eq_ok.mp hs'
        obtain ⟨offset, -, hwp⟩ := bind_eq_ok.mp hs'
        obtain ⟨data, hd, -, -, rfl⟩ := JackPortList.writePort_eq_ok.mp hwp
        refine ⟨?_, fun p hp => ?_⟩
        · rw [JackPortList.map_isSet_withBuffer hd (PortBuffer.isSet_samples _), h1]
        rw [JackPortList.withBuffer_fPortBuffer, List.getElem?_set_ne (hp i (Nat.lt_succ_self i)),
          h2 p fun k hk => hp k (by omega)]
      · cases hs'
        exact ⟨h1, fun p hp => h2 p fun k hk => hp k (by omega)⟩) h
  exact hinv

end Frame

/-! The receive side: the cleanup, then each slice into the port its index names. -/

section Receive

variable (r : JackPortList) (net : NetBuffer) (sub_cycle : Int)

/-- The cleanup of a list whose set buffers are host buffers completes. -/
theorem cleanup_ok (hbufs : ∀ b ∈ r.fPortBuffer, b ≠ .remote) :
    ∃ r', cleanup r = .ok r' ∧ r'.fPeriodSize = r.fPeriodSize ∧ r'.fPacketSize = r.fPacketSize ∧
      ∀ p : Nat, r'.fPortBuffer[p]? = r.fPortBuffer[p]?.map (clearedBuffer r.fPeriodSize) := by
  have hrun : ∃ s : JackPortList, cleanup r = .ok s ∧ _ :=
    forLoop_ok (fun i (s : JackPortList) => s.fPeriodSize = r.fPeriodSize ∧
      ∀ p ≥ i, s.fPortBuffer[p]? = r.fPortBuffer[p]?) ⟨rfl, fun _ _ => rfl⟩ ?_
  · obtain ⟨r', hclean, -⟩ := hrun
    exact ⟨r', hclean, cleanup_frame hclean⟩
  intro i s hi ⟨h1, h2⟩
  obtain ⟨b, hb⟩ : ∃ b, r.fPortBuffer[i]? = some b := ⟨_, List.getElem?_eq_getElem hi⟩
  have hsb : s.fPortBuffer[i]? = some b := (h2 i le_rfl).trans hb
  have hbuf := JackPortList.buffer_eq_ok.mpr hsb
  cases b with
  | null => exact ⟨s, by simp [hbuf]; rfl, h1, fun p hp => h2 p (by omega)⟩
  | remote => exact absurd rfl (hbufs _ (List.getElem?_mem hb))
  | samples data =>
    refine ⟨s.withBuffer i (.samples (overwrite data (Int.toNat 0) (List.replicate s.fPeriodSize 0))),
      ?_, h1, fun p hp => ?_⟩
    · simp only [hbuf, ok_bind, PortBuffer.isSet_samples, if_true]
      exact JackPortList.writePort_eq_ok.mpr ⟨data, hsb, le_rfl, by simp, rfl⟩
    · rw [JackPortList.withBuffer_fPortBuffer, List.getElem?_set_ne (by omega), h2 p (by omega)]

/-- The copy loop, on a packet whose slot `k` names port `A[k]`, into a list with a buffer at the
first `A.length` positions and a host buffer at each port of `A`: port `A[k]` gets the samples of
slot `k` at `sub_cycle * P`; the ports out of `A` keep their buffers. -/
theorem copyFromNetwork_ok {A : List Nat} {P : Nat}
    (hP : subPeriodFor r.fPeriodSize r.fPacketSize A.length = P) (hA : A.Nodup)
    (hq : ∀ q ∈ A, q < 2 ^ 32)
    (hword : ∀ k q : Nat, A[k]? = some q → net.word .little (k * (P * 4 + 4)) = BitVec.ofNat 32 q)
    (hpos : ∀ k < A.length, (r.fPortBuffer.getD k .null).isSet)
    (hsamples : ∀ q ∈ A, ∃ data, r.fPortBuffer[q]? = some (.samples data))
    (hcap : A.length * (P * 4 + 4) ≤ net.capacity) (h32 : A.length * (P * 4 + 4) ≤ 2 ^ 32)
    (hoff : 0 ≤ sub_cycle * P ∧ sub_cycle * P + P ≤ r.fPeriodSize) (h31 : r.fPeriodSize < 2 ^ 31) :
    ∃ r', copyFromNetwork r net sub_cycle A.length = .ok r' ∧
      r'.fPeriodSize = r.fPeriodSize ∧ r'.fPacketSize = r.fPacketSize ∧
      (∀ k q : Nat, A[k]? = some q → ∃ data, r.fPortBuffer[q]? = some (.samples data) ∧
        r'.fPortBuffer[q]? = some (.samples (overwrite data (sub_cycle * P).toNat
          (net.words .little (k * (P * 4 + 4) + 4) P)))) ∧
      ∀ p, p ∉ A → r'.fPortBuffer[p]? = r.fPortBuffer[p]? := by
  have hrun : ∃ s : JackPortList, copyFromNetwork r net sub_cycle A.length = .ok s ∧ _ :=
    forLoop_ok (fun i (s : JackPortList) => s.fPeriodSize = r.fPeriodSize ∧
      s.fPacketSize = r.fPacketSize ∧
      (∀ k q : Nat, k < i → A[k]? = some q → ∃ data, r.fPortBuffer[q]? = some (.samples data) ∧
        s.fPortBuffer[q]? = some (.samples (overwrite data (sub_cycle * P).toNat
          (net.words .little (k * (P * 4 + 4) + 4) P)))) ∧
      ∀ p : Nat, (∀ k < i, A[k]? ≠ some p) → s.fPortBuffer[p]? = r.fPortBuffer[p]?)
      ⟨rfl, rfl, fun k _ hk => absurd hk (Nat.not_lt_zero k), fun _ _ => rfl⟩ ?_
  · obtain ⟨r', hcopy, h1, h2, h3, h4⟩ := hrun
    exact ⟨r', hcopy, h1, h2, fun k q hk => h3 k q (List.getElem?_eq_some_iff.mp hk).1 hk,
      fun p hp => h4 p fun k _ hk => hp (List.getElem?_mem hk)⟩
  intro i s hi ⟨h1, h2, h3, h4⟩
  obtain ⟨q, hAi⟩ : ∃ q, A[i]? = some q := ⟨_, List.getElem?_eq_getElem hi⟩
  have hqA : q ∈ A := List.getElem?_mem hAi
  -- no earlier slot named `q`, so its buffer is still the receiver's
  have hnew : ∀ k < i, A[k]? ≠ some q := fun k hk hAk => by
    have := List.getElem?_inj (by omega : k < A.length) hA (hAk.trans hAi.symm)
    omega
  obtain ⟨data, hdata⟩ := hsamples q hqA
  have hsq : s.fPortBuffer[q]? = some (.samples data) := (h4 q hnew).trans hdata
  -- slot `i` lies inside the packet, below `2 ^ 32`
  have hslot : i * (P * 4 + 4) + (P * 4 + 4) ≤ A.length * (P * 4 + 4) := by
    rw [← Nat.succ_mul]
    exact Nat.mul_le_mul_right _ hi
  have haddr : i * (P * 4 + 4) % 2 ^ 32 = i * (P * 4 + 4) := Nat.mod_eq_of_lt (by omega)
  -- position `i` has a buffer: the receiver's, or a slice copied into it
  obtain ⟨b, hb, hbset⟩ : ∃ b, s.fPortBuffer[i]? = some b ∧ b.isSet := by
    by_cases hex : ∃ k < i, A[k]? = some i
    · obtain ⟨k, hk, hAk⟩ := hex
      obtain ⟨_, -, h⟩ := h3 k i hk hAk
      exact ⟨_, h, rfl⟩
    · rw [h4 i fun k hk hAk => hex ⟨k, hk, hAk⟩]
      have := hpos i hi
      cases h : r.fPortBuffer[i]? with
      | none => simp [List.getD_eq_getElem?_getD, h] at this
      | some b => exact ⟨b, rfl, by simpa [List.getD_eq_getElem?_getD, h] using this⟩
  have hq32 : (BitVec.ofNat 32 q).toNat = q := by
    rw [BitVec.toNat_ofNat]
    exact Nat.mod_eq_of_lt (hq q hqA)
  refine ⟨s.withBuffer q (.samples (overwrite data (sub_cycle * P).toNat
    (net.words .little (i * (P * 4 + 4) + 4) P))), ?_, by simp [h1], by simp [h2],
    fun k q' hk hAk => ?_, fun p hp => ?_⟩
  · have hsrc : net.readSamples .little (i * (P * 4 + 4) + 4) P =
        .ok (net.words .little (i * (P * 4 + 4) + 4) P) :=
      NetBuffer.readSamples_eq_ok.mpr ⟨by omega, rfl⟩
    have hsig : signedResult (sub_cycle * P) = .ok (sub_cycle * P) :=
      signedResult_eq_ok.mpr ⟨rfl, by omega, by omega⟩
    simp only [hP, haddr, NetBuffer.readWord_eq_ok.mpr ⟨by omega, (hword i q hAi).symm⟩, ok_bind,
      JackPortList.buffer_eq_ok.mpr hb, hbset, if_true, hsrc, hsig, hq32]
    exact JackPortList.writePort_eq_ok.mpr ⟨data, hsq, hoff.1, by simpa [h1] using hoff.2, rfl⟩
  · rcases Nat.lt_succ_iff_lt_or_eq.mp hk with hk | rfl
    · obtain ⟨d, hd, hsd⟩ := h3 k q' hk hAk
      have hne : q ≠ q' := fun h => hnew k hk (h ▸ hAk)
      exact ⟨d, hd, by rw [JackPortList.withBuffer_fPortBuffer, List.getElem?_set_ne hne]; exact hsd⟩
    · obtain rfl : q' = q := Option.some.inj (hAk.symm.trans hAi)
      exact ⟨data, hdata, by simp [(List.getElem?_eq_some_iff.mp hsq).1]⟩
  · have hne : q ≠ p := fun h => hp i (Nat.lt_succ_self i) (h ▸ hAi)
    rw [JackPortList.withBuffer_fPortBuffer, List.getElem?_set_ne hne]
    exact h4 p fun k hk => hp k (by omega)

/-- `RenderFromNetwork` of such a packet, into a list whose set buffers are host buffers: the
cleanup first when the sub-cycle is `0`, then the copy loop and the loss check. -/
theorem renderFromNetworkLE_ok (cycle : Int) (copy_size : Nat) {A : List Nat} {P : Nat}
    (hbufs : ∀ b ∈ r.fPortBuffer, b ≠ .remote)
    (hP : subPeriodFor r.fPeriodSize r.fPacketSize A.length = P) (hA : A.Nodup)
    (hq : ∀ q ∈ A, q < 2 ^ 32)
    (hword : ∀ k q : Nat, A[k]? = some q → net.word .little (k * (P * 4 + 4)) = BitVec.ofNat 32 q)
    (hpos : ∀ k < A.length, (r.fPortBuffer.getD k .null).isSet)
    (hsamples : ∀ q ∈ A, ∃ data, r.fPortBuffer[q]? = some (.samples data))
    (hcap : A.length * (P * 4 + 4) ≤ net.capacity) (h32 : A.length * (P * 4 + 4) ≤ 2 ^ 32)
    (hoff : 0 ≤ sub_cycle * P ∧ sub_cycle * P + P ≤ r.fPeriodSize) (h31 : r.fPeriodSize < 2 ^ 31)
    (hlast : -2 ^ 31 ≤ r.fLastSubCycle + 1 ∧ r.fLastSubCycle + 1 < 2 ^ 31) :
    ∃ res r', renderFromNetworkLE r net cycle sub_cycle copy_size A.length = .ok (res, r') ∧
      r'.fPeriodSize = r.fPeriodSize ∧ r'.fPacketSize = r.fPacketSize ∧
      r'.fLastSubCycle = (if A.length = 0 then r.fLastSubCycle else sub_cycle) ∧
      (∀ k q : Nat, A[k]? = some q → ∃ data, r.fPortBuffer[q]? = some (.samples data) ∧
        r'.fPortBuffer[q]? = some (.samples (overwrite
          (if sub_cycle = 0 then overwrite data 0 (List.replicate r.fPeriodSize 0) else data)
          (sub_cycle * P).toNat (net.words .little (k * (P * 4 + 4) + 4) P)))) ∧
      ∀ p, p ∉ A → r'.fPortBuffer[p]? = if sub_cycle = 0 then
        r.fPortBuffer[p]?.map (clearedBuffer r.fPeriodSize) else r.fPortBuffer[p]? := by
  -- the list after the cleanup, if there is one
  obtain ⟨r₁, hclean, h1, h2, hl₁, h3⟩ : ∃ r₁, (if sub_cycle = 0 then cleanup r else pure r) =
      .ok r₁ ∧ r₁.fPeriodSize = r.fPeriodSize ∧ r₁.fPacketSize = r.fPacketSize ∧
      r₁.fLastSubCycle = r.fLastSubCycle ∧ ∀ p : Nat, r₁.fPortBuffer[p]? = if sub_cycle = 0 then
        r.fPortBuffer[p]?.map (clearedBuffer r.fPeriodSize) else r.fPortBuffer[p]? := by
    by_cases h0 : sub_cycle = 0
    · simp only [h0, if_true]
      obtain ⟨r₁, hclean, h⟩ := cleanup_ok r hbufs
      exact ⟨r₁, hclean, h.1, h.2.1, cleanup_fLastSubCycle hclean, h.2.2⟩
    · simp only [h0, if_false]
      exact ⟨r, rfl, rfl, rfl, rfl, fun _ => rfl⟩
  have hset (p : Nat) : (r₁.fPortBuffer.getD p .null).isSet = (r.fPortBuffer.getD p .null).isSet := by
    simp only [List.getD_eq_getElem?_getD, h3 p]
    split <;> cases r.fPortBuffer[p]? <;> simp
  have hdata {q : Nat} {data : Nat → Sample} (h : r.fPortBuffer[q]? = some (.samples data)) :
      r₁.fPortBuffer[q]? = some (.samples
        (if sub_cycle = 0 then overwrite data 0 (List.replicate r.fPeriodSize 0) else data)) := by
    rw [h3 q, h]
    split <;> rfl
  obtain ⟨r₂, hcopy, h1', h2', h4, h5⟩ := copyFromNetwork_ok r₁ net sub_cycle
    (by rw [h1, h2]; exact hP) hA hq hword (fun k hk => (hset k).trans (hpos k hk))
    (fun q hqA => by
      obtain ⟨data, h⟩ := hsamples q hqA
      exact ⟨_, hdata h⟩) hcap h32 (by rw [h1]; exact hoff) (by rw [h1]; exact h31)
  have hl₂ : r₂.fLastSubCycle = r.fLastSubCycle := (copyFromNetwork_fLastSubCycle hcopy).trans hl₁
  -- the list the call returns has the buffers the copy loop left
  obtain ⟨res, r', hrecv, hr', hr1, hr2, hr3⟩ : ∃ res r', renderFromNetworkLE r net cycle sub_cycle
      copy_size A.length = .ok (res, r') ∧ r'.fPortBuffer = r₂.fPortBuffer ∧
      r'.fPeriodSize = r.fPeriodSize ∧ r'.fPacketSize = r.fPacketSize ∧
      r'.fLastSubCycle = (if A.length = 0 then r.fLastSubCycle else sub_cycle) := by
    by_cases hn : A.length = 0
    · rw [hn] at hcopy ⊢
      simp only [copyFromNetwork, forLoop_zero, Except.ok.injEq] at hcopy
      subst hcopy
      exact ⟨0, r₁, by simp only [renderFromNetworkLE, hclean, ok_bind]; rfl, rfl, h1, h2, hl₁⟩
    · have hloss := JackPortList.lossCheck_eq_of_lt sub_cycle (l := r₂) (hl₂ ▸ hlast.1)
        (hl₂ ▸ hlast.2)
      exact ⟨_, { r₂ with fLastSubCycle := sub_cycle }, by
        simp only [renderFromNetworkLE, hclean, ok_bind, if_pos (Nat.pos_of_ne_zero hn), hcopy,
          hloss]; rfl, rfl, h1'.trans h1, h2'.trans h2, by simp [hn]⟩
  refine ⟨res, r', hrecv, hr1, hr2, hr3, fun k q hk => ?_, fun p hp => by rw [hr', h5 p hp, h3 p]⟩
  obtain ⟨d₁, hd₁, hq₁⟩ := h4 k q hk
  obtain ⟨data, hd⟩ := hsamples q (List.getElem?_mem hk)
  obtain rfl := PortBuffer.samples.inj (Option.some.inj ((hdata hd).symm.trans hd₁))
  exact ⟨data, hd, by rw [hr', hq₁]⟩

end Receive

/-- Whatever the packet, a `RenderFromNetwork` of the little-endian build that completes keeps
which ports are `NULL`, and changes no port that none of the `port_num` slots names, beyond the
cleanup at sub-cycle `0`. -/
theorem renderFromNetworkLE_writes_only_named_ports (r : JackPortList) (net : NetBuffer)
    (cycle sub_cycle : Int) (copy_size port_num : Nat) (res : Int) (r' : JackPortList) :
    renderFromNetworkLE r net cycle sub_cycle copy_size port_num = .ok (res, r') →
    r'.fPortBuffer.map PortBuffer.isSet = r.fPortBuffer.map PortBuffer.isSet ∧
      ∀ p : Nat, (∀ k < port_num, (net.word .little
        (k * (subPeriodFor r.fPeriodSize r.fPacketSize port_num * 4 + 4) % 2 ^ 32)).toNat ≠ p) →
      r'.fPortBuffer[p]? = if sub_cycle = 0 then
        r.fPortBuffer[p]?.map (clearedBuffer r.fPeriodSize) else r.fPortBuffer[p]? := by
  intro h
  obtain ⟨r₁, hclean, hrest⟩ := bind_eq_ok.mp h
  -- the list after the cleanup, if there is one
  have h₁ : r₁.fPeriodSize = r.fPeriodSize ∧ r₁.fPacketSize = r.fPacketSize ∧
      ∀ p : Nat, r₁.fPortBuffer[p]? = if sub_cycle = 0 then
        r.fPortBuffer[p]?.map (clearedBuffer r.fPeriodSize) else r.fPortBuffer[p]? := by
    split at hclean
    · obtain ⟨h1, h2, h3⟩ := cleanup_frame hclean
      exact ⟨h1, h2, fun p => by rw [if_pos ‹_›, h3 p]⟩
    · cases hclean
      exact ⟨rfl, rfl, fun p => by rw [if_neg ‹_›]⟩
  obtain ⟨hper, hpk, h3⟩ := h₁
  have hset₁ : r₁.fPortBuffer.map PortBuffer.isSet = r.fPortBuffer.map PortBuffer.isSet := by
    apply List.ext_getElem?
    intro p
    simp only [List.getElem?_map, h3 p]
    split <;> cases r.fPortBuffer[p]? <;> simp
  split at hrest
  · obtain ⟨r₂, hcopy, hres⟩ := bind_eq_ok.mp hrest
    obtain ⟨-, -, -, rfl⟩ := JackPortList.lossCheck_eq_ok.mp hres
    obtain ⟨hset₂, hframe⟩ := copyFromNetwork_frame hcopy
    rw [hper, hpk] at hframe
    exact ⟨hset₂.trans hset₁, fun p hp => (hframe p hp).trans (h3 p)⟩
  · obtain ⟨-, rfl⟩ := Prod.ext_iff.mp (Except.ok.inj hrest)
    exact ⟨hset₁, fun p _ => h3 p⟩

/-- A packet of one slot naming port 1, received at sub-cycle 0 by a list of two ports: port 0,
which no slot names, only goes through the cleanup. -/
theorem renderFromNetworkLE_writes_only_named_ports_slot1 :
    ∃ res r', renderFromNetworkLE (JackPortList.ofSession ⟨56, 1, 1, 4, by decide, by decide⟩
        [.samples fun _ => 7, .samples fun _ => 7]) ⟨20, fun i => if i = 0 then 1 else 0⟩ 0 0 20 1 =
        .ok (res, r') ∧
      r'.fPortBuffer[0]? = some (.samples (overwrite (fun _ => 7) 0 (List.replicate 4 0))) := by
  have hok : (renderFromNetworkLE (JackPortList.ofSession ⟨56, 1, 1, 4, by decide, by decide⟩
      [.samples fun _ => 7, .samples fun _ => 7]) ⟨20, fun i => if i = 0 then 1 else 0⟩ 0 0 20
      1).toOption.isSome := by
    decide
  cases hrun : renderFromNetworkLE (JackPortList.ofSession ⟨56, 1, 1, 4, by decide, by decide⟩
      [.samples fun _ => 7, .samples fun _ => 7]) ⟨20, fun i => if i = 0 then 1 else 0⟩ 0 0 20 1 with
  | error e => rw [hrun] at hok; cases hok
  | ok p =>
    refine ⟨p.1, p.2, rfl, ?_⟩
    have := (renderFromNetworkLE_writes_only_named_ports _ _ 0 0 20 1 p.1 p.2 hrun).2 0
      (by decide)
    simpa [clearedBuffer] using this

/-- One packet of the optimized layout on a little-endian host, from a sender sized by
`GetNumPackets` to a receiver with a buffer at the first `port_num` positions and at each port sent:
each such port gets the sender's slice, the others keep their buffers, silenced at sub-cycle `0`. -/
theorem deliver_packet (params : SessionParams) (sbufs : List PortBuffer) (n : Int)
    (l r : JackPortList) (net : NetBuffer) (cycle sub_cycle : Int) (copy_size : Nat) :
    getNumPackets (JackPortList.ofSession params sbufs) = .ok (n, l) →
    (∀ b ∈ sbufs, b ≠ .remote) → (∀ b ∈ r.fPortBuffer, b ≠ .remote) →
    r.fPeriodSize = params.fPeriodSize → r.fPacketSize = toInt32 (params.fMtu - sizeofPacketHeader) →
    -1 ≤ r.fLastSubCycle ∧ r.fLastSubCycle < 2 ^ 31 - 1 →
    sbufs.length < 2 ^ 32 → params.fPeriodSize < 2 ^ 31 →
    4 * l.activePorts ≤ params.packetAvailableSize → params.packetAvailableSize < 2 ^ 31 →
    0 ≤ sub_cycle → sub_cycle < n → l.activePorts * l.fSubPeriodBytesSize ≤ net.capacity →
    (∀ p, p < l.activePorts ∨ (sbufs.getD p .null).isSet → (r.fPortBuffer.getD p .null).isSet) →
    ∃ net' res r', renderToNetworkLE l net sub_cycle =
        .ok (net', toInt32 ↑(l.activePorts * l.fSubPeriodBytesSize), l.activePorts) ∧
      net'.capacity = net.capacity ∧
      renderFromNetworkLE r net' cycle sub_cycle copy_size l.activePorts = .ok (res, r') ∧
      r'.fPeriodSize = r.fPeriodSize ∧ r'.fPacketSize = r.fPacketSize ∧
      (-1 ≤ r'.fLastSubCycle ∧ r'.fLastSubCycle < 2 ^ 31 - 1) ∧
      (∀ (p : Nat) data rdata, sbufs[p]? = some (.samples data) →
        r.fPortBuffer[p]? = some (.samples rdata) → r'.fPortBuffer[p]? = some (.samples (overwrite
          (if sub_cycle = 0 then overwrite rdata 0 (List.replicate params.fPeriodSize 0) else rdata)
          (sub_cycle.toNat * l.fSubPeriodSize)
          (slice data (sub_cycle.toNat * l.fSubPeriodSize) l.fSubPeriodSize)))) ∧
      ∀ p : Nat, (sbufs.getD p .null).isSet = false → r'.fPortBuffer[p]? = if sub_cycle = 0 then
        r.fPortBuffer[p]?.map (clearedBuffer params.fPeriodSize) else r.fPortBuffer[p]? := by
  intro hl hs hr hrper hrpk hlast hN hper hfit hpacket h0 hsub hcap hrecv
  obtain ⟨-, hnl⟩ := (getNumPackets_eq_ok _).mp hl
  obtain ⟨hn, rfl⟩ := Prod.mk.inj hnl
  set l := resize (JackPortList.ofSession params sbufs) with hl_def
  rw [hn] at hsub
  have hb : l.fSubPeriodBytesSize = l.fSubPeriodSize * 4 + 4 := rfl
  have hA : l.activeIndices.length = l.activePorts := JackPortList.length_activeIndices l
  have hmem {p : Nat} : p ∈ l.activeIndices ↔ p < sbufs.length ∧ (sbufs.getD p .null).isSet := by
    simp [JackPortList.mem_activeIndices, hl_def, JackPortList.fNPorts]
  -- the slice of the sub-cycle lies in the period, below `2 ^ 31`
  obtain ⟨-, hoffU, hend⟩ := JackPortList.slice_le_period_of_lt_numPackets (l := l)
    (by simp only [hl_def, resize_fPeriodSize, JackPortList.ofSession_fPeriodSize]; omega) h0 hsub
  have hoff : sub_cycle * (l.fSubPeriodSize : Int) = ↑(sub_cycle.toNat * l.fSubPeriodSize) := by
    push_cast
    rw [Int.toNat_of_nonneg h0]
  have hn31 : l.numPackets < 2 ^ 31 := toInt32_lt _
  have hper' : l.fPeriodSize = params.fPeriodSize := rfl
  -- the slots of all active ports fit below `2 ^ 32`
  have h32 : l.activePorts * (l.fSubPeriodSize * 4 + 4) ≤ 2 ^ 32 := by
    rcases Nat.eq_zero_or_pos l.activePorts with h | h
    · simp [h]
    · have hmul := @subPeriodFor_mul_le params.fPeriodSize params.packetAvailableSize _ h
        (by omega)
      have hsps : l.fSubPeriodSize =
          subPeriodFor params.fPeriodSize params.packetAvailableSize l.activePorts :=
        subPeriodFor_packetSize hfit hpacket
      rw [← hsps] at hmul
      rw [Nat.mul_add, Nat.mul_comm l.activePorts, Nat.mul_assoc, Nat.mul_comm 4 l.activePorts]
      omega
  obtain ⟨net', hsend, hc, hslots⟩ := renderToNetworkLE_ok l net sub_cycle
    (by simpa [hl_def] using hs) hb (by rw [hoffU]; exact_mod_cast hend) hcap
  have hP : subPeriodFor r.fPeriodSize r.fPacketSize l.activeIndices.length = l.fSubPeriodSize := by
    rw [hA, hrper, hrpk]
    rfl
  obtain ⟨res, r', hrecv', hr1, hr2, hr3, h4, h5⟩ := renderFromNetworkLE_ok r net' sub_cycle cycle
    copy_size (P := l.fSubPeriodSize) hr hP ((List.nodup_range _).sublist (List.filter_sublist _))
    (fun q hq => (hmem.mp hq).1.trans hN) (fun k q hk => by rw [← hb]; exact (hslots k q hk).1)
    (fun k hk => hrecv k (.inl (hA ▸ hk)))
    (fun q hq => exists_samples_of_isSet hr (hrecv q (.inr (hmem.mp hq).2)))
    (by rw [hA, ← hb, hc]; exact hcap) (by rw [hA]; exact h32)
    (by rw [hoff, hrper]; exact ⟨by omega, by omega⟩) (by omega) ⟨by omega, by omega⟩
  rw [hA] at hrecv' hr3
  refine ⟨net', res, r', hsend, hc, hrecv', hr1, hr2, by split at hr3 <;> omega,
    fun p data rdata hd hrd => ?_, fun p hp => ?_⟩
  · have hpA : p ∈ l.activeIndices :=
      hmem.mpr ⟨(List.getElem?_eq_some_iff.mp hd).1, by simp [List.getD_eq_getElem?_getD, hd]⟩
    obtain ⟨k, hk⟩ := List.mem_iff_getElem?.mp hpA
    obtain ⟨-, data', hd', hws⟩ := hslots k p hk
    obtain rfl : data' = data := PortBuffer.samples.inj (Option.some.inj (hd'.symm.trans (by
      simpa [hl_def] using hd)))
    obtain ⟨rdata', hrd', hr'⟩ := h4 k p hk
    obtain rfl : rdata' = rdata := PortBuffer.samples.inj (Option.some.inj (hrd'.symm.trans hrd))
    rw [hr', hoff, ← hb, hws, hoffU, Int.toNat_ofNat, hrper]
  · have hpA : p ∉ l.activeIndices := fun h => Bool.eq_false_iff.mp hp (hmem.mp h).2
    rw [h5 p hpA, hrper]

end JackOptimizedPortList

end JackNet
