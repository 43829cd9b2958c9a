import JackNet.PortList.OptimizedTransfer

/-!
# A cycle of the optimized layout

A cycle sends sub-cycles of the period one packet at a time, each received before the next is
sent. `RenderFromNetwork` of `JackOptimizedPortList` (little-endian build) silences every receiving
port over the whole period when the packet of sub-cycle `0` arrives, and only then copies its
slice. On a network that loses, repeats or reorders packets, a cycle therefore keeps exactly the
slices that arrived from the last packet of sub-cycle `0` on (`sinceCleanup`): a late packet `0`
wipes out the slices received before it. A cycle of increasing sub-cycles keeps them all.
-/

namespace JackNet

namespace JackOptimizedPortList

/-- A cycle of the optimized layout: for each sub-cycle in turn, the sender's `RenderToNetwork`
into the packet buffer, then the receiver's `RenderFromNetwork` of that packet, with the size and
`port_num` the send returned. -/
def exchangeCycle (l : JackPortList) (cycle : Int) :
    NetBuffer → JackPortList → List Int → Except Fault JackPortList
  | _, r, [] => .ok r
  | net, r, sub_cycle :: sub_cycles => do
    let (net, size, port_num) ← renderToNetworkLE l net sub_cycle
    let (_, r) ← renderFromNetworkLE r net cycle sub_cycle size.toNat port_num
    exchangeCycle l cycle net r sub_cycles

/-- The samples of a port the sender sends as `data`, whose receiving buffer held `rdata` at the
start of the cycle, once the sub-cycles `done` of sub-period `P` have arrived: the sender's inside
each received slice; else silence over the period once sub-cycle `0` has come; else `rdata`. -/
def receivedSamples (data rdata : Nat → Sample) (periodSize P : Nat) (done : List Int) :
    Nat → Sample := fun j =>
  if ∃ s ∈ done, s.toNat * P ≤ j ∧ j < s.toNat * P + P then data j
  else if 0 ∈ done ∧ j < periodSize then 0 else rdata j

/-- The sub-cycles of `done` from the last `0` on, or all of `done` when none is `0`: the packets
whose slices survive the cleanup. -/
def sinceCleanup : List Int → List Int
  | [] => []
  | s :: ss => if (0 : Int) ∈ ss then sinceCleanup ss else s :: ss

theorem sinceCleanup_append_singleton (done : List Int) (s : Int) :
    sinceCleanup (done ++ [s]) = if s = 0 then [0] else sinceCleanup done ++ [s] := by
  induction done with
  | nil => by_cases hs : s = 0 <;> simp [sinceCleanup, hs]
  | cons d ds ih =>
    by_cases hs : s = 0
    · subst hs
      simp [sinceCleanup, ih]
    · by_cases h0 : (0 : Int) ∈ ds <;> simp [sinceCleanup, hs, Ne.symm hs, h0, ih]

theorem mem_of_mem_sinceCleanup {done : List Int} {s : Int} (h : s ∈ sinceCleanup done) :
    s ∈ done := by
  induction done with
  | nil => exact h
  | cons d ds ih =>
    simp only [sinceCleanup] at h
    split at h
    · exact .tail _ (ih h)
    · exact h

@[simp] theorem zero_mem_sinceCleanup (done : List Int) : 0 ∈ sinceCleanup done ↔ 0 ∈ done := by
  induction done with
  | nil => rfl
  | cons d ds ih =>
    simp only [sinceCleanup]
    split <;> simp_all

@[simp] theorem clearedBuffer_clearedBuffer (periodSize : Nat) (b : PortBuffer) :
    clearedBuffer periodSize (clearedBuffer periodSize b) = clearedBuffer periodSize b := by
  cases b with
  | samples data =>
    simp only [clearedBuffer, PortBuffer.samples.injEq]
    funext j
    simp only [overwrite]
    split <;> simp_all
  | null | remote => rfl

/-- An increasing list of sub-cycles has its `0`, if any, first: every packet survives. -/
theorem sinceCleanup_of_pairwise {done : List Int} (h : done.Pairwise (· < ·))
    (h0 : ∀ s ∈ done, 0 ≤ s) : sinceCleanup done = done := by
  cases done with
  | nil => rfl
  | cons s ss =>
    have hss : (0 : Int) ∉ ss := fun hm => by
      have := (List.pairwise_cons.mp h).1 0 hm
      have := h0 s (.head _)
      omega
    simp [sinceCleanup, hss]

section ReceivedSamples

variable (data rdata : Nat → Sample) (periodSize P : Nat)

@[simp] theorem receivedSamples_nil : receivedSamples data rdata periodSize P [] = rdata := by
  funext j
  simp [receivedSamples]

/-- Past the period, where no slice lies, a receiving port keeps its own samples. -/
theorem receivedSamples_of_period_le {done : List Int}
    (hdone : ∀ s ∈ done, s.toNat * P + P ≤ periodSize) {j : Nat} (hj : periodSize ≤ j) :
    receivedSamples data rdata periodSize P done j = rdata j := by
  have hslice : ¬∃ s ∈ done, s.toNat * P ≤ j ∧ j < s.toNat * P + P := fun ⟨s, hs, _, h⟩ => by
    have := hdone s hs
    omega
  simp only [receivedSamples, if_neg hslice, Nat.not_lt.mpr hj, and_false, if_false]

/-- One more packet, of any sub-cycle, as `RenderFromNetwork` applies it: the cleanup when it is
sub-cycle `0`, then its slice. The surviving packets are those since the last cleanup. -/
theorem receivedSamples_sinceCleanup_append_singleton {done : List Int} (s : Int)
    (hdone : ∀ s ∈ done, s.toNat * P + P ≤ periodSize) :
    overwrite (if s = 0 then overwrite (receivedSamples data rdata periodSize P (sinceCleanup done))
        0 (List.replicate periodSize 0)
      else receivedSamples data rdata periodSize P (sinceCleanup done))
      (s.toNat * P) (slice data (s.toNat * P) P) =
      receivedSamples data rdata periodSize P (sinceCleanup (done ++ [s])) := by
  funext j
  rw [sinceCleanup_append_singleton]
  simp only [overwrite, length_slice]
  by_cases hj : s.toNat * P ≤ j ∧ j < s.toNat * P + P
  · have hs : s ∈ (if s = 0 then [0] else sinceCleanup done ++ [s]) := by split <;> simp_all
    rw [if_pos hj, getD_slice _ _ (by omega), receivedSamples, if_pos ⟨s, hs, hj⟩]
    congr 1
    omega
  · rw [if_neg hj]
    by_cases hs : s = 0
    · subst hs
      have hj' : P ≤ j := by
        simp only [Int.toNat_zero, Nat.zero_mul, Nat.zero_add, Nat.zero_le, true_and,
          Nat.not_lt] at hj
        exact hj
      have hfirst : ¬∃ s ∈ [(0 : Int)], s.toNat * P ≤ j ∧ j < s.toNat * P + P := by
        simp only [List.mem_singleton, exists_eq_left, Int.toNat_zero]
        omega
      rw [if_pos rfl, if_pos rfl, receivedSamples, if_neg hfirst]
      simp only [overwrite, List.length_replicate, Nat.zero_le, true_and, Nat.zero_add,
        Nat.sub_zero, List.mem_singleton]
      by_cases hjp : j < periodSize
      · simp [hjp, List.getD_eq_getElem?_getD, List.getElem?_replicate]
      · simp only [hjp, and_false, if_false]
        exact receivedSamples_of_period_le _ _ _ _
          (fun s' h => hdone s' (mem_of_mem_sinceCleanup h)) (by omega)
    · simp only [if_neg hs, receivedSamples, List.mem_append, List.mem_singleton, or_and_right,
        exists_or, exists_eq_left, hj, or_false, Ne.symm hs]

end ReceivedSamples

/-- What a receiving list holds after the sub-cycles `done` of a cycle, for a sender with the
buffers `sbufs` and a receiver that started the cycle with `rbufs`, at sub-period `P`. -/
structure Received (params : SessionParams) (sbufs rbufs : List PortBuffer) (P : Nat)
    (done : List Int) (r : JackPortList) : Prop where
  fPeriodSize_eq : r.fPeriodSize = params.fPeriodSize
  fPacketSize_eq : r.fPacketSize = toInt32 (params.fMtu - sizeofPacketHeader)
  /-- The last sub-cycle, `-1` or one of the period: the loss check adds one without overflow. -/
  fLastSubCycle_mem : -1 ≤ r.fLastSubCycle ∧ r.fLastSubCycle < 2 ^ 31 - 1
  /-- The received samples in each port the sender sends. -/
  sent : ∀ (p : Nat) data rdata, sbufs[p]? = some (.samples data) →
    rbufs[p]? = some (.samples rdata) →
    r.fPortBuffer[p]? = some (.samples (receivedSamples data rdata params.fPeriodSize P done))
  /-- Every other port keeps its own buffer, silenced once sub-cycle `0` has come. -/
  unsent : ∀ p : Nat, (sbufs.getD p .null).isSet = false → r.fPortBuffer[p]? =
    if 0 ∈ done then rbufs[p]?.map (clearedBuffer params.fPeriodSize) else rbufs[p]?

/-- A list in such a state holds host buffers or `NULL`, `NULL` exactly where the receiver's
buffers were, when the receiver has a buffer at every port the sender sends. -/
theorem Received.buffers {params : SessionParams} {sbufs rbufs : List PortBuffer} {P : Nat}
    {done : List Int} {r : JackPortList} (hR : Received params sbufs rbufs P done r)
    (hs : ∀ b ∈ sbufs, b ≠ .remote) (hr : ∀ b ∈ rbufs, b ≠ .remote)
    (hrecv : ∀ p, (sbufs.getD p .null).isSet → (rbufs.getD p .null).isSet) :
    (∀ b ∈ r.fPortBuffer, b ≠ .remote) ∧
      ∀ p, (r.fPortBuffer.getD p .null).isSet = (rbufs.getD p .null).isSet := by
  have hport (p : Nat) : (∀ b, r.fPortBuffer[p]? = some b → b ≠ .remote) ∧
      (r.fPortBuffer.getD p .null).isSet = (rbufs.getD p .null).isSet := by
    cases hsp : (sbufs.getD p .null).isSet with
    | true =>
      obtain ⟨data, hd⟩ := exists_samples_of_isSet hs hsp
      obtain ⟨rdata, hrd⟩ := exists_samples_of_isSet hr (hrecv p hsp)
      have hp := hR.sent p data rdata hd hrd
      refine ⟨fun b hb => ?_, by simp [List.getD_eq_getElem?_getD, hp, hrd]⟩
      obtain rfl := Option.some.inj (hb.symm.trans hp)
      exact PortBuffer.noConfusion
    | false =>
      have hp := hR.unsent p hsp
      have hrp : ∀ b, rbufs[p]? = some b → b ≠ .remote := fun b hb => hr b (List.getElem?_mem hb)
      constructor
      · intro b hb
        rw [hp] at hb
        split at hb
        · obtain ⟨b', hb', rfl⟩ := Option.map_eq_some'.mp hb
          cases b' with
          | remote => exact absurd rfl (hrp _ hb')
          | null | samples _ => simp [clearedBuffer]
        · exact hrp b hb
      · simp only [List.getD_eq_getElem?_getD, hp]
        split <;> cases rbufs[p]? <;> simp
  exact ⟨fun b hb => by
    obtain ⟨p, hp⟩ := List.mem_iff_getElem?.mp hb
    exact (hport p).1 b hp, fun p => (hport p).2⟩


/-- The receiver of the session, as it is constructed, is in the state of no packet. -/
theorem Received.ofSession (params : SessionParams) (sbufs rbufs : List PortBuffer) (P : Nat) :
    Received params sbufs rbufs P [] (JackPortList.ofSession params rbufs) :=
  ⟨rfl, rfl, by simp only [JackPortList.ofSession_fLastSubCycle]; decide,
    fun p data rdata _ hrd => by simpa using hrd, fun p _ => by simp⟩

/-- The run lemma: from the state the sub-cycles `done` left, the rest of the cycle, in any order
and with repetitions, leaves the state of the packets since the last cleanup. -/
theorem exchangeCycle_received (params : SessionParams) (sbufs rbufs : List PortBuffer)
    (cycle : Int) (sub_cycles : List Int) (n : Int) (l : JackPortList) :
    getNumPackets (JackPortList.ofSession params sbufs) = .ok (n, l) →
    (∀ b ∈ sbufs, b ≠ .remote) → (∀ b ∈ rbufs, b ≠ .remote) → sbufs.length < 2 ^ 32 →
    params.fPeriodSize < 2 ^ 31 → 4 * l.activePorts ≤ params.packetAvailableSize →
    params.packetAvailableSize < 2 ^ 31 →
    (∀ p, p < l.activePorts ∨ (sbufs.getD p .null).isSet → (rbufs.getD p .null).isSet) →
    (∀ s ∈ sub_cycles, 0 ≤ s ∧ s < n) →
    ∀ (net : NetBuffer) (r : JackPortList) (done : List Int),
      l.activePorts * l.fSubPeriodBytesSize ≤ net.capacity →
      Received params sbufs rbufs l.fSubPeriodSize (sinceCleanup done) r →
      (∀ s ∈ done, s.toNat * l.fSubPeriodSize + l.fSubPeriodSize ≤ params.fPeriodSize) →
      ∃ r', exchangeCycle l cycle net r sub_cycles = .ok r' ∧
        Received params sbufs rbufs l.fSubPeriodSize (sinceCleanup (done ++ sub_cycles)) r' := by
  intro hl hs hr hN hper hfit hpacket hrecv hlt
  obtain ⟨hn, hlper, -, -, -⟩ := getNumPackets_ok_fields _ hl
  induction sub_cycles with
  | nil => exact fun net r done _ hR _ => ⟨r, rfl, by simpa using hR⟩
  | cons s ss ih =>
    intro net r done hcap hR hdone
    obtain ⟨hs0, hsN⟩ := hlt s (.head _)
    have hbufs := hR.buffers hs hr fun p hp => hrecv p (.inr hp)
    obtain ⟨net', res, r₁, hsend, hc, hrecv₁, hper₁, hpk₁, hlast₁, hsent, hunsent⟩ :=
      deliver_packet params sbufs n l r net cycle s
        (toInt32 ↑(l.activePorts * l.fSubPeriodBytesSize)).toNat hl hs hbufs.1 hR.fPeriodSize_eq
        hR.fPacketSize_eq hR.fLastSubCycle_mem hN hper hfit hpacket hs0 hsN hcap
        fun p hp => (hbufs.2 p).trans (hrecv p hp)
    -- the slice of sub-cycle `s` lies in the period
    obtain ⟨-, -, hend⟩ := JackPortList.slice_le_period_of_lt_numPackets
      (by rw [hlper]; simp only [JackPortList.ofSession_fPeriodSize]; omega) hs0 (hn ▸ hsN)
    rw [hlper, JackPortList.ofSession_fPeriodSize] at hend
    have hdone' : ∀ s' ∈ done ++ [s],
        s'.toNat * l.fSubPeriodSize + l.fSubPeriodSize ≤ params.fPeriodSize := fun s' h =>
      (List.mem_append.mp h).elim (hdone s') fun h => List.mem_singleton.mp h ▸ hend
    -- the packet of sub-cycle `s` takes the state of `done` to that of `done ++ [s]`
    have hR₁ : Received params sbufs rbufs l.fSubPeriodSize (sinceCleanup (done ++ [s])) r₁ :=
      { fPeriodSize_eq := hper₁.trans hR.fPeriodSize_eq
        fPacketSize_eq := hpk₁.trans hR.fPacketSize_eq
        fLastSubCycle_mem := hlast₁
        sent := fun p data rdata hd hrd => by
          rw [hsent p data _ hd (hR.sent p data rdata hd hrd),
            receivedSamples_sinceCleanup_append_singleton data rdata _ _ s hdone]
        unsent := fun p hp => by
          rw [hunsent p hp, hR.unsent p hp, sinceCleanup_append_singleton]
          by_cases hz : s = 0
          · by_cases h0 : (0 : Int) ∈ done <;> simp [hz, h0, Option.map_map, Function.comp_def]
          · simp [hz, Ne.symm hz] }
    obtain ⟨r', hrun, hR'⟩ := ih (fun s' hs' => hlt s' (.tail _ hs')) net' r₁ (done ++ [s])
      (hc ▸ hcap) hR₁ hdone'
    refine ⟨r', ?_, by simpa using hR'⟩
    simp only [exchangeCycle, hsend, ok_bind, hrecv₁]
    exact hrun

/-- The optimized layout on a network that may lose, repeat or reorder packets, on a
little-endian host: each port the sender sends ends the cycle with the slices from the last
sub-cycle `0` on. -/
theorem optimizedLayout_any_packet_order (params : SessionParams) (sbufs rbufs : List PortBuffer)
    (net : NetBuffer) (cycle : Int) (sub_cycles : List Int) (n : Int) (l : JackPortList) :
    getNumPackets (JackPortList.ofSession params sbufs) = .ok (n, l) →
    (∀ b ∈ sbufs, b ≠ .remote) → (∀ b ∈ rbufs, b ≠ .remote) → sbufs.length < 2 ^ 32 →
    params.fPeriodSize < 2 ^ 31 → 4 * l.activePorts ≤ params.packetAvailableSize →
    params.packetAvailableSize < 2 ^ 31 →
    (∀ p, p < l.activePorts ∨ (sbufs.getD p .null).isSet → (rbufs.getD p .null).isSet) →
    (∀ s ∈ sub_cycles, 0 ≤ s ∧ s < n) →
    l.activePorts * l.fSubPeriodBytesSize ≤ net.capacity →
    ∃ r', exchangeCycle l cycle net (JackPortList.ofSession params rbufs) sub_cycles = .ok r' ∧
      (∀ (p : Nat) data rdata, sbufs[p]? = some (.samples data) →
        rbufs[p]? = some (.samples rdata) → r'.fPortBuffer[p]? = some (.samples
          (receivedSamples data rdata params.fPeriodSize l.fSubPeriodSize
            (sinceCleanup sub_cycles)))) ∧
      ∀ p : Nat, (sbufs.getD p .null).isSet = false → r'.fPortBuffer[p]? =
        if 0 ∈ sub_cycles then rbufs[p]?.map (clearedBuffer params.fPeriodSize) else rbufs[p]? := by
  intro hl hs hr hN hper hfit hpacket hrecv hlt hcap
  obtain ⟨r', hrun, hR⟩ := exchangeCycle_received params sbufs rbufs cycle sub_cycles n l hl hs hr
    hN hper hfit hpacket hrecv hlt net _ [] hcap (Received.ofSession params sbufs rbufs _)
    (fun _ h => absurd h (List.not_mem_nil _))
  exact ⟨r', hrun, hR.sent, fun p hp => by simpa using hR.unsent p hp⟩

/-- The 1500-byte session of two channels and 1024 frames with port 0 alone active: four
sub-cycles of 256 frames, and a receiver with both ports set has a buffer where the sender needs. -/
theorem sizing_mtu1500_port0 :
    getNumPackets (JackPortList.ofSession ⟨1500, 2, 2, 1024, by decide, by decide⟩
        [.samples fun i => BitVec.ofNat 32 i, .null]) = .ok (4, resize (JackPortList.ofSession
          ⟨1500, 2, 2, 1024, by decide, by decide⟩ [.samples fun i => BitVec.ofNat 32 i, .null])) ∧
      (resize (JackPortList.ofSession ⟨1500, 2, 2, 1024, by decide, by decide⟩
        [.samples fun i => BitVec.ofNat 32 i, .null])).fSubPeriodSize = 256 ∧
      ∀ p, p < (resize (JackPortList.ofSession ⟨1500, 2, 2, 1024, by decide, by decide⟩
          [.samples fun i => BitVec.ofNat 32 i, .null])).activePorts ∨
          (([.samples fun i => BitVec.ofNat 32 i, .null] : List PortBuffer).getD p .null).isSet →
        (([.samples fun _ => 7, .samples fun _ => 7] : List PortBuffer).getD p .null).isSet := by
  refine ⟨(getNumPackets_eq_ok _).mpr ⟨by decide, Prod.ext (by decide) rfl⟩, by decide,
    fun p hp => ?_⟩
  rcases p with _ | _ | p
  · rfl
  · rfl
  · rcases hp with hp | hp
    · have : (resize (JackPortList.ofSession ⟨1500, 2, 2, 1024, by decide, by decide⟩
          [.samples fun i => BitVec.ofNat 32 i, .null])).activePorts = 1 := by decide
      omega
    · simp at hp

/-- The 1500-byte session of two channels and 1024 frames, port 0 alone active on the sender, so
sub-periods of 256 frames: when the packets of sub-cycles 2, 0 and 1 arrive in that order, the late
packet 0 wipes out the slice of sub-cycle 2, and the receiver's port 0 ends with the sender's
samples 0 to 511 and silence over the rest of the period. -/
theorem optimizedLayout_any_packet_order_late_cleanup :
    ∃ r', exchangeCycle (resize (JackPortList.ofSession
        ⟨1500, 2, 2, 1024, by decide, by decide⟩ [.samples fun i => BitVec.ofNat 32 i, .null]))
        0 ⟨1460, fun _ => 0⟩ (JackPortList.ofSession ⟨1500, 2, 2, 1024, by decide, by decide⟩
          [.samples fun _ => 7, .samples fun _ => 7]) [2, 0, 1] = .ok r' ∧
      r'.fPortBuffer[0]? = some (.samples (receivedSamples (fun i => BitVec.ofNat 32 i)
        (fun _ => 7) 1024 256 [0, 1])) := by
  obtain ⟨hl, hP, hcover⟩ := sizing_mtu1500_port0
  obtain ⟨r', h1, h2, -⟩ := optimizedLayout_any_packet_order
    ⟨1500, 2, 2, 1024, by decide, by decide⟩ [.samples fun i => BitVec.ofNat 32 i, .null]
    [.samples fun _ => 7, .samples fun _ => 7] ⟨1460, fun _ => 0⟩ 0 [2, 0, 1] 4 _ hl (by simp)
    (by simp) (by decide) (by decide) (by decide) (by decide)
    hcover (by decide) (by decide)
  rw [hP] at h2
  exact ⟨r', h1, h2 0 _ _ rfl rfl⟩

/-- The optimized layout over a cycle of increasing sub-cycles, on a little-endian host: each port
the sender sends ends the cycle with the sender's samples in every received slice. -/
theorem optimizedLayout_delivers_cycle (params : SessionParams) (sbufs rbufs : List PortBuffer)
    (net : NetBuffer) (cycle : Int) (sub_cycles : List Int) (n : Int) (l : JackPortList) :
    getNumPackets (JackPortList.ofSession params sbufs) = .ok (n, l) →
    (∀ b ∈ sbufs, b ≠ .remote) → (∀ b ∈ rbufs, b ≠ .remote) → sbufs.length < 2 ^ 32 →
    params.fPeriodSize < 2 ^ 31 → 4 * l.activePorts ≤ params.packetAvailableSize →
    params.packetAvailableSize < 2 ^ 31 →
    (∀ p, p < l.activePorts ∨ (sbufs.getD p .null).isSet → (rbufs.getD p .null).isSet) →
    sub_cycles.Pairwise (· < ·) → (∀ s ∈ sub_cycles, 0 ≤ s ∧ s < n) →
    l.activePorts * l.fSubPeriodBytesSize ≤ net.capacity →
    ∃ r', exchangeCycle l cycle net (JackPortList.ofSession params rbufs) sub_cycles = .ok r' ∧
      (∀ (p : Nat) data rdata, sbufs[p]? = some (.samples data) →
        rbufs[p]? = some (.samples rdata) → r'.fPortBuffer[p]? = some (.samples
          (receivedSamples data rdata params.fPeriodSize l.fSubPeriodSize sub_cycles))) ∧
      ∀ p : Nat, (sbufs.getD p .null).isSet = false → r'.fPortBuffer[p]? =
        if 0 ∈ sub_cycles then rbufs[p]?.map (clearedBuffer params.fPeriodSize) else rbufs[p]? := by
  intro hl hs hr hN hper hfit hpacket hrecv hsorted hlt hcap
  obtain ⟨r', hrun, hR⟩ := exchangeCycle_received params sbufs rbufs cycle sub_cycles n l hl hs hr
    hN hper hfit hpacket hrecv hlt net _ [] hcap (Received.ofSession params sbufs rbufs _)
    (fun _ h => absurd h (List.not_mem_nil _))
  rw [List.nil_append, sinceCleanup_of_pairwise hsorted fun s hs => (hlt s hs).1] at hR
  exact ⟨r', hrun, hR.sent, hR.unsent⟩

/-- The 1500-byte session of two channels and 1024 frames, port 0 alone active on the sender, so
sub-periods of 256 frames: a cycle that delivers sub-cycles 0 and 2 leaves the receiver's port 0
with the sender's samples 0 to 255 and 512 to 767, and silence elsewhere in the period. -/
theorem optimizedLayout_delivers_cycle_mtu1500 :
    ∃ r', exchangeCycle (resize (JackPortList.ofSession
        ⟨1500, 2, 2, 1024, by decide, by decide⟩ [.samples fun i => BitVec.ofNat 32 i, .null]))
        0 ⟨1460, fun _ => 0⟩ (JackPortList.ofSession ⟨1500, 2, 2, 1024, by decide, by decide⟩
          [.samples fun _ => 7, .samples fun _ => 7]) [0, 2] = .ok r' ∧
      r'.fPortBuffer[0]? = some (.samples (receivedSamples (fun i => BitVec.ofNat 32 i)
        (fun _ => 7) 1024 256 [0, 2])) := by
  obtain ⟨hl, hP, hcover⟩ := sizing_mtu1500_port0
  obtain ⟨r', h1, h2, -⟩ := optimizedLayout_delivers_cycle
    ⟨1500, 2, 2, 1024, by decide, by decide⟩ [.samples fun i => BitVec.ofNat 32 i, .null]
    [.samples fun _ => 7, .samples fun _ => 7] ⟨1460, fun _ => 0⟩ 0 [0, 2] 4 _ hl (by simp)
    (by simp) (by decide) (by decide) (by decide) (by decide)
    hcover (by decide) (by decide) (by decide)
  rw [hP] at h2
  exact ⟨r', h1, h2 0 _ _ rfl rfl⟩

end JackOptimizedPortList

end JackNet
