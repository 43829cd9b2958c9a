import JackNet.PortList.Basic

/-!
# The active-port exchange

Before the audio of a cycle, a `JackOptimizedPortList` sends the indices of its ports with a buffer
(`ActivePortsToNetwork`), as `short`s in host order, and the peer marks exactly those ports as
connected on the other side, with the buffer `(sample_t*)-1` (`ActivePortsFromNetwork`). Both sides
then size the sub-period from the same number of active ports.

`assert(port_num < 512)` is a fault here. The `jack_error` for an index out of range is kept as
the list of the indices reported, in order.
-/

namespace JackNet

namespace NetBuffer

/-- The 16-bit value a host of order `o` reads at byte `offset`. -/
def short (net : NetBuffer) (o : ByteOrder) (offset : Nat) : BitVec 16 :=
  BitVec.ofNat 16 (o.decode [net.byte offset, net.byte (offset + 1)])

/-- The `short` at byte `offset`, read through a pointer into the packet. -/
def readShort (net : NetBuffer) (o : ByteOrder) (offset : Nat) : Except Fault (BitVec 16) :=
  if offset + 2 ≤ net.capacity then .ok (net.short o offset) else .error (.netRange offset 2)

/-- The two bytes of `x` stored at byte `offset`, the others kept. -/
def setShort (net : NetBuffer) (o : ByteOrder) (offset : Nat) (x : BitVec 16) : NetBuffer :=
  { net with
    byte := fun i =>
      if offset ≤ i ∧ i < offset + 2 then (o.encode 2 x.toNat).getD (i - offset) 0 else net.byte i }

/-- `x` written at byte `offset` through a `short` pointer into the packet. -/
def writeShort (net : NetBuffer) (o : ByteOrder) (offset : Nat) (x : BitVec 16) :
    Except Fault NetBuffer :=
  if offset + 2 ≤ net.capacity then .ok (net.setShort o offset x) else .error (.netRange offset 2)

theorem readShort_eq_ok {net : NetBuffer} {o : ByteOrder} {offset : Nat} {x : BitVec 16} :
    net.readShort o offset = .ok x ↔ offset + 2 ≤ net.capacity ∧ x = net.short o offset := by
  simp only [readShort]
  split
  · simp_all [eq_comm]
  · simp only [reduceCtorEq, false_iff, not_and]
    omega

theorem writeShort_eq_ok {net net' : NetBuffer} {o : ByteOrder} {offset : Nat} {x : BitVec 16} :
    net.writeShort o offset x = .ok net' ↔
      offset + 2 ≤ net.capacity ∧ net' = net.setShort o offset x := by
  simp only [writeShort]
  split
  · simp_all [eq_comm]
  · simp only [reduceCtorEq, false_iff, not_and]
    omega

@[simp] theorem capacity_setShort (net : NetBuffer) (o : ByteOrder) (offset : Nat) (x : BitVec 16) :
    (net.setShort o offset x).capacity = net.capacity := rfl

/-- A stored `short` reads back. -/
theorem short_setShort (net : NetBuffer) (o : ByteOrder) (offset : Nat) (x : BitVec 16) :
    (net.setShort o offset x).short o offset = x := by
  simp only [short, setShort]
  rw [if_pos (by omega), if_pos (by omega), Nat.sub_self, Nat.add_sub_cancel_left]
  have hpair : [(o.encode 2 x.toNat).getD 0 0, (o.encode 2 x.toNat).getD 1 0] =
      o.encode 2 x.toNat := by
    match o.encode 2 x.toNat, o.length_encode 2 x.toNat with
    | [_, _], _ => rfl
  apply BitVec.eq_of_toNat_eq
  rw [hpair, ByteOrder.decode_encode, BitVec.toNat_ofNat]
  have := x.isLt
  omega

/-- A stored `short` leaves the others alone. -/
theorem short_setShort_of_disjoint (net : NetBuffer) (o o' : ByteOrder) {offset b : Nat}
    (x : BitVec 16) (h : b + 2 ≤ offset ∨ offset + 2 ≤ b) :
    (net.setShort o offset x).short o' b = net.short o' b := by
  simp only [short, setShort]
  rw [if_neg (by omega), if_neg (by omega)]

/-- The first `count` shorts of the packet. -/
def shorts (net : NetBuffer) (o : ByteOrder) (count : Nat) : List (BitVec 16) :=
  (List.range count).map fun i => net.short o (2 * i)

@[simp] theorem length_shorts (net : NetBuffer) (o : ByteOrder) (count : Nat) :
    (net.shorts o count).length = count := by
  simp [shorts]

theorem shorts_succ (net : NetBuffer) (o : ByteOrder) (count : Nat) :
    net.shorts o (count + 1) = net.shorts o count ++ [net.short o (2 * count)] := by
  simp [shorts, List.range_succ]

/-- A `short` stored after the first `count` appends it to them. -/
theorem shorts_setShort (net : NetBuffer) (o : ByteOrder) (count : Nat) (x : BitVec 16) :
    (net.setShort o (2 * count) x).shorts o (count + 1) = net.shorts o count ++ [x] := by
  rw [shorts_succ, short_setShort]
  congr 1
  exact List.map_congr_left fun i hi =>
    short_setShort_of_disjoint net o o x (Or.inl (by rw [List.mem_range] at hi; omega))

end NetBuffer

/-- Of `nports` ports, those whose index is among `indices` marked as connected on the other side,
the others `NULL`. -/
def markedPorts (nports : Nat) (indices : List Int) : List PortBuffer :=
  (List.range nports).map fun (p : Nat) => if (p : Int) ∈ indices then .remote else .null

@[simp] theorem length_markedPorts (nports : Nat) (indices : List Int) :
    (markedPorts nports indices).length = nports := by
  simp [markedPorts]

theorem markedPorts_nil (nports : Nat) : markedPorts nports [] = List.replicate nports .null := by
  simp [markedPorts, List.map_const']

theorem getElem?_markedPorts (nports : Nat) (indices : List Int) (p : Nat) :
    (markedPorts nports indices)[p]? =
      if p < nports then some (if (p : Int) ∈ indices then .remote else .null) else none := by
  simp only [markedPorts, List.getElem?_map]
  split
  · rw [List.getElem?_range ‹_›]; rfl
  · rw [List.getElem?_eq_none (by simpa using Nat.le_of_not_lt ‹_›)]; rfl

/-- Marking an index inside the list adds it to the marked ones. -/
theorem markedPorts_set {nports : Nat} (indices : List Int) {v : Int} (hv : 0 ≤ v ∧ v < nports) :
    (markedPorts nports indices).set v.toNat .remote = markedPorts nports (indices ++ [v]) := by
  apply List.ext_getElem?
  intro p
  rw [List.getElem?_set, getElem?_markedPorts, getElem?_markedPorts, length_markedPorts]
  by_cases hp : v.toNat = p
  · subst p
    simp [hv.1, show v.toNat < nports by omega]
  · have : (p : Int) ≠ v := by omega
    simp [hp, this]

/-- An index outside the list marks nothing. -/
theorem markedPorts_append_of_not_mem {nports : Nat} (indices : List Int) {v : Int}
    (hv : ¬(0 ≤ v ∧ v < nports)) : markedPorts nports (indices ++ [v]) = markedPorts nports indices :=
  List.map_congr_left fun p hp => by
    have : (p : Int) ≠ v := by rw [List.mem_range] at hp; omega
    simp [this]

theorem length_filter_range_getD {α : Type} (bs : List α) (f : α → Bool) (d : α) :
    ((List.range bs.length).filter fun p => f (bs.getD p d)).length = bs.countP f := by
  induction bs with
  | nil => rfl
  | cons b bs ih =>
    rw [List.length_cons, List.range_succ_eq_map, List.filter_cons, List.filter_map]
    simp only [List.getD_cons_zero, Function.comp_def, List.getD_cons_succ, List.countP_cons]
    split <;> simp_all

/-- The indices of the entries below `i` that hold a buffer, in order: the active ports the first
`i` turns of a loop over the ports meet. -/
def activeBelow (bufs : List PortBuffer) (i : Nat) : List Nat :=
  (List.range i).filter fun p => (bufs.getD p .null).isSet

section ActiveBelow

variable (bufs : List PortBuffer)

@[simp] theorem activeBelow_zero : activeBelow bufs 0 = [] := rfl

theorem activeBelow_succ (i : Nat) : activeBelow bufs (i + 1) =
    activeBelow bufs i ++ if (bufs.getD i .null).isSet then [i] else [] := by
  simp only [activeBelow, List.range_succ, List.filter_append, List.filter_cons, List.filter_nil]

theorem activeBelow_sublist {i j : Nat} (h : i ≤ j) :
    (activeBelow bufs i).Sublist (activeBelow bufs j) :=
  (List.range_sublist.mpr h).filter _

end ActiveBelow

namespace JackPortList

/-- The indices of the ports with a buffer, in order. -/
def activeIndices (l : JackPortList) : List Nat := activeBelow l.fPortBuffer l.fNPorts

theorem length_activeIndices (l : JackPortList) : l.activeIndices.length = l.activePorts :=
  length_filter_range_getD l.fPortBuffer PortBuffer.isSet .null

theorem mem_activeIndices {l : JackPortList} {p : Nat} :
    p ∈ l.activeIndices ↔ p < l.fNPorts ∧ (l.fPortBuffer.getD p .null).isSet := by
  simp [activeIndices, activeBelow]

/-- A turn of a loop over the ports finds the ports it has met so far with a buffer, with itself
when it has one, no more than `activePorts`. -/
theorem length_activeBelow_succ_le {l : JackPortList} {i : Nat} (hi : i < l.fNPorts) :
    (activeBelow l.fPortBuffer (i + 1)).length ≤ l.activePorts :=
  length_activeIndices l ▸ (activeBelow_sublist l.fPortBuffer hi).length_le

/-- Two lists with a buffer at the same ports have as many active ports. -/
theorem activePorts_eq_of_isSet {l l' : JackPortList}
    (h : l.fPortBuffer.map PortBuffer.isSet = l'.fPortBuffer.map PortBuffer.isSet) :
    l.activePorts = l'.activePorts := by
  have := congrArg (List.countP id) h
  simpa only [List.countP_map] using this

end JackPortList

namespace JackOptimizedPortList

/-- `ActivePortsToNetwork` on a host of byte order `host`: the index of each port with a buffer, a
`short`, one after the other from the start of the packet. Returns the packet and `port_num`. -/
def activePortsToNetwork (host : ByteOrder) (l : JackPortList) (net : NetBuffer) :
    Except Fault (NetBuffer × Nat) :=
  forLoop l.fNPorts (fun port_index (net, port_num) => do
    if (← l.buffer port_index).isSet then
      let net ← net.writeShort host (2 * port_num) (BitVec.ofNat 16 port_index)
      if port_num + 1 < 512 then pure (net, port_num + 1) else .error .assertion
    else pure (net, port_num)) (net, 0)

/-- `ActivePortsToNetwork` with fewer than 512 ports with a buffer, into a packet with room for
their indices: `port_num` is their number, and the packet starts with their indices, in order. -/
theorem activePortsToNetwork_eq (host : ByteOrder) (l : JackPortList) (net : NetBuffer)
    (hA : l.activePorts < 512) (hcap : 2 * l.activePorts ≤ net.capacity) :
    ∃ net', activePortsToNetwork host l net = .ok (net', l.activePorts) ∧
      net'.capacity = net.capacity ∧
      net'.shorts host l.activePorts = l.activeIndices.map (BitVec.ofNat 16) := by
  have hrun : ∃ s, activePortsToNetwork host l net = .ok s ∧
      s.2 = l.activeIndices.length ∧ s.1.capacity = net.capacity ∧
      s.1.shorts host s.2 = l.activeIndices.map (BitVec.ofNat 16) :=
    forLoop_ok (fun i (s : NetBuffer × Nat) => s.2 = (activeBelow l.fPortBuffer i).length ∧
      s.1.capacity = net.capacity ∧
      s.1.shorts host s.2 = (activeBelow l.fPortBuffer i).map (BitVec.ofNat 16)) ⟨rfl, rfl, rfl⟩ ?_
  · obtain ⟨⟨net', port_num⟩, hrun, rfl, hc, hw⟩ := hrun
    rw [JackPortList.length_activeIndices] at hrun hw
    exact ⟨net', hrun, hc, hw⟩
  rintro i ⟨net_i, pn⟩ hi ⟨rfl, hc, hw⟩
  have hb : l.buffer i = .ok (l.fPortBuffer.getD i .null) :=
    JackPortList.buffer_eq_ok.mpr
      (by simp [List.getElem?_eq_getElem (show i < l.fPortBuffer.length from hi)])
  have hsucc := activeBelow_succ l.fPortBuffer i
  simp only [hb, ok_bind]
  split
  · rename_i hset
    rw [if_pos hset] at hsucc
    have hroom := JackPortList.length_activeBelow_succ_le hi
    rw [hsucc, List.length_append, List.length_singleton] at hroom
    have hw' : net_i.writeShort host (2 * (activeBelow l.fPortBuffer i).length)
        (BitVec.ofNat 16 i) =
        .ok (net_i.setShort host (2 * (activeBelow l.fPortBuffer i).length) (BitVec.ofNat 16 i)) :=
      NetBuffer.writeShort_eq_ok.mpr ⟨by simp only at hc; omega, rfl⟩
    refine ⟨_, by rw [hw', ok_bind, if_pos (by omega)]; rfl, ?_, by simpa using hc, ?_⟩
    · simp [hsucc]
    · simp only [NetBuffer.shorts_setShort, hsucc, List.map_append, hw]
      rfl
  · rename_i hset
    rw [if_neg hset, List.append_nil] at hsucc
    exact ⟨_, rfl, by rw [hsucc], hc, by rw [hsucc]; exact hw⟩

/-- `ActivePortsFromNetwork` on a host of byte order `host`: every port loses its buffer, then each
of the `port_num` indices of the packet inside `[0, fNPorts)` gets the marker `(sample_t*)-1`.
Returns the list and the indices reported as incorrect. -/
def activePortsFromNetwork (host : ByteOrder) (l : JackPortList) (net : NetBuffer)
    (port_num : Nat) : Except Fault (JackPortList × List Int) :=
  forLoop port_num (fun port_index (ports, errors) => do
    let active_port ← net.readShort host (2 * port_index)
    if 0 ≤ active_port.toInt ∧ active_port.toInt < l.fNPorts then
      pure (ports.withBuffer active_port.toInt.toNat .remote, errors)
    else pure (ports, errors ++ [active_port.toInt]))
    ({ l with fPortBuffer := List.replicate l.fNPorts .null }, [])

/-- `ActivePortsFromNetwork` on a packet that holds its `port_num` shorts: the ports the shorts
name inside `[0, fNPorts)` are marked and the others `NULL`, and every short outside is reported,
in order. -/
theorem activePortsFromNetwork_eq (host : ByteOrder) (l : JackPortList) (net : NetBuffer)
    (port_num : Nat) (hcap : 2 * port_num ≤ net.capacity) :
    activePortsFromNetwork host l net port_num =
      .ok ({ l with fPortBuffer := markedPorts l.fNPorts ((net.shorts host port_num).map BitVec.toInt) },
        ((net.shorts host port_num).map BitVec.toInt).filter
          fun v => !decide (0 ≤ v ∧ v < (l.fNPorts : Int))) := by
  refine forLoop_eq_of_step (fun i =>
    ({ l with fPortBuffer := markedPorts l.fNPorts ((net.shorts host i).map BitVec.toInt) },
      ((net.shorts host i).map BitVec.toInt).filter fun v => !decide (0 ≤ v ∧ v < (l.fNPorts : Int))))
    ?_ fun i hi => ?_
  · simp [NetBuffer.shorts, markedPorts_nil]
  have hread : net.readShort host (2 * i) = .ok (net.short host (2 * i)) :=
    NetBuffer.readShort_eq_ok.mpr ⟨by omega, rfl⟩
  simp only [hread, ok_bind, NetBuffer.shorts_succ, List.map_append, List.map_cons, List.map_nil,
    List.filter_append]
  split
  · rename_i hv
    rw [← markedPorts_set _ hv]
    simp [hv]
    rfl
  · rename_i hv
    have : (net.short host (2 * i)).toInt < 0 ∨ (l.fNPorts : Int) ≤ (net.short host (2 * i)).toInt := by
      omega
    rw [markedPorts_append_of_not_mem _ hv]
    simp [this]
    rfl

/-- `ActivePortsFromNetwork` on a packet that ends before its `port_num` shorts reads past it. -/
theorem activePortsFromNetwork_short_packet (host : ByteOrder) (l : JackPortList) (net : NetBuffer)
    {port_num : Nat} (h : net.capacity < 2 * port_num) :
    ∃ e, activePortsFromNetwork host l net port_num = .error e := by
  obtain ⟨n, rfl⟩ : ∃ n, port_num = n + 1 := ⟨port_num - 1, by omega⟩
  have hread : net.readShort host (2 * n) = .error (.netRange (2 * n) 2) :=
    if_neg (by omega)
  rw [activePortsFromNetwork, forLoop_succ]
  cases forLoop n _ _ with
  | error e => exact ⟨e, rfl⟩
  | ok s => exact ⟨_, by rw [ok_bind, hread]; rfl⟩

/-- `ActivePortsFromNetwork` on any packet marks exactly the ports its shorts name in
`[0, fNPorts)` and reports the others, in order; a packet shorter than its shorts is read past. -/
theorem activePortsFromNetwork_validates (host : ByteOrder) (l : JackPortList) (net : NetBuffer)
    (port_num : Nat) :
    let vals := (net.shorts host port_num).map BitVec.toInt
    (2 * port_num ≤ net.capacity →
      ∃ r, activePortsFromNetwork host l net port_num =
          .ok (r, vals.filter fun v => !decide (0 ≤ v ∧ v < (l.fNPorts : Int))) ∧
        r = { l with fPortBuffer := r.fPortBuffer } ∧
        ∀ p : Nat, r.fPortBuffer[p]? =
          if p < l.fNPorts then some (if (p : Int) ∈ vals then .remote else .null) else none) ∧
    (net.capacity < 2 * port_num → ∃ e, activePortsFromNetwork host l net port_num = .error e) :=
  ⟨fun hcap => ⟨_, activePortsFromNetwork_eq host l net port_num hcap, rfl,
      getElem?_markedPorts l.fNPorts _⟩,
    activePortsFromNetwork_short_packet host l net⟩

/-- Four ports, the first two with buffers, and a packet of five shorts naming ports 2, -1, 7, 2
and 0: ports 0 and 2 are marked, ports 1 and 3 cleared, -1 and 7 reported; a sixth short would lie
past the packet. -/
theorem activePortsFromNetwork_validates_untrusted :
    ∃ r, activePortsFromNetwork .little (JackPortList.ofSession ⟨56, 1, 1, 4, by decide, by decide⟩
        [.samples fun _ => 0, .samples fun _ => 0, .null, .null])
        ⟨10, fun i => [2, 0, 255, 255, 7, 0, 2, 0, 0, 0].getD i 0⟩ 5 = .ok (r, [-1, 7]) ∧
      r.fPortBuffer[0]? = some .remote ∧ r.fPortBuffer[1]? = some .null ∧
      r.fPortBuffer[2]? = some .remote ∧ r.fPortBuffer[3]? = some .null ∧
      r.fPortBuffer[4]? = none ∧
      ∃ e, activePortsFromNetwork .little (JackPortList.ofSession ⟨56, 1, 1, 4, by decide, by decide⟩
        [.samples fun _ => 0, .samples fun _ => 0, .null, .null])
        ⟨10, fun i => [2, 0, 255, 255, 7, 0, 2, 0, 0, 0].getD i 0⟩ 6 = .error e := by
  have hvals : (NetBuffer.shorts ⟨10, fun i => [2, 0, 255, 255, 7, 0, 2, 0, 0, 0].getD i 0⟩
      .little 5).map BitVec.toInt = [2, -1, 7, 2, 0] := by
    decide
  obtain ⟨h5, -⟩ := activePortsFromNetwork_validates .little
    (JackPortList.ofSession ⟨56, 1, 1, 4, by decide, by decide⟩
      [.samples fun _ => 0, .samples fun _ => 0, .null, .null])
    ⟨10, fun i => [2, 0, 255, 255, 7, 0, 2, 0, 0, 0].getD i 0⟩ 5
  obtain ⟨-, h6⟩ := activePortsFromNetwork_validates .little
    (JackPortList.ofSession ⟨56, 1, 1, 4, by decide, by decide⟩
      [.samples fun _ => 0, .samples fun _ => 0, .null, .null])
    ⟨10, fun i => [2, 0, 255, 255, 7, 0, 2, 0, 0, 0].getD i 0⟩ 6
  obtain ⟨r, hr, -, hp⟩ := h5 (by decide)
  rw [hvals] at hr hp
  refine ⟨r, by rw [hr]; rfl, ?_, ?_, ?_, ?_, ?_, h6 (by decide)⟩ <;> rw [hp] <;>
    simp [JackPortList.fNPorts]

/-- A port index below `2 ^ 15` is the `short` it is written as. -/
theorem toInt_ofNat_short {p : Nat} (h : p < 2 ^ 15) : (BitVec.ofNat 16 p).toInt = p := by
  rw [BitVec.toInt_ofNat, Int.bmod]
  split <;> omega

/-- The active-port exchange between two lists of a session on hosts of one byte order: the
receiver marks exactly the sender's active ports, and both then size the sub-cycles alike. -/
theorem activePorts_exchange (host : ByteOrder) (params : SessionParams)
    (bufs rbufs : List PortBuffer) (net : NetBuffer) (hN : bufs.length ≤ 32767)
    (hA : bufs.countP PortBuffer.isSet < 512) (hlen : rbufs.length = bufs.length)
    (hcap : 2 * bufs.countP PortBuffer.isSet ≤ net.capacity) :
    ∃ net' r, activePortsToNetwork host (JackPortList.ofSession params bufs) net =
        .ok (net', bufs.countP PortBuffer.isSet) ∧
      net'.shorts host (bufs.countP PortBuffer.isSet) =
        (JackPortList.ofSession params bufs).activeIndices.map (BitVec.ofNat 16) ∧
      activePortsFromNetwork host (JackPortList.ofSession params rbufs) net'
        (bufs.countP PortBuffer.isSet) = .ok (r, []) ∧
      r.fPortBuffer.map PortBuffer.isSet = bufs.map PortBuffer.isSet ∧
      (getNumPackets r).map (fun r => (r.1, r.2.fSubPeriodSize, r.2.fSubPeriodBytesSize)) =
        (getNumPackets (JackPortList.ofSession params bufs)).map
          (fun r => (r.1, r.2.fSubPeriodSize, r.2.fSubPeriodBytesSize)) := by
  obtain ⟨net', hsend, hc, hw⟩ :=
    activePortsToNetwork_eq host (JackPortList.ofSession params bufs) net hA hcap
  have hrecv := activePortsFromNetwork_eq host (JackPortList.ofSession params rbufs) net'
    (bufs.countP PortBuffer.isSet) (hc ▸ hcap)
  -- the indices arrive as they were sent
  have hvals : (net'.shorts host (bufs.countP PortBuffer.isSet)).map BitVec.toInt =
      (JackPortList.ofSession params bufs).activeIndices.map fun p : Nat => (p : Int) := by
    rw [show bufs.countP PortBuffer.isSet = (JackPortList.ofSession params bufs).activePorts from rfl,
      hw, List.map_map]
    refine List.map_congr_left fun p hp => toInt_ofNat_short ?_
    have := (JackPortList.mem_activeIndices.mp hp).1
    simp only [JackPortList.fNPorts, JackPortList.ofSession_fPortBuffer] at this
    omega
  have hnone : ((JackPortList.ofSession params bufs).activeIndices.map fun p : Nat => (p : Int)).filter
      (fun v => !decide (0 ≤ v ∧ v < ((JackPortList.ofSession params rbufs).fNPorts : Int))) = [] := by
    refine List.filter_eq_nil_iff.mpr fun v hv => ?_
    obtain ⟨p, hp, rfl⟩ := List.mem_map.mp hv
    have := (JackPortList.mem_activeIndices.mp hp).1
    simp only [JackPortList.fNPorts, JackPortList.ofSession_fPortBuffer] at this
    have h0 : (0 : Int) ≤ p := by omega
    simp [JackPortList.fNPorts, hlen, this, h0]
  rw [hvals, hnone] at hrecv
  refine ⟨net', _, hsend, hw, hrecv, ?_⟩
  have hset : (markedPorts (JackPortList.ofSession params rbufs).fNPorts
      ((JackPortList.ofSession params bufs).activeIndices.map fun p : Nat => (p : Int))).map PortBuffer.isSet =
      bufs.map PortBuffer.isSet := by
    apply List.ext_getElem?
    intro p
    rw [List.getElem?_map, getElem?_markedPorts, List.getElem?_map]
    simp only [JackPortList.fNPorts, JackPortList.ofSession_fPortBuffer, hlen]
    split
    · rename_i hp
      simp only [List.mem_map, Int.ofNat_inj, exists_eq_right, JackPortList.mem_activeIndices,
        JackPortList.fNPorts, JackPortList.ofSession_fPortBuffer, hp, true_and,
        List.getElem?_eq_getElem hp, List.getD_eq_getElem?_getD, Option.getD_some, Option.map_some']
      split <;> simp_all
    · rw [List.getElem?_eq_none (by omega)]
  exact ⟨hset, getNumPackets_congr _ rfl rfl (JackPortList.activePorts_eq_of_isSet hset)⟩

/-- Ports 1, 5 and 7 of eight active on the sender, every port marked on the receiver before: the
receiver ends with exactly ports 1, 5 and 7 marked. -/
theorem activePorts_exchange_ports_1_5_7 :
    ∃ net' r, activePortsToNetwork .little (JackPortList.ofSession ⟨56, 1, 1, 4, by decide, by decide⟩
        [.null, .samples fun _ => 0, .null, .null, .null, .samples fun _ => 0, .null, .samples fun _ => 0]) ⟨6, fun _ => 0⟩ =
        .ok (net', 3) ∧
      net'.shorts .little 3 = [1, 5, 7] ∧
      activePortsFromNetwork .little (JackPortList.ofSession ⟨56, 1, 1, 4, by decide, by decide⟩
        (List.replicate 8 .remote)) net' 3 = .ok (r, []) ∧
      r.fPortBuffer.map PortBuffer.isSet = [false, true, false, false, false, true, false, true] := by
  obtain ⟨net', r, h1, h2, h3, h4, -⟩ := activePorts_exchange .little
    ⟨56, 1, 1, 4, by decide, by decide⟩
    [.null, .samples fun _ => 0, .null, .null, .null, .samples fun _ => 0, .null, .samples fun _ => 0]
    (List.replicate 8 .remote) ⟨6, fun _ => 0⟩ (by decide) (by decide) rfl (by decide)
  exact ⟨net', r, h1, h2, h3, h4⟩

/-- Hosts of different byte orders: the indices 1, 5 and 7 a big-endian sender writes read as
256, 1280 and 1792 on a little-endian receiver, which marks no port and reports all three. -/
theorem activePorts_exchange_mixed_byte_order :
    ((activePortsToNetwork .big (JackPortList.ofSession ⟨56, 1, 1, 4, by decide, by decide⟩
        [.null, .samples fun _ => 0, .null, .null, .null, .samples fun _ => 0, .null,
          .samples fun _ => 0]) ⟨6, fun _ => 0⟩ >>= fun (net, port_num) =>
      activePortsFromNetwork .little (JackPortList.ofSession ⟨56, 1, 1, 4, by decide, by decide⟩
        (List.replicate 8 .remote)) net port_num).toOption.map
      fun (r, rejected) => (r.fPortBuffer.map PortBuffer.isSet, rejected)) =
      some (List.replicate 8 false, [256, 1280, 1792]) := by
  decide

end JackOptimizedPortList

end JackNet
