import JackNet.PortList.Fixed

/-!
# The optimized layout

`JackOptimizedPortList` sends only the ports with a buffer: for each, its index as a 32-bit word,
then its slice of the sub-cycle, `fSubPeriodBytesSize = 4 * fSubPeriodSize + 4` bytes in all. The
receiver sizes the sub-period again from `port_num`, the number of slices in the packet, reads
the index in front of each slice and copies the slice into that port.

Only the little-endian build has these calls. The big-endian build has none of its own ("TODO")
and runs those of `JackPortList`, on the sizes `JackOptimizedPortList::GetNumPackets` left.

`sub_period_size` and `sub_period_bytes_size` are `int`s in the source; they are natural numbers
here, which they are for every period below `2 ^ 29`.
-/

namespace JackNet

namespace JackOptimizedPortList

/-- One turn of the send loop of `RenderToNetwork`: port `port_index`, when it has a buffer, goes
to slot `port_num` of the packet, its index in front of its slice. -/
def sendActivePort (l : JackPortList) (sub_cycle : Int) (port_index : Nat) :
    NetBuffer × Nat → Except Fault (NetBuffer × Nat)
  | (net, port_num) => do
    if (← l.buffer port_index).isSet then
      let active_port_address := port_num * l.fSubPeriodBytesSize
      let net ← net.writeSamples .little active_port_address [BitVec.ofNat 32 port_index]
      let src ← l.readPort port_index (unsignedOffset sub_cycle l.fSubPeriodSize)
        ((l.fSubPeriodBytesSize - 4) / 4)
      let net ← net.writeSamples .little (active_port_address + 4) src
      pure (net, port_num + 1)
    else pure (net, port_num)

/-- `RenderToNetwork` of the little-endian build. Returns the packet, the payload size (an `int`)
and `port_num`, the number of ports sent. -/
def renderToNetworkLE (l : JackPortList) (net : NetBuffer) (sub_cycle : Int) :
    Except Fault (NetBuffer × Int × Nat) := do
  let (net, port_num) ← forLoop l.fNPorts (sendActivePort l sub_cycle) (net, 0)
  pure (net, toInt32 ↑(port_num * l.fSubPeriodBytesSize), port_num)

/-- The cleanup at the start of a cycle in `RenderFromNetwork`: every port with a buffer is set to
silence over the period. -/
def cleanup (l : JackPortList) : Except Fault JackPortList :=
  forLoop l.fNPorts (fun port_index l => do
    if (← l.buffer port_index).isSet then
      l.writePort port_index 0 (List.replicate l.fPeriodSize 0)
    else pure l) l

/-- The copy loop of `RenderFromNetwork`: slice `port_index` of the packet goes to the port whose
index stands in front of it, when port `port_index` has a buffer. -/
def copyFromNetwork (l : JackPortList) (net : NetBuffer) (sub_cycle : Int) (port_num : Nat) :
    Except Fault JackPortList :=
  let sub_period_size := subPeriodFor l.fPeriodSize l.fPacketSize port_num
  let sub_period_bytes_size := sub_period_size * 4 + 4
  forLoop port_num (fun port_index l => do
    let active_port_address := port_index * sub_period_bytes_size % 2 ^ 32
    let active_port ← net.readWord .little active_port_address
    if (← l.buffer port_index).isSet then
      let src ← net.readSamples .little (active_port_address + 4) sub_period_size
      let offset ← signedResult (sub_cycle * sub_period_size)
      l.writePort active_port.toNat offset src
    else pure l) l

/-- `RenderFromNetwork` of the little-endian build. `cycle` and `copy_size` are not read. -/
def renderFromNetworkLE (l : JackPortList) (net : NetBuffer) (cycle sub_cycle : Int)
    (copy_size port_num : Nat) : Except Fault (Int × JackPortList) := do
  let l ← (if sub_cycle = 0 then cleanup l else pure l)
  if port_num > 0 then
    let l ← copyFromNetwork l net sub_cycle port_num
    l.lossCheck sub_cycle
  else pure (0, l)

/-- The cleanup and the copy loop leave `fLastSubCycle` alone. -/
theorem cleanup_fLastSubCycle {l l' : JackPortList} (h : cleanup l = .ok l') :
    l'.fLastSubCycle = l.fLastSubCycle :=
  JackPortList.forLoop_fLastSubCycle (fun _ s _ hb => by
    obtain ⟨b, -, hb⟩ := bind_eq_ok.mp hb
    split at hb
    · exact JackPortList.writePort_fLastSubCycle hb
    · cases hb; rfl) h

theorem copyFromNetwork_fLastSubCycle {l l' : JackPortList} {net : NetBuffer} {sub_cycle : Int}
    {port_num : Nat} (h : copyFromNetwork l net sub_cycle port_num = .ok l') :
    l'.fLastSubCycle = l.fLastSubCycle :=
  JackPortList.forLoop_fLastSubCycle (fun _ s _ hb => by
    obtain ⟨_, -, hb⟩ := bind_eq_ok.mp hb
    obtain ⟨b, -, hb⟩ := bind_eq_ok.mp hb
    split at hb
    · obtain ⟨_, -, hb⟩ := bind_eq_ok.mp hb
      obtain ⟨_, -, hw⟩ := bind_eq_ok.mp hb
      exact JackPortList.writePort_fLastSubCycle hw
    · cases hb; rfl) h

/-- A `RenderFromNetwork` of a packet with slices that returns reports a missing packet exactly
when its sub-cycle does not follow `fLastSubCycle`, and stores its sub-cycle there. -/
theorem renderFromNetworkLE_lossCheck {l l' : JackPortList} {net : NetBuffer}
    {cycle sub_cycle : Int} {copy_size port_num : Nat} {res : Int} (hport : 0 < port_num)
    (h : renderFromNetworkLE l net cycle sub_cycle copy_size port_num = .ok (res, l')) :
    res = (if sub_cycle ≠ l.fLastSubCycle + 1 then NET_PACKET_ERROR else 0) ∧
      l'.fLastSubCycle = sub_cycle := by
  obtain ⟨l₁, hclean, hrest⟩ := bind_eq_ok.mp h
  have h₁ : l₁.fLastSubCycle = l.fLastSubCycle := by
    split at hclean
    · exact cleanup_fLastSubCycle hclean
    · cases hclean; rfl
  rw [if_pos hport] at hrest
  obtain ⟨l₂, hcopy, hres⟩ := bind_eq_ok.mp hrest
  obtain ⟨-, -, rfl, rfl⟩ := JackPortList.lossCheck_eq_ok.mp hres
  exact ⟨by rw [copyFromNetwork_fLastSubCycle hcopy, h₁], rfl⟩

/-- A packet without slices is not checked: `RenderFromNetwork` returns `0` and keeps
`fLastSubCycle`. -/
theorem renderFromNetworkLE_unchecked {l l' : JackPortList} {net : NetBuffer}
    {cycle sub_cycle : Int} {copy_size : Nat} {res : Int}
    (h : renderFromNetworkLE l net cycle sub_cycle copy_size 0 = .ok (res, l')) :
    res = 0 ∧ l'.fLastSubCycle = l.fLastSubCycle := by
  obtain ⟨l₁, hclean, hrest⟩ := bind_eq_ok.mp h
  rw [if_neg (Nat.lt_irrefl 0)] at hrest
  obtain ⟨rfl, rfl⟩ := Prod.ext_iff.mp (Except.ok.inj hrest)
  refine ⟨rfl, ?_⟩
  split at hclean
  · exact cleanup_fLastSubCycle hclean
  · cases hclean; rfl

/-- The receiver checks the buffer of the port at the slice's position, not of the port the slice
names. Port 1 alone is active on the sender, so the packet's one slice names port 1; the receiver,
whose port 0 has no buffer, skips it, and its port 1 keeps the silence of the cleanup (0) where the
sender sent 1. -/
theorem renderFromNetworkLE_skips_named_port :
    ((getNumPackets (JackPortList.ofSession ⟨1500, 1, 1, 4, by decide, by decide⟩
        [.null, .samples fun i => BitVec.ofNat 32 (i + 1)]) >>= fun (_, l) =>
      renderToNetworkLE l ⟨1460, fun _ => 0⟩ 0 >>= fun (net, _, port_num) => renderFromNetworkLE
        (JackPortList.ofSession ⟨1500, 1, 1, 4, by decide, by decide⟩ [.null, .samples fun _ => 7])
        net 0 0 20 port_num).toOption.map
      fun (_, r) => r.fPortBuffer[1]?.bind (PortBuffer.sample? · 0)) = some (some 0) := by
  decide

/-- The receiver never checks the port index a packet names, nor `copy_size`: with one slice in a
packet of which it was told no byte arrived, an index naming a port with no buffer makes it write
through that `NULL`, and an index past `fNPorts` makes it index `fPortBuffer` out of bounds. -/
theorem renderFromNetworkLE_writes_unchecked_port :
    renderFromNetworkLE (JackPortList.ofSession ⟨56, 1, 1, 4, by decide, by decide⟩
        [.samples fun _ => 7, .null]) ⟨20, fun i => if i = 0 then 1 else 0⟩ 0 0 0 1 =
      .error (.badBuffer 1) ∧
    renderFromNetworkLE (JackPortList.ofSession ⟨56, 1, 1, 4, by decide, by decide⟩
        [.samples fun _ => 7, .null]) ⟨20, fun i => if i = 0 then 7 else 0⟩ 0 0 0 1 =
      .error (.portIndex 7) :=
  ⟨rfl, rfl⟩

/-- The sizing leaves no room for the port index: a session of an MTU of 56 bytes, so 16 bytes of
payload, one channel and a period of 4 frames sends one active port in a sub-period of 4 frames,
20 bytes with its index. `RenderToNetwork` returns 20, and overruns a payload area of 16 bytes. -/
theorem renderToNetworkLE_overruns_packet :
    4 * 1 ≤ (⟨56, 1, 1, 4, by decide, by decide⟩ : SessionParams).packetAvailableSize ∧
    ((getNumPackets (JackPortList.ofSession ⟨56, 1, 1, 4, by decide, by decide⟩
        [.samples fun i => BitVec.ofNat 32 (i + 1)]) >>= fun (_, l) =>
      renderToNetworkLE l ⟨20, fun _ => 0⟩ 0).toOption.map fun r => r.2.1) = some 20 ∧
    (getNumPackets (JackPortList.ofSession ⟨56, 1, 1, 4, by decide, by decide⟩
        [.samples fun i => BitVec.ofNat 32 (i + 1)]) >>= fun (_, l) =>
      renderToNetworkLE l ⟨16, fun _ => 0⟩ 0) = .error (.netRange 4 16) :=
  ⟨by decide, by decide, rfl⟩

/-- `RenderToNetwork` of the build for `host`: the big-endian build runs `JackPortList`'s. -/
def renderToNetwork : ByteOrder → JackPortList → NetBuffer → Int →
    Except Fault (NetBuffer × Int × Nat)
  | .little => renderToNetworkLE
  | .big => JackPortList.renderToNetworkBE

/-- `RenderFromNetwork` of the build for `host`: the big-endian build runs `JackPortList`'s. -/
def renderFromNetwork : ByteOrder → JackPortList → NetBuffer → Int → Int → Nat → Nat →
    Except Fault (Int × JackPortList)
  | .little => renderFromNetworkLE
  | .big => JackPortList.renderFromNetworkBE

/-- The big-endian build runs `JackPortList`'s loops over every port, `fSubPeriodBytesSize / 4`
samples each, on the sizes of the optimized layout, where that is one sample more than the
sub-period: it reads through the `NULL` buffer of an inactive port, and past the period of an
active one; and it writes the samples of every port, active or not, into the packet. -/
theorem renderToNetwork_big_out_of_bounds :
    (getNumPackets (JackPortList.ofSession ⟨56, 1, 1, 4, by decide, by decide⟩
        [.null, .samples fun i => BitVec.ofNat 32 (i + 1)]) >>= fun (_, l) =>
      renderToNetwork .big l ⟨40, fun _ => 0⟩ 0) = .error (.badBuffer 0) ∧
    (getNumPackets (JackPortList.ofSession ⟨56, 1, 1, 4, by decide, by decide⟩
        [.samples fun i => BitVec.ofNat 32 (i + 1)]) >>= fun (_, l) =>
      renderToNetwork .big l ⟨40, fun _ => 0⟩ 0) = .error (.sampleRange 0 4 1) ∧
    (getNumPackets (JackPortList.ofSession ⟨56, 1, 1, 4, by decide, by decide⟩
        [.samples fun _ => 7]) >>= fun (_, l) =>
      renderFromNetwork .big l ⟨40, fun _ => 0⟩ 0 0 20 1) = .error (.sampleRange 0 4 1) :=
  ⟨rfl, rfl, rfl⟩

end JackOptimizedPortList

end JackNet
