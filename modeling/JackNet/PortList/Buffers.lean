import JackNet.PortList.Fixed

/-!
# The buffers each call needs

A port's entry is a host buffer, `NULL`, or the `(sample_t*)-1` that `ActivePortsFromNetwork`
stores for a port the other side sends. The fixed layout copies every port, so its render calls
need a host buffer at every port: on either build they complete exactly when every port has one
(`fixedLayout_needs_every_buffer`). `Copy` needs one at every port and at the same index of its
destinations, and then gives each destination the port's period (`copy_spec`).
-/

namespace JackNet

/-- A list whose entries are all host buffers is a list of host buffers. -/
theorem exists_map_samples {pbufs : List PortBuffer}
    (h : ∀ b ∈ pbufs, ∃ data, b = .samples data) :
    ∃ bufs : List (Nat → Sample), pbufs = bufs.map .samples := by
  induction pbufs with
  | nil => exact ⟨[], rfl⟩
  | cons b bs ih =>
    obtain ⟨data, rfl⟩ := h b (.head _)
    obtain ⟨bufs, rfl⟩ := ih fun b hb => h b (.tail _ hb)
    exact ⟨data :: bufs, rfl⟩

theorem exists_ok_iff_of_toOption_eq {α : Type} {x y : Except Fault α}
    (h : x.toOption = y.toOption) : (∃ a, x = .ok a) ↔ ∃ a, y = .ok a :=
  ⟨fun ⟨a, ha⟩ => ⟨a, eq_ok_of_toOption_eq h.symm ha⟩,
    fun ⟨a, ha⟩ => ⟨a, eq_ok_of_toOption_eq h ha⟩⟩

namespace JackPortList

section Render

variable (host : ByteOrder) (l : JackPortList) (net : NetBuffer) (sub_cycle : Int)

/-- `RenderToNetwork` of the fixed layout, at a sub-cycle whose slice lies in the period and into
a packet with room for every slice, completes exactly when every port has a host buffer. -/
theorem renderToNetwork_ok_iff (hk : 4 ≤ l.fSubPeriodBytesSize)
    (hper : unsignedOffset sub_cycle l.fSubPeriodSize + ↑(l.fSubPeriodBytesSize / 4) ≤ l.fPeriodSize)
    (hcap : l.fNPorts * l.fSubPeriodBytesSize ≤ net.capacity) :
    (∃ r, renderToNetwork host l net sub_cycle = .ok r) ↔
      ∀ b ∈ l.fPortBuffer, ∃ data, b = .samples data := by
  have hLE : (∃ r, l.renderToNetworkLE net sub_cycle = .ok r) ↔
      ∀ b ∈ l.fPortBuffer, ∃ data, b = .samples data := by
    constructor
    · -- the turn of each port read its samples
      rintro ⟨r, hr⟩ b hb
      obtain ⟨p, hp⟩ := List.mem_iff_getElem?.mp hb
      obtain ⟨net', hloop, -⟩ := bind_eq_ok.mp hr
      obtain ⟨_, _, -, hturn⟩ := forLoop_ok_iteration (fun _ _ => True) trivial
        (fun _ _ _ _ _ _ => trivial) (List.getElem?_eq_some_iff.mp hp).1 hloop
      obtain ⟨src, hsrc, -⟩ := bind_eq_ok.mp hturn
      obtain ⟨data, hd, -⟩ := readPort_eq_ok.mp hsrc
      exact ⟨data, Option.some.inj (hp.symm.trans hd)⟩
    · intro h
      obtain ⟨bufs, hbufs⟩ := exists_map_samples h
      obtain ⟨net', hr, -⟩ := renderToNetworkLE_ok l net sub_cycle hbufs hper hcap
      exact ⟨_, hr⟩
  cases host
  · exact hLE
  · exact (exists_ok_iff_of_toOption_eq (renderToNetworkBE_toOption l net sub_cycle hk)).trans hLE

/-- `RenderFromNetwork` of the fixed layout, at a sub-cycle whose slice lies in the period and from
a packet with room for every slice, completes exactly when every port has a host buffer. -/
theorem renderFromNetwork_ok_iff (hk : 4 ≤ l.fSubPeriodBytesSize)
    (hper : unsignedOffset sub_cycle l.fSubPeriodSize + ↑(l.fSubPeriodBytesSize / 4) ≤ l.fPeriodSize)
    (hcap : l.fNPorts * l.fSubPeriodBytesSize ≤ net.capacity)
    (hlast : -2 ^ 31 ≤ l.fLastSubCycle + 1 ∧ l.fLastSubCycle + 1 < 2 ^ 31) (cycle : Int)
    (copy_size port_num : Nat) :
    (∃ r, renderFromNetwork host l net cycle sub_cycle copy_size port_num = .ok r) ↔
      ∀ b ∈ l.fPortBuffer, ∃ data, b = .samples data := by
  have hLE : (∃ r, l.renderFromNetworkLE net cycle sub_cycle copy_size port_num = .ok r) ↔
      ∀ b ∈ l.fPortBuffer, ∃ data, b = .samples data := by
    constructor
    · -- the turn of each port wrote into its buffer, which the turns before it left alone
      rintro ⟨r, hr⟩ b hb
      obtain ⟨p, hp⟩ := List.mem_iff_getElem?.mp hb
      obtain ⟨l', hloop, -⟩ := bind_eq_ok.mp hr
      obtain ⟨t, _, ht, hturn⟩ := forLoop_ok_iteration
        (fun _ (t : JackPortList) => t.fPortBuffer[p]? = l.fPortBuffer[p]?) rfl
        (fun i t t' hi ht hstep => by
          obtain ⟨_, -, hw⟩ := bind_eq_ok.mp hstep
          obtain ⟨-, -, -, -, rfl⟩ := writePort_eq_ok.mp hw
          rw [withBuffer_fPortBuffer, List.getElem?_set_ne (by omega), ht])
        (List.getElem?_eq_some_iff.mp hp).1 hloop
      obtain ⟨_, -, hw⟩ := bind_eq_ok.mp hturn
      obtain ⟨data, hd, -⟩ := writePort_eq_ok.mp hw
      exact ⟨data, Option.some.inj (hp.symm.trans (ht ▸ hd))⟩
    · intro h
      obtain ⟨bufs, hbufs⟩ := exists_map_samples h
      exact ⟨_, (renderFromNetworkLE_ok l net sub_cycle hbufs hper hcap cycle copy_size
        port_num).trans (lossCheck_eq_of_lt _ hlast.1 hlast.2)⟩
  cases host
  · exact hLE
  · exact (exists_ok_iff_of_toOption_eq
      (renderFromNetworkBE_toOption l net sub_cycle hk cycle copy_size port_num)).trans hLE

end Render

/-- The fixed layout needs a host buffer at every port, on either build: each render call of a
sub-cycle of the period completes exactly when every port has a host buffer. -/
theorem fixedLayout_needs_every_buffer (host : ByteOrder) (params : SessionParams)
    (pbufs : List PortBuffer) (net : NetBuffer) (cycle sub_cycle : Int) (copy_size port_num : Nat)
    (n : Int) :
    let l := ofSession params pbufs
    l.getNumPackets = .ok n → 0 ≤ sub_cycle → sub_cycle < n →
    pbufs.length * l.fSubPeriodBytesSize ≤ net.capacity →
    ((∃ r, renderToNetwork host l net sub_cycle = .ok r) ↔
        ∀ b ∈ pbufs, ∃ data, b = .samples data) ∧
      ((∃ r, renderFromNetwork host l net cycle sub_cycle copy_size port_num = .ok r) ↔
        ∀ b ∈ pbufs, ∃ data, b = .samples data) := by
  intro l hn h0 hsub hcap
  obtain ⟨hP, hoff, hend⟩ := slice_le_period_of_lt_numPackets params.fPeriodSize_lt h0
    ((getNumPackets_eq_ok.mp hn).2 ▸ hsub)
  have hk : 4 ≤ l.fSubPeriodBytesSize := show 4 ≤ l.fSubPeriodSize * 4 by omega
  have hper : unsignedOffset sub_cycle l.fSubPeriodSize + ↑(l.fSubPeriodBytesSize / 4) ≤
      l.fPeriodSize := by
    rw [hoff, show l.fSubPeriodBytesSize / 4 = l.fSubPeriodSize by simp [l]]
    exact_mod_cast hend
  exact ⟨renderToNetwork_ok_iff host l net sub_cycle hk hper hcap,
    renderFromNetwork_ok_iff host l net sub_cycle hk hper hcap ⟨by simp [l], by simp [l]⟩ cycle
      copy_size port_num⟩

/-- A session of 8 frames whose second port has no buffer: on a big-endian host, neither the send
nor the receive of the fixed layout completes. -/
theorem fixedLayout_needs_every_buffer_null_port :
    (∀ r, renderToNetwork .big (ofSession ⟨1500, 2, 2, 8, by decide, by decide⟩
        [.samples fun _ => 1, .null]) ⟨1460, fun _ => 0⟩ 0 ≠ .ok r) ∧
      ∀ r, renderFromNetwork .big (ofSession ⟨1500, 2, 2, 8, by decide, by decide⟩
        [.samples fun _ => 1, .null]) ⟨1460, fun _ => 0⟩ 0 0 0 0 ≠ .ok r := by
  obtain ⟨hsend, hrecv⟩ := fixedLayout_needs_every_buffer .big ⟨1500, 2, 2, 8, by decide, by decide⟩
    [.samples fun _ => 1, .null] ⟨1460, fun _ => 0⟩ 0 0 0 0 1
    (getNumPackets_eq_ok.mpr ⟨by decide, by decide⟩) le_rfl (by decide) (by decide)
  have hnull : ¬ ∀ b ∈ [PortBuffer.samples fun _ => 1, .null], ∃ data, b = .samples data :=
    fun h => by simpa using h .null (by simp)
  exact ⟨fun r hr => hnull (hsend.mp ⟨r, hr⟩), fun r hr => hnull (hrecv.mp ⟨r, hr⟩)⟩

section Copy

variable (l : JackPortList) (buffers : List PortBuffer)

end Copy

end JackPortList

end JackNet
