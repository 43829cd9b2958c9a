import JackNet.PortList.Optimized

/-!
# Loss detection over whole runs

A receiving port list goes through cycles: `RenderFromNetwork` once per packet, then
`RenderToJackPorts` when the cycle is over. Every `RenderFromNetwork` that copies a packet ends
with the same check: it returns `NET_PACKET_ERROR` when its sub-cycle does not follow
`fLastSubCycle`, and stores its sub-cycle there. `RenderToJackPorts` of the little-endian build
sets `fLastSubCycle` back to `-1`; that of the big-endian build is empty. The optimized list
(little-endian only) checks only packets with `port_num > 0`.

A run is a list of events; its outcome is the list of the codes the receive calls return. The
specification's codes depend on the sub-cycle indices alone; the optimized list's are those of its
checked receives, an unchecked one returning `0` and leaving `fLastSubCycle` as it was.
-/

namespace JackNet

/-- A call a receiving port list gets. -/
inductive Event
  | renderFromNetwork (net : NetBuffer) (cycle sub_cycle : Int) (copy_size port_num : Nat)
  | renderToJackPorts

/-- A receiving port list: `JackPortList` on a host of either byte order, or
`JackOptimizedPortList` on a little-endian host. -/
inductive Receiver
  | fixed (host : ByteOrder)
  | optimized
  deriving DecidableEq

namespace Receiver

/-- One call, with the code it returns if it is a receive. -/
def step : Receiver → JackPortList → Event → Except Fault (List Int × JackPortList)
  | fixed host, l, .renderFromNetwork net cycle sub_cycle copy_size port_num => do
    let (res, l) ← JackPortList.renderFromNetwork host l net cycle sub_cycle copy_size port_num
    pure ([res], l)
  | optimized, l, .renderFromNetwork net cycle sub_cycle copy_size port_num => do
    let (res, l) ← JackOptimizedPortList.renderFromNetworkLE l net cycle sub_cycle copy_size port_num
    pure ([res], l)
  | fixed .little, l, .renderToJackPorts => pure ([], l.renderToJackPortsLE)
  | fixed .big, l, .renderToJackPorts => pure ([], l.renderToJackPortsBE)
  | optimized, l, .renderToJackPorts => pure ([], l.renderToJackPortsLE)

/-- A run: the codes of its receive calls, in order, and the list at its end. -/
def run (r : Receiver) : JackPortList → List Event → Except Fault (List Int × JackPortList)
  | l, [] => .ok ([], l)
  | l, e :: es => do
    let (codes, l) ← r.step l e
    let (codes', l) ← r.run l es
    pure (codes ++ codes', l)

/-- Whether `r` checks the receive of a packet of `port_num` slices for a missing packet: the
optimized list checks only packets with slices. -/
def checked : Receiver → Nat → Bool
  | fixed _, _ => true
  | optimized, port_num => decide (0 < port_num)

end Receiver

/-- The codes of a run whose receives `checked` selects are checked: `last` is the sub-cycle of
the previous checked receive of the cycle (`-1` before the first), and an unchecked receive returns
`0`. -/
def lossCodes (checked : Nat → Bool) : Int → List Event → List Int
  | _, [] => []
  | last, .renderFromNetwork _ _ sub_cycle _ port_num :: es =>
    if checked port_num then
      (if sub_cycle ≠ last + 1 then NET_PACKET_ERROR else 0) :: lossCodes checked sub_cycle es
    else 0 :: lossCodes checked last es
  | _, .renderToJackPorts :: es => lossCodes checked (-1) es

/-- The codes the specification asks for: every receive checked. -/
def expectedCodes : Int → List Event → List Int := lossCodes fun _ => true

/-- A cycle whose checked receives deliver its sub-cycles in order from `k` on is owed no report. -/
theorem lossCodes_inOrder {checked : Nat → Bool} {cycle : List Event} (k : Nat)
    (h : ∀ i < cycle.length, ∃ net c copy_size port_num, checked port_num ∧
      cycle[i]? = some (.renderFromNetwork net c ↑(k + i) copy_size port_num)) :
    lossCodes checked (↑k - 1) cycle = List.replicate cycle.length 0 := by
  induction cycle generalizing k with
  | nil => rfl
  | cons e es ih =>
    obtain ⟨net, c, copy_size, port_num, hc, he⟩ := h 0 (by simp)
    obtain rfl : e = .renderFromNetwork net c ↑(k + 0) copy_size port_num := by simpa using he
    have hk : ((k + 1 : Nat) : Int) - 1 = ↑(k + 0) := by omega
    rw [lossCodes, if_pos hc, if_neg (by omega), ← hk, ih (k + 1) fun i hi => ?_]
    · rfl
    · obtain ⟨net, c, copy_size, port_num, hc, he⟩ := h (i + 1) (by simpa using hi)
      exact ⟨net, c, copy_size, port_num, hc,
        by simpa [Nat.add_assoc, Nat.add_comm 1 i] using he⟩

namespace Receiver

/-- One call of a receiver that ends each cycle by resetting `fLastSubCycle`: the code it returns
is the one its checks give after `fLastSubCycle`, and it leaves the sub-cycle they go on from. -/
theorem step_lossCodes {r : Receiver} (hr : r ≠ fixed .big) {l l' : JackPortList} {e : Event}
    {codes : List Int} (h : r.step l e = .ok (codes, l')) (es : List Event) :
    codes ++ lossCodes r.checked l'.fLastSubCycle es =
      lossCodes r.checked l.fLastSubCycle (e :: es) := by
  match r, e with
  | fixed .big, _ => exact absurd rfl hr
  | fixed .little, .renderFromNetwork net cycle sub_cycle copy_size port_num =>
    obtain ⟨⟨res, l₁⟩, hrecv, hres⟩ := bind_eq_ok.mp h
    obtain ⟨rfl, rfl⟩ := Prod.ext_iff.mp (Except.ok.inj hres)
    obtain ⟨rfl, hlast⟩ := JackPortList.renderFromNetworkLE_lossCheck
      (show l.renderFromNetworkLE net cycle sub_cycle copy_size port_num = _ from hrecv)
    rw [hlast]
    rfl
  | optimized, .renderFromNetwork net cycle sub_cycle copy_size port_num =>
    obtain ⟨⟨res, l₁⟩, hrecv, hres⟩ := bind_eq_ok.mp h
    obtain ⟨rfl, rfl⟩ := Prod.ext_iff.mp (Except.ok.inj hres)
    rcases Nat.eq_zero_or_pos port_num with rfl | hport
    · obtain ⟨rfl, hlast⟩ := JackOptimizedPortList.renderFromNetworkLE_unchecked hrecv
      rw [hlast]
      rfl
    · obtain ⟨rfl, hlast⟩ := JackOptimizedPortList.renderFromNetworkLE_lossCheck hport hrecv
      simp only [lossCodes, checked, hlast, decide_eq_true hport, if_true, List.singleton_append]
  | fixed .little, .renderToJackPorts | optimized, .renderToJackPorts =>
    obtain ⟨rfl, rfl⟩ := Prod.ext_iff.mp (Except.ok.inj h)
    rfl

/-- Such a receiver ends a cycle with `fLastSubCycle = -1`. -/
theorem step_renderToJackPorts {r : Receiver} (hr : r ≠ fixed .big) {l l' : JackPortList}
    {codes : List Int} (h : r.step l .renderToJackPorts = .ok (codes, l')) :
    l'.fLastSubCycle = -1 := by
  match r with
  | fixed .big => exact absurd rfl hr
  | fixed .little | optimized =>
    obtain ⟨-, rfl⟩ := Prod.ext_iff.mp (Except.ok.inj h)
    rfl

/-- Over a whole run, such a receiver returns exactly the codes its checks give, from
`fLastSubCycle`. -/
theorem run_lossCodes {r : Receiver} (hr : r ≠ fixed .big) {l l' : JackPortList}
    {es : List Event} {codes : List Int} (h : r.run l es = .ok (codes, l')) :
    codes = lossCodes r.checked l.fLastSubCycle es := by
  induction es generalizing l codes with
  | nil => obtain ⟨rfl, -⟩ := Prod.ext_iff.mp (Except.ok.inj h); rfl
  | cons e es ih =>
    obtain ⟨⟨c₁, l₁⟩, hstep, hrest⟩ := bind_eq_ok.mp h
    obtain ⟨⟨c₂, l₂⟩, hrun, hres⟩ := bind_eq_ok.mp hrest
    obtain ⟨rfl, rfl⟩ := Prod.ext_iff.mp (Except.ok.inj hres)
    rw [ih hrun]
    exact step_lossCodes hr hstep es

/-- Loss detection of `JackPortList` on a little-endian host and of `JackOptimizedPortList`, over
every run that completes: each checked receive reports a missing packet exactly when its sub-cycle
does not follow the previous checked receive of its cycle, and a cycle in order reports nothing. -/
theorem run_reports_loss_exactly (r : Receiver) (hr : r ≠ fixed .big) :
    (∀ (l l' : JackPortList) (es : List Event) (codes : List Int), l.fLastSubCycle = -1 →
      r.run l es = .ok (codes, l') → codes = lossCodes r.checked (-1) es) ∧
    ∀ (l l₁ l₂ : JackPortList) (cycle : List Event) (codes : List Int),
      (∀ i < cycle.length, ∃ net c copy_size port_num, r.checked port_num ∧
        cycle[i]? = some (.renderFromNetwork net c i copy_size port_num)) →
      r.step l .renderToJackPorts = .ok ([], l₁) → r.run l₁ cycle = .ok (codes, l₂) →
      codes = List.replicate cycle.length 0 := by
  refine ⟨fun l l' es codes hl h => hl ▸ run_lossCodes hr h,
    fun l l₁ l₂ cycle codes hcycle hend h => ?_⟩
  rw [run_lossCodes hr h, step_renderToJackPorts hr hend]
  exact lossCodes_inOrder 0 (by simpa using hcycle)

/-- The optimized list receives a packet of sub-cycle 0 without slices, which it does not check,
then one of sub-cycle 1: the second follows no checked receive of the cycle and is reported. -/
theorem run_reports_loss_exactly_unchecked_packet :
    ∃ (codes : List Int) (l' : JackPortList), optimized.run
      (JackPortList.ofSession ⟨56, 1, 1, 8, by decide, by decide⟩ [.samples fun _ => 0])
      [.renderFromNetwork ⟨20, fun _ => 0⟩ 0 0 0 0, .renderFromNetwork ⟨20, fun _ => 0⟩ 0 1 20 1] =
        .ok (codes, l') ∧ codes = [0, NET_PACKET_ERROR] := by
  have hok : (optimized.run
      (JackPortList.ofSession ⟨56, 1, 1, 8, by decide, by decide⟩ [.samples fun _ => 0])
      [.renderFromNetwork ⟨20, fun _ => 0⟩ 0 0 0 0,
        .renderFromNetwork ⟨20, fun _ => 0⟩ 0 1 20 1]).toOption.isSome := by
    decide
  cases hrun : optimized.run
      (JackPortList.ofSession ⟨56, 1, 1, 8, by decide, by decide⟩ [.samples fun _ => 0])
      [.renderFromNetwork ⟨20, fun _ => 0⟩ 0 0 0 0, .renderFromNetwork ⟨20, fun _ => 0⟩ 0 1 20 1] with
  | error e => rw [hrun] at hok; cases hok
  | ok p =>
    exact ⟨p.1, p.2, rfl, (run_reports_loss_exactly optimized (by decide)).1 _ p.2 _ p.1 rfl hrun⟩

/-- On a big-endian host `RenderToJackPorts` is empty and `fLastSubCycle` survives the end of the
cycle: a list of one port, in a session of an MTU of 56 bytes and a period of four frames sent in
one packet, receives sub-cycle 0 of two cycles in a row and reports the second as a missing
packet, where the specification asks for no report. -/
theorem run_big_reports_loss_after_cycle :
    ((fixed .big).run
      (JackPortList.ofSession ⟨56, 1, 1, 4, by decide, by decide⟩ [.samples fun _ => 0])
      [.renderFromNetwork ⟨16, fun _ => 0⟩ 0 0 16 1, .renderToJackPorts,
        .renderFromNetwork ⟨16, fun _ => 0⟩ 1 0 16 1]).toOption.map Prod.fst =
      some [0, NET_PACKET_ERROR] ∧
    expectedCodes (-1) [.renderFromNetwork ⟨16, fun _ => 0⟩ 0 0 16 1, .renderToJackPorts,
      .renderFromNetwork ⟨16, fun _ => 0⟩ 1 0 16 1] = [0, 0] := by
  decide

end Receiver

end JackNet
