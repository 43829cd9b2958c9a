import JackNet.Session
import JackNet.PortList.Memory

/-!
# Port lists

`JackPortList` lays a sub-cycle of every port out in the packet one after the other,
`fSubPeriodBytesSize` bytes each. `JackOptimizedPortList` has the same fields and sends only the
ports with a buffer, each slice after a 32-bit port index. Both keep the sizing of their session
and the index of the last sub-cycle they received.

The array `fPortBuffer` has `fNPorts` entries, so `fNPorts` is its length here. `fCycleDuration`,
a `float` no modelled call reads, is left out. The calls common to both layouts are here; the
render calls of each layout and byte order have modules of their own.
-/

namespace JackNet

/-- The state of a `JackPortList` or `JackOptimizedPortList`. -/
structure JackPortList where
  fPeriodSize : Nat
  fSubPeriodSize : Nat
  fSubPeriodBytesSize : Nat
  fPortBuffer : List PortBuffer
  fPacketSize : Int
  fCycleSize : Nat
  fLastSubCycle : Int

/-- `NET_PACKET_ERROR`, what a receive returns when a sub-cycle is missing. -/
def NET_PACKET_ERROR : Int := -2

/-- `sub_cycle * fSubPeriodSize` with an `int` and a `jack_nframes_t`: unsigned, modulo `2 ^ 32`. -/
def unsignedOffset (sub_cycle : Int) (size : Nat) : Int := (sub_cycle * size) % 2 ^ 32

theorem unsignedOffset_of_lt {sub_cycle : Int} {size : Nat} (h0 : 0 ≤ sub_cycle)
    (h : sub_cycle * size < 2 ^ 32) : unsignedOffset sub_cycle size = sub_cycle * size :=
  Int.emod_eq_of_lt (Int.mul_nonneg h0 (Int.ofNat_nonneg size)) h

theorem unsignedOffset_nonneg (sub_cycle : Int) (size : Nat) : 0 ≤ unsignedOffset sub_cycle size :=
  Int.emod_nonneg _ (by decide)

/-- An `int` sum or product of exact value `x`: undefined outside `[-2 ^ 31, 2 ^ 31)`. -/
def signedResult (x : Int) : Except Fault Int :=
  if -2 ^ 31 ≤ x ∧ x < 2 ^ 31 then .ok x else .error .overflow

theorem signedResult_eq_ok {x y : Int} :
    signedResult x = .ok y ↔ y = x ∧ -2 ^ 31 ≤ x ∧ x < 2 ^ 31 := by
  unfold signedResult
  split
  · rename_i h
    exact ⟨fun e => ⟨(Except.ok.inj e).symm, h⟩, fun ⟨e, _⟩ => e ▸ rfl⟩
  · rename_i h
    simp only [reduceCtorEq, false_iff, not_and]
    exact fun _ h0 h1 => h ⟨h0, h1⟩

/-- Slot `q` of `n` slots of `b ≥ 4 k` bytes ends, `4 k` bytes in, before slot `n` starts. -/
theorem slot_end_le {q n b k : Nat} (hq : q < n) (hk : 4 * k ≤ b) : q * b + 4 * k ≤ n * b := by
  have := Nat.mul_le_mul_right b hq
  rw [Nat.succ_mul] at this
  omega

namespace JackPortList

/-- `fNPorts`. -/
def fNPorts (l : JackPortList) : Nat := l.fPortBuffer.length

/-- The list of the session `params` for `bufs.length` ports, as the constructor builds it when
it completes, once `SetBuffer` has given each port its entry of `bufs`. -/
def ofSession (params : SessionParams) (bufs : List PortBuffer) : JackPortList :=
  let fPacketSize := toInt32 (params.fMtu - sizeofPacketHeader)
  let fSubPeriodSize :=
    if params.fSendAudioChannels = 0 ∧ params.fReturnAudioChannels = 0 then params.fPeriodSize
    else subPeriodFor params.fPeriodSize fPacketSize
      (max params.fReturnAudioChannels params.fSendAudioChannels)
  { fPeriodSize := params.fPeriodSize
    fSubPeriodSize
    fSubPeriodBytesSize := fSubPeriodSize * 4
    fPortBuffer := bufs
    fPacketSize
    fCycleSize := params.fMtu * (params.fPeriodSize / fSubPeriodSize) % 2 ^ 32
    fLastSubCycle := -1 }

/-- `JackPortList(params, nports)`, with every buffer `NULL`. `fCycleSize` divides by the
sub-period, which traps when the sizing gave zero. -/
def new (params : SessionParams) (nports : Nat) : Except Fault JackPortList :=
  let l := ofSession params (List.replicate nports .null)
  if l.fSubPeriodSize = 0 then .error .divisionByZero else .ok l

section OfSession

variable (params : SessionParams) (bufs : List PortBuffer)

@[simp] theorem ofSession_fPeriodSize : (ofSession params bufs).fPeriodSize = params.fPeriodSize :=
  rfl

@[simp] theorem ofSession_fPacketSize :
    (ofSession params bufs).fPacketSize = toInt32 (params.fMtu - sizeofPacketHeader) := rfl

@[simp] theorem ofSession_fSubPeriodSize : (ofSession params bufs).fSubPeriodSize =
    subPeriodFor params.fPeriodSize (toInt32 (params.fMtu - sizeofPacketHeader))
      (max params.fReturnAudioChannels params.fSendAudioChannels) := by
  simp only [ofSession]
  split
  · simp_all
  · rfl

@[simp] theorem ofSession_fSubPeriodBytesSize :
    (ofSession params bufs).fSubPeriodBytesSize = (ofSession params bufs).fSubPeriodSize * 4 := rfl

@[simp] theorem ofSession_fPortBuffer : (ofSession params bufs).fPortBuffer = bufs := rfl

@[simp] theorem ofSession_fCycleSize : (ofSession params bufs).fCycleSize =
    params.fMtu * (params.fPeriodSize / (ofSession params bufs).fSubPeriodSize) % 2 ^ 32 := rfl

@[simp] theorem ofSession_fLastSubCycle : (ofSession params bufs).fLastSubCycle = -1 := rfl

end OfSession

/-- `fPortBuffer[index]`. -/
def buffer (l : JackPortList) (index : Nat) : Except Fault PortBuffer :=
  match l.fPortBuffer[index]? with
  | some b => .ok b
  | none => .error (.portIndex index)

/-- The list with `fPortBuffer[index] = b`. -/
def withBuffer (l : JackPortList) (index : Nat) (b : PortBuffer) : JackPortList :=
  { l with fPortBuffer := l.fPortBuffer.set index b }

section WithBuffer

variable (l : JackPortList) (index : Nat) (b : PortBuffer)

@[simp] theorem withBuffer_fPortBuffer :
    (l.withBuffer index b).fPortBuffer = l.fPortBuffer.set index b := rfl

@[simp] theorem withBuffer_fPeriodSize : (l.withBuffer index b).fPeriodSize = l.fPeriodSize := rfl

@[simp] theorem withBuffer_fSubPeriodSize :
    (l.withBuffer index b).fSubPeriodSize = l.fSubPeriodSize := rfl

@[simp] theorem withBuffer_fSubPeriodBytesSize :
    (l.withBuffer index b).fSubPeriodBytesSize = l.fSubPeriodBytesSize := rfl

@[simp] theorem withBuffer_fPacketSize : (l.withBuffer index b).fPacketSize = l.fPacketSize := rfl

@[simp] theorem withBuffer_fLastSubCycle :
    (l.withBuffer index b).fLastSubCycle = l.fLastSubCycle := rfl

@[simp] theorem withBuffer_withBuffer (b' : PortBuffer) :
    (l.withBuffer index b).withBuffer index b' = l.withBuffer index b' := by
  simp only [withBuffer, List.set_set]

/-- Setting a port to the buffer it has changes nothing. -/
theorem withBuffer_self {index : Nat} {b : PortBuffer} (h : l.fPortBuffer[index]? = some b) :
    l.withBuffer index b = l := by
  have : l.fPortBuffer.set index b = l.fPortBuffer := by
    apply List.ext_getElem?
    intro j
    rw [List.getElem?_set]
    split
    · subst index
      obtain ⟨hj, rfl⟩ := List.getElem?_eq_some_iff.mp h
      simp [hj]
    · rfl
  simp only [withBuffer, this]

/-- Replacing an entry by one that is `NULL` exactly when it was keeps which ports are `NULL`. -/
theorem map_isSet_withBuffer {l : JackPortList} {index : Nat} {b b' : PortBuffer}
    (h : l.fPortBuffer[index]? = some b) (hb : b'.isSet = b.isSet) :
    (l.withBuffer index b').fPortBuffer.map PortBuffer.isSet = l.fPortBuffer.map PortBuffer.isSet := by
  apply List.ext_getElem?
  intro j
  simp only [withBuffer_fPortBuffer, List.getElem?_map, List.getElem?_set]
  split
  · subst j
    simp [(List.getElem?_eq_some_iff.mp h).1, h, hb]
  · rfl

end WithBuffer

/-- `SetBuffer(index, buffer)`. -/
def setBuffer (l : JackPortList) (index : Nat) (b : PortBuffer) : Except Fault JackPortList := do
  let _ ← l.buffer index
  pure (l.withBuffer index b)

/-- `count` samples of port `port` from sample `offset` on. -/
def readPort (l : JackPortList) (port : Nat) (offset : Int) (count : Nat) :
    Except Fault (List Sample) := do
  (← l.buffer port).read port l.fPeriodSize offset count

/-- `xs` written into port `port` from sample `offset` on. -/
def writePort (l : JackPortList) (port : Nat) (offset : Int) (xs : List Sample) :
    Except Fault JackPortList := do
  let b ← (← l.buffer port).write port l.fPeriodSize offset xs
  pure (l.withBuffer port b)

theorem buffer_eq_ok {l : JackPortList} {index : Nat} {b : PortBuffer} :
    l.buffer index = .ok b ↔ l.fPortBuffer[index]? = some b := by
  simp only [buffer]
  split <;> rename_i h <;> simp [h]

theorem readPort_eq_ok {l : JackPortList} {port : Nat} {offset : Int} {count : Nat}
    {xs : List Sample} : l.readPort port offset count = .ok xs ↔
      ∃ data, l.fPortBuffer[port]? = some (.samples data) ∧ 0 ≤ offset ∧
        offset + count ≤ l.fPeriodSize ∧ xs = slice data offset.toNat count := by
  simp only [readPort, bind_eq_ok, buffer_eq_ok, PortBuffer.read_eq_ok]
  constructor
  · rintro ⟨b, hb, data, rfl, h⟩
    exact ⟨data, hb, h⟩
  · rintro ⟨data, hb, h⟩
    exact ⟨_, hb, data, rfl, h⟩

theorem writePort_eq_ok {l l' : JackPortList} {port : Nat} {offset : Int} {xs : List Sample} :
    l.writePort port offset xs = .ok l' ↔
      ∃ data, l.fPortBuffer[port]? = some (.samples data) ∧ 0 ≤ offset ∧
        offset + xs.length ≤ l.fPeriodSize ∧
        l' = l.withBuffer port (.samples (overwrite data offset.toNat xs)) := by
  simp only [writePort, bind_eq_ok, buffer_eq_ok, PortBuffer.write_eq_ok]
  constructor
  · rintro ⟨b, hb, b', ⟨data, rfl, h0, h1, rfl⟩, h⟩
    exact ⟨data, hb, h0, h1, (Except.ok.inj h).symm⟩
  · rintro ⟨data, hb, h0, h1, rfl⟩
    exact ⟨_, hb, _, ⟨data, rfl, h0, h1, rfl⟩, rfl⟩

theorem writePort_fLastSubCycle {l l' : JackPortList} {port : Nat} {offset : Int}
    {xs : List Sample} (h : l.writePort port offset xs = .ok l') :
    l'.fLastSubCycle = l.fLastSubCycle := by
  obtain ⟨_, _, _, _, rfl⟩ := writePort_eq_ok.mp h
  rfl

/-- A loop whose iterations keep `fLastSubCycle` keeps it. -/
theorem forLoop_fLastSubCycle {n : Nat} {body : Nat → JackPortList → Except Fault JackPortList}
    (hbody : ∀ i s s', body i s = .ok s' → s'.fLastSubCycle = s.fLastSubCycle)
    {l l' : JackPortList} (h : forLoop n body l = .ok l') : l'.fLastSubCycle = l.fLastSubCycle :=
  forLoop_inv (fun _ s => s.fLastSubCycle = l.fLastSubCycle) rfl
    (fun i s s' _ hs hb => (hbody i s s' hb).trans hs) h

/-- `fPeriodSize / fSubPeriodSize`, as the `int` `GetNumPackets` returns. -/
def numPackets (l : JackPortList) : Int := toInt32 ↑(l.fPeriodSize / l.fSubPeriodSize)

/-- `JackPortList::GetNumPackets`; the division traps on a zero sub-period. -/
def getNumPackets (l : JackPortList) : Except Fault Int :=
  if l.fSubPeriodSize = 0 then .error .divisionByZero else .ok l.numPackets

theorem getNumPackets_eq_ok {l : JackPortList} {n : Int} :
    l.getNumPackets = .ok n ↔ 0 < l.fSubPeriodSize ∧ n = l.numPackets := by
  unfold getNumPackets
  split <;> simp_all [Nat.pos_iff_ne_zero, eq_comm]

/-- A sub-cycle index below the packet count names a whole slice of samples inside the period,
starting at `sub_cycle * fSubPeriodSize` computed without wrapping. -/
theorem slice_le_period_of_lt_numPackets {l : JackPortList} {sub_cycle : Int}
    (hper : l.fPeriodSize < 2 ^ 32) (h0 : 0 ≤ sub_cycle) (h : sub_cycle < l.numPackets) :
    1 ≤ l.fSubPeriodSize ∧
      unsignedOffset sub_cycle l.fSubPeriodSize = ↑(sub_cycle.toNat * l.fSubPeriodSize) ∧
      sub_cycle.toNat * l.fSubPeriodSize + l.fSubPeriodSize ≤ l.fPeriodSize := by
  have hlt := lt_of_lt_of_le h (toInt32_natCast_le _)
  have hs : sub_cycle.toNat + 1 ≤ l.fPeriodSize / l.fSubPeriodSize := by omega
  have hP : 1 ≤ l.fSubPeriodSize := Nat.pos_of_ne_zero fun h0 => by simp [h0] at hs
  have hend : (sub_cycle.toNat + 1) * l.fSubPeriodSize ≤ l.fPeriodSize :=
    (Nat.mul_le_mul_right _ hs).trans (Nat.div_mul_le_self _ _)
  rw [Nat.succ_mul] at hend
  refine ⟨hP, ?_, hend⟩
  rw [unsignedOffset_of_lt h0 (by rw [show sub_cycle = sub_cycle.toNat by omega]; omega)]
  push_cast
  rw [Int.toNat_of_nonneg h0]

/-- `GetCycleSize`. -/
def getCycleSize (l : JackPortList) : Nat := l.fCycleSize

/-- The end of every receive: report a sub-cycle that does not follow the last one, and remember
it. -/
def lossCheck (l : JackPortList) (sub_cycle : Int) : Except Fault (Int × JackPortList) := do
  let next ← signedResult (l.fLastSubCycle + 1)
  pure (if sub_cycle ≠ next then NET_PACKET_ERROR else 0, { l with fLastSubCycle := sub_cycle })

theorem lossCheck_eq_ok {l l' : JackPortList} {sub_cycle res : Int} :
    l.lossCheck sub_cycle = .ok (res, l') ↔ l.fLastSubCycle + 1 < 2 ^ 31 ∧
      -2 ^ 31 ≤ l.fLastSubCycle + 1 ∧
      res = (if sub_cycle ≠ l.fLastSubCycle + 1 then NET_PACKET_ERROR else 0) ∧
      l' = { l with fLastSubCycle := sub_cycle } := by
  simp only [lossCheck, bind_eq_ok, signedResult_eq_ok]
  constructor
  · rintro ⟨_, ⟨rfl, h0, h1⟩, h⟩
    cases h
    exact ⟨h1, h0, rfl, rfl⟩
  · rintro ⟨h1, h0, rfl, rfl⟩
    exact ⟨_, ⟨rfl, h0, h1⟩, rfl⟩

theorem lossCheck_eq_of_lt {l : JackPortList} (sub_cycle : Int) (h0 : -2 ^ 31 ≤ l.fLastSubCycle + 1)
    (h1 : l.fLastSubCycle + 1 < 2 ^ 31) : l.lossCheck sub_cycle =
      .ok (if sub_cycle ≠ l.fLastSubCycle + 1 then NET_PACKET_ERROR else 0,
        { l with fLastSubCycle := sub_cycle }) :=
  lossCheck_eq_ok.mpr ⟨h1, h0, rfl, rfl⟩

/-- `RenderToJackPorts` of the little-endian build: the cycle is over. -/
def renderToJackPortsLE (l : JackPortList) : JackPortList := { l with fLastSubCycle := -1 }

/-- `RenderToJackPorts` of the big-endian build, which is empty. -/
def renderToJackPortsBE (l : JackPortList) : JackPortList := l

/-- The ports with a buffer, which `JackOptimizedPortList::GetNumPackets` counts. -/
def activePorts (l : JackPortList) : Nat := l.fPortBuffer.countP PortBuffer.isSet

end JackPortList

namespace JackOptimizedPortList

/-- The sizing `JackOptimizedPortList::GetNumPackets` stores: the sub-period for the ports with a
buffer, with room for the 4-byte port index in front of each slice. -/
def resize (l : JackPortList) : JackPortList :=
  let fSubPeriodSize := subPeriodFor l.fPeriodSize l.fPacketSize l.activePorts
  { l with fSubPeriodSize, fSubPeriodBytesSize := fSubPeriodSize * 4 + 4 }

/-- `JackOptimizedPortList::GetNumPackets`: sizes again, then divides the period by the new
sub-period, which traps when it is zero. -/
def getNumPackets (l : JackPortList) : Except Fault (Int × JackPortList) :=
  let l := resize l
  if l.fSubPeriodSize = 0 then .error .divisionByZero else .ok (l.numPackets, l)

section Resize

variable (l : JackPortList)

@[simp] theorem resize_fSubPeriodSize :
    (resize l).fSubPeriodSize = subPeriodFor l.fPeriodSize l.fPacketSize l.activePorts := rfl

@[simp] theorem resize_fSubPeriodBytesSize : (resize l).fSubPeriodBytesSize =
    subPeriodFor l.fPeriodSize l.fPacketSize l.activePorts * 4 + 4 := rfl

@[simp] theorem resize_fPeriodSize : (resize l).fPeriodSize = l.fPeriodSize := rfl

@[simp] theorem resize_fPortBuffer : (resize l).fPortBuffer = l.fPortBuffer := rfl

@[simp] theorem resize_fPacketSize : (resize l).fPacketSize = l.fPacketSize := rfl

@[simp] theorem resize_fLastSubCycle : (resize l).fLastSubCycle = l.fLastSubCycle := rfl

@[simp] theorem numPackets_resize : (resize l).numPackets =
    toInt32 ↑(l.fPeriodSize / subPeriodFor l.fPeriodSize l.fPacketSize l.activePorts) := rfl

theorem getNumPackets_eq_ok {r : Int × JackPortList} : getNumPackets l = .ok r ↔
    0 < (resize l).fSubPeriodSize ∧ r = ((resize l).numPackets, resize l) := by
  simp only [getNumPackets]
  split <;> simp_all [Nat.pos_iff_ne_zero, eq_comm]

/-- A `GetNumPackets` that returns gives the count of the list it sized, which differs from the
list it was called on in its sizes only. -/
theorem getNumPackets_ok_fields {n : Int} {l' : JackPortList} (h : getNumPackets l = .ok (n, l')) :
    n = l'.numPackets ∧ l'.fPeriodSize = l.fPeriodSize ∧ l'.fPortBuffer = l.fPortBuffer ∧
      l'.fPacketSize = l.fPacketSize ∧ l'.fSubPeriodBytesSize = l'.fSubPeriodSize * 4 + 4 := by
  obtain ⟨hn, rfl⟩ := Prod.mk.inj ((getNumPackets_eq_ok l).mp h).2
  exact ⟨hn, rfl, rfl, rfl, rfl⟩

/-- The sizing depends on the period, the packet size and the number of active ports only. -/
theorem getNumPackets_congr {l' : JackPortList} (h1 : l.fPeriodSize = l'.fPeriodSize)
    (h2 : l.fPacketSize = l'.fPacketSize) (h3 : l.activePorts = l'.activePorts) :
    (getNumPackets l).map (fun r => (r.1, r.2.fSubPeriodSize, r.2.fSubPeriodBytesSize)) =
      (getNumPackets l').map (fun r => (r.1, r.2.fSubPeriodSize, r.2.fSubPeriodBytesSize)) := by
  have hP : (resize l).fSubPeriodSize = (resize l').fSubPeriodSize := by
    simp only [resize_fSubPeriodSize, h1, h2, h3]
  have hn : (resize l).numPackets = (resize l').numPackets := by
    simp only [numPackets_resize, h1, h2, h3]
  have hB : (resize l).fSubPeriodBytesSize = (resize l').fSubPeriodBytesSize := by
    simp only [resize_fSubPeriodBytesSize, h1, h2, h3]
  simp only [getNumPackets, hP]
  split
  · rfl
  · simp only [Except.map, hn, hP, hB]

end Resize

end JackOptimizedPortList

end JackNet
