import JackNet.Wire.HostNetwork

/-!
# Memory of the port lists

A port list touches three kinds of memory: its array of `sample_t*` (`fPortBuffer`), the host port
buffers those point to, and the network buffer of the packet it builds or reads. The model keeps
the extent of each, and a step that would leave it (an index past the array, a `NULL` or
`(sample_t*)-1` buffer, samples past the period, bytes past the packet) stops with a `Fault`: the
behaviour of the call is undefined from there on.

Samples are 32-bit patterns. The float layouts copy, byte-swap and zero them and never compute with
them. The network buffer holds bytes, and a host writes and reads a sample there as its four bytes
in its own order, which is what a `memcpy` between a float buffer and a `char*` does.
-/

namespace JackNet

/-- A sample, as the bits of its `float`. -/
abbrev Sample := BitVec 32

/-- An entry of `fPortBuffer`. -/
inductive PortBuffer
  | null
  /-- `(sample_t*)-1`, which `ActivePortsFromNetwork` stores for a port connected on the other
  side: not `NULL`, but no sample may be accessed through it. -/
  | remote
  /-- A host port buffer of `fPeriodSize` samples; the function's values past them are never
  read. -/
  | samples (data : Nat → Sample)

namespace PortBuffer

/-- `if (fPortBuffer[i])`: the entry is not `NULL`. -/
def isSet : PortBuffer → Bool
  | null => false
  | _ => true

@[simp] theorem isSet_null : null.isSet = false := rfl

@[simp] theorem isSet_remote : remote.isSet = true := rfl

@[simp] theorem isSet_samples (data : Nat → Sample) : (samples data).isSet = true := rfl

/-- The sample at `j`, when the entry is a host buffer. -/
def sample? : PortBuffer → Nat → Option Sample
  | samples data, j => some (data j)
  | _, _ => none

end PortBuffer

/-- An entry that is not `NULL`, of a list without `(sample_t*)-1` entries, is a host buffer. -/
theorem exists_samples_of_isSet {bs : List PortBuffer} {q : Nat} (hbs : ∀ b ∈ bs, b ≠ .remote)
    (h : (bs.getD q .null).isSet) : ∃ data, bs[q]? = some (.samples data) := by
  rw [List.getD_eq_getElem?_getD] at h
  cases hq : bs[q]? with
  | none => simp [hq] at h
  | some b =>
    cases b with
    | null => simp [hq] at h
    | remote => exact absurd rfl (hbs _ (List.getElem?_mem hq))
    | samples data => exact ⟨data, rfl⟩

/-- Why a call's behaviour is undefined. -/
inductive Fault
  /-- `fPortBuffer[index]` read past the `fNPorts` entries of the array. -/
  | portIndex (index : Nat)
  /-- Samples accessed through a `NULL` or `(sample_t*)-1` entry. -/
  | badBuffer (port : Nat)
  /-- Samples `[offset, offset + count)` of a port buffer, outside its `fPeriodSize` samples. -/
  | sampleRange (port : Nat) (offset : Int) (count : Nat)
  /-- Bytes `[offset, offset + count)` of the network buffer, past its capacity. -/
  | netRange (offset count : Nat)
  /-- `assert(port_num < 512)` failed. -/
  | assertion
  /-- A division by a zero sub-period, which traps. -/
  | divisionByZero
  /-- An `int` addition or product whose value leaves `[-2 ^ 31, 2 ^ 31)`. -/
  | overflow
  deriving DecidableEq, Repr

theorem bind_eq_ok {α β : Type} {x : Except Fault α} {f : α → Except Fault β} {b : β} :
    x >>= f = .ok b ↔ ∃ a, x = .ok a ∧ f a = .ok b := by
  cases x <;> simp [bind, Except.bind]

@[simp] theorem ok_bind {α β : Type} (a : α) (f : α → Except Fault β) :
    (Except.ok a >>= f) = f a := rfl

theorem toOption_eq_of_ok_iff {α : Type} {x y : Except Fault α} (h : ∀ a, x = .ok a ↔ y = .ok a) :
    x.toOption = y.toOption := by
  cases x with
  | ok a => rw [(h a).mp rfl]
  | error e =>
    cases y with
    | ok b => exact absurd ((h b).mpr rfl) (by simp)
    | error e' => rfl

theorem toOption_bind {α β : Type} (x : Except Fault α) (f : α → Except Fault β) :
    (x >>= f).toOption = x.toOption.bind fun a => (f a).toOption := by
  cases x <;> rfl

theorem eq_ok_of_toOption_eq {α : Type} {x y : Except Fault α} {a : α}
    (h : x.toOption = y.toOption) (hy : y = .ok a) : x = .ok a := by
  subst hy
  cases x with
  | ok b => cases h; rfl
  | error e => cases h

/-- `for (i = 0; i < n; i++) s = body(i, s);`, stopping at the first fault. -/
def forLoop {σ : Type} : Nat → (Nat → σ → Except Fault σ) → σ → Except Fault σ
  | 0, _, s => .ok s
  | n + 1, body, s => forLoop n body s >>= body n

@[simp] theorem forLoop_zero {σ : Type} (body : Nat → σ → Except Fault σ) (s : σ) :
    forLoop 0 body s = .ok s := rfl

theorem forLoop_succ {σ : Type} (n : Nat) (body : Nat → σ → Except Fault σ) (s : σ) :
    forLoop (n + 1) body s = forLoop n body s >>= body n := rfl

section Loop

variable {σ : Type} {body : Nat → σ → Except Fault σ} (inv : Nat → σ → Prop)

/-- A loop whose body keeps `inv` and never faults under it runs to completion, keeping `inv`. -/
theorem forLoop_ok {n : Nat} {s : σ} (h0 : inv 0 s)
    (step : ∀ i s, i < n → inv i s → ∃ s', body i s = .ok s' ∧ inv (i + 1) s') :
    ∃ s', forLoop n body s = .ok s' ∧ inv n s' := by
  induction n with
  | zero => exact ⟨s, rfl, h0⟩
  | succ n ih =>
    obtain ⟨s₁, h₁, i₁⟩ := ih fun i s hi => step i s (by omega)
    obtain ⟨s₂, h₂, i₂⟩ := step n s₁ (by omega) i₁
    exact ⟨s₂, by rw [forLoop_succ, h₁]; exact h₂, i₂⟩

/-- A loop whose `i`-th iteration takes `f i` to `f (i + 1)` ends in `f n`. -/
theorem forLoop_eq_of_step (f : Nat → σ) {n : Nat} {s : σ} (h0 : f 0 = s)
    (step : ∀ i, i < n → body i (f i) = .ok (f (i + 1))) : forLoop n body s = .ok (f n) := by
  induction n with
  | zero => rw [← h0]; rfl
  | succ n ih => rw [forLoop_succ, ih fun i hi => step i (by omega), ok_bind, step n (by omega)]

/-- What every completed iteration keeps holds of a completed loop. -/
theorem forLoop_inv {n : Nat} {s s' : σ} (h0 : inv 0 s)
    (step : ∀ i s s', i < n → inv i s → body i s = .ok s' → inv (i + 1) s')
    (h : forLoop n body s = .ok s') : inv n s' := by
  induction n generalizing s' with
  | zero => cases h; exact h0
  | succ n ih =>
    obtain ⟨s₁, h₁, h₂⟩ := bind_eq_ok.mp h
    exact step n s₁ s' (by omega) (ih (fun i s s' hi => step i s s' (by omega)) h₁) h₂

/-- A completed loop completed each of its iterations, from a state that what the iterations
before it keep holds of. -/
theorem forLoop_ok_iteration {n p : Nat} {s s' : σ} (h0 : inv 0 s)
    (step : ∀ i s s', i < p → inv i s → body i s = .ok s' → inv (i + 1) s') (hp : p < n)
    (h : forLoop n body s = .ok s') : ∃ t t', inv p t ∧ body p t = .ok t' := by
  induction n generalizing s' with
  | zero => omega
  | succ n ih =>
    obtain ⟨s₁, h₁, h₂⟩ := bind_eq_ok.mp h
    rcases Nat.lt_succ_iff_lt_or_eq.mp hp with hp | rfl
    · exact ih hp h₁
    · exact ⟨s₁, s', forLoop_inv inv h0 step h₁, h₂⟩

theorem forLoop_toOption_congr {body' : Nat → σ → Except Fault σ} {n : Nat}
    (h : ∀ i s, i < n → (body i s).toOption = (body' i s).toOption) (s : σ) :
    (forLoop n body s).toOption = (forLoop n body' s).toOption := by
  induction n with
  | zero => rfl
  | succ n ih =>
    rw [forLoop_succ, forLoop_succ, toOption_bind, toOption_bind, ih fun i s hi => h i s (by omega)]
    congr 1
    funext s'
    exact h n s' (by omega)

end Loop

/-- The `count` samples of `data` from `offset` on. -/
def slice (data : Nat → Sample) (offset count : Nat) : List Sample :=
  (List.range count).map fun i => data (offset + i)

@[simp] theorem length_slice (data : Nat → Sample) (offset count : Nat) :
    (slice data offset count).length = count := by
  simp [slice]

@[simp] theorem slice_zero (data : Nat → Sample) (offset : Nat) : slice data offset 0 = [] := rfl

theorem slice_one (data : Nat → Sample) (offset : Nat) : slice data offset 1 = [data offset] := rfl

theorem slice_succ (data : Nat → Sample) (offset count : Nat) :
    slice data offset (count + 1) = slice data offset count ++ [data (offset + count)] := by
  simp [slice, List.range_succ]

theorem getD_slice (data : Nat → Sample) (offset : Nat) {count j : Nat} (h : j < count) :
    (slice data offset count).getD j 0 = data (offset + j) := by
  simp [slice, List.getD_eq_getElem?_getD, h]

/-- `data` with the samples from `offset` on replaced by `xs`. -/
def overwrite (data : Nat → Sample) (offset : Nat) (xs : List Sample) : Nat → Sample :=
  fun j => if offset ≤ j ∧ j < offset + xs.length then xs.getD (j - offset) 0 else data j

namespace PortBuffer

/-- `count` samples of the buffer of port `port` from sample `offset` on. -/
def read (b : PortBuffer) (port periodSize : Nat) (offset : Int) (count : Nat) :
    Except Fault (List Sample) :=
  match b with
  | samples data =>
    if 0 ≤ offset ∧ offset + count ≤ periodSize then .ok (slice data offset.toNat count)
    else .error (.sampleRange port offset count)
  | _ => .error (.badBuffer port)

/-- `xs` written into the buffer of port `port` from sample `offset` on. -/
def write (b : PortBuffer) (port periodSize : Nat) (offset : Int) (xs : List Sample) :
    Except Fault PortBuffer :=
  match b with
  | samples data =>
    if 0 ≤ offset ∧ offset + xs.length ≤ periodSize then
      .ok (samples (overwrite data offset.toNat xs))
    else .error (.sampleRange port offset xs.length)
  | _ => .error (.badBuffer port)

theorem read_eq_ok {b : PortBuffer} {port periodSize : Nat} {offset : Int} {count : Nat}
    {xs : List Sample} : b.read port periodSize offset count = .ok xs ↔
      ∃ data, b = samples data ∧ 0 ≤ offset ∧ offset + count ≤ periodSize ∧
        xs = slice data offset.toNat count := by
  cases b with
  | samples data =>
    simp only [read]
    split <;> simp_all [eq_comm]
  | _ => simp [read]

theorem write_eq_ok {b b' : PortBuffer} {port periodSize : Nat} {offset : Int}
    {xs : List Sample} : b.write port periodSize offset xs = .ok b' ↔
      ∃ data, b = samples data ∧ 0 ≤ offset ∧ offset + xs.length ≤ periodSize ∧
        b' = samples (overwrite data offset.toNat xs) := by
  cases b with
  | samples data =>
    simp only [write]
    split <;> simp_all [eq_comm]
  | _ => simp [write]

end PortBuffer

/-- The payload area of a network packet: `capacity` bytes and their contents. -/
structure NetBuffer where
  capacity : Nat
  byte : Nat → Byte

namespace NetBuffer

/-- The sample a host of order `o` reads at byte `offset`. -/
def word (net : NetBuffer) (o : ByteOrder) (offset : Nat) : Sample :=
  o.word32 [net.byte offset, net.byte (offset + 1), net.byte (offset + 2), net.byte (offset + 3)]

/-- The `count` samples from byte `offset` on. -/
def words (net : NetBuffer) (o : ByteOrder) (offset count : Nat) : List Sample :=
  (List.range count).map fun i => net.word o (offset + 4 * i)

/-- `count` samples read from byte `offset` on: a `memcpy` out of the packet. -/
def readSamples (net : NetBuffer) (o : ByteOrder) (offset count : Nat) :
    Except Fault (List Sample) :=
  if offset + 4 * count ≤ net.capacity then .ok (net.words o offset count)
  else .error (.netRange offset (4 * count))

/-- The 32-bit word at byte `offset`, read through a pointer into the packet. -/
def readWord (net : NetBuffer) (o : ByteOrder) (offset : Nat) : Except Fault Sample :=
  if offset + 4 ≤ net.capacity then .ok (net.word o offset) else .error (.netRange offset 4)

/-- The bytes of `xs` stored from byte `offset` on, the others kept. -/
def store (net : NetBuffer) (o : ByteOrder) (offset : Nat) (xs : List Sample) : NetBuffer :=
  { net with
    byte := fun i =>
      if offset ≤ i ∧ i < offset + 4 * xs.length then
        (o.bytes32 (xs.getD ((i - offset) / 4) 0)).getD ((i - offset) % 4) 0
      else net.byte i }

/-- `xs` written from byte `offset` on: a `memcpy` into the packet. -/
def writeSamples (net : NetBuffer) (o : ByteOrder) (offset : Nat) (xs : List Sample) :
    Except Fault NetBuffer :=
  if offset + 4 * xs.length ≤ net.capacity then .ok (net.store o offset xs)
  else .error (.netRange offset (4 * xs.length))

theorem readSamples_eq_ok {net : NetBuffer} {o : ByteOrder} {offset count : Nat}
    {xs : List Sample} : net.readSamples o offset count = .ok xs ↔
      offset + 4 * count ≤ net.capacity ∧ xs = net.words o offset count := by
  simp only [readSamples]
  split
  · simp_all [eq_comm]
  · simp only [reduceCtorEq, false_iff, not_and]
    omega

theorem writeSamples_eq_ok {net net' : NetBuffer} {o : ByteOrder} {offset : Nat}
    {xs : List Sample} : net.writeSamples o offset xs = .ok net' ↔
      offset + 4 * xs.length ≤ net.capacity ∧ net' = net.store o offset xs := by
  simp only [writeSamples]
  split
  · simp_all [eq_comm]
  · simp only [reduceCtorEq, false_iff, not_and]
    omega

theorem readWord_eq_ok {net : NetBuffer} {o : ByteOrder} {offset : Nat} {x : Sample} :
    net.readWord o offset = .ok x ↔ offset + 4 ≤ net.capacity ∧ x = net.word o offset := by
  simp only [readWord]
  split
  · simp_all [eq_comm]
  · simp only [reduceCtorEq, false_iff, not_and]
    omega

@[simp] theorem length_words (net : NetBuffer) (o : ByteOrder) (offset count : Nat) :
    (net.words o offset count).length = count := by
  simp [words]

theorem words_one (net : NetBuffer) (o : ByteOrder) (offset : Nat) :
    net.words o offset 1 = [net.word o offset] := rfl

theorem words_succ (net : NetBuffer) (o : ByteOrder) (offset count : Nat) :
    net.words o offset (count + 1) = net.words o offset count ++ [net.word o (offset + 4 * count)] := by
  simp [words, List.range_succ]

theorem swapFloat_word (net : NetBuffer) (offset : Nat) :
    swapFloat (net.word .big offset) = net.word .little offset :=
  swapFloat_word32 rfl

@[simp] theorem capacity_store (net : NetBuffer) (o : ByteOrder) (offset : Nat) (xs : List Sample) :
    (net.store o offset xs).capacity = net.capacity := rfl

theorem word_congr {net net' : NetBuffer} {o : ByteOrder} {b : Nat}
    (h : ∀ i, b ≤ i → i < b + 4 → net.byte i = net'.byte i) : net.word o b = net'.word o b := by
  simp only [word, h b le_rfl (by omega), h (b + 1) (by omega) (by omega),
    h (b + 2) (by omega) (by omega), h (b + 3) (by omega) (by omega)]

theorem word_store {net : NetBuffer} {o : ByteOrder} {offset j : Nat} {xs : List Sample}
    (hj : j < xs.length) : (net.store o offset xs).word o (offset + 4 * j) = xs.getD j 0 := by
  have hb : ∀ r, r < 4 → (net.store o offset xs).byte (offset + 4 * j + r) =
      (o.bytes32 (xs.getD j 0)).getD r 0 := by
    intro r hr
    simp only [store]
    rw [if_pos (by omega), show (offset + 4 * j + r - offset) / 4 = j by omega,
      show (offset + 4 * j + r - offset) % 4 = r by omega]
  have hlen := o.length_bytes32 (xs.getD j 0)
  generalize hbs : o.bytes32 (xs.getD j 0) = bs at hb hlen
  have h0 := hb 0 (by decide)
  rw [Nat.add_zero] at h0
  match bs, hlen with
  | [b0, b1, b2, b3], _ =>
    rw [word, h0, hb 1 (by decide), hb 2 (by decide), hb 3 (by decide)]
    simp only [List.getD_cons_zero, List.getD_cons_succ]
    rw [← hbs, ByteOrder.word32_bytes32]

theorem word_store_of_disjoint {net : NetBuffer} {o o' : ByteOrder} {offset b : Nat}
    {xs : List Sample} (h : b + 4 ≤ offset ∨ offset + 4 * xs.length ≤ b) :
    (net.store o offset xs).word o' b = net.word o' b :=
  word_congr fun i h₁ h₂ => by simp only [store]; rw [if_neg (by omega)]

theorem words_store (net : NetBuffer) (o : ByteOrder) (offset : Nat) (xs : List Sample) :
    (net.store o offset xs).words o offset xs.length = xs := by
  refine List.ext_getElem (length_words _ _ _ _) fun j hj _ => ?_
  rw [length_words] at hj
  simp [words, word_store hj, List.getD_eq_getElem?_getD, hj]

theorem words_store_of_disjoint {net : NetBuffer} {o o' : ByteOrder} {offset b k : Nat}
    {xs : List Sample} (h : b + 4 * k ≤ offset ∨ offset + 4 * xs.length ≤ b) :
    (net.store o offset xs).words o' b k = net.words o' b k :=
  List.map_congr_left fun j hj => word_store_of_disjoint (by
    have := List.mem_range.mp hj
    omega)

/-- A word stored in front of samples reads back, and so do the samples. -/
theorem store_slot (net : NetBuffer) (o : ByteOrder) (a : Nat) (w : Sample) (xs : List Sample) :
    ((net.store o a [w]).store o (a + 4) xs).word o a = w ∧
      ((net.store o a [w]).store o (a + 4) xs).words o (a + 4) xs.length = xs := by
  refine ⟨?_, words_store _ _ _ _⟩
  rw [word_store_of_disjoint (Or.inl le_rfl)]
  simpa using @word_store net o a 0 [w] (by simp)

theorem getD_append_singleton {α : Type} (xs : List α) (x d : α) (i : Nat) :
    (xs ++ [x]).getD i d = if i < xs.length then xs.getD i d else if i = xs.length then x else d := by
  simp only [List.getD_eq_getElem?_getD]
  split
  · rw [List.getElem?_append_left ‹_›]
  · rw [List.getElem?_append_right (by omega)]
    split
    · subst i; simp
    · rw [List.getElem?_eq_none (by simp; omega)]
      rfl

@[simp] theorem store_nil (net : NetBuffer) (o : ByteOrder) (offset : Nat) :
    net.store o offset [] = net := by
  simp only [store, List.length_nil, Nat.mul_zero, Nat.add_zero]
  congr
  funext i
  rw [if_neg (by omega)]

/-- Storing one more sample after a slice, in bytes that agree with it, stores the longer slice. -/
theorem store_snoc (net : NetBuffer) {o o' : ByteOrder} (offset : Nat) (xs : List Sample)
    {x y : Sample} (h : o'.bytes32 y = o.bytes32 x) :
    (net.store o offset xs).store o' (offset + 4 * xs.length) [y] =
      net.store o offset (xs ++ [x]) := by
  simp only [store, List.length_append, List.length_singleton, Nat.mul_add, Nat.mul_one,
    NetBuffer.mk.injEq, true_and]
  funext i
  simp only [getD_append_singleton]
  by_cases h1 : offset + 4 * xs.length ≤ i ∧ i < offset + 4 * xs.length + 4
  · rw [if_pos (by omega), if_pos (by omega), if_neg (by omega), if_pos (by omega),
      show (i - (offset + 4 * xs.length)) / 4 = 0 by omega, List.getD_cons_zero, h,
      show (i - (offset + 4 * xs.length)) % 4 = (i - offset) % 4 by omega]
  · rw [if_neg h1]
    by_cases h2 : offset ≤ i ∧ i < offset + 4 * xs.length
    · rw [if_pos h2, if_pos (by omega), if_pos (by omega)]
    · rw [if_neg h2, if_neg (by omega)]

theorem store_append (net : NetBuffer) (o : ByteOrder) (offset : Nat) (xs ys : List Sample) :
    (net.store o offset xs).store o (offset + 4 * xs.length) ys = net.store o offset (xs ++ ys) := by
  simp only [store, List.length_append, Nat.mul_add, NetBuffer.mk.injEq, true_and]
  funext i
  simp only [List.getD_eq_getElem?_getD]
  by_cases h1 : offset + 4 * xs.length ≤ i ∧ i < offset + 4 * xs.length + 4 * ys.length
  · rw [if_pos h1, if_pos (by omega), List.getElem?_append_right (by omega),
      show (i - (offset + 4 * xs.length)) / 4 = (i - offset) / 4 - xs.length by omega,
      show (i - (offset + 4 * xs.length)) % 4 = (i - offset) % 4 by omega]
  · rw [if_neg h1]
    by_cases h2 : offset ≤ i ∧ i < offset + 4 * xs.length
    · rw [if_pos h2, if_pos (by omega), List.getElem?_append_left (by omega)]
    · rw [if_neg h2, if_neg (by omega)]

end NetBuffer

theorem overwrite_snoc (data : Nat → Sample) (offset : Nat) (xs : List Sample) (x : Sample) :
    overwrite (overwrite data offset xs) (offset + xs.length) [x] =
      overwrite data offset (xs ++ [x]) := by
  funext j
  simp only [overwrite, List.length_append, List.length_singleton, NetBuffer.getD_append_singleton]
  by_cases h1 : offset + xs.length ≤ j ∧ j < offset + xs.length + 1
  · rw [if_pos h1, if_pos (by omega), if_neg (by omega), if_pos (by omega),
      show j - (offset + xs.length) = 0 by omega]
    rfl
  · rw [if_neg h1]
    by_cases h2 : offset ≤ j ∧ j < offset + xs.length
    · rw [if_pos h2, if_pos (by omega), if_pos (by omega)]
    · rw [if_neg h2, if_neg (by omega)]

theorem overwrite_nil (data : Nat → Sample) (offset : Nat) : overwrite data offset [] = data := by
  funext j
  simp only [overwrite, List.length_nil, Nat.add_zero]
  rw [if_neg (by omega)]

end JackNet
