import Mathlib.Data.Nat.Basic

/-!
# Frames on the wire

`DSCPacket` and its two subclasses. A frame is a 2-byte length in network byte order and
then the body; `DSCSendPacket` writes it, the session's reader takes the length back out of
a `DSCRecvPacket`.

A packet is modelled with its memory. `capacity` is the size the constructor allocated and
`data` the bytes that stand from `m_data` on after the constructor's `memcpy`s. A copy past
the allocation leaves `data` longer than `capacity`; nothing here hides that, and
`DSCSendPacket` allocates `dataSize + 2` narrowed to 16 bits while it copies the unnarrowed
`dataSize`. The two agree below 65534; at 65534 and 65535 the allocation holds no byte or one, and
both copies run past it.

The length passes through an `unsigned short` in host byte order on both sides, so the two
conversions are stated for either byte order of the machine: `Endian` is a parameter of the
sender and of the receiver, and they need not agree.
-/

namespace DSFramework.DSCommunication

/-- The byte order of the machine the code runs on. -/
inductive Endian where
  | little
  | big
  deriving DecidableEq, Repr

/-- The two bytes an `unsigned short` occupies in memory. -/
def Endian.bytes : Endian → UInt16 → List UInt8
  | .little, v => [UInt8.ofNat v.toNat, UInt8.ofNat (v.toNat / 256)]
  | .big, v => [UInt8.ofNat (v.toNat / 256), UInt8.ofNat v.toNat]

/-- The `unsigned short` that two bytes of memory hold; a shorter source leaves the rest of
the zero-initialised variable as it was. -/
def Endian.short : Endian → List UInt8 → UInt16
  | .little, a :: b :: _ => UInt16.ofNat (a.toNat + 256 * b.toNat)
  | .big, a :: b :: _ => UInt16.ofNat (256 * a.toNat + b.toNat)
  | .little, [a] => UInt16.ofNat a.toNat
  | .big, [a] => UInt16.ofNat (256 * a.toNat)
  | _, [] => 0

/-- Exchange the two bytes of a short. -/
def swapBytes (v : UInt16) : UInt16 :=
  UInt16.ofNat (256 * (v.toNat % 256) + v.toNat / 256)

/-- `socket_ops::host_to_network_short`. -/
def Endian.hostToNetworkShort : Endian → UInt16 → UInt16
  | .little, v => swapBytes v
  | .big, v => v

/-- `socket_ops::network_to_host_short`. -/
def Endian.networkToHostShort : Endian → UInt16 → UInt16
  | .little, v => swapBytes v
  | .big, v => v

/-- The two header bytes of a length, most significant first. -/
def networkBytes (v : UInt16) : List UInt8 :=
  [UInt8.ofNat (v.toNat / 256), UInt8.ofNat v.toNat]

theorem networkBytes_length (v : UInt16) : (networkBytes v).length = 2 := rfl

/-- Swapping moves each byte of the short to the other place. -/
private theorem swap_div_mod {n : Nat} (h : n < 65536) :
    (256 * (n % 256) + n / 256) / 256 = n % 256 ∧
      (256 * (n % 256) + n / 256) % 256 = n / 256 := by
  have hhigh : n / 256 < 256 := by omega
  constructor
  · rw [Nat.mul_add_div (by decide), Nat.div_eq_of_lt hhigh, Nat.add_zero]
  · rw [Nat.mul_add_mod, Nat.mod_eq_of_lt hhigh]

/-- A length converted to network order lies in memory most significant byte first,
whatever the host's own order. -/
theorem Endian.bytes_hostToNetworkShort (e : Endian) (v : UInt16) :
    e.bytes (e.hostToNetworkShort v) = networkBytes v := by
  have hv := v.toNat_lt
  cases e with
  | big => rfl
  | little =>
    have hs : (swapBytes v).toNat = 256 * (v.toNat % 256) + v.toNat / 256 := by
      simp only [swapBytes, UInt16.toNat_ofNat']
      omega
    simp only [bytes, hostToNetworkShort, networkBytes, hs, List.cons.injEq, and_true]
    obtain ⟨hdiv, hmod⟩ := swap_div_mod hv
    constructor
    · apply UInt8.toNat_inj.mp
      simp only [UInt8.toNat_ofNat']
      omega
    · apply UInt8.toNat_inj.mp
      rw [hdiv]
      simp only [UInt8.toNat_ofNat']
      omega

/-- Reading the header: the two bytes as a big-endian number, on every host. -/
theorem Endian.networkToHostShort_short (e : Endian) (a b : UInt8) (rest : List UInt8) :
    (e.networkToHostShort (e.short (a :: b :: rest))).toNat = 256 * a.toNat + b.toNat := by
  have ha := a.toNat_lt
  have hb := b.toNat_lt
  cases e with
  | big =>
    simp only [networkToHostShort, short, UInt16.toNat_ofNat']
    omega
  | little =>
    have hs : (UInt16.ofNat (a.toNat + 256 * b.toNat)).toNat = a.toNat + 256 * b.toNat := by
      simp only [UInt16.toNat_ofNat']
      omega
    have hlow : (a.toNat + 256 * b.toNat) % 256 = a.toNat := by omega
    have hhigh : (a.toNat + 256 * b.toNat) / 256 = b.toNat := by omega
    simp only [networkToHostShort, short, swapBytes, hs, hlow, hhigh, UInt16.toNat_ofNat']
    omega

/-! ## Packets -/

/-- `DSC_PACKET_HEAD_BYTES_SIZE`. -/
def headBytesSize : Nat := 2

/-- `DSC_PACKET_BODY_MAX_SIZE`. -/
def bodyMaxSize : Nat := 4096

/-- `DSCPacket`: the allocation behind `m_data`, the bytes written there, and `m_dataSize`. -/
structure DSCPacket where
  capacity : Nat
  data : List UInt8
  dataSize : UInt16
  deriving DecidableEq, Repr

namespace DSCPacket

/-- `DSCPacket(uint16_t dataSize)`: `new char[dataSize]()` zero-initialises. -/
def ofSize (dataSize : UInt16) : DSCPacket :=
  { capacity := dataSize.toNat
    data := List.replicate dataSize.toNat 0
    dataSize }

/-- `memcpy(m_data + offset, src, src.length)`. -/
def memcpyAt (p : DSCPacket) (offset : Nat) (src : List UInt8) : DSCPacket :=
  { p with data := p.data.take offset ++ src ++ p.data.drop (offset + src.length) }

/-- `DSCPacket::Clear`: zero `m_dataSize` bytes, then forget the size. -/
def clear (p : DSCPacket) : DSCPacket :=
  { p with
    data := List.replicate p.dataSize.toNat 0 ++ p.data.drop p.dataSize.toNat
    dataSize := 0 }

/-- The copy constructor: a fresh buffer of `m_dataSize` bytes. -/
def copy (p : DSCPacket) : DSCPacket :=
  { capacity := p.dataSize.toNat
    data := p.data.take p.dataSize.toNat
    dataSize := p.dataSize }

/-- `boost::asio::buffer(m_data, m_dataSize)`: the bytes a write of the packet sends. -/
def buffer (p : DSCPacket) : List UInt8 := p.data.take p.dataSize.toNat

/-- A completed `async_read` into `buffer(m_data, n)` with exactly `n` bytes. -/
def fill (p : DSCPacket) (bytes : List UInt8) : DSCPacket := p.memcpyAt 0 bytes

@[simp] theorem fill_dataSize (p : DSCPacket) (bytes : List UInt8) :
    (p.fill bytes).dataSize = p.dataSize := rfl

theorem fill_data (p : DSCPacket) (bytes : List UInt8) :
    (p.fill bytes).data = bytes ++ p.data.drop bytes.length := by
  simp only [fill, memcpyAt, List.take_zero, List.nil_append, Nat.zero_add]

end DSCPacket

/-- `DSCRecvPacket(uint16_t recvSize)`. -/
def dscRecvPacket (recvSize : UInt16) : DSCPacket := DSCPacket.ofSize recvSize

/-- `DSCSendPacket(const char* data, uint16_t dataSize)`, on a sender of byte order `e`.
The allocation is `dataSize + DSC_PACKET_HEAD_BYTES_SIZE` passed as a `uint16_t`. -/
def dscSendPacket (e : Endian) (data : List UInt8) (dataSize : UInt16) : DSCPacket :=
  let size := e.hostToNetworkShort dataSize
  ((DSCPacket.ofSize (UInt16.ofNat (dataSize.toNat + headBytesSize))).memcpyAt 0
    (e.bytes size)).memcpyAt headBytesSize (data.take dataSize.toNat)

/-- Where the sum with the header size does not wrap, the frame is the big-endian length and
then the body, and it fills its allocation exactly. -/
theorem dscSendPacket_eq (e : Endian) {data : List UInt8} {dataSize : UInt16}
    (hlen : dataSize.toNat ≤ data.length) (hfit : dataSize.toNat + 2 < 65536) :
    dscSendPacket e data dataSize =
      { capacity := dataSize.toNat + 2
        data := networkBytes dataSize ++ data.take dataSize.toNat
        dataSize := UInt16.ofNat (dataSize.toNat + 2) } := by
  have hcap : (UInt16.ofNat (dataSize.toNat + 2)).toNat = dataSize.toNat + 2 := by
    simp only [UInt16.toNat_ofNat']
    omega
  have htake : (data.take dataSize.toNat).length = dataSize.toNat := by
    rw [List.length_take]
    omega
  simp only [dscSendPacket, DSCPacket.ofSize, headBytesSize, hcap,
    e.bytes_hostToNetworkShort, DSCPacket.memcpyAt, DSCPacket.mk.injEq, and_true, true_and]
  have hdrop : (networkBytes dataSize ++
      (List.replicate (dataSize.toNat + 2) (0 : UInt8)).drop 2).drop
        (2 + dataSize.toNat) = [] := by
    apply List.drop_eq_nil_of_le
    simp only [List.length_append, networkBytes_length, List.length_drop,
      List.length_replicate]
    omega
  have hhead : (networkBytes dataSize ++
      (List.replicate (dataSize.toNat + 2) (0 : UInt8)).drop 2).take 2 =
        networkBytes dataSize := List.take_left' (networkBytes_length dataSize)
  simp only [List.take_zero, List.nil_append, Nat.zero_add, networkBytes_length, htake,
    hhead, hdrop, List.append_nil]

/-- The bytes a write of the frame sends. -/
theorem dscSendPacket_buffer (e : Endian) {data : List UInt8} {dataSize : UInt16}
    (hlen : dataSize.toNat ≤ data.length) (hfit : dataSize.toNat + 2 < 65536) :
    (dscSendPacket e data dataSize).buffer =
      networkBytes dataSize ++ data.take dataSize.toNat := by
  have hcap : (UInt16.ofNat (dataSize.toNat + 2)).toNat = dataSize.toNat + 2 := by
    simp only [UInt16.toNat_ofNat']
    omega
  rw [dscSendPacket_eq e hlen hfit]
  simp only [DSCPacket.buffer, hcap]
  apply List.take_of_length_le
  simp only [List.length_append, networkBytes_length, List.length_take]
  omega

/-! ## What the constructor's copies write -/

/-- A `memcpy` into `m_data`: the bytes `src` go to `m_data + offset`. -/
structure Memcpy where
  offset : Nat
  src : List UInt8
  deriving DecidableEq, Repr

/-- One past the last position the copy writes. -/
def Memcpy.stop (c : Memcpy) : Nat := c.offset + c.src.length

/-- The two copies of `DSCSendPacket`'s constructor: the header, and the body behind it. -/
def sendCopies (e : Endian) (data : List UInt8) (dataSize : UInt16) : List Memcpy :=
  [⟨0, e.bytes (e.hostToNetworkShort dataSize)⟩, ⟨headBytesSize, data.take dataSize.toNat⟩]

/-- The constructor is these copies into its fresh allocation. -/
theorem dscSendPacket_eq_foldl (e : Endian) (data : List UInt8) (dataSize : UInt16) :
    dscSendPacket e data dataSize =
      (sendCopies e data dataSize).foldl (fun p c => p.memcpyAt c.offset c.src)
        (DSCPacket.ofSize (UInt16.ofNat (dataSize.toNat + headBytesSize))) := rfl

/-- Both copies stay inside the allocation, and `m_dataSize` counts the bytes they write. -/
structure WritesInside (e : Endian) (data : List UInt8) (dataSize : UInt16) : Prop where
  inside : ∀ c ∈ sendCopies e data dataSize, c.stop ≤ (dscSendPacket e data dataSize).capacity
  counted : (dscSendPacket e data dataSize).dataSize.toNat =
    ((sendCopies e data dataSize).flatMap Memcpy.src).length

/-- The allocation is the sum with the header size, less `2 ^ 16` where it wraps. -/
theorem dscSendPacket_capacity (e : Endian) (data : List UInt8) (dataSize : UInt16) :
    (dscSendPacket e data dataSize).capacity = (dataSize.toNat + 2) % 65536 := by
  show (UInt16.ofNat (dataSize.toNat + 2)).toNat = (dataSize.toNat + 2) % 65536
  rw [UInt16.toNat_ofNat']

/-- `m_dataSize` is the size of the allocation. -/
theorem dscSendPacket_dataSize (e : Endian) (data : List UInt8) (dataSize : UInt16) :
    (dscSendPacket e data dataSize).dataSize.toNat =
      (dscSendPacket e data dataSize).capacity := rfl

section Copies

variable (e : Endian) {data : List UInt8} {dataSize : UInt16}

/-- The header copy is two bytes long in either byte order. -/
theorem header_length (v : UInt16) : (e.bytes (e.hostToNetworkShort v)).length = 2 := by
  rw [e.bytes_hostToNetworkShort, networkBytes_length]

/-- The copies end where the header ends and where the body ends. -/
theorem sendCopies_stops (hlen : dataSize.toNat ≤ data.length) :
    (sendCopies e data dataSize).map Memcpy.stop = [2, 2 + dataSize.toNat] := by
  simp only [sendCopies, List.map_cons, List.map_nil, Memcpy.stop, header_length, headBytesSize,
    List.length_take_of_le hlen]

theorem stop_of_mem_sendCopies (hlen : dataSize.toNat ≤ data.length) {c : Memcpy}
    (hc : c ∈ sendCopies e data dataSize) : c.stop = 2 ∨ c.stop = 2 + dataSize.toNat := by
  have hstop : c.stop ∈ [2, 2 + dataSize.toNat] := by
    rw [← sendCopies_stops e hlen]
    exact List.mem_map_of_mem hc
  exact (List.mem_cons.mp hstop).imp_right List.mem_singleton.mp

/-- The constructor writes the header and the body. -/
theorem sendCopies_written (hlen : dataSize.toNat ≤ data.length) :
    ((sendCopies e data dataSize).flatMap Memcpy.src).length = dataSize.toNat + 2 := by
  simp only [sendCopies, List.flatMap_cons, List.flatMap_nil, List.length_append, List.length_nil,
    header_length, List.length_take_of_le hlen]
  omega

/-- The sum with the header size decides: the copies stay inside if and only if it does not
wrap. -/
theorem writesInside_iff (hlen : dataSize.toNat ≤ data.length) :
    WritesInside e data dataSize ↔ dataSize.toNat + 2 < 65536 := by
  have hcap := dscSendPacket_capacity e data dataSize
  have hwritten := sendCopies_written e hlen
  constructor
  · intro h
    have hcounted := h.counted
    rw [dscSendPacket_dataSize, hcap, hwritten] at hcounted
    omega
  · intro hfit
    rw [Nat.mod_eq_of_lt hfit] at hcap
    refine ⟨fun c hc => ?_, ?_⟩
    · rw [hcap]
      rcases stop_of_mem_sendCopies e hlen hc with hstop | hstop <;> omega
    · rw [dscSendPacket_dataSize, hcap, hwritten]

/-- Where the sum wraps, each of the two copies runs past the allocation, the body's by
`2 ^ 16` bytes. -/
theorem sendCopies_past (hlen : dataSize.toNat ≤ data.length)
    (hwrap : 65536 ≤ dataSize.toNat + 2) :
    (∀ c ∈ sendCopies e data dataSize, (dscSendPacket e data dataSize).capacity < c.stop) ∧
      ∃ c ∈ sendCopies e data dataSize,
        c.stop = (dscSendPacket e data dataSize).capacity + 65536 := by
  have hbound := dataSize.toNat_lt
  have hcap := dscSendPacket_capacity e data dataSize
  constructor
  · intro c hc
    rw [hcap]
    rcases stop_of_mem_sendCopies e hlen hc with hstop | hstop <;> omega
  · have hbody : 2 + dataSize.toNat ∈ (sendCopies e data dataSize).map Memcpy.stop := by
      rw [sendCopies_stops e hlen]
      exact List.mem_cons_of_mem _ List.mem_cons_self
    obtain ⟨c, hc, hstop⟩ := List.mem_map.mp hbody
    refine ⟨c, hc, ?_⟩
    rw [hstop, hcap]
    omega

/-- The model's memory shows the overrun: inside or not, `dataSize + 2` bytes stand from `m_data`
on after the copies. -/
theorem dscSendPacket_data_length (hlen : dataSize.toNat ≤ data.length) :
    (dscSendPacket e data dataSize).data.length = dataSize.toNat + 2 := by
  have hcap : (UInt16.ofNat (dataSize.toNat + 2)).toNat ≤ dataSize.toNat + 2 := by
    rw [UInt16.toNat_ofNat']
    exact Nat.mod_le _ _
  simp only [dscSendPacket, DSCPacket.ofSize, headBytesSize, DSCPacket.memcpyAt,
    List.length_append, List.length_take, List.length_drop, List.length_replicate,
    header_length]
  omega

end Copies

end DSFramework.DSCommunication
