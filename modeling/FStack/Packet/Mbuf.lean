import Mathlib.Data.BitVec

/-!
# Packet buffers

Two buffer worlds meet on the receive path. `RteMbuf` is one segment of a DPDK
packet; `Packet` is a non-empty chain of them, handed around by its first
segment. `BsdMbuf` is one mbuf of the BSD stack whose data lies in such a
segment: nothing is copied, so its `extFree` field decides when the DPDK memory
goes back to its pool.

A segment's `room` is the memory from the start of its data to the end of its
buffer. Bytes at and beyond `dataLen` are whatever the buffer held before; code
that reads past `dataLen` reads them.
-/

namespace FStack

/-- `PKT_RX_L4_CKSUM_BAD`. -/
def pktRxL4CksumBad : BitVec 64 := 0x8

/-- `PKT_RX_IP_CKSUM_BAD`. -/
def pktRxIpCksumBad : BitVec 64 := 0x10

/-- `PKT_RX_VLAN_STRIPPED`. -/
def pktRxVlanStripped : BitVec 64 := 0x40

/-- One segment of a DPDK packet. `addr` names the allocation the segment came
from: every successful allocation has a name of its own, also when the pool
hands out memory again. `frame` is a ghost: the reception whose bytes these are. -/
structure RteMbuf where
  addr : Nat
  room : List UInt8
  dataLen : UInt16
  headroom : Nat
  pktLen : UInt32
  nbSegs : UInt16
  olFlags : BitVec 64
  vlanTci : UInt16
  vlanTciOuter : UInt16
  port : UInt16
  txOffload : UInt64
  hash : UInt64
  packetType : UInt32
  frame : Nat
deriving DecidableEq, Repr

/-- The data of a segment. -/
def RteMbuf.data (m : RteMbuf) : List UInt8 := m.room.take m.dataLen.toNat

/-- A DPDK packet: its first segment and the segments its `next` links reach. -/
structure Packet where
  head : RteMbuf
  next : List RteMbuf
deriving DecidableEq, Repr

namespace Packet

/-- All segments of the packet in link order. -/
def segs (pkt : Packet) : List RteMbuf := pkt.head :: pkt.next

/-- A packet is named by its first segment, as every pointer to it is. -/
def addr (pkt : Packet) : Nat := pkt.head.addr

/-- The data of a packet. -/
def data (pkt : Packet) : List UInt8 := pkt.segs.flatMap RteMbuf.data

/-- The data lies inside the buffers, and its length is that of the packet. -/
structure Consistent (pkt : Packet) : Prop where
  inside : ∀ seg ∈ pkt.segs, seg.dataLen.toNat ≤ seg.room.length
  length : pkt.head.pktLen.toNat = pkt.data.length

end Packet

/-- The packet header of a BSD mbuf, as far as the receive path fills it. -/
structure PktHdr where
  len : UInt16
  csumValid : Bool
  vlanTag : Option UInt16
deriving DecidableEq, Repr

/-- One BSD mbuf with external storage. `mData` is the DPDK segment its data
pointer lies in, `extFree` the packet given to `ff_mbuf_ext_free` when the mbuf
is freed, or none where no free routine was registered. -/
structure BsdMbuf where
  mData : RteMbuf
  mLen : UInt16
  extFree : Option Packet
  pkthdr : Option PktHdr
deriving DecidableEq, Repr

/-- A segment of one zero byte. -/
def plainSegment (addr : Nat) : RteMbuf where
  addr := addr
  room := [0]
  dataLen := 1
  headroom := 128
  pktLen := 2
  nbSegs := 2
  olFlags := 0
  vlanTci := 0
  vlanTciOuter := 0
  port := 0
  txOffload := 0
  hash := 0
  packetType := 0
  frame := 0

/-- A packet of two segments. -/
def twoSegments : Packet where
  head := plainSegment 0
  next := [plainSegment 1]

end FStack
