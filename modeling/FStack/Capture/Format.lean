import FStack.Std.Bytes

/-!
# Capture files

A capture file is a global header followed by records, each of which is a header that
says how many bytes of the packet follow. `readPcap` reads such a file as a whole, on
a machine that is little-endian as the writer was: what it accepts is well formed, and
it reads back every file that was written.
-/

namespace FStack.Capture

open Bytes List Option

/-- `struct pcap_file_header`. -/
structure PcapFileHeader where
  magic : UInt32
  versionMajor : UInt16
  versionMinor : UInt16
  thiszone : UInt32
  sigfigs : UInt32
  snaplen : UInt32
  linktype : UInt32
deriving DecidableEq, Repr

/-- `struct pcap_pkthdr`. -/
structure PcapPkthdr where
  sec : UInt32
  usec : UInt32
  caplen : UInt32
  len : UInt32
deriving DecidableEq, Repr

/-- The bytes of the header in memory. -/
def PcapFileHeader.bytes (hdr : PcapFileHeader) : List UInt8 :=
  leBytes 4 hdr.magic.toNat ++ leBytes 2 hdr.versionMajor.toNat ++
    leBytes 2 hdr.versionMinor.toNat ++ leBytes 4 hdr.thiszone.toNat ++
    leBytes 4 hdr.sigfigs.toNat ++ leBytes 4 hdr.snaplen.toNat ++ leBytes 4 hdr.linktype.toNat

def PcapPkthdr.bytes (hdr : PcapPkthdr) : List UInt8 :=
  leBytes 4 hdr.sec.toNat ++ leBytes 4 hdr.usec.toNat ++ leBytes 4 hdr.caplen.toNat ++
    leBytes 4 hdr.len.toNat

/-- A record: the bytes behind a header are as many as it says. -/
structure PcapRecord where
  hdr : PcapPkthdr
  data : SizedBytes hdr.caplen.toNat
deriving DecidableEq, Repr

/-- A capture file, by its snap length and its records. -/
structure PcapFile where
  snaplen : UInt32
  records : List PcapRecord
deriving DecidableEq, Repr

/-- The global header of a file of Ethernet frames. -/
def ethernetHeader (snaplen : UInt32) : PcapFileHeader where
  magic := 0xA1B2C3D4
  versionMajor := 0x0002
  versionMinor := 0x0004
  thiszone := 0x00000000
  sigfigs := 0x00000000
  snaplen := snaplen
  linktype := 0x00000001

def PcapRecord.bytes (record : PcapRecord) : List UInt8 := record.hdr.bytes ++ record.data.1

def PcapFile.bytes (file : PcapFile) : List UInt8 :=
  (ethernetHeader file.snaplen).bytes ++ file.records.flatMap PcapRecord.bytes

section Readers

def readUInt16 (bytes : List UInt8) : Option (UInt16 × List UInt8) :=
  (readLe 2 bytes).map fun (value, rest) => (UInt16.ofNat value, rest)

def readUInt32 (bytes : List UInt8) : Option (UInt32 × List UInt8) :=
  (readLe 4 bytes).map fun (value, rest) => (UInt32.ofNat value, rest)

def readFileHeader (bytes : List UInt8) : Option (PcapFileHeader × List UInt8) := do
  let (magic, bytes) ← readUInt32 bytes
  let (versionMajor, bytes) ← readUInt16 bytes
  let (versionMinor, bytes) ← readUInt16 bytes
  let (thiszone, bytes) ← readUInt32 bytes
  let (sigfigs, bytes) ← readUInt32 bytes
  let (snaplen, bytes) ← readUInt32 bytes
  let (linktype, bytes) ← readUInt32 bytes
  some (⟨magic, versionMajor, versionMinor, thiszone, sigfigs, snaplen, linktype⟩, bytes)

def readPkthdr (bytes : List UInt8) : Option (PcapPkthdr × List UInt8) := do
  let (sec, bytes) ← readUInt32 bytes
  let (usec, bytes) ← readUInt32 bytes
  let (caplen, bytes) ← readUInt32 bytes
  let (len, bytes) ← readUInt32 bytes
  some (⟨sec, usec, caplen, len⟩, bytes)

/-- Records up to the end; there are at most `count`. -/
def readRecords : Nat → List UInt8 → Option (List PcapRecord)
  | _, [] => some []
  | 0, _ :: _ => none
  | count + 1, byte :: bytes => do
      let (hdr, rest) ← readPkthdr (byte :: bytes)
      let (data, rest) ← splitBytes hdr.caplen.toNat rest
      let records ← readRecords count rest
      some (⟨hdr, data⟩ :: records)

/-- A capture file of Ethernet frames. A record has at least one byte. -/
def readPcap (bytes : List UInt8) : Option PcapFile := do
  let (hdr, rest) ← readFileHeader bytes
  if hdr = ethernetHeader hdr.snaplen then
    let records ← readRecords rest.length rest
    some ⟨hdr.snaplen, records⟩
  else none

end Readers

section RoundTrip

variable (rest : List UInt8)

theorem readUInt16_append (value : UInt16) :
    readUInt16 (leBytes 2 value.toNat ++ rest) = some (value, rest) := by
  rw [readUInt16, readLe_append (by exact value.toNat_lt)]
  exact congrArg (fun number => some (number, rest)) (UInt16.ofNat_toNat)

theorem readUInt32_append (value : UInt32) :
    readUInt32 (leBytes 4 value.toNat ++ rest) = some (value, rest) := by
  rw [readUInt32, readLe_append (by exact value.toNat_lt)]
  exact congrArg (fun number => some (number, rest)) (UInt32.ofNat_toNat)

theorem readFileHeader_append (hdr : PcapFileHeader) :
    readFileHeader (hdr.bytes ++ rest) = some (hdr, rest) := by
  simp only [readFileHeader, PcapFileHeader.bytes, append_assoc, readUInt32_append,
    readUInt16_append, bind_eq_bind, bind_some]

theorem readPkthdr_append (hdr : PcapPkthdr) :
    readPkthdr (hdr.bytes ++ rest) = some (hdr, rest) := by
  simp only [readPkthdr, PcapPkthdr.bytes, append_assoc, readUInt32_append,
    bind_eq_bind, bind_some]

@[simp] theorem PcapFileHeader.length_bytes (hdr : PcapFileHeader) : hdr.bytes.length = 24 := by
  simp [bytes]

@[simp] theorem PcapPkthdr.length_bytes (hdr : PcapPkthdr) : hdr.bytes.length = 16 := by
  simp [bytes]

theorem PcapRecord.length_bytes (record : PcapRecord) :
    record.bytes.length = 16 + record.hdr.caplen.toNat := by
  rw [bytes, length_append, PcapPkthdr.length_bytes, record.data.2]

/-- Records that were written one after the other are read back. -/
theorem readRecords_flatMap {count : Nat} {records : List PcapRecord}
    (enough : records.length ≤ count) :
    readRecords count (records.flatMap PcapRecord.bytes) = some records := by
  induction records generalizing count with
  | nil => cases count <;> rfl
  | cons record records ih =>
    cases count with
    | zero => exact absurd enough (Nat.not_succ_le_zero _)
    | succ count =>
      have tail := ih (Nat.le_of_succ_le_succ enough)
      rw [flatMap_cons]
      have size := record.length_bytes
      cases bytes : record.bytes with
      | nil =>
        rw [bytes] at size
        simp at size
        omega
      | cons byte more =>
        rw [cons_append, readRecords, ← cons_append, ← bytes, PcapRecord.bytes,
          append_assoc, readPkthdr_append]
        simp only [bind_eq_bind, bind_some,
          splitBytes_append _ _ record.data.2, tail]

theorem length_le_flatMap (records : List PcapRecord) :
    records.length ≤ (records.flatMap PcapRecord.bytes).length := by
  induction records with
  | nil => exact Nat.le_refl _
  | cons record records ih =>
    rw [flatMap_cons, length_append, record.length_bytes, length_cons]
    omega

/-- A file that was written is read back. -/
theorem readPcap_bytes (file : PcapFile) : readPcap file.bytes = some file := by
  simp only [readPcap, PcapFile.bytes, readFileHeader_append, bind_eq_bind,
    bind_some, readRecords_flatMap (length_le_flatMap file.records)]
  exact if_pos rfl

end RoundTrip

end FStack.Capture
