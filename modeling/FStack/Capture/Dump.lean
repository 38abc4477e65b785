import FStack.Capture.Format
import FStack.Packet.Mbuf
import FStack.Std.Maps
import FStack.Std.Steps

/-!
# Dumping packets

`ff_dump_packets` appends a packet to the capture file that is open, and starts the
next of ten files when the file has become too long. The snap length that it hands to
`ff_enable_pcap` for the new file is the one that it has cut down to the length of
the packet before, so the new header states that length.
-/

namespace FStack.Capture

open Bytes Function List Option PcapFile Steps

/-- `FILE_PATH_LEN`. -/
def filePathLen : Nat := 64

/-- `PCAP_FILE_NUM`. -/
def pcapFileNum : UInt32 := 10

/-- A path as it stands in a buffer of `FILE_PATH_LEN` characters. -/
abbrev Path := List Char

/-- The globals of the module, and the files. -/
structure PcapState where
  fp : Option Path
  seq : UInt32
  flen : UInt32
  files : Path → Option (List UInt8)

open PcapState

/-- The path that `snprintf` leaves, cut off at the end of the buffer. -/
def pcapFPath (dumpPath : Option Path) (lcoreId : Nat) (seq : UInt32) : Path :=
  (dumpPath.getD ['.'] ++ "/cpu".toList ++ Nat.toDigits 10 lcoreId ++ ['_'] ++
    Nat.toDigits 10 seq.toNat ++ ".pcap".toList).take (filePathLen - 1)

/-- `fwrite` to `g_pcap_fp`. -/
def PcapState.fwrite (bytes : List UInt8) (state : PcapState) : PcapState :=
  match state.fp with
  | none => state
  | some path =>
    let content := (state.files path).map (· ++ bytes)
    { state with files := update state.files path content }

/-- Adding to `g_flen`. -/
def PcapState.grow (count : UInt32) (state : PcapState) : PcapState :=
  { state with flen := state.flen + count }

/-- `g_flen = 0`. -/
def PcapState.resetFlen (state : PcapState) : PcapState :=
  { state with flen := 0 }

/-- `fopen` of a file for writing. -/
def PcapState.fopen (path : Path) (state : PcapState) : PcapState :=
  { state with fp := some path, files := update state.files path (some []) }

/-- `++seq`, which starts again at `PCAP_FILE_NUM`. -/
def PcapState.nextSeq (state : PcapState) : PcapState :=
  { state with seq := if pcapFileNum ≤ state.seq + 1 then 0 else state.seq + 1 }

/-- `ff_enable_pcap`; `opens` is whether `fopen` succeeds. Where it fails the process
exits, so that nothing is open any more. -/
def ffEnablePcap (dumpPath : Option Path) (lcoreId : Nat) (snapLen : UInt16) (opens : Bool)
    (state : PcapState) : PcapState :=
  let path := pcapFPath dumpPath lcoreId state.seq
  if opens then
    ((state.fopen path).resetFlen.fwrite (ethernetHeader snapLen.toUInt32).bytes).grow 24
  else { state with fp := none }

/-- The loop over the segments of a packet, with `outLen` bytes written so far. -/
def writeSegs (snapLen : UInt16) : List RteMbuf → UInt32 → PcapState → PcapState × UInt32
  | [], outLen, state => (state, outLen)
  | pkt :: next, outLen, state =>
    if outLen ≤ snapLen.toUInt32 then
      let wrLen := snapLen.toUInt32 - outLen
      let wrLen := if pkt.dataLen.toUInt32 < wrLen then pkt.dataLen.toUInt32 else wrLen
      writeSegs snapLen next (outLen + wrLen) (state.fwrite (pkt.room.take wrLen.toNat))
    else (state, outLen)

/-- `ff_dump_packets`, at the time `sec` and `usec`. -/
def ffDumpPackets (dumpPath : Option Path) (lcoreId : Nat) (pkt : Packet) (snapLen : UInt16)
    (fMaxlen sec usec : UInt32) (opens : Bool) (state : PcapState) : PcapState × Int :=
  match state.fp with
  | none => (state, -1)
  | some _ =>
    let snapLen := if pkt.head.pktLen < snapLen.toUInt32 then pkt.head.pktLen.toUInt16 else snapLen
    let hdr : PcapPkthdr := ⟨sec, usec, snapLen.toUInt32, pkt.head.pktLen⟩
    let state := (state.fwrite hdr.bytes).grow 16
    let written := writeSegs snapLen pkt.segs 0 state
    let state := written.1.grow written.2
    if fMaxlen ≤ state.flen then
      (ffEnablePcap dumpPath lcoreId snapLen opens state.nextSeq, 0)
    else (state, 0)

section Writing

variable {state : PcapState} {path : Path} {content : List UInt8} {snapLen : UInt16}

/-- Replacing the content of a file. -/
def PcapState.store (path : Path) (content : List UInt8) (state : PcapState) : PcapState :=
  { state with files := update state.files path (some content) }

/-- A file is open and has a content. -/
def PcapState.Open (path : Path) (content : List UInt8) (state : PcapState) : Prop :=
  state.fp = some path ∧ state.files path = some content

section

variable (opened : state.Open path content)

include opened

theorem PcapState.Open.store (content' : List UInt8) :
    (state.store path content').Open path content' :=
  ⟨opened.1, update_self ..⟩

theorem PcapState.Open.store_self : state.store path content = state := by
  rw [PcapState.store, ← opened.2, update_eq_self]

theorem PcapState.Open.grow (count : UInt32) :
    (state.grow count).Open path content := opened

end

theorem PcapState.store_grow (count : UInt32) :
    (state.grow count).store path content = (state.store path content).grow count := rfl

theorem PcapState.store_store (content content' : List UInt8) :
    (state.store path content).store path content' = state.store path content' := by
  simp only [store, update_idem]

theorem PcapState.Open.fwrite (opened : state.Open path content) (bytes : List UInt8) :
    state.fwrite bytes = state.store path (content ++ bytes) := by
  unfold PcapState.fwrite PcapState.store
  split
  · exact absurd (‹state.fp = none›.symm.trans opened.1) nofun
  · have same := some.inj (‹state.fp = some _›.symm.trans opened.1)
    simp only [same, opened.2, map_some]

/-- What is written of a segment is limited by the rest of the snap length. -/
theorem toNat_wrLen {dataLen : UInt16} {outLen : UInt32} (room : outLen ≤ snapLen.toUInt32) :
    (if dataLen.toUInt32 < snapLen.toUInt32 - outLen then dataLen.toUInt32
      else snapLen.toUInt32 - outLen).toNat = min (snapLen.toNat - outLen.toNat) dataLen.toNat := by
  have left : (snapLen.toUInt32 - outLen).toNat = snapLen.toNat - outLen.toNat :=
    UInt32.toNat_sub_of_le _ _ room
  split_ifs with short
  · rw [UInt32.lt_iff_toNat_lt, left] at short
    exact (Nat.min_eq_right short.le).symm
  · rw [UInt32.lt_iff_toNat_lt, left, not_lt] at short
    rw [left]
    exact (Nat.min_eq_left short).symm

/-- The loop writes what the snap length leaves of the data. -/
theorem writeSegs_eq (snapLen : UInt16) (segs : List RteMbuf) (outLen : UInt32)
    (inside : ∀ seg ∈ segs, seg.dataLen.toNat ≤ seg.room.length)
    (room : outLen ≤ snapLen.toUInt32) (opened : state.Open path content) :
    ∃ outLen', writeSegs snapLen segs outLen state =
        (state.store path (content ++
          (segs.flatMap RteMbuf.data).take (snapLen.toNat - outLen.toNat)), outLen') ∧
      outLen'.toNat = outLen.toNat +
        ((segs.flatMap RteMbuf.data).take (snapLen.toNat - outLen.toNat)).length := by
  induction segs generalizing outLen state content with
  | nil =>
    rw [flatMap_nil, take_nil, append_nil, opened.store_self]
    exact ⟨outLen, rfl, rfl⟩
  | cons pkt next ih =>
    have size : pkt.data.length = pkt.dataLen.toNat :=
      length_take_of_le (inside pkt mem_cons_self)
    have wrLen := @toNat_wrLen snapLen pkt.dataLen outLen room
    rw [writeSegs, if_pos room]
    dsimp only
    generalize (if pkt.dataLen.toUInt32 < snapLen.toUInt32 - outLen then pkt.dataLen.toUInt32
      else snapLen.toUInt32 - outLen) = wr at wrLen ⊢
    have fits := UInt32.le_iff_toNat_le.mp room
    have bound := snapLen.toNat_lt
    rw [UInt16.toNat_toUInt32] at fits
    have sum : (outLen + wr).toNat = outLen.toNat + wr.toNat := by
      rw [UInt32.toNat_add]
      omega
    have written : pkt.room.take wr.toNat = pkt.data.take (snapLen.toNat - outLen.toNat) := by
      rw [wrLen, RteMbuf.data, take_take]
    obtain ⟨outLen', ends, total⟩ := ih (outLen + wr)
      (fun seg member => inside seg (mem_cons_of_mem _ member))
      (UInt32.le_iff_toNat_le.mpr (by rw [sum, UInt16.toNat_toUInt32]; omega))
      (opened.store (content ++ pkt.room.take wr.toNat))
    have left : snapLen.toNat - (outLen + wr).toNat =
        snapLen.toNat - outLen.toNat - pkt.data.length := by omega
    refine ⟨outLen', ?_, ?_⟩
    · rw [opened.fwrite, ends, store_store, flatMap_cons, take_append, left,
        append_assoc, written]
    · have whole := inside pkt mem_cons_self
      have length : (pkt.room.take wr.toNat).length = wr.toNat :=
        length_take_of_le (by omega)
      rw [total, left, sum, flatMap_cons, take_append, length_append, ← written,
        length, Nat.add_assoc]

end Writing

section Sessions

/-- How a process dumps packets. -/
structure DumpCfg where
  savePath : Option Path
  lcoreId : Nat
  snapLen : UInt16
  saveLen : UInt32

/-- A packet that is dumped, with the time and whether a file can be opened then. -/
structure Dump where
  pkt : Packet
  sec : UInt32
  usec : UInt32
  opens : Bool
  consistent : pkt.Consistent

/-- A process that dumps packets, and the packets so far. -/
structure Session where
  pcap : PcapState
  dumped : List Dump

variable (cfg : DumpCfg)

def Session.step (session : Session) (dump : Dump) : Session where
  pcap := (ffDumpPackets cfg.savePath cfg.lcoreId dump.pkt cfg.snapLen cfg.saveLen dump.sec
    dump.usec dump.opens session.pcap).1
  dumped := session.dumped ++ [dump]

/-- A process that has called `ff_enable_pcap`. -/
def Session.enabled : Session where
  pcap := ffEnablePcap cfg.savePath cfg.lcoreId cfg.snapLen true ⟨none, 0, 0, fun _ => none⟩
  dumped := []

/-- What is captured of a packet. -/
def Dump.capLen (snapLen : UInt16) (dump : Dump) : UInt16 :=
  if dump.pkt.head.pktLen < snapLen.toUInt32 then dump.pkt.head.pktLen.toUInt16 else snapLen

/-- A record has at most the snap length of its packet. -/
theorem Dump.toNat_capLen (snapLen : UInt16) (dump : Dump) :
    (dump.capLen snapLen).toNat = min dump.pkt.head.pktLen.toNat snapLen.toNat := by
  have bound := snapLen.toNat_lt
  unfold capLen
  split_ifs with short
  · rw [UInt32.lt_iff_toNat_lt, UInt16.toNat_toUInt32] at short
    rw [UInt32.toNat_toUInt16]
    omega
  · rw [UInt32.lt_iff_toNat_lt, UInt16.toNat_toUInt32] at short
    omega

/-- The record of a packet: its first bytes, as many as the snap length allows. -/
def Dump.record (snapLen : UInt16) (dump : Dump) : PcapRecord where
  hdr := ⟨dump.sec, dump.usec, UInt32.ofNat (min dump.pkt.head.pktLen.toNat snapLen.toNat),
    dump.pkt.head.pktLen⟩
  data := ⟨dump.pkt.data.take (min dump.pkt.head.pktLen.toNat snapLen.toNat), by
    have bound := snapLen.toNat_lt
    have length := dump.consistent.length
    rw [UInt32.toNat_ofNat', length_take]
    omega⟩

/-- Every file is a capture file with the configured snap length, whose records are those
of packets that were dumped one after the other; and the running length is that of the
file that is open. -/
structure Captured (session : Session) : Prop where
  valid : ∀ path content, session.pcap.files path = some content →
    ∃ dumps, dumps <:+: session.dumped ∧ readPcap content =
      some ⟨cfg.snapLen.toUInt32, dumps.map (Dump.record cfg.snapLen)⟩
  length : ∀ path, session.pcap.fp = some path →
    ∃ content, session.pcap.files path = some content ∧ session.pcap.flen.toNat = content.length

/-- The length of the file that is open does not overflow; and a packet that ends a file
is not shorter than the snap length, if another file can be opened. -/
def Fits (session : Session) (dump : Dump) : Prop :=
  session.pcap.fp.isSome = true →
    session.pcap.flen.toNat + 16 + (dump.capLen cfg.snapLen).toNat < 2 ^ 32 ∧
      (cfg.saveLen.toNat ≤ session.pcap.flen.toNat + 16 + (dump.capLen cfg.snapLen).toNat →
        dump.opens = true → cfg.snapLen.toNat ≤ dump.pkt.head.pktLen.toNat)

end Sessions

section Steps

variable {cfg : DumpCfg} {session : Session} {dump : Dump} {path path' : Path}
  {content : List UInt8} {state : PcapState}

theorem Dump.record_bytes (snapLen : UInt16) (dump : Dump) :
    (dump.record snapLen).bytes =
      PcapPkthdr.bytes ⟨dump.sec, dump.usec, (dump.capLen snapLen).toUInt32, dump.pkt.head.pktLen⟩ ++
        dump.pkt.data.take (dump.capLen snapLen).toNat := by
  have caplen : (dump.capLen snapLen).toUInt32 =
      UInt32.ofNat (min dump.pkt.head.pktLen.toNat snapLen.toNat) := by
    rw [← dump.toNat_capLen, ← UInt16.toNat_toUInt32, UInt32.ofNat_toNat]
  rw [caplen, dump.toNat_capLen]
  rfl

/-- A packet is appended before anything else. -/
def PcapState.appended (snapLen : UInt16) (dump : Dump) (path : Path) (content : List UInt8)
    (state : PcapState) : PcapState :=
  ((state.store path (content ++ (dump.record snapLen).bytes)).grow 16).grow
    (dump.capLen snapLen).toUInt32

/-- The loop over the segments writes the start of the packet. -/
theorem Dump.writeSegs_eq (opened : state.Open path content) :
    writeSegs (dump.capLen cfg.snapLen) dump.pkt.segs 0 state =
      (state.store path (content ++ dump.pkt.data.take (dump.capLen cfg.snapLen).toNat),
        (dump.capLen cfg.snapLen).toUInt32) := by
  have short : (dump.capLen cfg.snapLen).toNat ≤ dump.pkt.data.length := by
    rw [dump.toNat_capLen, ← dump.consistent.length]
    exact Nat.min_le_left ..
  obtain ⟨outLen, ends, total⟩ := Capture.writeSegs_eq (dump.capLen cfg.snapLen) dump.pkt.segs 0
    dump.consistent.inside (Nat.zero_le _) opened
  rw [UInt32.toNat_zero, Nat.sub_zero, Nat.zero_add] at total
  have whole : outLen = (dump.capLen cfg.snapLen).toUInt32 := by
    apply UInt32.toNat_inj.mp
    rw [total, UInt16.toNat_toUInt32]
    exact length_take_of_le short
  rw [ends, whole]
  rfl

/-- A packet is written as one record, and the next file is opened when this one is full. -/
theorem ffDumpPackets_eq (opened : state.Open path content) :
    (ffDumpPackets cfg.savePath cfg.lcoreId dump.pkt cfg.snapLen cfg.saveLen dump.sec dump.usec
      dump.opens state).1 =
      if cfg.saveLen ≤ state.flen + 16 + (dump.capLen cfg.snapLen).toUInt32 then
        ffEnablePcap cfg.savePath cfg.lcoreId (dump.capLen cfg.snapLen) dump.opens
          (state.appended cfg.snapLen dump path content).nextSeq
      else state.appended cfg.snapLen dump path content := by
  have cap : (if dump.pkt.head.pktLen < cfg.snapLen.toUInt32 then dump.pkt.head.pktLen.toUInt16
      else cfg.snapLen) = dump.capLen cfg.snapLen := rfl
  have written (header : List UInt8) := @Dump.writeSegs_eq cfg dump path _ _
    ((opened.store (content ++ header)).grow 16)
  unfold ffDumpPackets
  split
  · exact absurd (‹state.fp = none›.symm.trans opened.1) nofun
  · simp only [cap, opened.fwrite, written, store_grow, store_store,
      append_assoc, ← dump.record_bytes]
    exact apply_ite Prod.fst ..

/-- A file that is opened begins with the header. -/
theorem ffEnablePcap_opens (dumpPath : Option Path) (lcoreId : Nat) (snapLen : UInt16)
    (state : PcapState) :
    ∃ path, (ffEnablePcap dumpPath lcoreId snapLen true state).fp = some path ∧
      (ffEnablePcap dumpPath lcoreId snapLen true state).flen = 24 ∧
      (ffEnablePcap dumpPath lcoreId snapLen true state).files =
        update state.files path (some (ethernetHeader snapLen.toUInt32).bytes) := by
  unfold ffEnablePcap
  generalize pcapFPath dumpPath lcoreId state.seq = path
  have opened : (state.fopen path).resetFlen.Open path [] := ⟨rfl, update_self ..⟩
  rw [if_pos rfl, opened.fwrite, nil_append]
  exact ⟨path, rfl, rfl, update_idem ..⟩

/-- The file of packets that were dumped one after the other. -/
def DumpCfg.file (cfg : DumpCfg) (dumps : List Dump) : PcapFile :=
  ⟨cfg.snapLen.toUInt32, dumps.map (Dump.record cfg.snapLen)⟩

theorem DumpCfg.file_append (cfg : DumpCfg) (dumps : List Dump) (dump : Dump) :
    (cfg.file (dumps ++ [dump])).bytes =
      (cfg.file dumps).bytes ++ (dump.record cfg.snapLen).bytes := by
  simp [file, bytes]

theorem Dump.length_record (snapLen : UInt16) (dump : Dump) :
    (dump.record snapLen).bytes.length = 16 + (dump.capLen snapLen).toNat := by
  have bound := (dump.capLen snapLen).toNat_lt
  rw [PcapRecord.length_bytes]
  change 16 + (UInt32.ofNat (min _ _)).toNat = _
  rw [← dump.toNat_capLen, UInt32.toNat_ofNat']
  omega

/-- The files are what they should be, and the one that is open is not too long yet. -/
structure Sound (cfg : DumpCfg) (session : Session) : Prop where
  files : ∀ path content, session.pcap.files path = some content →
    ∃ dumps, dumps <:+: session.dumped ∧ content = (cfg.file dumps).bytes
  current : ∀ path, session.pcap.fp = some path → ∃ dumps, dumps <:+ session.dumped ∧
    session.pcap.files path = some (cfg.file dumps).bytes ∧
      session.pcap.flen.toNat = (cfg.file dumps).bytes.length
  early : session.pcap.fp.isSome = true →
    session.pcap.flen.toNat < cfg.saveLen.toNat ∨ session.pcap.flen.toNat = 24

theorem Sound.captured (sound : Sound cfg session) : Captured cfg session where
  valid path content found := by
    obtain ⟨dumps, run, rfl⟩ := sound.files path content found
    exact ⟨dumps, run, readPcap_bytes _⟩
  length path opened := by
    obtain ⟨dumps, -, found, length⟩ := sound.current path opened
    exact ⟨_, found, length⟩

/-- A file with nothing but its header. -/
theorem Sound.start {files : Path → Option (List UInt8)}
    (earlier : ∀ path content, files path = some content →
      ∃ dumps, dumps <:+: session.dumped ∧ content = (cfg.file dumps).bytes)
    (opened : session.pcap.fp = some path) (empty : session.pcap.flen = 24)
    (started : session.pcap.files =
      update files path (some (ethernetHeader cfg.snapLen.toUInt32).bytes)) :
    Sound cfg session := by
  have header : (ethernetHeader cfg.snapLen.toUInt32).bytes = (cfg.file []).bytes :=
    (append_nil _).symm
  refine ⟨fun path' content found => ?_, fun path' opened' => ?_, fun _ => .inr ?_⟩
  · rw [started] at found
    rcases Maps.update_some_iff.mp found with ⟨rfl, rfl⟩ | ⟨-, found⟩
    · exact ⟨[], nil_infix, header⟩
    · exact earlier path' content found
  · cases opened.symm.trans opened'
    refine ⟨[], nil_suffix, ?_, ?_⟩
    · rw [started, update_self, header]
    · rw [← header, empty, PcapFileHeader.length_bytes]
      rfl
  · rw [empty]
    rfl

theorem sound_enabled (cfg : DumpCfg) : Sound cfg (.enabled cfg) := by
  obtain ⟨path, opened, empty, started⟩ := ffEnablePcap_opens cfg.savePath cfg.lcoreId cfg.snapLen
    ⟨none, 0, 0, fun _ => none⟩
  exact .start (fun _ _ found => absurd found (by simp)) opened empty started

/-- Nothing happens once no file is open. -/
theorem Session.step_closed (closed : session.pcap.fp = none) :
    (session.step cfg dump).pcap = session.pcap := by
  simp only [step, ffDumpPackets]
  split
  · rfl
  · exact absurd (closed.symm.trans ‹session.pcap.fp = some _›) nofun

theorem infix_concat {dumps dumped : List Dump} (run : dumps <:+: dumped) (dump : Dump) :
    dumps <:+: dumped ++ [dump] :=
  run.trans (prefix_append dumped [dump]).isInfix

theorem suffix_concat {dumps dumped : List Dump} (run : dumps <:+ dumped) (dump : Dump) :
    dumps ++ [dump] <:+ dumped ++ [dump] := by
  obtain ⟨before, split⟩ := run
  exact ⟨before, by rw [← split, append_assoc]⟩

/-- With the new record, every file still has consecutive packets. -/
theorem Sound.files_appended (sound : Sound cfg session) {dumps : List Dump}
    (run : dumps <:+ session.dumped) (found' : (session.pcap.appended cfg.snapLen dump path
      (cfg.file dumps).bytes).files path' = some content) :
    ∃ dumps, dumps <:+: session.dumped ++ [dump] ∧ content = (cfg.file dumps).bytes := by
  change update session.pcap.files path _ path' = some content at found'
  rcases eq_or_ne path' path with rfl | different
  · rw [update_self, ← cfg.file_append] at found'
    exact ⟨dumps ++ [dump], (suffix_concat run dump).isInfix, (some.inj found').symm⟩
  · rw [update_of_ne different] at found'
    obtain ⟨dumps, run, rfl⟩ := sound.files path' content found'
    exact ⟨dumps, infix_concat run dump, rfl⟩

section

variable (snapLen : UInt16) (dump : Dump) (path : Path) (content : List UInt8) (state : PcapState)

theorem PcapState.appended_files :
    (state.appended snapLen dump path content).files path =
      some (content ++ (dump.record snapLen).bytes) :=
  update_self ..

/-- The running length counts what is appended, up to overflow. -/
theorem PcapState.toNat_appended :
    (state.appended snapLen dump path content).flen.toNat =
      (state.flen.toNat + 16 + (dump.capLen snapLen).toNat) % 2 ^ 32 := by
  change (state.flen + 16 + (dump.capLen snapLen).toUInt32).toNat = _
  rw [UInt32.toNat_add, UInt32.toNat_add, UInt16.toNat_toUInt32]
  exact Nat.mod_add_mod ..

end

theorem Dump.capLen_eq_iff (snapLen : UInt16) (dump : Dump) :
    dump.capLen snapLen = snapLen ↔ snapLen.toNat ≤ dump.pkt.head.pktLen.toNat := by
  rw [← UInt16.toNat_inj, dump.toNat_capLen, min_eq_right_iff]

theorem Session.step_opened (opened : session.pcap.Open path content) :
    (session.step cfg dump).pcap =
      if cfg.saveLen.toNat ≤ (session.pcap.appended cfg.snapLen dump path content).flen.toNat then
        ffEnablePcap cfg.savePath cfg.lcoreId (dump.capLen cfg.snapLen) dump.opens
          (session.pcap.appended cfg.snapLen dump path content).nextSeq
      else session.pcap.appended cfg.snapLen dump path content :=
  ffDumpPackets_eq opened

/-- Where the lengths fit, the files stay what they should be. -/
theorem Sound.step (sound : Sound cfg session) (fits : Fits cfg session dump) :
    Sound cfg (session.step cfg dump) := by
  cases fp : session.pcap.fp with
  | none =>
    have same := @Session.step_closed cfg session dump fp
    refine ⟨fun path content found => ?_, fun path opened => ?_, fun opened => ?_⟩
    · rw [same] at found
      obtain ⟨dumps, run, rfl⟩ := sound.files path content found
      exact ⟨dumps, infix_concat run dump, rfl⟩
    · rw [same, fp] at opened
      cases opened
    · rw [same, fp] at opened
      cases opened
  | some path =>
    obtain ⟨dumps, run, found, length⟩ := sound.current path fp
    obtain ⟨room, whole⟩ := fits (by rw [fp]; rfl)
    have step := @Session.step_opened cfg session dump path _ ⟨fp, found⟩
    have flen := session.pcap.toNat_appended cfg.snapLen dump path (cfg.file dumps).bytes
    rw [Nat.mod_eq_of_lt room] at flen
    have files := fun path' content =>
      @files_appended cfg session dump path path' content sound dumps run
    split_ifs at step with long
    · cases opens : dump.opens with
      | false =>
        rw [opens] at step
        refine ⟨fun path' content found => ?_, fun path' opened => ?_, fun opened => ?_⟩
        · rw [step] at found
          exact files path' content found
        · rw [step] at opened
          cases opened
        · rw [step] at opened
          cases opened
      | true =>
        rw [flen] at long
        rw [opens, (dump.capLen_eq_iff _).mpr (whole long opens)] at step
        obtain ⟨path', opened, empty, started⟩ := ffEnablePcap_opens cfg.savePath cfg.lcoreId
          cfg.snapLen (session.pcap.appended cfg.snapLen dump path (cfg.file dumps).bytes).nextSeq
        rw [← step] at opened empty started
        exact .start files opened empty started
    · refine ⟨fun path' content found => ?_, fun path' opened => ?_, fun _ => .inl ?_⟩
      · rw [step] at found
        exact files path' content found
      · rw [step] at opened ⊢
        cases fp.symm.trans opened
        refine ⟨dumps ++ [dump], ?_, ?_, ?_⟩
        · exact suffix_concat run dump
        · rw [cfg.file_append]
          exact appended_files ..
        · rw [flen, cfg.file_append, length_append, ← length, dump.length_record,
            Nat.add_assoc]
      · rw [step]
        exact Nat.lt_of_not_le long

/-- Where the lengths do not fit, something goes wrong at once. -/
theorem Sound.fits (sound : Sound cfg session) (captured : Captured cfg (session.step cfg dump)) :
    Fits cfg session dump := by
  intro isOpen
  obtain ⟨path, fp⟩ := isSome_iff_exists.mp isOpen
  obtain ⟨dumps, run, found, length⟩ := sound.current path fp
  have step := @Session.step_opened cfg session dump path _ ⟨fp, found⟩
  have flen := session.pcap.toNat_appended cfg.snapLen dump path (cfg.file dumps).bytes
  have cap := (dump.capLen cfg.snapLen).toNat_lt
  have room : session.pcap.flen.toNat + 16 + (dump.capLen cfg.snapLen).toNat < 2 ^ 32 := by
    -- a length that has wrapped is too small to end the file, and not its length
    by_contra full
    have small := session.pcap.flen.toNat_lt
    have early := sound.early isOpen
    rw [if_neg (by omega)] at step
    obtain ⟨content, found', length'⟩ := captured.length path (by rw [step]; exact fp)
    rw [step] at found' length'
    have stored := some.inj
      ((appended_files cfg.snapLen dump path _ session.pcap).symm.trans found')
    rw [flen, ← stored, length_append, ← length, dump.length_record] at length'
    omega
  rw [Nat.mod_eq_of_lt room] at flen
  refine ⟨room, fun long opens => ?_⟩
  rw [if_pos (by omega), opens] at step
  obtain ⟨path', opened, empty, started⟩ := ffEnablePcap_opens cfg.savePath cfg.lcoreId
    (dump.capLen cfg.snapLen) (session.pcap.appended cfg.snapLen dump path
      (cfg.file dumps).bytes).nextSeq
  rw [← step] at started
  obtain ⟨dumps', -, reads⟩ := captured.valid path' _
    (by rw [started]; exact update_self ..)
  have header := readPcap_bytes ⟨(dump.capLen cfg.snapLen).toUInt32, []⟩
  rw [bytes, flatMap_nil, append_nil, reads] at header
  have snaplen := congrArg snaplen (some.inj header)
  exact (dump.capLen_eq_iff _).mp (UInt16.toUInt32_inj.mp snaplen.symm)

/-- The capture files are right as long as no running length overflows and no packet that
ends a file is shorter than the snap length. -/
theorem captured_iff (cfg : DumpCfg) (dumps : List Dump) :
    Along (Session.step cfg) (fun session dump => Captured cfg (session.step cfg dump))
        (.enabled cfg) dumps ↔
      Along (Session.step cfg) (Fits cfg) (.enabled cfg) dumps := by
  refine along_iff (Sound cfg) (fun session dump sound => ⟨sound.fits, fun fits => ?_⟩)
    (fun session dump sound captured => sound.step (sound.fits captured)) (sound_enabled cfg)
  exact (sound.step fits).captured

/-- The first 96 bytes of packets go to files of 42 bytes. The functions are taken by themselves:
`ff_load_config` gives them no length below `PCAP_SAVE_MINLEN`. -/
def smallFiles : DumpCfg := ⟨none, 0, 96, 42⟩

def twoByteDump : Dump := ⟨twoSegments, 0, 0, true, by decide, by decide⟩

/-- A packet of two bytes ends the first file: the header of the next one states two as the
snap length. -/
theorem not_captured_twoByteDump :
    ((Session.enabled smallFiles).step smallFiles twoByteDump).pcap.files "./cpu0_1.pcap".toList =
        some (bytes ⟨2, []⟩) ∧
      ¬ Along (Session.step smallFiles)
        (fun session dump => Captured smallFiles (session.step smallFiles dump))
        (.enabled smallFiles) [twoByteDump] := by
  have header : ((Session.enabled smallFiles).step smallFiles twoByteDump).pcap.files
      "./cpu0_1.pcap".toList = some (bytes ⟨2, []⟩) := by decide +kernel
  refine ⟨header, fun ⟨captured, _⟩ => ?_⟩
  obtain ⟨dumps, -, reads⟩ := captured.valid _ _ header
  rw [readPcap_bytes] at reads
  have snaplen : 2 = smallFiles.snapLen.toUInt32 :=
    congrArg snaplen (some.inj reads)
  exact absurd snaplen (by decide)

end Steps

end FStack.Capture
