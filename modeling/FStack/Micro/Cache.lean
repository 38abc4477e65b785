import FStack.Std.CText
import FStack.Std.Steps

/-!
# The read/write cache

A `TRWCache` keeps bytes in a list of buffers from a pool. Data is appended behind the last
byte, in new buffers if the last one has no room, and taken from the front; a buffer that
becomes empty goes back to the pool. `len` and `count` are kept beside the list, as 32-bit
numbers.

The cache is a byte queue: its content is the concatenation of what the buffers have. That
holds as long as it has less than 2^31 bytes; beyond, `len` wraps around, and lengths are
returned as negative numbers.
-/

namespace FStack.Micro

open CText Steps

/-- Values of a `uint32_t`. -/
def word : Nat := 4294967296

/-- A buffer of `size` bytes; the data begins at `offset`. -/
structure TSkBuffer where
  size : Nat
  offset : Nat
  bytes : List UInt8
  deriving DecidableEq, Repr

namespace TSkBuffer

def dataLen (buff : TSkBuffer) : Nat := buff.bytes.length

/-- The bytes between the data and the end. -/
def remain (buff : TSkBuffer) : Nat := buff.size - buff.offset - buff.dataLen

def extend (buff : TSkBuffer) (data : List UInt8) : TSkBuffer :=
  { buff with bytes := buff.bytes ++ data }

def skip (buff : TSkBuffer) (len : Nat) : TSkBuffer :=
  { buff with offset := buff.offset + len, bytes := buff.bytes.drop len }

/-- What `new_sk_buffer` asks `malloc` for; the buffer has a header of 56 bytes. -/
def blockSize (size : Nat) : Nat := ((56 + size) % word + 7) % word / 8 * 8

end TSkBuffer

def newSkBuffer (size : Nat) : TSkBuffer := ⟨size, 0, []⟩

structure TSkBuffMng where
  freeList : List TSkBuffer
  size : Nat
  count : Nat
  deriving DecidableEq, Repr

namespace TSkBuffMng

/-- `alloc_sk_buffer`; so many calls of `malloc` are going to succeed. -/
def alloc (mng : TSkBuffMng) (memory : Nat) : TSkBuffMng × Nat × Option TSkBuffer :=
  match mng.freeList, memory with
  | item :: rest, memory =>
    ({ mng with freeList := rest, count := (mng.count + (word - 1)) % word }, memory, some item)
  | [], 0 => (mng, 0, none)
  | [], memory + 1 => (mng, memory, some (newSkBuffer mng.size))

/-- `free_sk_buffer`. -/
def free (mng : TSkBuffMng) (buff : TSkBuffer) : TSkBuffMng :=
  { mng with
    freeList := mng.freeList ++ [{ buff with offset := 0, bytes := [] }]
    count := (mng.count + 1) % word }

end TSkBuffMng

/-- `pooled` is whether the pointer to the pool is set. -/
structure TRWCache where
  list : List TSkBuffer
  len : Nat
  count : Nat
  pooled : Bool
  deriving DecidableEq, Repr

/-- `rw_cache_init`. -/
def rwCacheInit (pooled : Bool) : TRWCache := ⟨[], 0, 0, pooled⟩

/-- A cache and its pool. -/
structure Buffered where
  cache : TRWCache
  pool : TSkBuffMng
  deriving DecidableEq, Repr

namespace Buffered

section Front

structure Copied where
  list : List TSkBuffer
  freed : List TSkBuffer
  left : Nat
  out : List UInt8

/-- The loop of `cache_copy_out`. -/
def copyLoop : List TSkBuffer → Nat → Copied
  | [], left => ⟨[], [], left, []⟩
  | item :: rest, left =>
    let skipLen := if item.dataLen > left then left else item.dataLen
    let out := item.bytes.take skipLen
    let item := item.skip skipLen
    if item.dataLen > 0 then ⟨item :: rest, [], left - skipLen, out⟩
    else if left - skipLen = 0 then ⟨rest, [item], 0, out⟩
    else
      let later := copyLoop rest (left - skipLen)
      ⟨later.list, item :: later.freed, later.left, out ++ later.out⟩

/-- The number of bytes that are taken, and the bytes. -/
def cacheCopyOut (state : Buffered) (len : Nat) : Buffered × Nat × List UInt8 :=
  if !state.cache.pooled then (state, 0, [])
  else
    let copied := copyLoop state.cache.list len
    let skipLen := len - copied.left
    ({ cache := { state.cache with
         list := copied.list
         count := state.cache.count - copied.freed.length
         len := if state.cache.len > skipLen then state.cache.len - skipLen else 0 }
       pool := copied.freed.foldl TSkBuffMng.free state.pool }, skipLen, copied.out)

def cacheSkipData (state : Buffered) (len : Nat) : Buffered := (state.cacheCopyOut len).1

def cacheSkipFirstBuffer (state : Buffered) : Buffered × Option TSkBuffer :=
  match state.cache.list with
  | [] => (state, none)
  | buff :: rest =>
    let len := state.cache.len
    ({ state with cache := { state.cache with
         list := rest
         len := if len ≥ buff.dataLen then len - buff.dataLen else len
         count := state.cache.count - 1 } }, some buff)

end Front

section Back

def cacheAppendBuffer (state : Buffered) (buff : TSkBuffer) : Buffered :=
  { state with cache := { state.cache with
      list := state.cache.list ++ [buff]
      len := (state.cache.len + buff.dataLen) % word
      count := (state.cache.count + 1) % word } }

/-- Room behind the data of the last buffer. -/
def lastRemain (list : List TSkBuffer) : Nat := (list.getLast?.map (·.remain)).getD 0

/-- Data is put behind that of the last buffer. -/
def extendLast (list : List TSkBuffer) (data : List UInt8) : List TSkBuffer :=
  match list.getLast? with
  | none => list
  | some tail => list.dropLast ++ [tail.extend data]

/-- The last buffer has room for the data. -/
def store (state : Buffered) (data : List UInt8) : Buffered :=
  { state with cache := { state.cache with
      list := extendLast state.cache.list data
      len := (state.cache.len + data.length) % word } }

/-- The loop of `cache_append_data`: data is put into buffers of the pool. Those of the free
list have their data at the head. -/
def fillLoop : Nat → TSkBuffMng → Nat → List UInt8 → List TSkBuffer →
    TSkBuffMng × List TSkBuffer × Bool
  | 0, pool, _, _, keep => (pool, keep, false)
  | fuel + 1, pool, memory, data, keep =>
    match pool.alloc memory with
    | (pool, _, none) => (pool, keep, false)
    | (pool, memory, some item) =>
      if data.length ≤ item.size then (pool, keep ++ [{ item with bytes := data }], true)
      else
        fillLoop fuel pool memory (data.drop item.size)
          (keep ++ [{ item with bytes := data.take item.size }])

/-- Every round takes a buffer of the free list, or from `malloc`. -/
def cacheAppendData (state : Buffered) (data : List UInt8) (memory : Nat) : Buffered × Int :=
  let cache := state.cache
  if !cache.pooled then (state, -1)
  else if data.length = 0 then (state, 0)
  else
    let remain := lastRemain cache.list
    if cache.list ≠ [] ∧ remain ≥ data.length then (state.store data, toInt data.length)
    else
      match fillLoop (state.pool.freeList.length + memory + 1) state.pool memory
        (data.drop remain) [] with
      | (pool, keep, false) => ({ state with pool := keep.foldl TSkBuffMng.free pool }, -2)
      | (pool, keep, true) =>
        ({ cache := { cache with
             list := extendLast cache.list (data.take remain) ++ keep
             len := (cache.len + data.length) % word
             count := (cache.count + keep.length) % word }
           pool }, toInt data.length)

end Back

section Sockets

/-- What `recv` has: data (none if the remote has closed), or `EAGAIN`, or another error. Data
that does not fit is there for the next call. -/
inductive RecvAnswer
  | data (bytes : List UInt8)
  | again
  | error
  deriving DecidableEq, Repr

/-- A buffer with room is made the last one. -/
def ensureRoom (state : Buffered) (memory : Nat) : Buffered × Nat × Bool :=
  if state.cache.list ≠ [] ∧ lastRemain state.cache.list ≠ 0 then (state, memory, true)
  else if !state.cache.pooled then (state, memory, false)
  else
    match state.pool.alloc memory with
    | (pool, memory, none) => ({ state with pool }, memory, false)
    | (pool, memory, some item) => ({ state with pool }.cacheAppendBuffer item, memory, true)

/-- The bytes that have been stored, and the answers that have not been used. -/
structure Received where
  state : Buffered
  ret : Int
  received : List UInt8
  answers : List RecvAnswer

/-- The loop of `cache_tcp_recv`. -/
def recvLoop : Nat → List RecvAnswer → Nat → List UInt8 → Buffered → Received
  | 0, answers, _, received, state => ⟨state, toInt received.length, received, answers⟩
  | rounds + 1, answers, memory, received, state =>
    match state.ensureRoom memory with
    | (state, _, false) => ⟨state, -2, received, answers⟩
    | (state, memory, true) =>
      let remain := lastRemain state.cache.list
      match answers with
      | [] => ⟨state, toInt received.length, received, []⟩
      | .again :: rest => ⟨state, toInt received.length, received, rest⟩
      | .error :: rest => ⟨state, -2, received, rest⟩
      | .data bytes :: rest =>
        let got := bytes.take remain
        if got = [] then ⟨state, -10000, received, if bytes = [] then rest else answers⟩
        else
          let left := if bytes.length ≤ remain then rest
            else .data (bytes.drop remain) :: rest
          if got.length < toInt remain then
            ⟨state.store got, toInt (received ++ got).length, received ++ got, left⟩
          else recvLoop rounds left memory (received ++ got) (state.store got)

def cacheTcpRecv (state : Buffered) (answers : List RecvAnswer) (memory : Nat) : Received :=
  recvLoop 100 answers memory [] state

/-- What `send` does: it takes some bytes, or fails with `EAGAIN` or another error. -/
inductive SendAnswer
  | sent (count : Nat)
  | again
  | error
  deriving DecidableEq, Repr

/-- The loop of `cache_tcp_send`: the bytes that are sent, and whether it ends with an error
other than `EAGAIN`. -/
def sendLoop : List TSkBuffer → List SendAnswer → List UInt8 × Bool
  | [], _ => ([], false)
  | _ :: _, [] => ([], false)
  | _ :: _, .again :: _ => ([], false)
  | _ :: _, .error :: _ => ([], true)
  | item :: rest, .sent count :: answers =>
    let sent := item.bytes.take count
    if sent.length < toInt item.dataLen then (sent, false)
    else
      let later := sendLoop rest answers
      (sent ++ later.1, later.2)

/-- The return value, and the bytes that are sent. -/
def cacheTcpSend (state : Buffered) (answers : List SendAnswer) :
    Buffered × Int × List UInt8 :=
  if !state.cache.pooled then (state, -1, [])
  else if state.cache.len = 0 then (state, 0, [])
  else
    let result := sendLoop state.cache.list answers
    (state.cacheSkipData (result.1.length % word), if result.2 then -2 else toInt result.1.length, result.1)

end Sockets

section Reads

/-- The loop of `read_cache_data`. -/
def readLoop : List TSkBuffer → Nat → List UInt8
  | [], _ => []
  | item :: rest, left =>
    let copyLen := if left ≤ item.dataLen then left else item.dataLen
    if left - copyLen = 0 then item.bytes.take copyLen
    else item.bytes.take copyLen ++ readLoop rest (left - copyLen)

/-- `read_cache_data` returns the number of these bytes. -/
def readCacheData (cache : TRWCache) (len : Nat) : List UInt8 := readLoop cache.list len

/-- The loop of `read_cache_begin`. -/
def beginLoop : List TSkBuffer → Nat → Nat → List UInt8
  | [], _, _ => []
  | item :: rest, pos, copyLeft =>
    let skipLen := if pos > item.dataLen then item.dataLen else pos
    let realLeft := item.dataLen - skipLen
    if realLeft = 0 then beginLoop rest (pos - skipLen) copyLeft
    else
      let copyLen := if copyLeft > realLeft then realLeft else copyLeft
      let out := (item.bytes.drop skipLen).take copyLen
      if copyLeft - copyLen = 0 then out
      else out ++ beginLoop rest (pos - skipLen) (copyLeft - copyLen)

/-- `read_cache_begin` returns the number of these bytes. -/
def readCacheBegin (cache : TRWCache) (start len : Nat) : List UInt8 :=
  if start ≥ cache.len then [] else beginLoop cache.list start len

end Reads

end Buffered

end FStack.Micro
