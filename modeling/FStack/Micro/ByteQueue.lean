import FStack.Micro.Cache

/-!
# The cache as a byte queue

The abstract queue is a list of bytes: what is taken from the front comes in the order in
which it was appended, and nothing is lost or made up. Every operation of the cache does to
its content what the queue does; `len` and `count` follow, and the data of every buffer stays
inside its allocation.
-/

namespace FStack.Micro

open CText List Steps TSkBuffer

namespace TSkBuffer

variable {buff : TSkBuffer}

/-- The header and the bytes have been allocated. -/
def Sized (size : Nat) : Prop := 56 + size ≤ blockSize size

/-- The data is inside the allocation. -/
structure Inside (buff : TSkBuffer) : Prop where
  bounded : buff.offset + buff.bytes.length ≤ buff.size
  sized : Sized buff.size

theorem sized_iff {size : Nat} : Sized size ↔ size + 63 < word := by
  unfold Sized blockSize word
  omega

theorem Inside.skip (inside : buff.Inside) (len : Nat) (short : len ≤ buff.bytes.length) :
    (buff.skip len).Inside := by
  refine ⟨?_, inside.sized⟩
  have bounded := inside.bounded
  simp only [TSkBuffer.skip, length_drop]
  omega

theorem Inside.extend (inside : buff.Inside) {data : List UInt8}
    (fits : data.length ≤ buff.remain) : (buff.extend data).Inside := by
  refine ⟨?_, inside.sized⟩
  have bounded := inside.bounded
  unfold remain dataLen at fits
  simp only [TSkBuffer.extend, length_append]
  omega

end TSkBuffer

namespace TSkBuffMng

variable {mng mng' : TSkBuffMng} {memory memory' : Nat} {buff : TSkBuffer}

/-- The buffers of the free list are empty. -/
structure Clean (mng : TSkBuffMng) : Prop where
  empty : ∀ buff ∈ mng.freeList, buff.offset = 0 ∧ buff.bytes = [] ∧ TSkBuffer.Sized buff.size
  sized : TSkBuffer.Sized mng.size

/-- A buffer from the pool is empty. -/
theorem Clean.alloc (clean : mng.Clean) (memory : Nat) :
    (mng.alloc memory).1.Clean ∧ ∀ buff, (mng.alloc memory).2.2 = some buff →
      buff.offset = 0 ∧ buff.bytes = [] ∧ TSkBuffer.Sized buff.size := by
  unfold TSkBuffMng.alloc
  split
  next item rest memory free =>
    refine ⟨⟨fun buff member => clean.empty buff (free ▸ mem_cons_of_mem _ member),
      clean.sized⟩, ?_⟩
    rintro buff ⟨⟩
    exact clean.empty _ (free ▸ mem_cons_self)
  next => exact ⟨clean, by rintro _ ⟨⟩⟩
  next =>
    refine ⟨clean, ?_⟩
    rintro buff ⟨⟩
    exact ⟨rfl, rfl, clean.sized⟩

theorem Clean.free (clean : mng.Clean) (sized : TSkBuffer.Sized buff.size) :
    (mng.free buff).Clean := by
  refine ⟨fun other member => ?_, clean.sized⟩
  rcases mem_append.mp member with old | new
  · exact clean.empty other old
  · rw [mem_singleton] at new
    subst new
    exact ⟨rfl, rfl, sized⟩

theorem Clean.freeAll (clean : mng.Clean) {buffs : List TSkBuffer}
    (sized : ∀ buff ∈ buffs, TSkBuffer.Sized buff.size) :
    (buffs.foldl TSkBuffMng.free mng).Clean := by
  induction buffs generalizing mng with
  | nil => exact clean
  | cons buff rest ih =>
    exact ih (clean.free (sized buff mem_cons_self)) fun other member =>
      sized other (mem_cons_of_mem _ member)

end TSkBuffMng

namespace Buffered

variable {state : Buffered} {list : List TSkBuffer} {left : Nat} {data : List UInt8}

/-- The content of buffers, in order. -/
def bytesOf (list : List TSkBuffer) : List UInt8 := list.flatMap (·.bytes)

@[simp] theorem bytesOf_nil : bytesOf [] = [] := rfl

@[simp] theorem bytesOf_cons (buff : TSkBuffer) (rest : List TSkBuffer) :
    bytesOf (buff :: rest) = buff.bytes ++ bytesOf rest := flatMap_cons

@[simp] theorem bytesOf_append (first second : List TSkBuffer) :
    bytesOf (first ++ second) = bytesOf first ++ bytesOf second := flatMap_append

def content (state : Buffered) : List UInt8 := bytesOf state.cache.list

section Front

/-- Bytes are taken from the front, and buffers that become empty are freed. -/
structure Taken (list : List TSkBuffer) (left : Nat) (copied : Copied) : Prop where
  out : copied.out = (bytesOf list).take left
  rest : bytesOf copied.list = (bytesOf list).drop left
  left : copied.left = left - (bytesOf list).length
  count : copied.list.length + copied.freed.length = list.length
  inside : (∀ buff ∈ list, buff.Inside) → ∀ buff ∈ copied.list, buff.Inside
  freed : ∀ buff ∈ copied.freed, ∃ old ∈ list, old.size = buff.size

/-- The loop copies from the front and drops what it has copied. -/
theorem copyLoop_taken (list : List TSkBuffer) (left : Nat) :
    Taken list left (copyLoop list left) := by
  induction list generalizing left with
  | nil =>
    exact ⟨by simp [copyLoop], by simp [copyLoop], by simp [copyLoop], rfl, fun inside => inside,
      by rintro _ ⟨⟩⟩
  | cons item rest ih =>
    unfold copyLoop
    rcases Nat.lt_or_ge left item.dataLen with part | whole
    · -- the first buffer keeps some of its data
      have some : 0 < (item.skip left).dataLen := by
        simp only [dataLen, skip, length_drop] at part ⊢
        omega
      rw [if_pos part, if_pos some]
      have short : left ≤ item.bytes.length := Nat.le_of_lt part
      refine ⟨?_, ?_, ?_, rfl, fun inside buff member => ?_, by rintro _ ⟨⟩⟩
      · rw [bytesOf_cons, take_append_of_le_length short]
      · rw [bytesOf_cons, bytesOf_cons, drop_append_of_le_length short]
        rfl
      · simp only [bytesOf_cons, length_append]
        omega
      · rcases mem_cons.mp member with rfl | later
        · exact (inside item mem_cons_self).skip left short
        · exact inside buff (mem_cons_of_mem _ later)
    · -- the first buffer becomes empty
      have all : ¬ item.dataLen > left := by omega
      have none : ¬ 0 < (item.skip item.dataLen).dataLen := by
        simp [dataLen, skip]
      rw [if_neg all, if_neg none]
      have out : item.bytes.take item.dataLen = item.bytes := take_length
      split_ifs with exact_
      · have same : left = item.bytes.length := by
          unfold dataLen at whole exact_
          omega
        refine ⟨?_, ?_, ?_, ?_, fun inside buff member =>
          inside buff (mem_cons_of_mem _ member), fun buff member => ?_⟩
        · rw [bytesOf_cons, same, take_left, out]
        · rw [bytesOf_cons, same, drop_left]
        · simp only [bytesOf_cons, length_append]
          omega
        · simp
        · rw [mem_singleton] at member
          exact ⟨item, mem_cons_self, by rw [member]; rfl⟩
      · have later := ih (left - item.dataLen)
        have split : left = item.bytes.length + (left - item.dataLen) := by
          unfold dataLen at whole ⊢
          omega
        refine ⟨?_, ?_, ?_, ?_, fun inside => later.inside fun buff member =>
          inside buff (mem_cons_of_mem _ member), fun buff member => ?_⟩
        · dsimp only
          rw [bytesOf_cons, later.out, out]
          conv_rhs => rw [split, take_length_add_append]
        · dsimp only
          rw [bytesOf_cons, later.rest]
          conv_rhs => rw [split, drop_length_add_append]
        · have := later.left
          simp only [bytesOf_cons, length_append] at *
          omega
        · have := later.count
          simp only [length_cons]
          omega
        · rcases mem_cons.mp member with rfl | old
          · exact ⟨item, mem_cons_self, rfl⟩
          · obtain ⟨other, there, same⟩ := later.freed buff old
            exact ⟨other, mem_cons_of_mem _ there, same⟩

end Front

section Sound

/-- `len` and `count` are those of the list, the data of every buffer is inside its
allocation, and the buffers of the pool are empty. -/
structure Sound (state : Buffered) : Prop where
  pooled : state.cache.pooled = true
  len : state.cache.len = state.content.length
  count : state.cache.count = state.cache.list.length
  inside : ∀ buff ∈ state.cache.list, buff.Inside
  clean : state.pool.Clean

variable {pool : TSkBuffMng}

theorem sound_of_bytes {cache : TRWCache} {bytes : List UInt8} (pooled : cache.pooled = true)
    (same : bytesOf cache.list = bytes) (len : cache.len = bytes.length)
    (count : cache.count = cache.list.length) (inside : ∀ buff ∈ cache.list, buff.Inside)
    (clean : pool.Clean) : Sound ⟨cache, pool⟩ :=
  ⟨pooled, len.trans (congrArg length same.symm), count, inside, clean⟩

/-- Copying out takes the front of the content. -/
theorem Sound.copyOut (sound : state.Sound) (len : Nat) :
    (state.cacheCopyOut len).1.Sound ∧
    (state.cacheCopyOut len).1.content = state.content.drop len ∧
    (state.cacheCopyOut len).2.1 = (state.cacheCopyOut len).2.2.length ∧
    (state.cacheCopyOut len).2.2 = state.content.take len := by
  have taken := copyLoop_taken state.cache.list len
  have counts := taken.count
  have left : (copyLoop state.cache.list len).left = len - state.content.length := taken.left
  unfold cacheCopyOut
  rw [if_neg (by simp [sound.pooled])]
  dsimp only
  refine ⟨⟨sound.pooled, ?_, ?_, taken.inside sound.inside, sound.clean.freeAll fun buff member => ?_⟩,
    taken.rest, ?_, taken.out⟩
  · have after : ∀ s : Buffered, s.cache.list = (copyLoop state.cache.list len).list →
        s.content.length = state.content.length - len := fun s same => by
      rw [content, same, taken.rest, length_drop]
      rfl
    rw [after _ rfl, sound.len]
    dsimp only
    split_ifs <;> omega
  · rw [sound.count]
    dsimp only
    omega
  · obtain ⟨old, there, same⟩ := taken.freed buff member
    exact same ▸ (sound.inside old there).sized
  · rw [taken.out, length_take]
    change _ = min len state.content.length
    omega

/-- The first buffer has the front of the content. -/
theorem Sound.skipFirstBuffer (sound : state.Sound) :
    state.cacheSkipFirstBuffer.1.Sound ∧
    state.content = ((state.cacheSkipFirstBuffer.2.map (·.bytes)).getD []) ++
      state.cacheSkipFirstBuffer.1.content := by
  have len := sound.len
  have count := sound.count
  have inside := sound.inside
  unfold cacheSkipFirstBuffer content at *
  cases buffers : state.cache.list with
  | nil =>
    rw [buffers]
    exact ⟨sound, rfl⟩
  | cons buff rest =>
    rw [buffers] at len count inside
    rw [bytesOf_cons, length_append] at len
    rw [length_cons] at count
    refine ⟨⟨sound.pooled, ?_, ?_, fun other member => inside other (mem_cons_of_mem _ member),
      sound.clean⟩, rfl⟩
    · unfold content dataLen
      dsimp only
      rw [if_pos (by omega)]
      omega
    · dsimp only
      omega

/-- A buffer that is appended brings its bytes to the end. -/
theorem Sound.appendBuffer (sound : state.Sound) {buff : TSkBuffer} (inside : buff.Inside)
    (small : state.content.length + buff.bytes.length < word)
    (few : state.cache.list.length + 1 < word) :
    (state.cacheAppendBuffer buff).Sound ∧
    (state.cacheAppendBuffer buff).content = state.content ++ buff.bytes := by
  have added : (state.cacheAppendBuffer buff).content = state.content ++ buff.bytes := by
    simp [content, cacheAppendBuffer]
  refine ⟨⟨sound.pooled, ?_, ?_, fun other member => ?_, sound.clean⟩, added⟩
  · rw [added, length_append]
    simp only [cacheAppendBuffer, sound.len]
    exact Nat.mod_eq_of_lt small
  · simp only [cacheAppendBuffer, sound.count, length_append]
    exact Nat.mod_eq_of_lt few
  · rcases mem_append.mp member with old | new
    · exact sound.inside other old
    · rw [mem_singleton] at new
      exact new ▸ inside

/-- Data that fits into the last buffer is put behind the others. -/
theorem extendLast_spec (inside : ∀ buff ∈ list, buff.Inside)
    (fits : data.length ≤ lastRemain list) :
    bytesOf (extendLast list data) = bytesOf list ++ data ∧
    (extendLast list data).length = list.length ∧
    ∀ buff ∈ extendLast list data, buff.Inside := by
  rcases list.eq_nil_or_concat' with rfl | ⟨first, tail, rfl⟩
  · have none : data = [] := length_eq_zero_iff.mp (Nat.le_zero.mp fits)
    rw [none]
    exact ⟨rfl, rfl, inside⟩
  · have room : data.length ≤ tail.remain := by
      simpa [lastRemain] using fits
    have same : extendLast (first ++ [tail]) data = first ++ [tail.extend data] := by
      simp [extendLast]
    rw [same]
    refine ⟨by simp [extend], by simp, fun buff member => ?_⟩
    rcases mem_append.mp member with old | new
    · exact inside buff (mem_append_left _ old)
    · rw [mem_singleton] at new
      exact new ▸ (inside tail (mem_append_right _ mem_cons_self)).extend room

/-- What fits into the last buffer is stored there. -/
theorem Sound.store (sound : state.Sound) (fits : data.length ≤ lastRemain state.cache.list)
    (small : state.content.length + data.length < word) :
    (state.store data).Sound ∧ (state.store data).content = state.content ++ data ∧
    (state.store data).cache.list.length = state.cache.list.length := by
  obtain ⟨bytes, length, inside⟩ := extendLast_spec sound.inside fits
  refine ⟨sound_of_bytes sound.pooled bytes ?_ (sound.count.trans length.symm) inside sound.clean,
    bytes, length⟩
  rw [sound.len, Nat.mod_eq_of_lt small, length_append]
  rfl

/-- The buffers that are filled have the data, one after the other. -/
theorem fillLoop_spec (fuel memory : Nat) (data : List UInt8) {keep : List TSkBuffer}
    (clean : pool.Clean) (inside : ∀ buff ∈ keep, buff.Inside) :
    (fillLoop fuel pool memory data keep).1.Clean ∧
    (∀ buff ∈ (fillLoop fuel pool memory data keep).2.1, buff.Inside) ∧
    ((fillLoop fuel pool memory data keep).2.2 = true →
      bytesOf (fillLoop fuel pool memory data keep).2.1 = bytesOf keep ++ data) := by
  induction fuel generalizing pool memory data keep with
  | zero => exact ⟨clean, inside, by rintro ⟨⟩⟩
  | succ fuel ih =>
    obtain ⟨clean', fresh⟩ := clean.alloc memory
    unfold fillLoop
    generalize pool.alloc memory = answer at clean' fresh
    obtain ⟨pool', memory', _ | item⟩ := answer
    · exact ⟨clean', inside, by rintro ⟨⟩⟩
    · obtain ⟨head, empty, sized⟩ := fresh item rfl
      -- a new buffer that is filled with data it has room for
      have filled {bytes : List UInt8} (fits : bytes.length ≤ item.size) :
          ∀ buff ∈ keep ++ [{ item with bytes := bytes }], buff.Inside := by
        intro buff member
        rcases mem_append.mp member with old | new
        · exact inside buff old
        · rw [mem_singleton] at new
          subst new
          exact ⟨by simp only [head]; omega, sized⟩
      dsimp only
      split_ifs with last
      · exact ⟨clean', filled last, fun _ => by simp⟩
      · have taken : (data.take item.size).length ≤ item.size := length_take_le ..
        obtain ⟨later, all, done⟩ := ih memory' (data.drop item.size) clean' (filled taken)
        refine ⟨later, all, fun ok => ?_⟩
        rw [done ok]
        simp

/-- An append puts all data behind the content, or fails and leaves it. -/
theorem Sound.appendData (sound : state.Sound) {memory : Nat}
    (small : state.content.length + data.length < 2147483648)
    (few : (state.cacheAppendData data memory).1.cache.list.length < word) :
    (state.cacheAppendData data memory).1.Sound ∧
    ((state.cacheAppendData data memory).2 = data.length ∧
        (state.cacheAppendData data memory).1.content = state.content ++ data ∨
      (state.cacheAppendData data memory).2 < 0 ∧
        (state.cacheAppendData data memory).1.content = state.content) := by
  have value : toInt data.length = data.length := toInt_small (by omega)
  have neg_two : (-2 : Int) < 0 := by decide
  have total : (state.cache.len + data.length) % word = (state.content ++ data).length := by
    rw [sound.len, length_append]
    exact Nat.mod_eq_of_lt (by unfold word; omega)
  revert few
  unfold cacheAppendData
  dsimp only
  rw [if_neg (by simp [sound.pooled])]
  split_ifs with nothing fits
  · intro _
    refine ⟨sound, .inl ⟨by simp [nothing], ?_⟩⟩
    rw [length_eq_zero_iff.mp nothing, append_nil]
  · intro _
    obtain ⟨stored, bytes, -⟩ := sound.store fits.2 (by unfold word; omega)
    refine ⟨stored, .inl ⟨?_, bytes⟩⟩
    rw [value]
  · obtain ⟨clean, all, done⟩ := fillLoop_spec (state.pool.freeList.length + memory + 1) memory
      (data.drop (lastRemain state.cache.list)) sound.clean (forall_mem_nil _)
    generalize fillLoop (state.pool.freeList.length + memory + 1) state.pool memory
      (data.drop (lastRemain state.cache.list)) [] = answer at clean all done
    obtain ⟨pool, keep, _ | _⟩ := answer
    · intro _
      exact ⟨⟨sound.pooled, sound.len, sound.count, sound.inside,
        clean.freeAll fun buff member => (all buff member).sized⟩, .inr ⟨neg_two, rfl⟩⟩
    · intro few
      obtain ⟨bytes, length, inside⟩ := extendLast_spec sound.inside
        (length_take_le (lastRemain state.cache.list) data)
      have added : bytesOf (extendLast state.cache.list (data.take (lastRemain state.cache.list)) ++
          keep) = state.content ++ data := by
        rw [bytesOf_append, bytes, done rfl, bytesOf_nil, nil_append, append_assoc,
          take_append_drop]
        rfl
      refine ⟨sound_of_bytes sound.pooled added total ?_ (fun buff member => ?_) clean,
        .inl ⟨?_, added⟩⟩
      · dsimp only at few ⊢
        rw [length_append, length] at few ⊢
        rw [sound.count]
        exact Nat.mod_eq_of_lt few
      · rcases mem_append.mp member with old | new
        · exact inside buff old
        · exact all buff new
      · rw [value]

end Sound

section Sockets

theorem Sound.setPool (sound : state.Sound) {pool : TSkBuffMng} (clean : pool.Clean) :
    Sound { state with pool } :=
  { sound with clean := clean }

/-- Making room does not change the content. -/
theorem Sound.ensureRoom (sound : state.Sound) (memory : Nat)
    (small : state.content.length < word) (few : state.cache.list.length + 1 < word) :
    (state.ensureRoom memory).1.Sound ∧ (state.ensureRoom memory).1.content = state.content ∧
    (state.ensureRoom memory).1.cache.list.length ≤ state.cache.list.length + 1 := by
  unfold Buffered.ensureRoom
  split_ifs with room unpooled
  · exact ⟨sound, rfl, Nat.le_succ _⟩
  · exact absurd unpooled (by simp [sound.pooled])
  · obtain ⟨clean, fresh⟩ := sound.clean.alloc memory
    generalize state.pool.alloc memory = answer at clean fresh
    obtain ⟨pool, memory', _ | item⟩ := answer
    · exact ⟨sound.setPool clean, rfl, Nat.le_succ _⟩
    · obtain ⟨head, empty, sized⟩ := fresh item rfl
      have inside : item.Inside := ⟨by simp [head, empty], sized⟩
      obtain ⟨kept, same⟩ := (sound.setPool clean).appendBuffer inside
        (by rw [empty]; exact small) few
      refine ⟨kept, ?_, ?_⟩
      · dsimp only
        rw [same, empty, append_nil]
        rfl
      · simp [cacheAppendBuffer]

/-- The bytes that are going to arrive. -/
def arriving (answers : List RecvAnswer) : List UInt8 :=
  answers.flatMap fun
    | .data bytes => bytes
    | .again | .error => []

@[simp] theorem arriving_data (bytes : List UInt8) (rest : List RecvAnswer) :
    arriving (.data bytes :: rest) = bytes ++ arriving rest := by
  simp [arriving]

/-- What has arrived is put behind the content. -/
structure Arrives (state : Buffered) (answers : List RecvAnswer) (before : List UInt8)
    (result : Received) : Prop where
  sound : result.state.Sound
  got : ∃ got, result.received = before ++ got ∧ result.state.content = state.content ++ got ∧
    arriving answers = got ++ arriving result.answers
  ret : result.ret < 0 ∨ result.ret = result.received.length

variable {answers : List RecvAnswer} {received : List UInt8} {rest : List RecvAnswer}

theorem Arrives.stop {ret : Int} (sound : state.Sound) (same : arriving answers = arriving rest)
    (value : ret < 0 ∨ ret = received.length) :
    Arrives state answers received ⟨state, ret, received, rest⟩ :=
  ⟨sound, ⟨[], (append_nil _).symm, (append_nil _).symm, same⟩, value⟩

theorem Arrives.more {state' : Buffered} {result : Received} (got : List UInt8)
    (content : state'.content = state.content ++ got)
    (arrived : arriving answers = got ++ arriving rest)
    (later : Arrives state' rest (received ++ got) result) :
    Arrives state answers received result := by
  obtain ⟨others, total, after, left⟩ := later.got
  refine ⟨later.sound, ⟨got ++ others, ?_, ?_, ?_⟩, later.ret⟩
  · rw [total, append_assoc]
  · rw [after, content, append_assoc]
  · rw [arrived, left, append_assoc]

/-- What the socket returns is appended, in order. -/
theorem recvLoop_arrives {rounds memory : Nat} (sound : state.Sound)
    (small : state.content.length + (arriving answers).length < 2147483648)
    (short : received.length + (arriving answers).length < 2147483648)
    (few : state.cache.list.length + rounds < word) :
    Arrives state answers received (recvLoop rounds answers memory received state) := by
  have value : toInt received.length = received.length := toInt_small (by omega)
  induction rounds generalizing state answers memory received with
  | zero => exact .stop sound rfl (.inr value)
  | succ rounds ih =>
    obtain ⟨kept, same, more⟩ := sound.ensureRoom memory (by unfold word; omega) (by omega)
    unfold recvLoop
    generalize state.ensureRoom memory = answer at kept same more
    obtain ⟨state', memory', ok⟩ := answer
    -- the state with room has the same content
    refine .more [] (same.trans (append_nil _).symm) rfl ?_
    rw [append_nil]
    cases ok with
    | false => exact .stop kept rfl (.inl (by decide))
    | true =>
      match answers with
      | [] => exact .stop kept rfl (.inr value)
      | .again :: rest => exact .stop kept rfl (.inr value)
      | .error :: rest => exact .stop kept rfl (.inl (by decide))
      | .data bytes :: rest =>
        dsimp only
        have taken := length_take_le' (lastRemain state'.cache.list) bytes
        rw [arriving_data, length_append] at small short
        by_cases none : bytes.take (lastRemain state'.cache.list) = []
        · rw [if_pos none]
          refine .stop kept ?_ (.inl (by decide))
          split_ifs with closed
          · rw [arriving_data, closed, nil_append]
          · rfl
        · rw [if_neg none]
          obtain ⟨stored, bytes', length⟩ := kept.store
            (length_take_le (lastRemain state'.cache.list) bytes)
            (by unfold word; rw [same]; omega)
          generalize gone : (if bytes.length ≤ lastRemain state'.cache.list then rest
            else .data (bytes.drop (lastRemain state'.cache.list)) :: rest) = left
          have arrived : arriving (.data bytes :: rest) =
              bytes.take (lastRemain state'.cache.list) ++ arriving left := by
            rw [← gone]
            split_ifs with whole
            · rw [arriving_data, take_of_length_le whole]
            · rw [arriving_data, arriving_data, ← append_assoc, take_append_drop]
          have lengths := congrArg List.length arrived
          rw [arriving_data, length_append, length_append] at lengths
          have total : (received ++ bytes.take (lastRemain state'.cache.list)).length +
              (arriving left).length < 2147483648 := by
            rw [length_append]
            omega
          refine .more _ bytes' arrived ?_
          split_ifs with partly
          · exact .stop stored rfl (.inr (toInt_small (by omega)))
          · refine ih stored ?_ total ?_ (toInt_small (by omega))
            · rw [bytes', length_append, same]
              omega
            · rw [length]
              omega

/-- The bytes that are sent are the first ones. -/
theorem sendLoop_prefix (list : List TSkBuffer) (answers : List SendAnswer)
    (small : (bytesOf list).length < 2147483648) : (sendLoop list answers).1 <+: bytesOf list := by
  induction list generalizing answers with
  | nil =>
    exact nil_prefix
  | cons item rest ih =>
    rw [bytesOf_cons] at small ⊢
    rw [length_append] at small
    match answers with
    | [] | .again :: _ | .error :: _ => exact nil_prefix
    | .sent count :: answers =>
      have value : toInt item.bytes.length = item.bytes.length := toInt_small (by omega)
      simp only [sendLoop, dataLen, value]
      split_ifs with part
      · exact ( take_prefix ..).trans (prefix_append ..)
      · have whole : item.bytes.take count = item.bytes := by
          rw [length_take] at part
          exact take_of_length_le (by omega)
        rw [whole]
        exact (prefix_append_right_inj _).mpr (ih answers (by omega))

/-- What the socket takes is removed from the front. -/
theorem Sound.tcpSend (sound : state.Sound) (answers : List SendAnswer)
    (small : state.content.length < 2147483648) :
    (state.cacheTcpSend answers).1.Sound ∧
    state.content = (state.cacheTcpSend answers).2.2 ++ (state.cacheTcpSend answers).1.content ∧
    ((state.cacheTcpSend answers).2.1 < 0 ∨
      (state.cacheTcpSend answers).2.1 = (state.cacheTcpSend answers).2.2.length) := by
  unfold cacheTcpSend
  rw [if_neg (by simp [sound.pooled])]
  split_ifs with empty
  · exact ⟨sound, rfl, .inr rfl⟩
  · have first := sendLoop_prefix state.cache.list answers small
    generalize sendLoop state.cache.list answers = result at first
    have short : result.1.length < 2147483648 := Nat.lt_of_le_of_lt first.length_le small
    obtain ⟨kept, rest, -, -⟩ := sound.copyOut result.1.length
    dsimp only
    rw [Nat.mod_eq_of_lt (Nat.lt_trans short (by decide))]
    have sent : result.1 = state.content.take result.1.length := prefix_iff_eq_take.mp first
    refine ⟨kept, ?_, ?_⟩
    · change state.content = result.1 ++ (state.cacheCopyOut result.1.length).1.content
      rw [rest]
      exact (take_append_drop result.1.length state.content).symm.trans
        (congrArg (· ++ state.content.drop result.1.length) sent.symm)
    · split_ifs
      · exact .inl (by decide)
      · right
        rw [toInt_small short]

end Sockets

section Reads

/-- The loop reads the front of the content. -/
theorem readLoop_eq (list : List TSkBuffer) (left : Nat) :
    readLoop list left = (bytesOf list).take left := by
  induction list generalizing left with
  | nil => simp [readLoop]
  | cons item rest ih =>
    unfold readLoop dataLen
    rw [bytesOf_cons]
    rcases Nat.lt_or_ge item.bytes.length left with more | inside
    · have copy : (if left ≤ item.bytes.length then left else item.bytes.length) =
          item.bytes.length := if_neg (by omega)
      rw [copy, if_neg (by omega), ih, take_length, take_append,
        take_of_length_le (Nat.le_of_lt more)]
    · rw [if_pos inside, if_pos (Nat.sub_self left), take_append_of_le_length inside]

/-- The loop reads from an offset on. -/
theorem beginLoop_eq (list : List TSkBuffer) (start len : Nat) :
    beginLoop list start len = ((bytesOf list).drop start).take len := by
  induction list generalizing start len with
  | nil => simp [beginLoop]
  | cons item rest ih =>
    unfold beginLoop dataLen
    rw [bytesOf_cons]
    rcases Nat.lt_or_ge start item.bytes.length with inside | behind
    · -- the slice begins in this buffer
      have skip : (if start > item.bytes.length then item.bytes.length else start) = start :=
        if_neg (by omega)
      rw [skip, if_neg (by omega), Nat.sub_self, drop_append_of_le_length (Nat.le_of_lt inside)]
      have length : (item.bytes.drop start).length = item.bytes.length - start := length_drop
      rcases Nat.lt_or_ge (item.bytes.length - start) len with more | enough
      · have whole {count : Nat} (long : item.bytes.length - start ≤ count) :
            (item.bytes.drop start).take count = item.bytes.drop start :=
          take_of_length_le (length ▸ long)
        rw [if_pos more, if_neg (by omega), ih, drop_zero, take_append, length,
          whole (Nat.le_refl _), whole (Nat.le_of_lt more)]
      · have copy : (if len > item.bytes.length - start then item.bytes.length - start else len) =
            len := if_neg (by omega)
        rw [copy, if_pos (Nat.sub_self len), take_append_of_le_length (by omega)]
    · -- it begins behind it
      have skip : (if start > item.bytes.length then item.bytes.length else start) =
          item.bytes.length := by
        split_ifs <;> omega
      rw [skip, if_pos (Nat.sub_self _), ih, drop_append, drop_of_length_le behind, nil_append]

/-- The reading functions return slices of the content. -/
theorem Sound.reads (sound : state.Sound) (start len : Nat) :
    readCacheData state.cache len = state.content.take len ∧
    readCacheBegin state.cache start len = (state.content.drop start).take len := by
  refine ⟨readLoop_eq .., ?_⟩
  unfold readCacheBegin
  split_ifs with behind
  · rw [sound.len] at behind
    rw [drop_of_length_le behind, take_nil]
  · exact beginLoop_eq ..

end Reads

section Runs

inductive Input
  | appendData (data : List UInt8) (memory : Nat)
  | appendBuffer (buff : TSkBuffer)
  | copyOut (len : Nat)
  | skipData (len : Nat)
  | skipFirstBuffer
  | tcpRecv (answers : List RecvAnswer) (memory : Nat)
  | tcpSend (answers : List SendAnswer)
  /-- Others use the pool. -/
  | usePool (pool : TSkBuffMng)

def step (state : Buffered) : Input → Buffered
  | .appendData data memory => (state.cacheAppendData data memory).1
  | .appendBuffer buff => state.cacheAppendBuffer buff
  | .copyOut len => (state.cacheCopyOut len).1
  | .skipData len => state.cacheSkipData len
  | .skipFirstBuffer => state.cacheSkipFirstBuffer.1
  | .tcpRecv answers memory => (state.cacheTcpRecv answers memory).state
  | .tcpSend answers => (state.cacheTcpSend answers).1
  | .usePool pool => { state with pool }

/-- What the queue has to do with each operation. -/
def Fifo (state : Buffered) : Input → Prop
  | .appendData data memory =>
    let result := state.cacheAppendData data memory
    result.2 = data.length ∧ result.1.content = state.content ++ data ∨
      result.2 < 0 ∧ result.1.content = state.content
  | .appendBuffer buff => (state.cacheAppendBuffer buff).content = state.content ++ buff.bytes
  | .copyOut len =>
    let result := state.cacheCopyOut len
    result.2.2 = state.content.take len ∧ result.2.1 = result.2.2.length ∧
      result.1.content = state.content.drop len
  | .skipData len => (state.cacheSkipData len).content = state.content.drop len
  | .skipFirstBuffer =>
    let result := state.cacheSkipFirstBuffer
    state.content = (result.2.map (·.bytes)).getD [] ++ result.1.content
  | .tcpRecv answers memory =>
    let result := state.cacheTcpRecv answers memory
    result.state.content = state.content ++ result.received ∧
      arriving answers = result.received ++ arriving result.answers ∧
      (result.ret < 0 ∨ result.ret = result.received.length)
  | .tcpSend answers =>
    let result := state.cacheTcpSend answers
    state.content = result.2.2 ++ result.1.content ∧
      (result.2.1 < 0 ∨ result.2.1 = result.2.2.length)
  | .usePool pool => ({ state with pool } : Buffered).content = state.content

/-- The bytes that an operation may put into the cache. -/
def offered : Input → Nat
  | .appendData data _ => data.length
  | .appendBuffer buff => buff.bytes.length
  | .tcpRecv answers _ => (arriving answers).length
  | _ => 0

/-- What is handed over is well formed. -/
def WellFormed : Input → Prop
  | .appendBuffer buff => buff.Inside
  | .usePool pool => pool.Clean
  | _ => True

/-- The buffers can be counted; `cache_tcp_recv` adds at most one in each of its 100 rounds. -/
def Countable (state : Buffered) : Input → Prop
  | .appendData data memory => (state.cacheAppendData data memory).1.cache.list.length < word
  | .appendBuffer _ => state.cache.list.length + 1 < word
  | .tcpRecv .. => state.cache.list.length + 100 < word
  | _ => True

/-- The content and what is offered are less than 2^31 bytes, and the buffers can be counted. -/
structure Small (state : Buffered) (input : Input) : Prop where
  wellFormed : WellFormed input
  bytes : state.content.length + offered input < 2147483648
  buffers : state.Countable input

/-- `len` and `count` are right, the data of every buffer is inside its allocation, and the
reading functions return slices of the content. -/
structure Faithful (state : Buffered) : Prop where
  len : state.cache.len = state.content.length
  count : state.cache.count = state.cache.list.length
  inside : ∀ buff ∈ state.cache.list, buff.Inside
  data : ∀ len, readCacheData state.cache len = state.content.take len
  slice : ∀ start len, readCacheBegin state.cache start len = (state.content.drop start).take len

theorem Sound.faithful (sound : state.Sound) : state.Faithful :=
  ⟨sound.len, sound.count, sound.inside, fun len => (sound.reads 0 len).1,
    fun start len => (sound.reads start len).2⟩

/-- Every call acts on the content as on a queue of bytes. -/
theorem Sound.step (sound : state.Sound) {input : Input} (small : state.Small input) :
    state.Fifo input ∧ (state.step input).Sound := by
  have bytes := small.bytes
  cases input with
  | appendData data memory =>
    obtain ⟨kept, done⟩ := sound.appendData bytes small.buffers
    exact ⟨done, kept⟩
  | appendBuffer buff =>
    have short : state.content.length + buff.bytes.length < word :=
      Nat.lt_trans bytes (by decide)
    obtain ⟨kept, done⟩ := sound.appendBuffer small.wellFormed short small.buffers
    exact ⟨done, kept⟩
  | copyOut len =>
    obtain ⟨kept, rest, count, out⟩ := sound.copyOut len
    exact ⟨⟨out, count, rest⟩, kept⟩
  | skipData len =>
    obtain ⟨kept, rest, -, -⟩ := sound.copyOut len
    exact ⟨rest, kept⟩
  | skipFirstBuffer =>
    obtain ⟨kept, done⟩ := sound.skipFirstBuffer
    exact ⟨done, kept⟩
  | tcpRecv answers memory =>
    have short : ([] : List UInt8).length + (arriving answers).length < 2147483648 := by
      have total : state.content.length + (arriving answers).length < 2147483648 := bytes
      rw [length_nil]
      omega
    have arrives : Arrives state answers [] (state.cacheTcpRecv answers memory) :=
      recvLoop_arrives sound bytes short small.buffers
    obtain ⟨got, received, content, stream⟩ := arrives.got
    rw [nil_append] at received
    rw [← received] at content stream
    exact ⟨⟨content, stream, arrives.ret⟩, arrives.sound⟩
  | tcpSend answers =>
    obtain ⟨kept, done⟩ := sound.tcpSend answers bytes
    exact ⟨done, kept⟩
  | usePool pool => exact ⟨rfl, sound.setPool small.wellFormed⟩

theorem sound_init {pool : TSkBuffMng} (clean : pool.Clean) : Sound ⟨rwCacheInit true, pool⟩ :=
  ⟨rfl, rfl, rfl, forall_mem_nil _, clean⟩

/-- As long as there are less than 2^31 bytes, the cache is a byte queue. -/
theorem fifo_of_small {pool : TSkBuffMng} (clean : pool.Clean) {inputs : List Input}
    (small : Along step Small ⟨rwCacheInit true, pool⟩ inputs) :
    Along step (fun state input => state.Fifo input ∧ (state.step input).Faithful)
      ⟨rwCacheInit true, pool⟩ inputs :=
  Along.imp Sound (fun _ _ sound here =>
    have next := sound.step here
    ⟨⟨next.1, next.2.faithful⟩, next.2⟩) (sound_init clean) small

/-- Data is appended and taken across buffers of four bytes; one append finds no memory. -/
def queueRun : List Input :=
  [.appendData [1, 2, 3, 4, 5, 6] 2, .copyOut 5, .appendData [7, 8, 9, 10] 0, .tcpSend [.sent 1],
    .tcpRecv [.data [11, 12, 13, 14, 15]] 1, .skipFirstBuffer]

/-- A run that fills and empties two buffers. -/
theorem fifo_queueRun :
    Along step Small ⟨rwCacheInit true, ⟨[], 4, 0⟩⟩ queueRun ∧
    Along step (fun state input => state.Fifo input ∧ (state.step input).Faithful)
      ⟨rwCacheInit true, ⟨[], 4, 0⟩⟩ queueRun := by
  have clean : TSkBuffMng.Clean ⟨[], 4, 0⟩ := ⟨forall_mem_nil _, sized_iff.mpr (by decide)⟩
  have small : Along step Small ⟨rwCacheInit true, ⟨[], 4, 0⟩⟩ queueRun := by
    refine ⟨⟨trivial, by decide, ?_⟩, ⟨trivial, by decide, trivial⟩, ⟨trivial, by decide, ?_⟩,
      ⟨trivial, by decide, trivial⟩, ⟨trivial, by decide, ?_⟩, ⟨trivial, by decide, trivial⟩,
      trivial⟩ <;>
    · unfold Countable
      decide
  exact ⟨small, fifo_of_small clean small⟩

/-- A buffer that is full. -/
def fullBuffer (size : Nat) : TSkBuffer := ⟨size, 0, replicate size 0⟩

/-- With two buffers of 2^31 bytes `len` is zero. -/
theorem not_faithful_full :
    (fullBuffer 2147483648).Inside ∧
    ¬ Along step (fun state input => state.Fifo input ∧ (state.step input).Faithful)
      ⟨rwCacheInit true, ⟨[], 65536, 0⟩⟩
      [.appendBuffer (fullBuffer 2147483648), .appendBuffer (fullBuffer 2147483648)] := by
  obtain ⟨size, half⟩ : ∃ size, size = 2147483648 := ⟨_, rfl⟩
  rw [← half]
  have length : (fullBuffer size).bytes.length = size := length_replicate
  refine ⟨⟨?_, sized_iff.mpr ?_⟩, ?_⟩
  · rw [length]
    exact Nat.le_of_eq (Nat.zero_add size)
  · change size + 63 < word
    unfold word
    omega
  · rintro ⟨-, ⟨-, faithful⟩, -⟩
    have len := faithful.len
    simp only [step, cacheAppendBuffer, content, bytesOf_append, bytesOf_cons, length_append, word] at len
    omega

end Runs

end Buffered

end FStack.Micro
