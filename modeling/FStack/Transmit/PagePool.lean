import FStack.Std.Steps
import Mathlib.Data.BitVec
import Mathlib.Tactic.NormNum

/-!
# The page pool

`ff_mmap_init` maps a region of memory, cuts it into pages and puts them on a stack, from which
`ff_mem_get_page` takes and to which `ff_mem_free_addr` returns them. A page that has been taken
is handed out until it is returned.
-/

namespace FStack.PagePool

open Function List Steps

/-- `PAGE_SIZE`. -/
def pageSize : Nat := 4096

/-- `StackList_t`. The length of `ele` is `size`. -/
structure StackList where
  ele : Nat → BitVec 64
  size : Int
  top : Nat

/-- `stklist_init`, where `posix_memalign` gives the memory for `ele`. -/
def stklistInit (ele : Nat → BitVec 64) (size : Int) (list : StackList) : StackList :=
  if size ≤ 0 then list else { ele := ele, size := size, top := 0 }

/-- `stklist_pop`; a null pointer is 0. -/
def stklistPop (list : StackList) : BitVec 64 × StackList :=
  if 0 < list.top then (list.ele (list.top - 1), { list with top := list.top - 1 }) else (0, list)

/-- `stklist_push`. -/
def stklistPush (val : BitVec 64) (list : StackList) : Int × StackList :=
  if list.top < list.size then
    (0, { list with ele := update list.ele list.top val, top := list.top + 1 })
  else (-1, list)

/-- `bsd_memsz`: the shift is done on an `int`. -/
def bsdMemsz (memSize : BitVec 32) : BitVec 64 := (memSize <<< 20).signExtend 64

/-- `bsd_pagesz`. -/
def bsdPagesz (memSize : BitVec 32) : BitVec 32 := (bsdMemsz memSize >>> 12).truncate 32

/-- A region that `mmap` has mapped: not empty, not at address 0, in the user's part of the
address space. -/
structure Region (bytes : Nat) where
  start : Nat
  positive : 0 < start
  nonempty : 0 < bytes
  user : start + bytes ≤ 0x800000000000

/-- The answers of the system to `ff_mmap_init`. -/
structure MmapAnswers where
  mmap : (bytes : Nat) → Option (Region bytes)
  mlock : Bool
  phyMemory : Bool
  eleMemory : Option (Nat → BitVec 64)
  virt2phy : BitVec 64 → Option (BitVec 64)

/-- `ff_mpage_ctl`, `ff_page_start`, `ff_page_end` and `ff_mpage_phy`. -/
structure Pool where
  mpageCtl : StackList
  pageStart : BitVec 64
  pageEnd : BitVec 64
  mpagePhy : Nat → BitVec 64

/-- `ff_page_start + PAGE_SIZE*i`: the product is an `int`. -/
def virtAddr (pageStart : BitVec 64) (i : Nat) : BitVec 64 :=
  pageStart + (BitVec.ofNat 32 (pageSize * i)).signExtend 64

/-- The body of the loop of `ff_mmap_init`; nothing is left where `rte_panic` ends the process. -/
def fillPage (virt2phy : BitVec 64 → Option (BitVec 64)) (pool : Pool) (i : Nat) : Option Pool :=
  let addr := virtAddr pool.pageStart i
  (virt2phy addr).map fun phys =>
    { pool with
      mpageCtl := (stklistPush addr pool.mpageCtl).2
      mpagePhy := update pool.mpagePhy i phys }

/-- The pool in front of the loop of `ff_mmap_init`. -/
def Pool.cut (memSize : BitVec 32) (start : Nat) (ele : Nat → BitVec 64) : Pool where
  mpageCtl := stklistInit ele (bsdPagesz memSize).toInt ⟨fun _ => 0, 0, 0⟩
  pageStart := BitVec.ofNat 64 start
  pageEnd := BitVec.ofNat 64 start + bsdMemsz memSize
  mpagePhy _ := 0

/-- `ff_mmap_init`. Where there is no memory for `ele`, the error of `stklist_init` is ignored
and the first push writes to a null pointer. -/
def ffMmapInit (memSize : BitVec 32) (answers : MmapAnswers) : Option Pool :=
  match answers.mmap (bsdMemsz memSize).toNat, answers.mlock, answers.phyMemory,
    answers.eleMemory with
  | some region, true, true, some ele =>
    (range (bsdPagesz memSize).toNat).foldlM (fillPage answers.virt2phy)
      (.cut memSize region.start ele)
  | _, _, _, _ => none

/-- `ff_mem_get_page`. -/
def ffMemGetPage (pool : Pool) : BitVec 64 × Pool :=
  let (page, list) := stklistPop pool.mpageCtl
  (page, { pool with mpageCtl := list })

/-- `ff_mem_free_addr`, with the result of the push, which it ignores. -/
def ffMemFreeAddr (p : BitVec 64) (pool : Pool) : Int × Pool :=
  let (ret, list) := stklistPush p pool.mpageCtl
  (ret, { pool with mpageCtl := list })

inductive PageOp where
  | getPage
  | freeAddr (p : BitVec 64)
deriving DecidableEq, Repr

/-- The pool, and the pages that are handed out. -/
structure PoolState where
  pool : Pool
  handedOut : List (BitVec 64)

def poolStep (state : PoolState) : PageOp → PoolState
  | .getPage =>
    { pool := (ffMemGetPage state.pool).2
      handedOut :=
        if (ffMemGetPage state.pool).1 = 0 then state.handedOut
        else (ffMemGetPage state.pool).1 :: state.handedOut }
  | .freeAddr p =>
    { pool := (ffMemFreeAddr p state.pool).2, handedOut := state.handedOut.erase p }

/-- Only pages that are handed out are returned. -/
def Returns (state : PoolState) : PageOp → Prop
  | .getPage => True
  | .freeAddr p => p ∈ state.handedOut

/-- The pages on the stack. -/
def StackList.pages (list : StackList) : List (BitVec 64) := (range list.top).map list.ele

/-- The address of page `i` of a region. -/
def pageAddr (start i : Nat) : BitVec 64 := BitVec.ofNat 64 (start + pageSize * i)

/-- The pages of a mapped region. -/
def Region.pages {bytes : Nat} (region : Region bytes) : List (BitVec 64) :=
  (range (bytes / pageSize)).map (pageAddr region.start)

/-- Every page is on the stack or handed out, and that once. -/
structure Conserved (pages : List (BitVec 64)) (state : PoolState) : Prop where
  disjoint : ∀ page ∈ state.pool.mpageCtl.pages, page ∉ state.handedOut
  exactly : ∀ page, page ∈ state.pool.mpageCtl.pages ∨ page ∈ state.handedOut ↔ page ∈ pages
  once : state.pool.mpageCtl.pages.Nodup ∧ state.handedOut.Nodup

/-- What a call answers: a page that is not handed out, or a null pointer if all of them are;
and a page that is returned finds room on the stack. -/
def Answers (pages : List (BitVec 64)) (state : PoolState) : PageOp → Prop
  | .getPage =>
    ((ffMemGetPage state.pool).1 ≠ 0 →
      (ffMemGetPage state.pool).1 ∈ pages ∧ (ffMemGetPage state.pool).1 ∉ state.handedOut) ∧
    ((ffMemGetPage state.pool).1 = 0 → ∀ page ∈ pages, page ∈ state.handedOut)
  | .freeAddr p => (ffMemFreeAddr p state.pool).1 = 0

/-- A word whose sign extension is not large is not negative. -/
theorem toNat_signExtend_of_small (word : BitVec 32)
    (small : (word.signExtend 64).toNat ≤ 0x800000000000) :
    (word.signExtend 64).toNat = word.toNat ∧ word.toNat < 0x80000000 := by
  have width : (word.setWidth 64).toNat = word.toNat := BitVec.toNat_setWidth_of_le (by decide)
  rw [BitVec.toNat_signExtend] at small ⊢
  cases sign : word.msb with
  | true =>
    rw [sign] at small
    norm_num at small
    omega
  | false =>
    rw [BitVec.msb_eq_decide, decide_eq_false_iff_not] at sign
    exact ⟨rfl, Nat.lt_of_not_le sign⟩

section Sizes

variable {memSize : BitVec 32} (region : Region (bsdMemsz memSize).toNat)

include region

/-- A region that could be mapped is so small that the shift has not reached the sign. -/
theorem Region.bounds :
    (bsdMemsz memSize).toNat < 0x80000000 ∧ (bsdMemsz memSize).toNat % pageSize = 0 := by
  obtain ⟨same, small⟩ := toNat_signExtend_of_small (memSize <<< 20)
    (Nat.le_trans (Nat.le_add_left _ _) region.user)
  rw [bsdMemsz, same]
  refine ⟨small, ?_⟩
  rw [BitVec.toNat_shiftLeft, pageSize]
  omega

/-- The count of pages does not overflow. -/
theorem Region.bsdPagesz_eq :
    (bsdPagesz memSize).toNat = (bsdMemsz memSize).toNat / pageSize ∧
      (bsdPagesz memSize).toInt = ((bsdMemsz memSize).toNat / pageSize : Nat) := by
  obtain ⟨small, -⟩ := region.bounds
  have count : (bsdPagesz memSize).toNat = (bsdMemsz memSize).toNat / pageSize := by
    rw [bsdPagesz, BitVec.toNat_setWidth, BitVec.toNat_ushiftRight, pageSize]
    omega
  refine ⟨count, ?_⟩
  rw [BitVec.toInt_eq_toNat_of_lt, count]
  rw [count, pageSize]
  omega

/-- The address of a page does not overflow. -/
theorem Region.virtAddr_eq {i : Nat} (inside : i < (bsdMemsz memSize).toNat / pageSize) :
    virtAddr (BitVec.ofNat 64 region.start) i = pageAddr region.start i := by
  obtain ⟨small, -⟩ := region.bounds
  have below : pageSize * i < 0x80000000 := by
    rw [pageSize] at inside ⊢
    omega
  have word : (BitVec.ofNat 32 (pageSize * i)).toNat = pageSize * i := by
    rw [BitVec.toNat_ofNat, Nat.mod_eq_of_lt (by omega)]
  have positive : (BitVec.ofNat 32 (pageSize * i)).msb = false := by
    rw [BitVec.msb_eq_decide]
    exact decide_eq_false (by omega)
  have extended : (BitVec.ofNat 32 (pageSize * i)).signExtend 64 = BitVec.ofNat 64 (pageSize * i) := by
    refine BitVec.eq_of_toNat_eq ?_
    rw [BitVec.signExtend_eq_setWidth_of_msb_false positive, BitVec.toNat_setWidth, word,
      BitVec.toNat_ofNat]
  rw [virtAddr, extended, pageAddr, BitVec.ofNat_add]

end Sizes

/-! ## The initial fill -/

/-- The pool after `filled` rounds of the loop. -/
structure Filled (start count : Nat) (virt2phy : BitVec 64 → Option (BitVec 64)) (filled : Nat)
    (pool : Pool) : Prop where
  pageStart : pool.pageStart = BitVec.ofNat 64 start
  size : pool.mpageCtl.size = count
  top : pool.mpageCtl.top = filled
  ele : ∀ i < filled, pool.mpageCtl.ele i = pageAddr start i
  phy : ∀ i < filled, virt2phy (pageAddr start i) = some (pool.mpagePhy i)

variable {pool : Pool} {virt2phy : BitVec 64 → Option (BitVec 64)}

/-- One round of the loop files one page. -/
theorem Filled.fillPage {start count filled : Nat} {pool' : Pool}
    (before : Filled start count virt2phy filled pool) (room : filled < count)
    (addr : virtAddr (BitVec.ofNat 64 start) filled = pageAddr start filled)
    (done : fillPage virt2phy pool filled = some pool') :
    Filled start count virt2phy (filled + 1) pool' ∧ pool'.pageEnd = pool.pageEnd := by
  unfold PagePool.fillPage at done
  rw [before.pageStart, addr] at done
  obtain ⟨phys, found, rfl⟩ := Option.map_eq_some_iff.mp done
  have pushed : (pool.mpageCtl.top : Int) < pool.mpageCtl.size := by
    rw [before.top, before.size]
    exact Int.ofNat_lt.mpr room
  refine ⟨⟨rfl, ?_, ?_, fun i below => ?_, fun i below => ?_⟩, rfl⟩
  · rw [stklistPush, if_pos pushed]
    exact before.size
  · rw [stklistPush, if_pos pushed]
    exact congrArg (· + 1) before.top
  · rw [stklistPush, if_pos pushed]
    dsimp only
    rw [before.top]
    rcases Nat.lt_succ_iff_lt_or_eq.mp below with earlier | rfl
    · rw [update_of_ne (by omega), before.ele i earlier]
    · rw [update_self]
  · dsimp only
    rcases Nat.lt_succ_iff_lt_or_eq.mp below with earlier | rfl
    · rw [update_of_ne (by omega), before.phy i earlier]
    · rw [update_self, found]

/-- After some rounds, the first pages are filed. -/
theorem Filled.foldlM {start count : Nat} (before : Filled start count virt2phy 0 pool)
    (addr : ∀ i < count, virtAddr (BitVec.ofNat 64 start) i = pageAddr start i) {rounds : Nat}
    (bounded : rounds ≤ count) {pool' : Pool}
    (done : (range rounds).foldlM (PagePool.fillPage virt2phy) pool = some pool') :
    Filled start count virt2phy rounds pool' ∧ pool'.pageEnd = pool.pageEnd := by
  induction rounds generalizing pool' with
  | zero =>
    cases done
    exact ⟨before, rfl⟩
  | succ rounds ih =>
    rw [range_succ, foldlM_append] at done
    obtain ⟨middle, first, last⟩ := Option.bind_eq_some_iff.mp done
    obtain ⟨filled, sameEnd⟩ := ih (by omega) first
    obtain ⟨after, step, ended⟩ := Option.bind_eq_some_iff.mp last
    cases ended
    obtain ⟨next, kept⟩ := filled.fillPage (by omega) (addr rounds (by omega)) step
    exact ⟨next, kept.trans sameEnd⟩

/-- What `ff_mmap_init` leaves behind: all pages of the region on the stack, in order. -/
theorem ffMmapInit_filled {memSize : BitVec 32} {answers : MmapAnswers}
    (done : ffMmapInit memSize answers = some pool) :
    ∃ region, answers.mmap (bsdMemsz memSize).toNat = some region ∧
      Filled region.start ((bsdMemsz memSize).toNat / pageSize) answers.virt2phy
        ((bsdMemsz memSize).toNat / pageSize) pool ∧
      pool.pageEnd = BitVec.ofNat 64 region.start + bsdMemsz memSize := by
  unfold ffMmapInit at done
  split at done
  case h_2 => cases done
  case h_1 region ele mapped _ _ _ =>
    refine ⟨region, mapped, ?_⟩
    obtain ⟨count, size⟩ := region.bsdPagesz_eq
    have some_page : 0 < (bsdMemsz memSize).toNat / pageSize := by
      have whole := region.bounds.2
      have nonempty := region.nonempty
      rw [pageSize] at whole ⊢
      omega
    have start : Filled region.start ((bsdMemsz memSize).toNat / pageSize) answers.virt2phy 0
        (.cut memSize region.start ele) := by
      have cut : stklistInit ele (bsdPagesz memSize).toInt ⟨fun _ => 0, 0, 0⟩ =
          ⟨ele, (bsdPagesz memSize).toInt, 0⟩ := if_neg (by omega)
      refine ⟨rfl, ?_, ?_, fun _ below => absurd below (Nat.not_lt_zero _),
        fun _ below => absurd below (Nat.not_lt_zero _)⟩
      · rw [Pool.cut, cut, size]
      · rw [Pool.cut, cut]
    rw [count] at done
    exact start.foldlM (fun i inside => region.virtAddr_eq inside) (Nat.le_refl _) done

/-! ## Runs -/

section Runs

variable {pages : List (BitVec 64)} {state : PoolState}

/-- What the calls keep. -/
structure Kept (pages : List (BitVec 64)) (state : PoolState) : Prop where
  distinct : pages.Nodup
  nonzero : 0 ∉ pages
  size : state.pool.mpageCtl.size = pages.length
  whole : (state.pool.mpageCtl.pages ++ state.handedOut).Perm pages

theorem StackList.pages_succ (list : StackList) {top : Nat} (some_page : list.top = top + 1) :
    list.pages = ({ list with top := top } : StackList).pages ++ [list.ele top] := by
  rw [pages, some_page, range_succ, map_append]
  rfl

theorem StackList.pages_push (list : StackList) (val : BitVec 64) :
    (StackList.mk (update list.ele list.top val) list.size (list.top + 1)).pages =
      list.pages ++ [val] := by
  rw [pages, range_succ, map_append, map_singleton]
  dsimp only
  rw [update_self]
  congr 1
  refine map_congr_left fun i below => update_of_ne ?_ _ _
  exact Nat.ne_of_lt (mem_range.mp below)

/-- What `ff_mem_get_page` does: the last page of the stack is taken, if there is one. -/
theorem ffMemGetPage_cases (pool : Pool) :
    (∃ rest, pool.mpageCtl.pages = rest ++ [(ffMemGetPage pool).1] ∧
      (ffMemGetPage pool).2.mpageCtl.pages = rest ∧
      (ffMemGetPage pool).2.mpageCtl.size = pool.mpageCtl.size) ∨
    pool.mpageCtl.pages = [] ∧ ffMemGetPage pool = (0, pool) := by
  unfold ffMemGetPage stklistPop
  rcases Nat.eq_zero_or_pos pool.mpageCtl.top with none_left | some_left
  · right
    rw [if_neg (by omega)]
    exact ⟨by rw [StackList.pages, none_left]; rfl, rfl⟩
  · left
    rw [if_pos some_left]
    refine ⟨_, ?_, rfl, rfl⟩
    obtain ⟨top, some_page⟩ := Nat.exists_eq_add_of_le' some_left
    rw [pool.mpageCtl.pages_succ some_page, some_page]
    rfl

section

variable (kept : Kept pages state)

include kept

theorem Kept.mem_iff (page : BitVec 64) :
    page ∈ state.pool.mpageCtl.pages ∨ page ∈ state.handedOut ↔ page ∈ pages := by
  rw [← mem_append, kept.whole.mem_iff]

theorem Kept.conserved : Conserved pages state := by
  have distinct := kept.whole.nodup_iff.mpr kept.distinct
  exact ⟨fun page free handed => disjoint_of_nodup_append distinct free handed, kept.mem_iff,
    distinct.of_append_left, distinct.of_append_right⟩

/-- Taking a page gives one that is not handed out, if there is one. -/
theorem Kept.getPage : Answers pages state .getPage ∧ Kept pages (poolStep state .getPage) := by
  rcases ffMemGetPage_cases state.pool with ⟨rest, stack, after, size⟩ | ⟨empty, same⟩
  · have free : (ffMemGetPage state.pool).1 ∈ state.pool.mpageCtl.pages := by
      rw [stack]
      exact mem_append_right rest (mem_singleton_self _)
    have member := (kept.mem_iff _).mp (.inl free)
    have nonnull : (ffMemGetPage state.pool).1 ≠ 0 := fun null => kept.nonzero (null ▸ member)
    refine ⟨⟨fun _ => ⟨member, kept.conserved.disjoint _ free⟩, fun null => absurd null nonnull⟩,
      kept.distinct, kept.nonzero, size.trans kept.size, ?_⟩
    have whole := kept.whole
    rw [stack, append_assoc] at whole
    dsimp only [poolStep]
    rwa [if_neg nonnull, after]
  · refine ⟨⟨fun page => absurd (congrArg Prod.fst same) page, fun _ page member => ?_⟩, ?_⟩
    · exact ((kept.mem_iff page).mpr member).resolve_left (by simp [empty])
    · have unchanged : poolStep state .getPage = state := by
        dsimp only [poolStep]
        rw [same, if_pos rfl]
      rwa [unchanged]

/-- A page that is given back can be taken again. -/
theorem Kept.freeAddr {p : BitVec 64} (handed : p ∈ state.handedOut) :
    Answers pages state (.freeAddr p) ∧ Kept pages (poolStep state (.freeAddr p)) := by
  have room : (state.pool.mpageCtl.top : Int) < state.pool.mpageCtl.size := by
    have lengths := kept.whole.length_eq
    rw [length_append, StackList.pages, length_map, length_range] at lengths
    have some_page := length_pos_of_mem handed
    rw [kept.size]
    omega
  have pushed : ffMemFreeAddr p state.pool = (0, { state.pool with mpageCtl :=
      ⟨update state.pool.mpageCtl.ele state.pool.mpageCtl.top p, state.pool.mpageCtl.size,
        state.pool.mpageCtl.top + 1⟩ }) := by
    rw [ffMemFreeAddr, stklistPush, if_pos room]
  refine ⟨congrArg Prod.fst pushed, kept.distinct, kept.nonzero, ?_, ?_⟩
  · change (ffMemFreeAddr p state.pool).2.mpageCtl.size = _
    rw [pushed]
    exact kept.size
  · change ((ffMemFreeAddr p state.pool).2.mpageCtl.pages ++ state.handedOut.erase p).Perm _
    rw [pushed, StackList.pages_push, append_assoc]
    exact ((perm_cons_erase handed).symm.append_left _).trans kept.whole

theorem Kept.poolStep (op : PageOp) (returns : Returns state op) :
    (Conserved pages state ∧ Answers pages state op) ∧ Kept pages (poolStep state op) := by
  cases op with
  | getPage => exact ⟨⟨kept.conserved, kept.getPage.1⟩, kept.getPage.2⟩
  | freeAddr p => exact ⟨⟨kept.conserved, (kept.freeAddr returns).1⟩, (kept.freeAddr returns).2⟩

end

/-- The pages of a region are different addresses, none of them null. -/
theorem Region.distinct_pages {bytes : Nat} (region : Region bytes) :
    region.pages.Nodup ∧ 0 ∉ region.pages := by
  have user := region.user
  have inside {i : Nat} (below : i < bytes / pageSize) : region.start + pageSize * i < 2 ^ 64 := by
    rw [pageSize] at below ⊢
    omega
  constructor
  · refine Nodup.map_on (fun i first j second same => ?_) nodup_range
    have numbers := congrArg BitVec.toNat same
    rw [pageAddr, pageAddr, BitVec.toNat_ofNat, BitVec.toNat_ofNat,
      Nat.mod_eq_of_lt (inside (mem_range.mp first)),
      Nat.mod_eq_of_lt (inside (mem_range.mp second)), pageSize] at numbers
    omega
  · intro null
    obtain ⟨i, below, zero⟩ := mem_map.mp null
    have number := congrArg BitVec.toNat zero
    rw [pageAddr, BitVec.toNat_ofNat, Nat.mod_eq_of_lt (inside (mem_range.mp below))] at number
    have positive := region.positive
    have zero : (0 : BitVec 64).toNat = 0 := rfl
    omega

/-- After initialisation, all pages of the region are in the pool. -/
theorem kept_of_init {memSize : BitVec 32} {answers : MmapAnswers} {pool : Pool}
    (done : ffMmapInit memSize answers = some pool) :
    ∃ region, answers.mmap (bsdMemsz memSize).toNat = some region ∧
      Kept region.pages { pool := pool, handedOut := [] } := by
  obtain ⟨region, mapped, filled, -⟩ := ffMmapInit_filled done
  obtain ⟨distinct, nonzero⟩ := region.distinct_pages
  have stack : pool.mpageCtl.pages = region.pages := by
    rw [StackList.pages, filled.top]
    exact map_congr_left fun i below => filled.ele i (mem_range.mp below)
  refine ⟨region, mapped, distinct, nonzero, ?_, ?_⟩
  · rw [filled.size, Region.pages, length_map, length_range]
  · rw [append_nil, stack]

end Runs

/-- After `ff_mmap_init`, for every sequence of calls that returns only pages that are handed
out: at every call and at the end each page of the region is on the stack or handed out, once;
a page that is given out was not handed out; there is no page to give out only if all of them
are handed out; and every page that is returned is put on the stack. -/
theorem conserved_of_returns (memSize : BitVec 32) (answers : MmapAnswers) (pool : Pool)
    (done : ffMmapInit memSize answers = some pool) (ops : List PageOp)
    (returns : Along poolStep Returns { pool := pool, handedOut := [] } ops) :
    ∃ region, answers.mmap (bsdMemsz memSize).toNat = some region ∧
      Along poolStep (fun state op => Conserved region.pages state ∧ Answers region.pages state op)
        { pool := pool, handedOut := [] } ops ∧
      Conserved region.pages (ops.foldl poolStep { pool := pool, handedOut := [] }) := by
  obtain ⟨region, mapped, kept⟩ := kept_of_init done
  refine ⟨region, mapped, ?_, ?_⟩
  · exact returns.imp (Kept region.pages) (fun _ op kept here => kept.poolStep op here) kept
  · exact (returns.last (Kept region.pages) (fun _ op kept here => (kept.poolStep op here).2)
      kept).conserved

/-- A system that maps regions at 256 MB and grants every request. -/
def plainAnswers : MmapAnswers where
  mmap bytes :=
    if fits : 0 < bytes ∧ 0x10000000 + bytes ≤ 0x800000000000 then
      some ⟨0x10000000, Nat.succ_pos _, fits.1, fits.2⟩
    else none
  mlock := true
  phyMemory := true
  eleMemory := some fun _ => 0
  virt2phy addr := some addr

/-- The last page of a region of one megabyte is taken and returned. -/
theorem conserved_lastPage :
    ∃ pool, ffMmapInit 1 plainAnswers = some pool ∧ ∃ region,
      plainAnswers.mmap (bsdMemsz 1).toNat = some region ∧
      Conserved region.pages
        ([.getPage, .freeAddr 0x100FF000].foldl poolStep { pool := pool, handedOut := [] }) := by
  have first : (ffMmapInit 1 plainAnswers).map (fun pool => (ffMemGetPage pool).1) =
      some 0x100FF000 := by decide +kernel
  obtain ⟨pool, done, page⟩ := Option.map_eq_some_iff.mp first
  have handed : (poolStep { pool := pool, handedOut := [] } .getPage).handedOut =
      [0x100FF000] := by
    dsimp only [poolStep]
    rw [page, if_neg (by decide)]
  obtain ⟨region, mapped, -, conserved⟩ :=
    conserved_of_returns 1 plainAnswers pool done [.getPage, .freeAddr 0x100FF000]
      ⟨trivial, by rw [Returns, handed]; exact mem_singleton_self _, trivial⟩
  exact ⟨pool, done, region, mapped, conserved⟩

end FStack.PagePool
