import FStack.Micro.Registration

/-!
# Every handler in its list, every link in its destination

A step changes one link and the handlers that are linked to it. It keeps the lists of that link in
order, and those of the others do not have the handlers it moves. A link is in the list of the
`CDestLinks` that it points to, and in the pool when it points to none.

Only links in use are notified if no entry of the proxy keeps a link that has been closed. When
`KqueueDelObj` is refused, the entry of the descriptor still names the link in the pool.
-/

namespace FStack.Micro

open CSockLink Equiv Function List Maps Option Steps

/-- The list of a destination, its counter and its bound. -/
structure CDestLinks.Counted (dest : CDestLinks) : Prop where
  nodup : dest.sockList.Nodup
  counted : dest.currLink = dest.sockList.length
  bounded : dest.sockList.length ≤ dest.maxLinks
  room : 0 < dest.maxLinks

namespace CDestLinks.Counted

variable {dest : CDestLinks} {i : Nat}

theorem new : CDestLinks.new.Counted := ⟨nodup_nil, rfl, by decide, by decide⟩

variable (counted : dest.Counted)

include counted

theorem enter (absent : i ∉ dest.sockList) (less : dest.currLink < dest.maxLinks) :
    Counted { dest with sockList := dest.sockList ++ [i], currLink := dest.currLink + 1 } where
  nodup := concat_eq_append ▸ counted.nodup.concat absent
  counted := by rw [length_append, counted.counted]; rfl
  bounded := by
    rw [length_append, ← counted.counted]
    exact less
  room := counted.room

theorem erase (member : i ∈ dest.sockList) :
    Counted { dest with sockList := dest.sockList.erase i, currLink := dest.currLink - 1 } where
  nodup := counted.nodup.erase i
  counted := by rw [length_erase_of_mem member, counted.counted]
  bounded := length_erase_le.trans counted.bounded
  room := counted.room

theorem rotate {rest : List Nat} (first : dest.sockList = i :: rest) :
    Counted { dest with sockList := rest ++ [i] } := by
  obtain ⟨nodup, length, bounded, room⟩ := counted
  rw [first] at nodup length bounded
  rw [nodup_cons] at nodup
  exact ⟨concat_eq_append ▸ nodup.2.concat nodup.1, by rw [length_append]; exact length,
    by rw [length_append]; exact bounded, room⟩

end CDestLinks.Counted

namespace CNetMgr

variable {net : CNetMgr} {i h : Nat} {link : CSockLink} {accepts : Change → Bool}

section Handlers

theorem conns_of_here (here : net.away i h = false) :
    net.conns h = none ∨ net.conns h = some i := by
  unfold away at here
  cases conn : net.conns h with
  | none => exact .inl rfl
  | some j =>
    rw [conn] at here
    exact .inr (congrArg some (by simpa using here))

theorem conns_of_away (away : net.away i h = true) : ∃ j, net.conns h = some j ∧ j ≠ i := by
  unfold CNetMgr.away at away
  cases conn : net.conns h with
  | none => rw [conn] at away; cases away
  | some j =>
    rw [conn] at away
    exact ⟨j, rfl, by simpa using away⟩

theorem view_away (away : net.away i h = true) : (net.view i).handlers h =
    { net.handlers h with conn := false, stateFlags := fun _ => false } := if_pos away

theorem view_here (here : net.away i h = false) :
    (net.view i).handlers h = net.handlers h := if_neg (by rw [here]; decide)

theorem view_phase (net : CNetMgr) (i h : Nat) :
    ((net.view i).handlers h).phase = (net.handlers h).phase := by
  unfold view
  dsimp only
  split_ifs <;> rfl

section

variable (link : CSockLink)

theorem store_away (away : net.away i h = true) :
    (net.store i link).handlers h = net.handlers h ∧
    (net.store i link).conns h = net.conns h := ⟨if_pos away, if_pos away⟩

theorem store_here (here : net.away i h = false) :
    (net.store i link).handlers h = link.handlers h ∧
    (net.store i link).conns h = if (link.handlers h).conn then some i else none :=
  ⟨if_neg (by rw [here]; decide), if_neg (by rw [here]; decide)⟩

theorem store_links_self : (net.store i link).links i = link :=
  update_self ..

theorem store_links_of_ne {j : Nat} (different : j ≠ i) :
    (net.store i link).links j = net.links j := update_of_ne different ..

end

/-- The handlers of all links are in the lists of their flags. -/
structure Linked (net : CNetMgr) : Prop where
  nodup : ∀ i type, ((net.links i).lists type).Nodup
  listed : ∀ i h type, h ∈ (net.links i).lists type ↔
    net.conns h = some i ∧ (net.handlers h).stateFlags type = true
  single : ∀ h type other, (net.handlers h).stateFlags type = true →
    (net.handlers h).stateFlags other = true → type = other
  flagged : ∀ h type, (net.handlers h).stateFlags type = true → (net.handlers h).conn = true
  linked : ∀ h, (net.handlers h).conn = (net.conns h).isSome
  settled : ∀ h, CSockLink.Settled (net.handlers h)
  last : ∀ h i, net.conns h = some i → net.last h = i
  kept : ∀ h i, net.conns h = some i → net.parents i ≠ none

namespace Linked

variable (linked : net.Linked)

include linked

theorem conns_of_conn (conn : (net.handlers h).conn = true) : ∃ i, net.conns h = some i := by
  rw [linked.linked] at conn
  exact isSome_iff_exists.mp conn

theorem conns_of_view (conn : ((net.view i).handlers h).conn = true) : net.conns h = some i := by
  cases place : net.away i h with
  | true => rw [view_away place] at conn; cases conn
  | false =>
    rw [view_here place, linked.linked] at conn
    rcases conns_of_here place with none | here
    · rw [none] at conn; cases conn
    · exact here

/-- Each link, seen alone, is steady. -/
theorem view (i : Nat) : (net.view i).Steady := by
  refine ⟨⟨linked.nodup i, fun h type => ?_, fun h => ?_, fun h => ?_⟩, fun h => ?_⟩
  all_goals rcases Bool.eq_false_or_eq_true (net.away i h) with place | place
  all_goals first | rw [view_away place] | rw [view_here place]
  · refine (linked.listed i h type).trans (iff_of_false ?_ (by rintro ⟨⟩))
    rintro ⟨here, -⟩
    obtain ⟨j, there, other⟩ := conns_of_away place
    exact other (some.inj (there.symm.trans here))
  · refine (linked.listed i h type).trans (and_iff_right_of_imp fun flag => ?_)
    obtain ⟨j, conn⟩ := linked.conns_of_conn (linked.flagged h type flag)
    exact (conns_of_here place).resolve_left (by rw [conn]; rintro ⟨⟩)
  · rintro _ _ ⟨⟩
  · exact linked.single h
  · rintro _ ⟨⟩
  · exact linked.flagged h
  · exact (rests_of_alone rfl rfl).settled
  · exact linked.settled h

end Linked

/-- What a step may do to a link: handlers of other links are not changed, and those that are
linked to it may be. -/
structure Acts (net : CNetMgr) (i : Nat) (link : CSockLink) : Prop where
  steady : link.Steady
  others : ∀ h, net.away i h = true → link.handlers h = (net.view i).handlers h
  linked : ∀ h, (link.handlers h).conn = true → net.parents i ≠ none ∧ net.last h = i

theorem Linked.acts_within (linked : net.Linked)
    (within : CSockLink.Within (net.view i) link) : net.Acts i link := by
  refine ⟨within.steady (linked.view i), fun h away => within.others h ?_, fun h conn => ?_⟩
  · rw [view_away away]
  · have conns := linked.conns_of_view (linked_of_others (within.others h) conn)
    exact ⟨linked.kept h i conns, linked.last h i conns⟩

/-- A step of the thread of a handler, at the link that it has or had last. -/
theorem Linked.acts (linked : net.Linked) (last : net.last h = i) (steady : link.Steady)
    (others : ∀ other, other ≠ h → ((net.view i).handlers other).conn = false →
      link.handlers other = (net.view i).handlers other)
    (kept : (link.handlers h).conn = true → net.parents i ≠ none) : net.Acts i link := by
  refine ⟨steady, fun other away => others other ?_ (by rw [view_away away]), fun other conn => ?_⟩
  · rintro rfl
    obtain ⟨j, there, different⟩ := conns_of_away away
    exact different ((linked.last other j there).symm.trans last)
  · rcases eq_or_ne other h with rfl | different
    · exact ⟨kept conn, last⟩
    · have conns := linked.conns_of_view
        (linked_of_others (others other different) conn)
      exact ⟨linked.kept other i conns, linked.last other i conns⟩

/-- What one link does is seen by its own handlers only. -/
theorem Linked.store (linked : net.Linked) (acts : net.Acts i link) :
    (net.store i link).Linked := by
  have here {h : Nat} (place : net.away i h = false) := store_here link place
  have away {h : Nat} (place : net.away i h = true) := store_away link place
  refine ⟨fun j type => ?_, fun j h type => ?_, fun h => ?_, fun h => ?_, fun h => ?_, fun h => ?_,
    fun h j => ?_, fun h j => ?_⟩
  · rcases eq_or_ne j i with rfl | different
    · rw [store_links_self]
      exact acts.steady.tidy.nodup type
    · rw [store_links_of_ne link different]
      exact linked.nodup j type
  all_goals rcases Bool.eq_false_or_eq_true (net.away i h) with place | place
  all_goals first | rw [(away place).1] | rw [(here place).1] | skip
  all_goals first | rw [(away place).2] | rw [(here place).2] | skip
  · obtain ⟨k, there, other⟩ := conns_of_away place
    rcases eq_or_ne j i with rfl | different
    · rw [store_links_self, acts.steady.tidy.listed, acts.others h place, view_away place, there]
      exact iff_of_false Bool.false_ne_true fun same => other (some.inj same.1)
    · rw [store_links_of_ne link different]
      exact linked.listed j h type
  · rcases eq_or_ne j i with rfl | different
    · rw [store_links_self, acts.steady.tidy.listed]
      refine (and_iff_right_of_imp fun flag => ?_).symm
      rw [if_pos (acts.steady.tidy.linked h type flag)]
    · rw [store_links_of_ne link different, linked.listed j h type]
      refine iff_of_false (fun there => ?_) fun there => ?_
      · rcases conns_of_here place with none | same
        · exact absurd (none.symm.trans there.1) (by rintro ⟨⟩)
        · exact different (some.inj (there.1.symm.trans same))
      · split_ifs at there
        · exact different (some.inj there.1).symm
        · exact absurd there.1 (by rintro ⟨⟩)
  · exact linked.single h
  · exact acts.steady.tidy.single h
  · exact linked.flagged h
  · exact acts.steady.tidy.linked h
  · exact linked.linked h
  · cases (link.handlers h).conn <;> rfl
  · exact linked.settled h
  · exact acts.steady.settled h
  · exact linked.last h j
  · intro there
    split_ifs at there with conn
    exact (acts.linked h conn).2.trans (some.inj there)
  · exact linked.kept h j
  · intro there
    split_ifs at there with conn
    cases there
    exact (acts.linked h conn).1

/-- Lists and handlers are as they were. -/
structure Beside (net net' : CNetMgr) : Prop where
  handlers : net'.handlers = net.handlers
  conns : net'.conns = net.conns
  last : net'.last = net.last
  lists : ∀ i, (net'.links i).lists = (net.links i).lists
  proxy : net'.proxy = net.proxy
  fd : ∀ i, (net'.links i).fd = (net.links i).fd

theorem update_links {β : Type} (part : CSockLink → β) (same : part link = part (net.links i))
    (j : Nat) : part (update net.links i link j) = part (net.links j) := by
  rcases eq_or_ne j i with rfl | different
  · rw [update_self, same]
  · rw [update_of_ne different]

theorem Beside.refl (net : CNetMgr) : Beside net net :=
  ⟨rfl, rfl, rfl, fun _ => rfl, rfl, fun _ => rfl⟩

theorem Beside.trans {net' net'' : CNetMgr} (first : Beside net net')
    (second : Beside net' net'') : Beside net net'' :=
  ⟨second.handlers.trans first.handlers, second.conns.trans first.conns,
    second.last.trans first.last, fun i => (second.lists i).trans (first.lists i),
    second.proxy.trans first.proxy, fun i => (second.fd i).trans (first.fd i)⟩

theorem beside_hash (net : CNetMgr) (hash : DestKey → Option CDestLinks) :
    Beside net { net with ipHash := hash } := ⟨rfl, rfl, rfl, fun _ => rfl, rfl, fun _ => rfl⟩

/-- Changes beside the handlers keep their links. -/
theorem Linked.beside {net' : CNetMgr} (linked : net.Linked) (beside : Beside net net')
    (kept : ∀ h i, net.conns h = some i → net'.parents i ≠ none) : net'.Linked := by
  refine ⟨fun i type => ?_, fun i h type => ?_, ?_, ?_, fun h => ?_, ?_, ?_, ?_⟩
  all_goals first | rw [beside.lists] | skip
  all_goals first | rw [beside.handlers] | skip
  all_goals first | rw [beside.conns] | skip
  · exact linked.nodup i type
  · exact linked.listed i h type
  · exact linked.single
  · exact linked.flagged
  · exact linked.linked h
  · exact linked.settled
  · rw [beside.last]
    exact linked.last
  · exact kept

end Handlers

section Objects

/-- An entry names the link whose socket it is for, and links that are not in use have none. -/
structure Watched (net : CNetMgr) : Prop where
  named : ∀ fd i, net.proxy.notify fd = some (.lasting i) →
    (net.links i).fd = fd ∧ 0 < fd ∧ net.proxy.Inside fd
  shut : ∀ i, net.parents i = none → (net.links i).fd = -1

theorem notify_swap {proxy : KqueueProxy} {fd : Int} {address : Nat} :
    (proxy.swap i).notify fd = some (.lasting address) ↔
      proxy.notify fd = some (.lasting (swap 0 i address)) := by
  have named : (proxy.swap i).notify fd = (proxy.notify fd).map (ObjPtr.swap i) := rfl
  rw [named, map_eq_some_iff]
  refine ⟨?_, fun there => ⟨_, there, ?_⟩⟩
  · rintro ⟨_ | other, there, same⟩
    · cases same
    · rw [there, ← ObjPtr.lasting.inj same, swap_apply_self]
  · exact congrArg ObjPtr.lasting (swap_apply_self ..)

variable (watched : net.Watched)

include watched

theorem Watched.view (i : Nat) : (net.view i).Named := by
  intro fd there
  have named := notify_swap.mp there
  exact watched.named fd i named

/-- A link that changes keeps its own descriptor watched. -/
theorem Watched.store (registers : CSockLink.Registers (net.view i) link)
    (shut : net.parents i = none → link.fd = -1) : (net.store i link).Watched := by
  refine ⟨fun fd j there => ?_, fun j none => ?_⟩
  · have named := notify_swap.mp there
    rcases eq_or_ne j i with rfl | different
    · rw [swap_apply_right] at named
      rw [store_links_self]
      exact registers.named (watched.view j) fd named
    · have other : swap 0 i j ≠ 0 := fun same =>
        different ((swap 0 i).injective (same.trans (swap_apply_right 0 i).symm))
      have named := notify_swap.mp (registers.others fd _ other named)
      rw [swap_apply_self] at named
      obtain ⟨same, positive, inside⟩ := watched.named fd j named
      rw [store_links_of_ne link different]
      exact ⟨same, positive, inside.of_maxfd _ registers.maxfd⟩
  · rcases eq_or_ne j i with rfl | different
    · rw [store_links_self]
      exact shut none
    · rw [store_links_of_ne link different]
      exact watched.shut j none

theorem Watched.beside {net' : CNetMgr} (beside : Beside net net')
    (shut : ∀ i, net'.parents i = none → (net.links i).fd = -1) : net'.Watched := by
  refine ⟨fun fd i => ?_, fun i none => ?_⟩
  · rw [beside.fd, beside.proxy]
    exact watched.named fd i
  · rw [beside.fd]
    exact shut i none

/-- Who is notified is in use. -/
theorem Watched.notified {fd : Int} (there : net.notified fd = some i) : net.parents i ≠ none := by
  intro none
  have named : net.proxy.notify fd = some (.lasting i) := by
    unfold CNetMgr.notified KqueueProxy.kqFdRefGet at there
    split at there
    · rename_i j found
      cases there
      split_ifs at found
      · cases found
      · exact found
    · cases there
  obtain ⟨same, positive, -⟩ := watched.named fd i named
  rw [watched.shut i none] at same
  omega

end Objects

section Stock

/-- A link is in the list of the destination that it points to, or in the pool, or has just been
taken. -/
structure Stocked (net : CNetMgr) (taken : Option Nat) : Prop where
  parent : ∀ i key, net.parents i = some key ↔
    ∃ dest, net.ipHash key = some dest ∧ i ∈ dest.sockList
  counted : ∀ key dest, net.ipHash key = some dest → dest.Counted
  nodup : net.sockLinkPool.Nodup
  pool : ∀ i ∈ net.sockLinkPool, net.allocated i = true ∧ net.parents i = none
  used : ∀ i, net.parents i ≠ none → net.allocated i = true
  known : ∀ i, net.allocated i = true → i ∉ net.sockLinkPool → i ∉ taken → net.parents i ≠ none
  apart : ∀ i ∈ taken, net.allocated i = true ∧ net.parents i = none ∧ i ∉ net.sockLinkPool

namespace Stocked

variable {taken : Option Nat} {key : DestKey} {dest : CDestLinks}

section

variable (stocked : net.Stocked taken)

include stocked

theorem counted_of_update (counted : dest.Counted) (other : DestKey) (found : CDestLinks)
    (there : update net.ipHash key (some dest) other = some found) : found.Counted := by
  rcases update_some_iff.mp there with ⟨-, rfl⟩ | ⟨-, there⟩
  · exact counted
  · exact stocked.counted other found there

/-- Another list for a destination, with the same links. -/
theorem setDest (counted : dest.Counted)
    (same : ∀ i, net.parents i = some key ↔ i ∈ dest.sockList) :
    Stocked { net with ipHash := update net.ipHash key (some dest) } taken := by
  refine { stocked with
    parent := fun i other => ?_, counted := stocked.counted_of_update counted }
  dsimp only
  rcases eq_or_ne other key with rfl | different
  · rw [update_self, same]
    exact ⟨fun member => ⟨dest, rfl, member⟩, by rintro ⟨_, ⟨⟩, member⟩; exact member⟩
  · rw [update_of_ne different]
    exact stocked.parent i other

theorem members (there : net.ipHash key = some dest) (i : Nat) :
    net.parents i = some key ↔ i ∈ dest.sockList := by
  rw [stocked.parent, there]
  exact ⟨by rintro ⟨_, ⟨⟩, member⟩; exact member, fun member => ⟨dest, rfl, member⟩⟩

/-- A destination without links can be removed. -/
theorem removeDest (empty : ∀ dest, net.ipHash key = some dest → dest.sockList = []) :
    Stocked { net with ipHash := update net.ipHash key none } taken := by
  refine { stocked with parent := fun i other => ?_, counted := fun other found there => ?_ }
  · dsimp only
    rw [stocked.parent]
    rcases eq_or_ne other key with rfl | different
    · rw [update_self]
      refine iff_of_false ?_ (by rintro ⟨_, ⟨⟩, -⟩)
      rintro ⟨dest, there, member⟩
      rw [empty dest there] at member
      cases member
    · rw [update_of_ne different]
  · exact stocked.counted other found (update_none_iff.mp there).2

/-- One link gets another destination, or none. -/
theorem parent_of_update {place : Option DestKey}
    (after : ∀ other, other ≠ key → place ≠ some other)
    (before : ∀ other, other ≠ key → net.parents i ≠ some other)
    (self : place = some key ↔ i ∈ dest.sockList)
    (others : ∀ j, j ≠ i → (net.parents j = some key ↔ j ∈ dest.sockList)) (j : Nat)
    (other : DestKey) : update net.parents i place j = some other ↔
      ∃ found, update net.ipHash key (some dest) other = some found ∧
        j ∈ found.sockList := by
  rcases eq_or_ne other key with rfl | different
  · have list : (∃ found, update net.ipHash other (some dest) other = some found ∧
        j ∈ found.sockList) ↔ j ∈ dest.sockList := by
      rw [update_self]
      exact ⟨by rintro ⟨_, ⟨⟩, member⟩; exact member, fun member => ⟨dest, rfl, member⟩⟩
    rw [list]
    rcases eq_or_ne j i with rfl | elsewhere
    · rw [update_self, self]
    · rw [update_of_ne elsewhere, others j elsewhere]
  · rw [update_of_ne different, ← stocked.parent j other]
    rcases eq_or_ne j i with rfl | elsewhere
    · rw [update_self]
      exact iff_of_false (after other different) (before other different)
    · rw [update_of_ne elsewhere]

end

/-- A new link is entered at its destination. -/
theorem enter (stocked : net.Stocked (some i)) (there : net.ipHash key = some dest)
    (less : dest.currLink < dest.maxLinks) : (net.enter key dest i).Stocked none := by
  obtain ⟨allocated, alone, outside⟩ := stocked.apart i rfl
  have counted := stocked.counted key dest there
  have absent : i ∉ dest.sockList := fun member => by
    rw [(stocked.members there i).mpr member] at alone
    cases alone
  have parents {j : Nat} (different : j ≠ i) :
      (net.enter key dest i).parents j = net.parents j := update_of_ne different ..
  have self : (net.enter key dest i).parents i = some key := update_self ..
  refine ⟨stocked.parent_of_update ?_ ?_ ?_ fun j different => ?_,
    stocked.counted_of_update (counted.enter absent less), stocked.nodup, fun j member => ?_,
    fun j some => ?_, fun j there outside _ => ?_, by rintro _ ⟨⟩⟩
  · exact fun other different same => different (some.inj same).symm
  · exact fun other _ => by rw [alone]; rintro ⟨⟩
  · exact iff_of_true rfl (mem_append_right _ mem_cons_self)
  · rw [stocked.members there, mem_append, mem_singleton, or_iff_left different]
  · have different : j ≠ i := fun same => outside (same ▸ member)
    rw [parents different]
    exact stocked.pool j member
  · rcases eq_or_ne j i with rfl | different
    · exact allocated
    · rw [parents different] at some
      exact stocked.used j some
  · rcases eq_or_ne j i with rfl | different
    · rw [self]
      rintro ⟨⟩
    · rw [parents different]
      exact stocked.known j there outside fun same => different (some.inj same).symm

variable (stocked : net.Stocked none)

include stocked

/-- A link from the pool has just been taken. -/
theorem take {rest : List Nat} (pool : net.sockLinkPool = i :: rest) :
    Stocked { net with sockLinkPool := rest } (some i) := by
  have nodup := stocked.nodup
  rw [pool, nodup_cons] at nodup
  have inside {j : Nat} (member : j ∈ rest) : j ∈ net.sockLinkPool :=
    pool ▸ mem_cons_of_mem i member
  refine { stocked with
    nodup := nodup.2, pool := fun j member => stocked.pool j (inside member),
    known := fun j allocated outside other => stocked.known j allocated ?_ (by rintro ⟨⟩),
    apart := ?_ }
  · rw [pool, mem_cons]
    rintro (rfl | member)
    · exact other rfl
    · exact outside member
  · rintro _ ⟨⟩
    obtain ⟨allocated, alone⟩ := stocked.pool i (pool ▸ mem_cons_self)
    exact ⟨allocated, alone, nodup.1⟩

/-- A new link has just been taken. -/
theorem construct (free : net.allocated i = false) : (net.construct i).Stocked (some i) := by
  have alone : net.parents i = none := by
    by_contra some
    exact absurd (stocked.used i some) (by rw [free]; decide)
  have outside : i ∉ net.sockLinkPool := fun member =>
    absurd (stocked.pool i member).1 (by rw [free]; decide)
  have parents : (net.construct i).parents = net.parents := by
    unfold CNetMgr.construct
    rw [← alone]
    exact update_eq_self ..
  have others {j : Nat} (different : j ≠ i) :
      (net.construct i).allocated j = net.allocated j := update_of_ne different ..
  have self : (net.construct i).allocated i = true := update_self ..
  refine ⟨fun j key => ?_, stocked.counted, stocked.nodup, fun j member => ?_, fun j some => ?_,
    fun j allocated outside other => ?_, ?_⟩
  · rw [parents]
    exact stocked.parent j key
  · rw [parents, others fun same => outside (same ▸ member)]
    exact stocked.pool j member
  · rcases eq_or_ne j i with rfl | different
    · exact self
    · rw [others different]
      exact stocked.used j (parents ▸ some)
  · have different : j ≠ i := fun same => other (same ▸ rfl)
    rw [others different] at allocated
    rw [parents]
    exact stocked.known j allocated outside (by rintro ⟨⟩)
  · rintro _ ⟨⟩
    exact ⟨self, parents ▸ alone, outside⟩

/-- A discarded link goes back to the pool. -/
theorem discard (used : net.parents i ≠ none) : (net.discard i).Stocked none := by
  obtain ⟨key, place⟩ := ne_none_iff_exists'.mp used
  obtain ⟨dest, there, member⟩ := (stocked.parent i key).mp place
  have counted := stocked.counted key dest there
  have outside : i ∉ net.sockLinkPool := fun inside =>
    used (stocked.pool i inside).2
  have parents {j : Nat} (different : j ≠ i) :
      (update net.parents i none) j = net.parents j := update_of_ne different ..
  unfold CNetMgr.discard
  rw [place]
  dsimp only
  rw [there]
  refine ⟨stocked.parent_of_update ?_ ?_ ?_ fun j different => ?_,
    stocked.counted_of_update (counted.erase member),
    concat_eq_append ▸ stocked.nodup.concat outside, fun j inside => ?_, fun j some => ?_,
    fun j allocated outside _ => ?_, by rintro _ ⟨⟩⟩
  · rintro _ _ ⟨⟩
  · exact fun other different same => different (some.inj (same.symm.trans place))
  · exact iff_of_false (by rintro ⟨⟩) counted.nodup.not_mem_erase
  · rw [stocked.members there, mem_erase_of_ne different]
  · dsimp only at inside ⊢
    rcases mem_append.mp inside with inside | last
    · rw [parents fun same => outside (same ▸ inside)]
      exact stocked.pool j inside
    · rw [mem_singleton.mp last, update_self]
      exact ⟨stocked.used i used, rfl⟩
  · dsimp only at some
    rcases eq_or_ne j i with rfl | different
    · exact stocked.used j used
    · exact stocked.used j (parents different ▸ some)
  · dsimp only at outside ⊢
    rw [mem_append, mem_singleton, not_or] at outside
    rw [parents outside.2]
    exact stocked.known j allocated outside.1 (by rintro ⟨⟩)

/-- Recycling deletes links of the pool only. -/
theorem recycleItem (count : Nat) : (net.recycleItem count).Stocked none := by
  have split := take_append_drop count net.sockLinkPool
  have nodup := stocked.nodup
  rw [← split, nodup_append] at nodup
  have allocated {i : Nat} : (net.recycleItem count).allocated i = true ↔
      net.allocated i = true ∧ i ∉ net.sockLinkPool.take count := by
    unfold CNetMgr.recycleItem
    simp
  refine ⟨stocked.parent, stocked.counted, nodup.2.1, fun i member => ?_, fun i some => ?_,
    fun i there outside _ => ?_, by rintro _ ⟨⟩⟩
  · obtain ⟨there, alone⟩ := stocked.pool i (mem_of_mem_drop member)
    exact ⟨allocated.mpr ⟨there, fun first => nodup.2.2 i first i member rfl⟩, alone⟩
  · exact allocated.mpr ⟨stocked.used i some, fun first =>
      some (stocked.pool i (mem_of_mem_take first)).2⟩
  · obtain ⟨there, kept⟩ := allocated.mp there
    refine stocked.known i there (fun inside => ?_) (by rintro ⟨⟩)
    rw [← split] at inside
    exact (mem_append.mp inside).elim kept outside

end Stocked

end Stock

section Steps

structure Sound (net : CNetMgr) : Prop where
  linked : net.Linked
  watched : net.Watched
  stocked : net.Stocked none

namespace Sound

section

variable (sound : net.Sound)

include sound

theorem store (acts : net.Acts i link) (registers : CSockLink.Registers (net.view i) link)
    (shut : net.parents i = none → link.fd = -1) : (net.store i link).Sound :=
  ⟨sound.linked.store acts, sound.watched.store registers shut, { sound.stocked with }⟩

theorem setHash {hash : DestKey → Option CDestLinks}
    (stocked : Stocked { net with ipHash := hash } none) : Sound { net with ipHash := hash } :=
  ⟨sound.linked.beside (beside_hash net hash) sound.linked.kept,
    sound.watched.beside (beside_hash net hash) sound.watched.shut, stocked⟩

theorem move (steady : link.Steady)
    (others : ∀ other, other ≠ h → ((net.view (net.last h)).handlers other).conn = false →
      link.handlers other = (net.view (net.last h)).handlers other)
    (fades : (link.handlers h).conn = true → ((net.view (net.last h)).handlers h).conn = true)
    (registers : CSockLink.Registers (net.view (net.last h)) link)
    (fd : link.fd = (net.view (net.last h)).fd) : (net.store (net.last h) link).Sound :=
  sound.store
    (sound.linked.acts rfl steady others fun conn =>
      sound.linked.kept h _ (sound.linked.conns_of_view (fades conn)))
    registers fun none => fd.trans (sound.watched.shut _ none)

theorem moves (moves : CSockLink.Moves (net.view (net.last h)) link h)
    (fades : (link.handlers h).conn = true → ((net.view (net.last h)).handlers h).conn = true)
    (socket : link.socket = (net.view (net.last h)).socket) : (net.store (net.last h) link).Sound :=
  sound.move ((sound.linked.view _).moves moves)
    (fun other different _ => moves.others other different) fades
    (registers_of_socket socket) (fd_of_socket socket)

end

/-- No handler points to a link without handlers. -/
theorem unlinked (linked : net.Linked) (empty : ∀ type, (net.links i).lists type = []) :
    net.conns h ≠ some i := by
  intro conns
  have conn : (net.handlers h).conn = true := by
    rw [linked.linked, conns]
    rfl
  obtain ⟨type, flag⟩ := (linked.settled h).seated conn
  have member := (linked.listed i h type).mpr ⟨conns, flag⟩
  rw [empty] at member
  cases member

section

variable (used : net.parents i ≠ none)

include used

/-- A link without handlers and descriptor can be discarded. -/
theorem discard (sound : net.Sound) (empty : ∀ type, (net.links i).lists type = [])
    (closed : (net.links i).fd = -1) : (net.discard i).Sound := by
  obtain ⟨key, place⟩ := ne_none_iff_exists'.mp used
  have beside : Beside net (net.discard i) := by
    unfold CNetMgr.discard
    rw [place]
    exact ⟨rfl, rfl, rfl, fun _ => rfl, rfl, fun _ => rfl⟩
  have parents : (net.discard i).parents = update net.parents i none := by
    unfold CNetMgr.discard
    rw [place]
  refine ⟨sound.linked.beside beside fun h j conns => ?_,
    sound.watched.beside beside fun j none => ?_, sound.stocked.discard used⟩
  · have different : j ≠ i := fun same => unlinked sound.linked empty (same ▸ conns)
    rw [parents, update_of_ne different]
    exact sound.linked.kept h j conns
  · rcases eq_or_ne j i with rfl | different
    · exact closed
    · rw [parents, update_of_ne different] at none
      exact sound.watched.shut j none

/-- A destroyed link has no handlers and is discarded. -/
theorem destroy (sound : net.Sound) (errno : Int) (accepted : ∀ change, accepts change = true) :
    (net.destroy i errno accepts).Sound := by
  have steady := sound.linked.view i
  have within := ((net.view i).errno_same errno).within steady.tidy
  have tidy := within.tidy
  have registers : CSockLink.Registers (net.view i) { net.view i with errno } :=
    registers_of_socket rfl
  have stored : (net.onLink i fun link => { link with errno }.destroy accepts .tcp).Sound :=
    sound.store (sound.linked.acts_within (within.trans (tidy.destroy accepts .tcp).1))
      (registers.trans (tidy.destroy_registers accepted .tcp)) fun none => absurd none used
  refine stored.discard used (fun type => ?_) ?_
  · rw [onLink, store_links_self]
    rfl
  · rw [onLink, store_links_self]
    rfl

theorem destroy_parents (errno : Int) :
    (net.destroy i errno accepts).parents = update net.parents i none := by
  obtain ⟨key, place⟩ := ne_none_iff_exists'.mp used
  have same : (net.onLink i fun link => { link with errno }.destroy accepts .tcp).parents i =
      some key := place
  unfold CNetMgr.destroy CNetMgr.discard
  rw [same]
  rfl

end

section

variable (sound : net.Sound)

include sound

/-- Links of a list are destroyed one after another. -/
theorem destroyAll {items : List Nat} (nodup : items.Nodup)
    (used : ∀ i ∈ items, net.parents i ≠ none) (accepted : ∀ change, accepts change = true) :
    (items.foldl (fun net i => net.destroy i (net.links i).errno accepts) net).Sound := by
  induction items generalizing net with
  | nil => exact sound
  | cons i rest ih =>
    rw [nodup_cons] at nodup
    have here := used i mem_cons_self
    refine ih (sound.destroy here _ accepted) nodup.2 fun j member => ?_
    have different : j ≠ i := fun same => nodup.1 (same ▸ member)
    rw [destroy_parents here, update_of_ne different]
    exact used j (mem_cons_of_mem i member)

/-- The timer discards links that have expired. -/
theorem timerNotify (key : DestKey) (expired : Nat → Bool)
    (accepted : ∀ change, accepts change = true) : (net.timerNotify key expired accepts).Sound := by
  unfold CNetMgr.timerNotify
  cases there : net.ipHash key with
  | none => exact sound
  | some dest =>
    have members := sound.stocked.members there
    have after := sound.destroyAll
      ((sound.stocked.counted key dest there).nodup.filter expired)
      (fun i member => by
        rw [(members i).mpr (mem_filter.mp member).1]
        rintro ⟨⟩) accepted
    dsimp only
    split_ifs with empty
    · exact after.setHash (after.stocked.removeDest fun found there => by
        rw [there] at empty
        exact of_decide_eq_true empty)
    · exact after

/-- A link whose sending fails is destroyed. -/
theorem outputNotify (used : net.parents i ≠ none) (answers : List WriteAnswer)
    (accepted : net.outputFails i answers = true → ∀ change, accepts change = true) :
    (net.outputNotify i answers accepts).Sound := by
  have steady := sound.linked.view i
  have stored : (net.onLink i (·.outputNotify answers accepts .tcp)).Sound :=
    sound.store (sound.linked.acts_within (steady.tidy.outputNotify answers accepts .tcp))
      (steady.tidy.outputNotify_registers answers .tcp fun failed =>
        accepted (decide_eq_true failed)) fun none => absurd none used
  unfold CNetMgr.outputNotify
  split_ifs with failed
  · have gone := outputNotify_of_fails (of_decide_eq_true failed) accepts .tcp
    refine stored.discard used (fun type => ?_) ?_
    · rw [onLink, store_links_self, gone]
      rfl
    · rw [onLink, store_links_self, gone]
      rfl
  · exact stored

theorem recycleItem (count : Nat) : (net.recycleItem count).Sound :=
  have beside : Beside net (net.recycleItem count) :=
    ⟨rfl, rfl, rfl, fun _ => rfl, rfl, fun _ => rfl⟩
  ⟨sound.linked.beside beside sound.linked.kept, sound.watched.beside beside sound.watched.shut,
    sound.stocked.recycleItem count⟩

end

/-- What `GetConnLink` gives is in use. -/
structure Finds (net : CNetMgr) (result : CNetMgr × Option Nat) : Prop where
  sound : result.1.Sound
  beside : Beside net result.1
  used : ∀ i ∈ result.2, result.1.parents i ≠ none

variable (sound : net.Sound)

include sound

/-- Nobody is linked to a link that is not in use. -/
theorem vacant (alone : net.parents i = none) : (net.links i).lists = fun _ => [] := by
  refine funext fun type => eq_nil_iff_forall_not_mem.mpr fun h member => ?_
  exact sound.linked.kept h i ((sound.linked.listed i h type).mp member).1 alone

/-- A new link changes nothing of the others. -/
theorem construct (free : net.allocated i = false) :
    Beside net (net.construct i) ∧ (net.construct i).parents = net.parents := by
  have alone : net.parents i = none := by
    by_contra some
    exact absurd (sound.stocked.used i some) (by rw [free]; decide)
  refine ⟨⟨rfl, rfl, rfl, fun j => ?_, rfl, fun j => ?_⟩, ?_⟩
  · exact update_links lists (sound.vacant alone).symm j
  · exact update_links fd (sound.watched.shut i alone).symm j
  · unfold CNetMgr.construct
    rw [← alone]
    exact update_eq_self ..

/-- A link comes from the pool or is new. -/
theorem allocSockLink (fresh : Option Nat) :
    (net.allocSockLink fresh).1.Stocked (net.allocSockLink fresh).2 ∧
    Beside net (net.allocSockLink fresh).1 ∧
    (net.allocSockLink fresh).1.ipHash = net.ipHash ∧
    (net.allocSockLink fresh).1.parents = net.parents := by
  unfold CNetMgr.allocSockLink
  cases pool : net.sockLinkPool with
  | cons i rest =>
    exact ⟨sound.stocked.take pool, ⟨rfl, rfl, rfl, fun _ => rfl, rfl, fun _ => rfl⟩, rfl, rfl⟩
  | nil =>
    cases fresh with
    | none => exact ⟨sound.stocked, .refl net, rfl, rfl⟩
    | some i =>
      dsimp only
      split_ifs with free
      · exact ⟨sound.stocked, .refl net, rfl, rfl⟩
      · rw [Bool.not_eq_true] at free
        obtain ⟨beside, parents⟩ := sound.construct free
        exact ⟨sound.stocked.construct free, beside, rfl, parents⟩

/-- The link that is chosen is in use. -/
theorem getSockLink {key : DestKey} {dest : CDestLinks} (there : net.ipHash key = some dest)
    (fresh : Option Nat) : Finds net (net.getSockLink key dest fresh) := by
  unfold CNetMgr.getSockLink
  split_ifs with less
  · have taken := sound.allocSockLink fresh
    generalize net.allocSockLink fresh = result at taken ⊢
    obtain ⟨net₁, _ | i⟩ := result
    all_goals
      obtain ⟨stocked, beside, hash, parents⟩ := taken
      have kept (h i : Nat) : net.conns h = some i → net₁.parents i ≠ none := by
        rw [parents]
        exact sound.linked.kept h i
      have shut (i : Nat) : net₁.parents i = none → (net.links i).fd = -1 := by
        rw [parents]
        exact sound.watched.shut i
    · exact ⟨⟨sound.linked.beside beside kept, sound.watched.beside beside shut, stocked⟩, beside,
        by rintro _ ⟨⟩⟩
    · have entered : Beside net₁ (net₁.enter key dest i) :=
        ⟨rfl, rfl, rfl, update_links lists rfl, rfl, update_links fd rfl⟩
      have grows (j : Nat) (alone : (net₁.enter key dest i).parents j = none) :
          net₁.parents j = none := by
        rcases eq_or_ne j i with rfl | different
        · exact absurd ((update_self ..).symm.trans alone) (by rintro ⟨⟩)
        · exact (update_of_ne different ..).symm.trans alone
      have beside := beside.trans entered
      refine ⟨⟨sound.linked.beside beside fun h j conns alone => kept h j conns (grows j alone),
        sound.watched.beside beside fun j alone => shut j (grows j alone),
        stocked.enter (hash ▸ there) less⟩, beside, ?_⟩
      rintro _ ⟨⟩ alone
      exact absurd ((update_self ..).symm.trans alone) (by rintro ⟨⟩)
  · have counted := sound.stocked.counted key dest there
    cases list : dest.sockList with
    | nil =>
      have room := counted.room
      rw [counted.counted, list] at less
      exact absurd room less
    | cons i rest =>
      have members := sound.stocked.members there
      refine ⟨sound.setHash (sound.stocked.setDest (counted.rotate list) fun j => ?_),
        beside_hash net _, ?_⟩
      · rw [members, list, mem_cons, mem_append, mem_singleton]
        exact or_comm
      · rintro _ ⟨⟩
        rw [(members i).mpr (list ▸ mem_cons_self)]
        rintro ⟨⟩

/-- The destination that is returned is in the hash. -/
theorem findCreateDest (key : DestKey) (memory : Bool) :
    (net.findCreateDest key memory).1.Sound ∧ Beside net (net.findCreateDest key memory).1 ∧
    ∀ dest ∈ (net.findCreateDest key memory).2,
      (net.findCreateDest key memory).1.ipHash key = some dest := by
  unfold CNetMgr.findCreateDest
  cases there : net.ipHash key with
  | some dest => exact ⟨sound, .refl net, fun _ found => there.trans found⟩
  | none =>
    split_ifs
    · refine ⟨sound.setHash (sound.stocked.setDest .new fun i => ?_), beside_hash net _, ?_⟩
      · rw [sound.stocked.parent, there]
        exact iff_of_false (by rintro ⟨_, ⟨⟩, -⟩) not_mem_nil
      · rintro _ ⟨⟩
        exact update_self ..
    · exact ⟨sound, .refl net, by rintro _ ⟨⟩⟩

/-- The link that a request gets is in use. -/
theorem getConnLink (key : DestKey) (memory : Bool) (fresh : Option Nat) :
    Finds net (net.getConnLink key memory fresh) := by
  have found := sound.findCreateDest key memory
  unfold CNetMgr.getConnLink
  generalize net.findCreateDest key memory = result at found ⊢
  obtain ⟨net', _ | dest⟩ := result
  · exact ⟨found.1, found.2.1, by rintro _ ⟨⟩⟩
  · obtain ⟨sound, beside, used⟩ := found.1.getSockLink (found.2.2 dest rfl) fresh
    exact ⟨sound, found.2.1.trans beside, used⟩

/-- A handler that is not in `SendRecv` has no link. -/
theorem alone_of_out (out : (net.handlers h).phase = .out) : net.conns h = none := by
  cases conns : net.conns h with
  | none => rfl
  | some i =>
    have conn : (net.handlers h).conn = true := by
      rw [sound.linked.linked, conns]
      rfl
    exact absurd out ((sound.linked.settled h).inside conn)

theorem setLast (alone : net.conns h = none) (i : Nat) :
    Sound { net with last := update net.last h i } := by
  refine ⟨{ sound.linked with last := fun other j conns => ?_ }, { sound.watched with },
    { sound.stocked with }⟩
  have different : other ≠ h := fun same => by
    rw [same] at conns
    exact absurd (alone.symm.trans conns) (by rintro ⟨⟩)
  exact (update_of_ne different ..).trans (sound.linked.last other j conns)

/-- A request keeps handlers, links and destinations in order. -/
theorem sendRecv (out : (net.handlers h).phase = .out) (request : Request) (addr : BitVec 32)
    (port : BitVec 16) (protoType : ProtoType) (memory : Bool) (fresh : Option Nat)
    (sock : SockAnswer) (answer : ConnectAnswer) (accepts : Change → Bool) :
    (net.sendRecv h request addr port protoType memory fresh sock answer accepts).Sound := by
  unfold CNetMgr.sendRecv
  generalize ({ request with dest := _ } : Request) = request
  have finds : Finds net (if request.checkParams < 0 then (net, none)
      else net.getConnLink ⟨addr, port, protoType, request.connType⟩ memory fresh) := by
    split_ifs
    · exact ⟨sound, .refl net, by rintro _ ⟨⟩⟩
    · exact sound.getConnLink _ memory fresh
  dsimp only
  generalize (if request.checkParams < 0 then (net, none) else _) = result at finds ⊢
  obtain ⟨net₁, found⟩ := result
  obtain ⟨sound₁, beside, used⟩ := finds
  have alone : net₁.conns h = none := beside.conns ▸ sound.alone_of_out out
  have sound₂ := sound₁.setLast alone (found.getD (net₁.last h))
  generalize found_eq : found.getD (net₁.last h) = i at sound₂ ⊢
  have tidy := (sound₂.linked.view i).tidy
  have moves := tidy.sendRecv (h := h) { request with memory := found.isSome } sock answer accepts
  have steady := (sound₂.linked.view i).moves moves
  have fails (alone : net₁.parents i = none) : found.isSome = false := by
    cases found with
    | none => rfl
    | some j => exact absurd alone (used i (congrArg some found_eq))
  refine sound₂.store (sound₂.linked.acts (update_self ..) steady
    (fun other different _ => moves.others other different) fun conn alone => ?_)
    (sendRecv_registers _ h _ sock answer accepts) fun alone => ?_
  · obtain ⟨unlinked, -⟩ := tidy.sendRecv_fails h { request with memory := found.isSome }
      (fails alone) sock answer accepts
    rw [unlinked] at conn
    cases conn
  · obtain ⟨-, socket⟩ := tidy.sendRecv_fails h { request with memory := found.isSome }
      (fails alone) sock answer accepts
    exact (fd_of_socket socket).trans (sound₂.watched.shut i alone)

/-- Every event keeps handlers, links and destinations in order. -/
theorem step (event : Event) (unregisters : net.Unregisters event) : (net.step event).Sound := by
  obtain ⟨input, accepts⟩ := event
  unfold CNetMgr.step
  split_ifs with enabled
  · cases input with
    | sendRecv h request addr port protoType memory fresh sock answer =>
      exact sound.sendRecv enabled.2 request addr port protoType memory fresh sock answer accepts
    | waitSend h answers =>
      have steady := sound.linked.view (net.last h)
      have phase := (view_phase net (net.last h) h).trans enabled.2
      obtain ⟨between, within, apart, -⟩ := steady.waitSend_apart phase answers accepts
      refine sound.move (steady.waitSend phase answers accepts) (fun other different alone => ?_)
        steady.tidy.waitSend_conn (steady.tidy.waitSend_registers h answers accepts)
        (steady.tidy.waitSend_fd h answers accepts)
      rw [apart.others other different, within.others other alone]
    | waitRecv h =>
      have tidy := (sound.linked.view (net.last h)).tidy
      exact sound.moves (tidy.waitRecv h) tidy.waitRecv_conn (waitRecv_socket _ h)
    | wakeup h =>
      have steady := sound.linked.view (net.last h)
      exact sound.moves (steady.wakeup h) steady.tidy.wakeup_conn (wakeup_socket _ h)
    | outputNotify fd answers =>
      dsimp only [perform]
      cases notified : net.notified fd with
      | none => exact sound
      | some i =>
        refine sound.outputNotify (sound.watched.notified notified) answers fun failed => ?_
        refine unregisters ?_
        dsimp only [closes]
        rw [notified]
        exact failed
    | inputNotify fd errno =>
      dsimp only [perform]
      cases notified : net.notified fd with
      | none => exact sound
      | some i => exact sound.destroy (sound.watched.notified notified) errno (unregisters rfl)
    | respond h len =>
      have steady := sound.linked.view (net.last h)
      exact sound.moves (steady.respond h len)
        (fun conn => (steady.tidy.respond_conn h len).symm.trans conn)
        (respond_socket _ h len)
    | timerNotify key expired => exact sound.timerNotify key expired (unregisters rfl)
    | resetHandler h =>
      have tidy := (sound.linked.view (net.last h)).tidy
      refine sound.moves (tidy.reset h) (fun conn => ?_) (unlink_socket _ h)
      rw [reset_conn] at conn
      cases conn
    | recycleItem count => exact sound.recycleItem count
  · exact sound

end Sound

/-- At the start there are no links. -/
theorem start_sound (maxNum : Int) : (start maxNum).Sound where
  linked := by
    refine ⟨fun _ _ => nodup_nil, fun _ _ _ => iff_of_false not_mem_nil ?_, ?_, ?_,
      fun _ => rfl, fun _ => (rests_of_alone rfl rfl).settled, ?_, ?_⟩
    · rintro ⟨⟨⟩, -⟩
    · rintro _ _ _ ⟨⟩
    · rintro _ _ ⟨⟩
    · rintro _ _ ⟨⟩
    · rintro _ _ ⟨⟩
  watched := ⟨by rintro _ _ ⟨⟩, fun _ _ => rfl⟩
  stocked := by
    refine ⟨fun _ _ => iff_of_false ?_ ?_, ?_, nodup_nil, ?_, ?_, ?_, ?_⟩
    · rintro ⟨⟩
    · rintro ⟨_, ⟨⟩, -⟩
    · rintro _ _ ⟨⟩
    · rintro _ ⟨⟩
    · exact fun _ some => absurd rfl some
    · rintro _ ⟨⟩
    · rintro _ ⟨⟩

/-- In a sound state every handler and every link is in its one list. -/
theorem Sound.inPlace (sound : net.Sound) : net.InPlace := by
  obtain ⟨linked, -, stocked⟩ := sound
  refine ⟨linked.single, fun h type flag => ?_, fun h none i type member => ?_, fun i used => ?_,
    fun key dest there => ?_⟩
  · obtain ⟨i, conns⟩ := linked.conns_of_conn (linked.flagged h type flag)
    have member := (linked.listed i h type).mpr ⟨conns, flag⟩
    refine ⟨i, conns, count_eq_one_of_mem (linked.nodup i type) member,
      fun j other there => ?_⟩
    obtain ⟨same, flagged⟩ := (linked.listed j h other).mp there
    exact ⟨some.inj (same.symm.trans conns), linked.single h other type flagged flag⟩
  · have flag := ((linked.listed i h type).mp member).2
    rw [none type] at flag
    cases flag
  · obtain ⟨key, place⟩ := ne_none_iff_exists'.mp
      (stocked.known i used.1 used.2 (by rintro ⟨⟩))
    obtain ⟨dest, there, member⟩ := (stocked.parent i key).mp place
    refine ⟨key, dest, there,
      count_eq_one_of_mem (stocked.counted key dest there).nodup member,
      fun key' dest' there' member' => ?_⟩
    have place' := (stocked.parent i key').mpr ⟨dest', there', member'⟩
    exact some.inj (place'.symm.trans place)
  · have counted := stocked.counted key dest there
    exact ⟨counted.counted, counted.counted ▸ counted.bounded⟩

/-- Where a link that is closed can be unregistered, every handler is in its list and every link
in that of its destination, after every run. -/
theorem inPlace_of_unregisters (maxNum : Int) (events : List Event)
    (along : Along step Unregisters (start maxNum) events) :
    (events.foldl step (start maxNum)).InPlace :=
  (Along.last Sound (fun _ event sound => sound.step event) (start_sound maxNum) along).inPlace

/-- `SendRecv` to port 80, with a connection that is not there at once. The new socket has the
descriptor after `n`. -/
def asked (h : Nat) (addr : BitVec 32) (fresh : Option Nat) (n : Nat) : Event :=
  ⟨.sendRecv h ⟨[1], .pool, true, true, true, true⟩ addr 80 .tcp true fresh
    ⟨some ⟨n.succ, Int.natCast_succ_pos n⟩, true⟩ .error, fun _ => true⟩

/-- The link of the first handler is closed, and the third gets it for another destination. -/
def closedRun : List Event :=
  [asked 1 10 (some 7) 4, asked 2 10 (some 8) 5, ⟨.inputNotify 5 (-3), fun _ => true⟩,
    asked 3 20 none 4]

theorem inPlace_closedRun :
    (closedRun.foldl step (start 10)).InPlace ∧
    (closedRun.foldl step (start 10)).ipHash ⟨10, 80, .tcp, .pool⟩ = some ⟨[8], 1, 3⟩ ∧
    (closedRun.foldl step (start 10)).ipHash ⟨20, 80, .tcp, .pool⟩ = some ⟨[7], 1, 3⟩ :=
  ⟨inPlace_of_unregisters 10 closedRun
    ⟨fun _ _ => rfl, fun _ _ => rfl, fun _ _ => rfl, fun _ _ => rfl, trivial⟩,
    by decide +kernel, by decide +kernel⟩

/-- In such runs an event reaches only a link that has its descriptor and is listed with a
destination, and the links in the pool are closed and have no handlers. -/
theorem watched_of_unregisters (maxNum : Int) (events : List Event)
    (along : Along step Unregisters (start maxNum) events) :
    let net := events.foldl step (start maxNum)
    (∀ fd i, net.proxy.notify fd = some (.lasting i) → (net.links i).fd = fd ∧
      i ∉ net.sockLinkPool ∧ ∃ key dest, net.ipHash key = some dest ∧ i ∈ dest.sockList) ∧
    ∀ i ∈ net.sockLinkPool, (net.links i).fd = -1 ∧ ∀ h, net.conns h ≠ some i := by
  have sound := Along.last Sound (fun _ event sound => sound.step event) (start_sound maxNum) along
  intro net
  have alone {i : Nat} (pooled : i ∈ net.sockLinkPool) : net.parents i = none :=
    (sound.stocked.pool i pooled).2
  refine ⟨fun fd i named => ?_, fun i pooled => ⟨sound.watched.shut i (alone pooled),
    fun h conns => sound.linked.kept h i conns (alone pooled)⟩⟩
  obtain ⟨same, positive, -⟩ := sound.watched.named fd i named
  have used : net.parents i ≠ none := by
    intro none
    have shut := sound.watched.shut i none
    omega
  obtain ⟨key, place⟩ := ne_none_iff_exists'.mp used
  exact ⟨same, fun pooled => used (alone pooled), key, (sound.stocked.parent i key).mp place⟩

theorem watched_closedRun :
    ((closedRun.foldl step (start 10)).links 8).fd = 6 :=
  ((watched_of_unregisters 10 closedRun
    ⟨fun _ _ => rfl, fun _ _ => rfl, fun _ _ => rfl, fun _ _ => rfl, trivial⟩).1 6 8
      (by decide +kernel)).1

end Steps

end CNetMgr

end FStack.Micro
