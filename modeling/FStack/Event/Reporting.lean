import FStack.Event.Epoll
import FStack.Event.Knotes

/-!
# What epoll reports

`Faithful` relates the knotes to what was registered last for each filter of a
descriptor: a knote has its data, and is enabled only if its event was asked for.
Accepted changes establish it, and whatever else happens keeps it.
-/

namespace FStack.Event

open Function List

/-- The bits of one word are among those of another. -/
def Within {w : Nat} (word allowed : BitVec w) : Prop := word &&& allowed = word

instance {w : Nat} (word allowed : BitVec w) : Decidable (Within word allowed) :=
  inferInstanceAs (Decidable (_ = _))

/-- The knotes are as was registered last. -/
structure Faithful (given : Interest → Option EpollEvent) (kq : Kqueue) : Prop where
  queued : WellQueued kq
  knotes : ∀ key kn, kq.knotes key = some kn → ∃ fd event,
    key.1 = fd.signExtend 64 ∧ given (fd, key.2) = some event ∧ kn.udata = event.data ∧
      (kn.disabled = false → has event.events key.2.event = true)

/-- An entry is for a filter of a descriptor: it has the data that was registered, or the
descriptor where that is `NULL`, and no event that was not asked for but `EPOLLERR`
and `EPOLLHUP`. -/
def Carries (given : Interest → Option EpollEvent) (interest : Interest)
    (before after : EpollEvent) : Prop :=
  ∃ event, given interest = some event ∧
    after.data =
      (if event.data = 0 then before.data.extractLsb' 32 32 ++ interest.1 else event.data) ∧
    Within after.events (event.events ||| epollerr ||| epollhup)

variable {files : Files} {given : Interest → Option EpollEvent} {kq kq' : Kqueue} {kev : Kevent}

section Words

variable {w : Nat} {first second third : BitVec w}

theorem Within.trans (inner : Within first second) (outer : Within second third) :
    Within first third := by
  unfold Within at *
  rw [← inner, BitVec.and_assoc, outer]

theorem Within.or (within : Within first second) (common : BitVec w) :
    Within (first ||| common) (second ||| common) := by
  ext i bound
  have bit := congrArg (fun word : BitVec w => word.getLsbD i) within
  simp only [BitVec.getLsbD_eq_getElem bound, BitVec.getElem_and, BitVec.getElem_or] at bit ⊢
  revert bit
  cases first[i] <;> cases second[i] <;> cases common[i] <;> simp

/-- A descriptor is what its identifier was made of. -/
theorem setWidth_signExtend (fd : BitVec 32) : (fd.signExtend 64).setWidth 32 = fd := by
  ext i bound
  have inside : i < 64 := by omega
  rw [BitVec.getElem_setWidth, BitVec.getLsbD_signExtend]
  simp [bound, inside]

/-- A word that has the bit of a filter has all of it. -/
theorem within_of_has {events : BitVec 32} {filter : Filter} (asked : has events filter.event = true) :
    Within filter.event events := by
  have single : filter.event = BitVec.twoPow 32 (2 * filter.index) := by
    cases filter <;> rfl
  rw [has, single, BitVec.and_twoPow] at asked
  rw [Within, single, BitVec.and_comm, BitVec.and_twoPow]
  split_ifs at asked ⊢ with bit
  · rfl
  · simp at asked

/-- The events of an entry are that of its filter, `EPOLLERR` and `EPOLLHUP`. -/
theorem eventOne_within (kev : Kevent) :
    Within (eventOne kev) (kev.filter.event ||| epollerr ||| epollhup) := by
  unfold eventOne
  cases kev.filter <;> dsimp only <;> split_ifs <;> decide

end Words

section Changes

section

variable (filter : Filter)

/-- A change that registers an event leaves the filter enabled only if it was asked for. -/
theorem filterFlags_disable (op : Int) (events : BitVec 32) :
    has (filterFlags filter op events &&& ~~~evSysflags) evDisable = !has events filter.event := by
  unfold filterFlags ctlFlags
  cases asked : has events filter.event with
  | true =>
    simp only [if_true]
    split_ifs <;> decide
  | false =>
    simp only [Bool.false_eq_true, if_false]
    split_ifs <;> decide

theorem filterFlags_receipt (op : Int) (events : BitVec 32) :
    has (filterFlags filter op events &&& ~~~evSysflags) evReceipt = false := by
  unfold filterFlags ctlFlags
  split_ifs <;> decide

theorem setChange_receipt (op : Int) (fd : BitVec 32) (event : EpollEvent) :
    has (setChange filter op fd event).masked.flags evReceipt = false :=
  filterFlags_receipt filter op event.events

theorem deleteChange_flags (fd : BitVec 32) : (deleteChange filter fd).masked.flags = evDelete := by
  change evDelete &&& ~~~evSysflags = evDelete
  decide

theorem deleteChange_receipt (fd : BitVec 32) :
    has (deleteChange filter fd).masked.flags evReceipt = false := by
  rw [deleteChange_flags]
  decide

end

variable (faithful : Faithful given kq)

include faithful

variable {fd : BitVec 32} {filter : Filter}

/-- An accepted change makes its registration the last of its filter. -/
theorem Faithful.register {op : Int} {event : EpollEvent}
    (registers : Registers (setChange filter op fd event).masked kq kq') :
    Faithful (update given (fd, filter) (some event)) kq' where
  queued := registers.queued faithful.queued
  knotes key kn found := by
    rcases eq_or_ne key (fd.signExtend 64, filter) with rfl | different
    · obtain ⟨udata, enabled⟩ := registers.own kn found
      refine ⟨fd, event, rfl, update_self .., udata, fun isEnabled => ?_⟩
      have asked := enabled isEnabled
      rw [show (setChange filter op fd event).masked.flags =
        filterFlags filter op event.events &&& ~~~evSysflags from rfl, filterFlags_disable] at asked
      simpa using asked
    · rw [registers.others key different] at found
      obtain ⟨fd', event', ident, last, rest⟩ := faithful.knotes key kn found
      refine ⟨fd', event', ident, ?_, rest⟩
      rw [update_of_ne _, last]
      intro same
      obtain ⟨rfl, rfl⟩ := Prod.mk.inj same
      exact different (Prod.ext ident rfl)

/-- What enables nothing keeps the knotes as they were registered. -/
theorem Faithful.fade (fades : Fades kq kq') (queued : WellQueued kq') : Faithful given kq' where
  queued := queued
  knotes key kn' found' := by
    obtain ⟨kn, found, same, weaker⟩ := fades key kn' found'
    obtain ⟨fd, event, ident, last, udata, asked⟩ := faithful.knotes key kn found
    exact ⟨fd, event, ident, last, same.trans udata, fun enabled => asked (weaker enabled)⟩

theorem Faithful.delete (registers : Registers (deleteChange filter fd).masked kq kq') :
    Faithful given kq' := by
  refine faithful.fade (fun key kn found => ?_) (registers.queued faithful.queued)
  rcases eq_or_ne key (deleteChange filter fd).masked.key with rfl | different
  · have gone : kq'.knotes (deleteChange filter fd).masked.key = none := by
      apply registers.deleted <;> rw [deleteChange_flags] <;> decide
    rw [gone] at found
    cases found
  · rw [registers.others key different] at found
    exact ⟨kn, found, .refl kn⟩

end Changes

section Histories

section

variable (log : List Registration)

theorem registered_append (last : Registration) (interest : Interest) :
    registered (log ++ [last]) interest =
      if last.reaches interest then some last.event else registered log interest := by
  unfold registered
  cases reaches : last.reaches interest with
  | true | false => simp [reaches]

/-- What a call that registers makes of the registrations, by how far it got. -/
theorem registered_accepted (fd : BitVec 32) (event : EpollEvent) :
    registered (log ++ [⟨fd, event, 0⟩]) = registered log ∧
      registered (log ++ [⟨fd, event, 1⟩]) =
        update (registered log) (fd, .read) (some event) ∧
      registered (log ++ [⟨fd, event, 2⟩]) =
        update (update (registered log) (fd, .read) (some event)) (fd, .write)
          (some event) := by
  refine ⟨?_, ?_, ?_⟩ <;> ext1 ⟨fd', filter⟩ <;> rw [registered_append] <;>
    rcases eq_or_ne fd fd' with rfl | different <;> cases filter <;>
    simp_all [Registration.reaches, Filter.index, eq_comm]

/-- A call that is refused at once registers nothing. -/
theorem registered_refused (op : Int) (fd : BitVec 32) (event : Option EpollEvent) :
    registered (log ++ registrations op fd event 0) = registered log := by
  unfold registrations
  split_ifs
  · rw [append_nil]
  · cases event with
    | none => exact congrArg registered (append_nil log)
    | some event => exact (registered_accepted log fd event).1

end

/-- `ff_epoll_ctl` keeps the knotes as they were registered last. -/
theorem Faithful.ctl {log : List Registration} (faithful : Faithful (registered log) kq)
    (files : Files) (op : Int) (fd : BitVec 32) (event : Option EpollEvent) :
    Faithful (registered (log ++
        registrations op fd event (ffEpollCtl files op fd event kq).accepted))
      (ffEpollCtl files op fd event kq).kq := by
  have refused : Faithful (registered (log ++ registrations op fd event 0)) kq := by
    rw [registered_refused]
    exact faithful
  unfold ffEpollCtl
  split_ifs with invalid deletes
  · exact refused
  · -- The first change that fails ends the call, with what was deleted before it.
    rw [registrations, if_pos deletes, append_nil]
    rcases kqueueChanges_pair files _ (deleteChange .write fd) (deleteChange_receipt .read fd) kq with
      ⟨error, same⟩ | ⟨kq', error, read, same⟩ | ⟨kq', kq'', read, write, same⟩
    · rw [same]
      exact faithful
    · rw [same]
      exact faithful.delete read
    · rw [same]
      exact (faithful.delete read).delete write
  · cases event with
    | none => exact refused
    | some event =>
      obtain ⟨none, one, two⟩ := registered_accepted log fd event
      have logged (accepted : Nat) : registrations op fd (some event) accepted =
          [⟨fd, event, accepted⟩] := if_neg deletes
      simp only [logged]
      rcases kqueueChanges_pair files _ (setChange .write op fd event)
        (setChange_receipt .read op fd event) kq with
        ⟨error, same⟩ | ⟨kq', error, read, same⟩ | ⟨kq', kq'', read, write, same⟩
      · rw [same, none]
        exact faithful
      · rw [same, one]
        exact faithful.register read
      · rw [same, two]
        exact (faithful.register read).register write

/-- After a wait the knotes are still as was registered last. -/
theorem Faithful.wait (faithful : Faithful given kq) (files : Files)
    (events : Option (Nat → EpollEvent)) (maxevents timeout : Int) :
    Faithful given (ffEpollWait files events maxevents timeout kq).1 := by
  obtain ⟨fades, -, -, -, queued⟩ := kqueueEvents_spec files maxevents.toNat faithful.queued
  unfold ffEpollWait
  cases events with
  | none => exact faithful
  | some events =>
    split_ifs
    · exact faithful
    · exact faithful.fade fades queued

/-- Every step leaves the knotes as was registered last. -/
theorem Faithful.step {epoll : Epoll} (faithful : Faithful (registered epoll.log) epoll.kq)
    (now : Files × EpollCall) :
    Faithful (registered (epoll.step now).log) (epoll.step now).kq := by
  obtain ⟨files, call⟩ := now
  cases call with
  | ctl op fd event => exact faithful.ctl files op fd event
  | wait events maxevents timeout => exact faithful.wait files events maxevents timeout
  | wakeup key => exact faithful.fade (.knote files key) faithful.queued.knote
  | close fd =>
    exact faithful.fade ((Fades.drop _).trans (Fades.drop _)) faithful.queued.drop.drop

/-- The knotes are as they were registered last, after every history. -/
theorem Epoll.run_faithful (history : List (Files × EpollCall)) :
    Faithful (registered (run history).log) (run history).kq := by
  induction history using reverseRecOn with
  | nil => exact ⟨⟨nodup_nil, nofun⟩, nofun⟩
  | append_singleton history now ih =>
    rw [run, foldl_append]
    exact ih.step now

end Histories

section Entries

/-- The conversion stores the kevents from `next` on, and nothing else. -/
theorem foldl_ffEventToEpoll (kevs : List Kevent) (list : EventList) :
    (∀ i, i < list.next → (kevs.foldl ffEventToEpoll list).slots i = list.slots i) ∧
      ∀ i, (kevs.foldl ffEventToEpoll list).slots (list.next + i) =
        (kevs[i]?).elim (list.slots (list.next + i)) (entryOf · (list.slots (list.next + i))) := by
  induction kevs generalizing list with
  | nil => exact ⟨fun _ _ => rfl, fun _ => rfl⟩
  | cons kev kevs ih =>
    obtain ⟨before, stored⟩ := ih (ffEventToEpoll list kev)
    have other (i : Nat) (different : i ≠ list.next) :
        (ffEventToEpoll list kev).slots i = list.slots i :=
      update_of_ne different ..
    refine ⟨fun i early => ?_, fun i => ?_⟩
    · exact (before i (Nat.lt_succ_of_lt early)).trans (other i (Nat.ne_of_lt early))
    · cases i with
      | zero => exact (before list.next (Nat.lt_succ_self _)).trans (update_self ..)
      | succ i =>
        have place : list.next + (i + 1) = (ffEventToEpoll list kev).next + i := by
          simp only [ffEventToEpoll]
          omega
        have same : (ffEventToEpoll list kev).slots ((ffEventToEpoll list kev).next + i) =
            list.slots (list.next + (i + 1)) := by
          rw [← place]
          exact other _ (by omega)
        rw [← same, place]
        exact stored i

/-- The filter and the descriptor that a kevent is about. -/
def Kevent.interest (kev : Kevent) : Interest := (kev.ident.setWidth 32, kev.filter)

/-- The entry of a kevent that is delivered. -/
theorem Faithful.carries (faithful : Faithful given kq) (delivered : Delivered kq kev)
    (before : EpollEvent) : Carries given kev.interest before (entryOf kev before) := by
  obtain ⟨kn, found, enabled, udata⟩ := delivered
  obtain ⟨fd, event, ident, last, data, asked⟩ := faithful.knotes kev.key kn found
  have descriptor : kev.ident.setWidth 32 = fd := by
    rw [show kev.ident = fd.signExtend 64 from ident, setWidth_signExtend]
  refine ⟨event, ?_, ?_, ?_⟩
  · rw [Kevent.interest, descriptor]
    exact last
  · rw [entryOf, Kevent.interest, udata, data]
    simp only [bne_iff_ne, ite_not]
  · exact (eventOne_within kev).trans (((within_of_has (asked enabled)).or _).or _)

/-- No two kevents of one scan are about the same filter of the same descriptor. -/
theorem Faithful.nodup_interest (faithful : Faithful given kq) {kevs : List Kevent}
    (nodup : (kevs.map Kevent.key).Nodup) (delivered : ∀ kev ∈ kevs, Delivered kq kev) :
    (kevs.map Kevent.interest).Nodup := by
  have known (kev : Kevent) (member : kev ∈ kevs) :
      kev.ident = (kev.ident.setWidth 32).signExtend 64 := by
    obtain ⟨kn, found, -⟩ := delivered kev member
    obtain ⟨fd, event, ident, -⟩ := faithful.knotes kev.key kn found
    have same : kev.ident = fd.signExtend 64 := ident
    rw [same, setWidth_signExtend]
  have pairs : kevs.Pairwise fun kev kev' => kev.key ≠ kev'.key := pairwise_map.mp nodup
  refine pairwise_map.mpr (pairs.imp_of_mem fun {kev kev'} member member' different same => ?_)
  obtain ⟨ident, filter⟩ := Prod.mk.inj same
  have idents : kev.ident = kev'.ident := by
    rw [known kev member, known kev' member', ident]
  exact different (Prod.ext idents filter)

/-- After every history, the entries that `ff_epoll_wait` stores are for filters of
descriptors, none twice: each carries what was registered last for its own. -/
theorem ffEpollWait_reports (history : List (Files × EpollCall)) (files : Files)
    (events : Nat → EpollEvent) (maxevents timeout : Int) :
    match (ffEpollWait files (some events) maxevents timeout (Epoll.run history).kq).2 with
    | .error error => error = .einval ∧ maxevents < 1
    | .ok (count, entries) => ∃ interests : List Interest,
        interests.Nodup ∧ interests.length = count ∧ count ≤ maxevents ∧
          (∀ i interest, interests[i]? = some interest →
            Carries (registered (Epoll.run history).log) interest (events i) (entries i)) ∧
          ∀ i, count ≤ i → entries i = events i := by
  have faithful := Epoll.run_faithful history
  obtain ⟨-, nodup, room, delivered, -⟩ := kqueueEvents_spec files maxevents.toNat faithful.queued
  unfold ffEpollWait
  by_cases few : maxevents < 1
  · simp only [if_pos few]
    exact ⟨trivial, few⟩
  · simp only [if_neg few]
    generalize (kqueueEvents files maxevents.toNat (Epoll.run history).kq).2 = kevs
      at nodup room delivered
    have stored := (foldl_ffEventToEpoll kevs ⟨events, 0⟩).2
    simp only [Nat.zero_add] at stored
    refine ⟨kevs.map Kevent.interest, faithful.nodup_interest nodup delivered, length_map ..,
      by omega, fun i interest listed => ?_, fun i beyond => ?_⟩
    · rw [getElem?_map, Option.map_eq_some_iff] at listed
      obtain ⟨kev, here, rfl⟩ := listed
      rw [stored, here]
      exact faithful.carries (delivered kev (mem_of_getElem? here)) (events i)
    · rw [stored, getElem?_eq_none beyond]
      rfl

/-- What epoll itself promises: no two entries for one descriptor, and exactly the data
that was registered. -/
def ReportsPerFd (given : Interest → Option EpollEvent) (count : Nat)
    (entries : Nat → EpollEvent) : Prop :=
  ∃ fds : List (BitVec 32), fds.Nodup ∧ fds.length = count ∧
    ∀ i fd, fds[i]? = some fd → ∃ filter event, given (fd, filter) = some event ∧
      (entries i).data = event.data ∧
        Within (entries i).events (event.events ||| epollerr ||| epollhup)

/-- Files that are all readable and writable. -/
def ready : Files where
  fget _ := true
  isKqueue _ := false
  attach _ := none
  event _ := ⟨true, 1, none⟩

/-- Descriptor 5 has been added. -/
def addedFive (event : EpollEvent) : Epoll :=
  Epoll.run [(ready, .ctl epollCtlAdd 5 (some event))]

theorem addedFive_registered {event event' : EpollEvent} {interest : Interest}
    (log : (addedFive event).log = [⟨5, event, 2⟩])
    (found : registered (addedFive event).log interest = some event') :
    interest.1 = 5 ∧ event' = event := by
  rw [log] at found
  have last := (registered_append [] ⟨5, event, 2⟩ interest).symm.trans found
  split_ifs at last with reaches
  · simp only [Registration.reaches, Bool.and_eq_true, decide_eq_true_eq] at reaches
    exact ⟨reaches.1.symm, (Option.some.inj last).symm⟩
  · cases last

/-- A descriptor that is both readable and writable gives two entries; and data that is
`NULL` comes back as the descriptor. -/
theorem not_reportsPerFd :
    (∃ count entries,
      (ffEpollWait ready (some fun _ => ⟨0, 0⟩) 8 0 (addedFive ⟨epollin ||| epollout, 0x77⟩).kq).2 =
          .ok (count, entries) ∧
        ¬ReportsPerFd (registered (addedFive ⟨epollin ||| epollout, 0x77⟩).log) count entries) ∧
      ∃ count entries,
        (ffEpollWait ready (some fun _ => ⟨0, 0⟩) 8 0 (addedFive ⟨epollin, 0⟩).kq).2 =
            .ok (count, entries) ∧
          ¬ReportsPerFd (registered (addedFive ⟨epollin, 0⟩).log) count entries := by
  constructor
  · refine ⟨2, _, rfl, ?_⟩
    rintro ⟨fds, nodup, length, all⟩
    obtain ⟨first, second, rfl⟩ := length_eq_two.mp length
    obtain ⟨_, _, found, -⟩ := all 0 first rfl
    obtain ⟨_, _, found', -⟩ := all 1 second rfl
    have five : first = 5 := (addedFive_registered rfl found).1
    have five' : second = 5 := (addedFive_registered rfl found').1
    simp [five, five'] at nodup
  · refine ⟨1, _, rfl, ?_⟩
    rintro ⟨fds, -, length, all⟩
    obtain ⟨fd, rfl⟩ := length_eq_one_iff.mp length
    obtain ⟨_, _, found, data, -⟩ := all 0 fd rfl
    rw [(addedFive_registered rfl found).2] at data
    exact absurd data (by decide)

end Entries

end FStack.Event
