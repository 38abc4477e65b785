import FStack.Event.Reporting
import FStack.Std.Steps

/-!
# What epoll arms

epoll keeps one set of events for a descriptor, and a registration with
`EPOLLONESHOT` that has reported once stays, without events, until it is modified.
`Watch` runs `ff_epoll_ctl` and `ff_epoll_wait` beside that. The two agree for as long
as no one-shot registration reports: `EV_ONESHOT` deletes the filter that has
reported and leaves the other, so that a later change finds one of its two knotes
missing and stops there.
-/

namespace FStack.Event

open Bool Function Option Steps

section Prescription

/-- What epoll keeps for a descriptor: the events that were asked for last, and whether
a one-shot registration has reported since. -/
structure Subscription where
  events : BitVec 32
  spent : Bool
deriving DecidableEq, Repr

/-- Whether epoll reports a filter. -/
def Subscription.arms (sub : Subscription) (filter : Filter) : Bool :=
  has sub.events filter.event && !sub.spent

abbrev Subscriptions := BitVec 32 → Option Subscription

/-- A descriptor that a kqueue takes. -/
def Files.opens (files : Files) (fd : BitVec 32) : Bool :=
  !(decide (0x7fffffff < fd.signExtend 64) || !files.fget (fd.signExtend 64)) &&
    !files.isKqueue (fd.signExtend 64)

/-- Both filters can be attached to a descriptor. -/
def Files.attaches (files : Files) (fd : BitVec 32) : Bool :=
  (files.attach (fd.signExtend 64, .read)).isNone && (files.attach (fd.signExtend 64, .write)).isNone

/-- The calls that epoll accepts. -/
def Subscriptions.accepts (subs : Subscriptions) (files : Files) (op : Int) (fd : BitVec 32)
    (event : Option EpollEvent) : Bool :=
  files.opens fd &&
    if op = epollCtlAdd then event.isSome && ((subs fd).isSome || files.attaches fd)
    else if op = epollCtlMod then event.isSome && (subs fd).isSome
    else op = epollCtlDel && (subs fd).isSome

/-- What epoll makes of a call; `reported` are the descriptors that a wait has reported. -/
def Subscriptions.step (subs : Subscriptions) (reported : List (BitVec 32)) :
    Files × EpollCall → Subscriptions
  | (files, .ctl op fd event) =>
    if subs.accepts files op fd event then
      update subs fd
        (if op = epollCtlDel then none else event.map fun event => ⟨event.events, false⟩)
    else subs
  | (_, .wait ..) => fun fd => (subs fd).map fun sub =>
    if has sub.events epolloneshot && reported.contains fd then { sub with spent := true }
    else sub
  | (_, .wakeup _) => subs
  | (_, .close fd) => update subs fd none

/-- The descriptors that a wait reports. -/
def Kqueue.reports (kq : Kqueue) : Files × EpollCall → List (BitVec 32)
  | (files, .wait (some _) maxevents _) =>
    if maxevents < 1 then []
    else (kqueueEvents files maxevents.toNat kq).2.map fun kev => kev.ident.setWidth 32
  | _ => []

/-- The descriptor for which a call asks for `EPOLLONESHOT`. -/
def asksOneshot (fd : BitVec 32) : Files × EpollCall → Bool
  | (_, .ctl op fd' (some event)) =>
    op ≠ epollCtlDel && fd' = fd && has event.events epolloneshot
  | _ => false

/-- An epoll instance beside what epoll prescribes for it, and the descriptors for which
`EPOLLONESHOT` was ever asked for. -/
structure Watch where
  epoll : Epoll
  subs : Subscriptions
  oneshot : BitVec 32 → Bool

def Watch.step (watch : Watch) (now : Files × EpollCall) : Watch where
  epoll := watch.epoll.step now
  subs := watch.subs.step (watch.epoll.kq.reports now) now
  oneshot fd := watch.oneshot fd || asksOneshot fd now

/-- After `ff_epoll_create`. -/
def Watch.created : Watch := ⟨⟨.empty, []⟩, fun _ => none, fun _ => false⟩

/-- Whether a filter of a descriptor is enabled. -/
def Kqueue.enabled (kq : Kqueue) (fd : BitVec 32) (filter : Filter) : Bool :=
  (kq.knotes (fd.signExtend 64, filter)).any fun kn => !kn.disabled

/-- The filters are those that epoll prescribes. -/
structure Agrees (subs : Subscriptions) (kq : Kqueue) : Prop where
  enabled : ∀ fd filter, kq.enabled fd filter = (subs fd).any (·.arms filter)
  removed : ∀ fd filter, subs fd = none → kq.knotes (fd.signExtend 64, filter) = none

/-- A step leaves the filters that epoll prescribes; a call of `ff_epoll_ctl` succeeds
where epoll accepts it, and changes nothing otherwise. -/
structure AsPrescribed (watch : Watch) (now : Files × EpollCall) : Prop where
  agrees : Agrees (watch.step now).subs (watch.step now).epoll.kq
  answers : ∀ files op fd event, now = (files, .ctl op fd event) →
    ((ffEpollCtl files op fd event watch.epoll.kq).error = none ↔
      watch.subs.accepts files op fd event = true)
  unchanged : ∀ files op fd event, now = (files, .ctl op fd event) →
    (ffEpollCtl files op fd event watch.epoll.kq).error ≠ none →
      (ffEpollCtl files op fd event watch.epoll.kq).kq = watch.epoll.kq

/-- No descriptor for which `EPOLLONESHOT` was asked for is reported, and a write filter
can be attached wherever a read filter can. -/
def Untroubled (watch : Watch) : Files × EpollCall → Prop
  | (files, .ctl _ fd _) => files.attach (fd.signExtend 64, .read) = none →
      files.attach (fd.signExtend 64, .write) = none
  | now => ∀ fd ∈ watch.epoll.kq.reports now, watch.oneshot fd = false

instance (watch : Watch) : ∀ now, Decidable (Untroubled watch now)
  | (_, .ctl ..) => inferInstanceAs (Decidable (_ → _))
  | (_, .wait ..) | (_, .wakeup _) | (_, .close _) => List.decidableBAll ..

end Prescription

variable {files : Files} {key : Key} {kn kn' : Knote} {kq kq' kq'' : Kqueue} {fd : BitVec 32}
  {asked : Bool} {watch : Watch}

section Flags

/-- The flags of a knote that comes from `ff_epoll_ctl`. -/
structure Knote.Tame (asked : Bool) (kn : Knote) : Prop where
  drop : has kn.flags evDrop = false
  dispatch : has kn.flags evDispatch = false
  oneshot : has kn.flags evOneshot = true → asked = true

theorem Knote.Tame.mono {asked' : Bool} (tame : kn.Tame asked)
    (wider : asked = true → asked' = true) : kn.Tame asked' :=
  ⟨tame.drop, tame.dispatch, fun oneshot => wider (tame.oneshot oneshot)⟩

/-- Evaluating its filter keeps the flags of a knote. -/
theorem Knote.Tame.fEvent (tame : kn.Tame asked) (report : Report) :
    (kn.fEvent report).Tame asked := by
  unfold Knote.fEvent
  cases report.eof with
  | none => exact ⟨tame.drop, tame.dispatch, tame.oneshot⟩
  | some error =>
    have eof (mask : BitVec 16) (other : has evEof mask = false) :
        has (kn.flags ||| evEof) mask = has kn.flags mask := by
      rw [has_or, other, Bool.or_false]
    refine ⟨(eof _ (by decide)).trans tame.drop, (eof _ (by decide)).trans tame.dispatch,
      fun oneshot => tame.oneshot ?_⟩
    exact (eof _ (by decide)).symm.trans oneshot

theorem fEvent_disabled (kn : Knote) (report : Report) :
    (kn.fEvent report).disabled = kn.disabled := by
  unfold Knote.fEvent
  split <;> rfl

section

variable (filter : Filter) (op : Int) (events : BitVec 32)

theorem filterFlags_plain :
    has (filterFlags filter op events &&& ~~~evSysflags) evDelete = false ∧
      has (filterFlags filter op events &&& ~~~evSysflags) evForceOneshot = false := by
  unfold filterFlags ctlFlags
  split_ifs <;> decide

theorem filterFlags_enable :
    has (filterFlags filter op events &&& ~~~evSysflags) evEnable = has events filter.event := by
  unfold filterFlags ctlFlags
  cases has events filter.event with
  | true =>
    simp only [if_true]
    split_ifs <;> decide
  | false =>
    simp only [false_eq_true, if_false]
    split_ifs <;> decide

theorem filterFlags_add :
    has (filterFlags filter op events &&& ~~~evSysflags) evAdd = decide (op = epollCtlAdd) := by
  unfold filterFlags ctlFlags
  by_cases add : op = epollCtlAdd
  · simp only [add]
    split_ifs <;> decide
  · simp only [add, if_false]
    split_ifs <;> decide

end

theorem newKnote_flags (filter : Filter) (op : Int) (event : EpollEvent) :
    (newKnote (setChange filter op fd event).masked).flags =
      (if has event.events epollet then evClear else 0) |||
        if has event.events epolloneshot then evOneshot else 0 := by
  change filterFlags filter op event.events &&& ~~~evSysflags &&&
    ~~~(evAdd ||| evDelete ||| evEnable ||| evDisable ||| evForceOneshot) = _
  unfold filterFlags ctlFlags
  split_ifs <;> decide

/-- A new knote is for one shot only if that was asked. -/
theorem newKnote_tame {op : Int} {event : EpollEvent} (filter : Filter)
    (asks : has event.events epolloneshot = true → asked = true) :
    (newKnote (setChange filter op fd event).masked).Tame asked := by
  refine ⟨?_, ?_, fun oneshot => asks ?_⟩
  · rw [newKnote_flags]
    split_ifs <;> decide
  · rw [newKnote_flags]
    split_ifs <;> decide
  · by_contra plain
    rw [newKnote_flags] at oneshot
    split_ifs at oneshot <;> exact absurd oneshot (by decide)

end Flags

section Changes

/-- There is a knote, disabled or not. -/
def Kqueue.Holds (kq : Kqueue) (key : Key) (disabled asked : Bool) : Prop :=
  ∃ kn, kq.knotes key = some kn ∧ kn.disabled = disabled ∧ kn.Tame asked

/-- What an accepted registration leaves of its filter. -/
structure Sets (asked : Bool) (key : Key) (disabled : Bool) (kq kq' : Kqueue) : Prop where
  others : ∀ other, other ≠ key → kq'.knotes other = kq.knotes other
  own : kq'.Holds key disabled asked

theorem Sets.put {disabled : Bool} (same : kn.disabled = disabled) (tame : kn.Tame asked) :
    Sets asked key disabled kq (kq.put key kn) :=
  ⟨fun _ different => put_of_ne different, kn, put_self, same, tame⟩

variable {kev : Kevent}

/-- A change enables or disables its own knote. -/
theorem doneEvAdd_sets (exclusive : has kev.flags evEnable = !has kev.flags evDisable)
    (tame : kn.Tame asked) :
    Sets asked kev.key (has kev.flags evDisable) kq (doneEvAdd files kev kn kq) := by
  unfold doneEvAdd
  cases disable : has kev.flags evDisable with
  | true =>
    simp only [exclusive, disable]
    exact .put rfl ⟨tame.drop, tame.dispatch, tame.oneshot⟩
  | false =>
    simp only [exclusive, disable]
    have awake : ({ kn with disabled := false } : Knote).Tame asked :=
      ⟨tame.drop, tame.dispatch, tame.oneshot⟩
    have found := awake.fEvent (files.event kev.key)
    exact .put (fEvent_disabled ..) ⟨found.drop, found.dispatch, found.oneshot⟩

/-- A closed descriptor is refused. -/
theorem kqueueRegister_closed (closed : files.opens fd = false)
    (ident : kev.ident = fd.signExtend 64) :
    ∃ error, kqueueRegister files kev kq = (kq, some error) := by
  rw [kqueueRegister, ident]
  rw [Files.opens, and_eq_false_iff, not_eq_false', not_eq_false'] at closed
  by_cases both : (has kev.flags evEnable && has kev.flags evDisable) = true
  · exact ⟨_, if_pos both⟩
  by_cases invalid : (decide (0x7fffffff < fd.signExtend 64) ||
      !files.fget (fd.signExtend 64)) = true
  · exact ⟨_, (if_neg both).trans (if_pos invalid)⟩
  · have own := closed.resolve_left invalid
    exact ⟨_, (if_neg both).trans ((if_neg invalid).trans (if_pos own))⟩

/-- `kqueue_register` behind its checks of the descriptor. -/
theorem kqueueRegister_opens (opens : files.opens fd = true) (ident : kev.ident = fd.signExtend 64)
    (consistent : (has kev.flags evEnable && has kev.flags evDisable) = false)
    (unforced : has kev.flags evForceOneshot = false) :
    kqueueRegister files kev kq =
      match kq.knotes kev.key with
      | none =>
        if has kev.flags evAdd then
          match files.attach kev.key with
          | some error => (kq, some error)
          | none => (doneEvAdd files kev (newKnote kev) kq, none)
        else (kq, some .enoent)
      | some kn =>
        if has kev.flags evDelete then (knoteDrop kev.key kq, none)
        else (doneEvAdd files kev { kn with udata := kev.udata } kq, none) := by
  rw [Files.opens, and_eq_true, not_eq_true', not_eq_true'] at opens
  rw [kqueueRegister, consistent, ident, opens.1, opens.2, unforced]
  rfl

variable {event : EpollEvent} {op : Int} {filter : Filter}

theorem setChange_exclusive (filter : Filter) (op : Int) (fd : BitVec 32) (event : EpollEvent) :
    has (setChange filter op fd event).masked.flags evEnable =
      !has (setChange filter op fd event).masked.flags evDisable := by
  have enable := filterFlags_enable filter op event.events
  have disable := filterFlags_disable filter op event.events
  exact enable.trans ((not_not _).symm.trans (congrArg _ disable.symm))

section

variable (opens : files.opens fd = true)

include opens

/-- A change is made to the knote that is there, or to a new one. -/
theorem kqueueRegister_set (filter : Filter) (op : Int) (event : EpollEvent) (kq : Kqueue) :
    kqueueRegister files (setChange filter op fd event).masked kq =
      match kq.knotes (fd.signExtend 64, filter) with
      | none =>
        if op = epollCtlAdd then
          match files.attach (fd.signExtend 64, filter) with
          | some error => (kq, some error)
          | none => (doneEvAdd files (setChange filter op fd event).masked
              (newKnote (setChange filter op fd event).masked) kq, none)
        else (kq, some .enoent)
      | some kn => (doneEvAdd files (setChange filter op fd event).masked
          { kn with udata := event.data } kq, none) := by
  have exclusive := setChange_exclusive filter op fd event
  obtain ⟨delete, force⟩ := filterFlags_plain filter op event.events
  have add := filterFlags_add filter op event.events
  rw [kqueueRegister_opens opens rfl (by rw [exclusive, Bool.not_and_self]) force]
  change (match kq.knotes (fd.signExtend 64, filter) with
    | none => if has (filterFlags filter op event.events &&& ~~~evSysflags) evAdd = true then _ else _
    | some kn => if has (filterFlags filter op event.events &&& ~~~evSysflags) evDelete = true then _
        else _) = _
  simp only [add, delete, decide_eq_true_eq]
  rfl

/-- It arms the filter as was asked for, where there is a knote or one can be attached. -/
theorem kqueueRegister_sets
    (tame : ∀ kn, kq.knotes (fd.signExtend 64, filter) = some kn → kn.Tame asked)
    (asks : has event.events epolloneshot = true → asked = true)
    (possible : (kq.knotes (fd.signExtend 64, filter)).isSome = true ∨
      op = epollCtlAdd ∧ files.attach (fd.signExtend 64, filter) = none) :
    ∃ kq', kqueueRegister files (setChange filter op fd event).masked kq = (kq', none) ∧
      Sets asked (fd.signExtend 64, filter) (!has event.events filter.event) kq kq' := by
  have exclusive := setChange_exclusive filter op fd event
  have disable := filterFlags_disable filter op event.events
  rw [kqueueRegister_set opens]
  cases found : kq.knotes (fd.signExtend 64, filter) with
  | none =>
    rw [found] at possible
    obtain ⟨add, attach⟩ := possible.resolve_left nofun
    simp only [attach]
    subst add
    have sets := @doneEvAdd_sets files _ kq asked _ exclusive
      (@newKnote_tame fd asked epollCtlAdd event filter asks)
    exact ⟨_, rfl, disable ▸ sets⟩
  | some kn =>
    have tame := tame kn found
    have sets := @doneEvAdd_sets files { kn with udata := event.data } kq asked _ exclusive
      ⟨tame.drop, tame.dispatch, tame.oneshot⟩
    exact ⟨_, rfl, disable ▸ sets⟩

theorem kqueueRegister_set_missing (absent : kq.knotes (fd.signExtend 64, filter) = none)
    (impossible : op = epollCtlAdd → files.attach (fd.signExtend 64, filter) ≠ none) :
    ∃ error, kqueueRegister files (setChange filter op fd event).masked kq = (kq, some error) := by
  rw [kqueueRegister_set opens, absent]
  by_cases add : op = epollCtlAdd
  · obtain ⟨error, attach⟩ := ne_none_iff_exists'.mp (impossible add)
    exact ⟨error, by simp only [add, attach, if_true]⟩
  · exact ⟨_, if_neg add⟩

theorem kqueueRegister_delete (filter : Filter) (kq : Kqueue) :
    kqueueRegister files (deleteChange filter fd).masked kq =
      match kq.knotes (fd.signExtend 64, filter) with
      | none => (kq, some .enoent)
      | some _ => (knoteDrop (fd.signExtend 64, filter) kq, none) := by
  have flags := deleteChange_flags filter fd
  rw [kqueueRegister_opens opens rfl (by rw [flags]; decide) (by rw [flags]; decide), flags]
  rfl

end

/-- Both filters are armed as was asked for. -/
theorem ffEpollCtl_sets (registers : op = epollCtlAdd ∨ op = epollCtlMod)
    (opens : files.opens fd = true)
    (tame : ∀ filter kn, kq.knotes (fd.signExtend 64, filter) = some kn → kn.Tame asked)
    (asks : has event.events epolloneshot = true → asked = true)
    (possible : ∀ filter, (kq.knotes (fd.signExtend 64, filter)).isSome = true ∨
      op = epollCtlAdd ∧ files.attach (fd.signExtend 64, filter) = none) :
    ∃ kq', ffEpollCtl files op fd (some event) kq = ⟨kq', 2, none⟩ ∧
      (∀ filter, kq'.Holds (fd.signExtend 64, filter) (!has event.events filter.event) asked) ∧
      ∀ other, (∀ filter, other ≠ (fd.signExtend 64, filter)) →
        kq'.knotes other = kq.knotes other := by
  obtain ⟨kq', read, readSets⟩ :=
    @kqueueRegister_sets files kq fd asked event op .read opens (tame .read) asks (possible .read)
  have untouched := readSets.others (fd.signExtend 64, .write) (by simp)
  obtain ⟨kq'', write, writeSets⟩ :=
    @kqueueRegister_sets files kq' fd asked event op .write opens
      (fun kn found => tame .write kn (untouched.symm.trans found)) asks
      (untouched ▸ possible .write)
  refine ⟨kq'', ?_, fun filter => ?_, fun other different => ?_⟩
  · have changes : kqueueChanges files
        [setChange .read op fd event, setChange .write op fd event] kq = ⟨kq'', 2, none⟩ := by
      simp [kqueueChanges, read, write, setChange_receipt]
    rcases registers with rfl | rfl <;> exact changes
  · cases filter with
    | read =>
      obtain ⟨kn, found, rest⟩ := readSets.own
      exact ⟨kn, (writeSets.others _ (by simp)).trans found, rest⟩
    | write => exact writeSets.own
  · exact (writeSets.others other (different .write)).trans
      (readSets.others other (different .read))

/-- A call whose read filter is refused changes nothing. -/
theorem ffEpollCtl_refused (registers : op = epollCtlAdd ∨ op = epollCtlMod)
    (refused : ∃ error, kqueueRegister files (setChange .read op fd event).masked kq =
      (kq, some error)) :
    ∃ error, ffEpollCtl files op fd (some event) kq = ⟨kq, 0, some error⟩ := by
  obtain ⟨error, refused⟩ := refused
  have changes : kqueueChanges files
      [setChange .read op fd event, setChange .write op fd event] kq = ⟨kq, 0, some error⟩ := by
    simp [kqueueChanges, refused]
  refine ⟨error, ?_⟩
  rcases registers with rfl | rfl <;> exact changes

variable {event : Option EpollEvent}

/-- A deletion drops both knotes. -/
theorem ffEpollCtl_deletes (opens : files.opens fd = true)
    (found : ∀ filter, (kq.knotes (fd.signExtend 64, filter)).isSome = true) :
    ffEpollCtl files epollCtlDel fd event kq =
      ⟨knoteDrop (fd.signExtend 64, .write) (knoteDrop (fd.signExtend 64, .read) kq), 2, none⟩ := by
  obtain ⟨read, foundRead⟩ := isSome_iff_exists.mp (found .read)
  obtain ⟨write, foundWrite⟩ := isSome_iff_exists.mp (found .write)
  have untouched : (knoteDrop (fd.signExtend 64, .read) kq).knotes (fd.signExtend 64, .write) =
      some write := (knoteDrop_of_ne (by simp)).trans foundWrite
  have first := kqueueRegister_delete opens .read kq
  have second := kqueueRegister_delete opens .write (knoteDrop (fd.signExtend 64, .read) kq)
  rw [foundRead] at first
  rw [untouched] at second
  have changes : kqueueChanges files [deleteChange .read fd, deleteChange .write fd] kq =
      ⟨knoteDrop (fd.signExtend 64, .write) (knoteDrop (fd.signExtend 64, .read) kq), 2, none⟩ := by
    simp [kqueueChanges, first, second, deleteChange_receipt]
  cases event <;> exact changes

/-- A deletion whose read filter is refused changes nothing. -/
theorem ffEpollCtl_delete_refused
    (refused : ∃ error, kqueueRegister files (deleteChange .read fd).masked kq = (kq, some error)) :
    ∃ error, ffEpollCtl files epollCtlDel fd event kq = ⟨kq, 0, some error⟩ := by
  obtain ⟨error, refused⟩ := refused
  have changes : kqueueChanges files [deleteChange .read fd, deleteChange .write fd] kq =
      ⟨kq, 0, some error⟩ := by
    simp [kqueueChanges, refused]
  refine ⟨error, ?_⟩
  cases event <;> exact changes

end Changes

section Scanning

/-- A scan of one knote leaves the others alone. -/
theorem scanKnote_others {other : Key} (different : other ≠ key) :
    (scanKnote files key kq).1.knotes other = kq.knotes other := by
  unfold scanKnote
  cases kq.knotes key with
  | none => rfl
  | some kn =>
    dsimp only
    split_ifs
    · rfl
    · exact knoteDrop_of_ne different
    · exact knoteDrop_of_ne different
    all_goals exact update_of_ne different ..

variable {disabled : Bool}

/-- A scan leaves a knote, unless it is to be reported once. -/
theorem scanKnote_own (holds : kq.Holds key disabled asked) :
    (asked = true ∧ ∃ kev, (scanKnote files key kq).2 = some kev ∧ kev.key = key) ∨
      (scanKnote files key kq).1.Holds key disabled asked := by
  obtain ⟨kn, found, rfl, tame⟩ := holds
  have tame' := tame.fEvent (files.event key)
  have same := fEvent_disabled kn (files.event key)
  unfold scanKnote
  simp only [found, tame.drop, false_eq_true, if_false]
  by_cases disabled : kn.disabled = true
  · rw [if_pos disabled]
    exact .inr ⟨kn, found, rfl, tame⟩
  rw [if_neg disabled]
  by_cases oneshot : has kn.flags evOneshot = true
  · rw [if_pos oneshot]
    exact .inl ⟨tame.oneshot oneshot, _, rfl, rfl⟩
  right
  have stored (kn' : Knote) (head : List Key) (flags : kn'.flags = (kn.fEvent (files.event key)).flags)
      (kept : kn'.disabled = kn.disabled) :
      Kqueue.Holds ⟨update kq.knotes key (some kn'), head⟩ key kn.disabled asked :=
    ⟨kn', update_self .., kept, flags ▸ tame'.drop, flags ▸ tame'.dispatch,
      flags ▸ tame'.oneshot⟩
  split_ifs
  · exact stored _ _ rfl same
  · exact stored _ _ rfl (by simp [same, tame'.dispatch])
  · exact stored _ _ rfl (by simp [same, tame'.dispatch])
  · exact stored _ _ rfl same

/-- A knote that is not reported keeps its state. -/
theorem kqueueScan_keeps (queue : List Key) (count : Nat) (holds : kq.Holds key disabled asked)
    (quiet : ∀ kev ∈ (kqueueScan files queue count kq).2, kev.key = key → asked = false) :
    (kqueueScan files queue count kq).1.Holds key disabled asked := by
  induction queue generalizing count kq with
  | nil => exact holds
  | cons first queue ih =>
    cases count with
    | zero => exact holds
    | succ count =>
      have others (different : key ≠ first) :=
        @scanKnote_others files first kq key different
      have own (same : key = first) := @scanKnote_own files first kq asked disabled (same ▸ holds)
      rw [kqueueScan] at quiet ⊢
      generalize scanKnote files first kq = next at quiet others own ⊢
      obtain ⟨kq', reported⟩ := next
      have holds' : kq'.Holds key disabled asked := by
        rcases eq_or_ne key first with rfl | different
        · rcases own rfl with ⟨once, kev, rfl, same⟩ | kept
          · exact absurd once (eq_false_iff.mp (quiet kev (.head _) same))
          · exact kept
        · obtain ⟨kn, found, rest⟩ := holds
          exact ⟨kn, (others different).trans found, rest⟩
      cases reported with
      | none => exact ih (count + 1) holds' quiet
      | some kev => exact ih count holds' fun kev' member => quiet kev' (.tail _ member)

end Scanning

section Steps

/-- The knotes of a filter are as epoll prescribes. -/
def Backs (filter : Filter) (sub : Option Subscription) (asked : Bool) (fd : BitVec 32)
    (kq : Kqueue) : Prop :=
  match sub with
  | none => kq.knotes (fd.signExtend 64, filter) = none
  | some sub => sub.spent = false ∧ (has sub.events epolloneshot = true → asked = true) ∧
      kq.Holds (fd.signExtend 64, filter) (!has sub.events filter.event) asked

def Armed (watch : Watch) : Prop :=
  ∀ fd filter, Backs filter (watch.subs fd) (watch.oneshot fd) fd watch.epoll.kq

/-- The filters are those that epoll prescribes. -/
theorem Armed.agrees (armed : Armed watch) : Agrees watch.subs watch.epoll.kq where
  enabled fd filter := by
    have backs := armed fd filter
    unfold Kqueue.enabled
    cases sub : watch.subs fd with
    | none =>
      rw [sub] at backs
      rw [show watch.epoll.kq.knotes _ = none from backs]
      rfl
    | some sub' =>
      rw [sub] at backs
      obtain ⟨fresh, -, kn, found, disabled, -⟩ := backs
      rw [found]
      simp [Subscription.arms, disabled, fresh]
  removed fd filter gone := by
    have backs := armed fd filter
    rwa [gone] at backs

theorem key_ne {fd fd' : BitVec 32} (different : fd ≠ fd') (filter filter' : Filter) :
    ((fd.signExtend 64, filter) : Key) ≠ (fd'.signExtend 64, filter') := by
  intro same
  have idents := congrArg (BitVec.setWidth 32) (Prod.mk.inj same).1
  rw [setWidth_signExtend, setWidth_signExtend] at idents
  exact different idents

variable {filter : Filter} {event : Option EpollEvent} {sub : Option Subscription}

/-- What is known about a filter stays known when its knote stays. -/
theorem Backs.of_knotes {asked' : Bool} (backs : Backs filter sub asked fd kq)
    (wider : asked = true → asked' = true)
    (same : kq'.knotes (fd.signExtend 64, filter) = kq.knotes (fd.signExtend 64, filter)) :
    Backs filter sub asked' fd kq' := by
  cases sub with
  | none => exact trans same backs
  | some sub =>
    obtain ⟨fresh, asks, kn, found, disabled, tame⟩ := backs
    exact ⟨fresh, fun oneshot => wider (asks oneshot), kn, same.trans found, disabled,
      tame.mono wider⟩

/-- How a call of `ff_epoll_ctl` ends: refused, as epoll refuses it, or accepted with its
descriptor as prescribed. -/
inductive CtlOutcome (watch : Watch) (files : Files) (op : Int) (fd : BitVec 32)
    (event : Option EpollEvent) : Prop
  | refused (error : Errno)
      (ends : ffEpollCtl files op fd event watch.epoll.kq = ⟨watch.epoll.kq, 0, some error⟩)
      (refuses : watch.subs.accepts files op fd event = false)
  | accepted (kq : Kqueue) (ends : ffEpollCtl files op fd event watch.epoll.kq = ⟨kq, 2, none⟩)
      (accepts : watch.subs.accepts files op fd event = true)
      (own : ∀ filter, Backs filter
        (if op = epollCtlDel then none else event.map fun event => ⟨event.events, false⟩)
        (watch.oneshot fd || asksOneshot fd (files, .ctl op fd event)) fd kq)
      (others : ∀ other, (∀ filter, other ≠ (fd.signExtend 64, filter)) →
        kq.knotes other = watch.epoll.kq.knotes other)

section

variable (armed : Armed watch)

include armed

/-- The filters of a descriptor have knotes just when it is registered. -/
theorem Armed.isSome (fd : BitVec 32) (filter : Filter) :
    (watch.epoll.kq.knotes (fd.signExtend 64, filter)).isSome = (watch.subs fd).isSome := by
  have backs := armed fd filter
  cases sub : watch.subs fd with
  | none =>
    rw [sub] at backs
    exact congrArg Option.isSome backs
  | some sub' =>
    rw [sub] at backs
    obtain ⟨-, -, kn, found, -⟩ := backs
    exact congrArg Option.isSome found

/-- The knotes of a descriptor are for one shot only if that was asked. -/
theorem Armed.tame (found : watch.epoll.kq.knotes (fd.signExtend 64, filter) = some kn) :
    kn.Tame (watch.oneshot fd) := by
  have backs := armed fd filter
  cases sub : watch.subs fd with
  | none =>
    rw [sub] at backs
    exact absurd (found.symm.trans backs) nofun
  | some sub' =>
    rw [sub] at backs
    obtain ⟨-, -, kn', found', -, tame⟩ := backs
    cases found.symm.trans found'
    exact tame

variable {op : Int}

/-- ADD and MOD end as epoll prescribes. -/
theorem Armed.registers {event : EpollEvent} (registers : op = epollCtlAdd ∨ op = epollCtlMod)
    (attach : files.attach (fd.signExtend 64, .read) = none →
      files.attach (fd.signExtend 64, .write) = none) :
    CtlOutcome watch files op fd (some event) := by
  have kept : op ≠ epollCtlDel := by
    rcases registers with rfl | rfl <;> decide
  cases opens : files.opens fd with
  | false =>
    obtain ⟨error, ends⟩ := @ffEpollCtl_refused files watch.epoll.kq fd event op registers
      (kqueueRegister_closed opens rfl)
    exact .refused error ends (by simp [Subscriptions.accepts, opens])
  | true =>
    by_cases possible : ((watch.subs fd).isSome = true) ∨ op = epollCtlAdd ∧
        files.attach (fd.signExtend 64, .read) = none
    · have asks : has event.events epolloneshot = true →
          (watch.oneshot fd || asksOneshot fd (files, .ctl op fd (some event))) = true := by
        intro oneshot
        simp [asksOneshot, kept, oneshot]
      obtain ⟨kq', ends, own, others⟩ :=
        @ffEpollCtl_sets files watch.epoll.kq fd _ event op registers opens
          (fun filter kn found => (armed.tame found).mono fun asked => by simp [asked]) asks
          fun filter => by
            rw [armed.isSome]
            refine possible.imp id fun ⟨add, read⟩ => ⟨add, ?_⟩
            cases filter with
            | read => exact read
            | write => exact attach read
      refine .accepted kq' ends ?_ (fun filter => ?_) others
      · rcases registers with rfl | rfl
        · rcases possible with known | ⟨-, read⟩
          · simp [Subscriptions.accepts, opens, known]
          · simp [Subscriptions.accepts, Files.attaches, opens, read, attach read]
        · have known := possible.resolve_right fun both => absurd both.1 (by decide)
          simp [Subscriptions.accepts, opens, known]
      · rw [if_neg kept]
        exact ⟨rfl, asks, own filter⟩
    · obtain ⟨unknown, cannot⟩ := not_or.mp possible
      have absent := not_isSome_iff_eq_none.mp ((armed.isSome fd .read) ▸ unknown)
      obtain ⟨error, ends⟩ := @ffEpollCtl_refused files watch.epoll.kq fd event op registers
        (kqueueRegister_set_missing opens absent fun add read => cannot ⟨add, read⟩)
      refine .refused error ends ?_
      rcases registers with rfl | rfl
      · have detached : files.attach (fd.signExtend 64, .read) ≠ none :=
          fun read => cannot ⟨rfl, read⟩
        simp [Subscriptions.accepts, Files.attaches, unknown, detached]
      · simp [Subscriptions.accepts, unknown, epollCtlAdd, epollCtlMod]

/-- DEL ends as epoll prescribes. -/
theorem Armed.deletes : CtlOutcome watch files epollCtlDel fd event := by
  cases opens : files.opens fd with
  | false =>
    obtain ⟨error, ends⟩ := @ffEpollCtl_delete_refused files watch.epoll.kq fd event
      (kqueueRegister_closed opens rfl)
    exact .refused error ends (by simp [Subscriptions.accepts, opens])
  | true =>
    cases known : (watch.subs fd).isSome with
    | false =>
      have absent := not_isSome_iff_eq_none.mp
        (eq_false_iff.mp ((armed.isSome fd .read).trans known))
      have missing := kqueueRegister_delete opens .read watch.epoll.kq
      rw [absent] at missing
      obtain ⟨error, ends⟩ := @ffEpollCtl_delete_refused files watch.epoll.kq fd event ⟨_, missing⟩
      refine .refused error ends ?_
      simp [Subscriptions.accepts, known, epollCtlAdd, epollCtlDel]
    | true =>
      refine .accepted _ (ffEpollCtl_deletes opens fun filter => (armed.isSome fd filter).trans known)
        ?_ (fun filter => ?_) fun other different => ?_
      · simp [Subscriptions.accepts, opens, known, epollCtlAdd, epollCtlMod, epollCtlDel]
      · rw [if_pos rfl]
        cases filter with
        | read => exact (knoteDrop_of_ne (by simp)).trans knoteDrop_self
        | write => exact knoteDrop_self
      · rw [knoteDrop_of_ne (different .write), knoteDrop_of_ne (different .read)]

/-- Every call of `ff_epoll_ctl` ends as epoll prescribes. -/
theorem Armed.ctl (attach : files.attach (fd.signExtend 64, .read) = none →
      files.attach (fd.signExtend 64, .write) = none) : CtlOutcome watch files op fd event := by
  by_cases deletes : op = epollCtlDel
  · subst deletes
    exact armed.deletes
  by_cases registers : op = epollCtlAdd ∨ op = epollCtlMod
  · cases event with
    | some event => exact armed.registers registers attach
    | none =>
      refine .refused .einval ?_ ?_
      · simp [ffEpollCtl, deletes]
      · rcases registers with rfl | rfl <;>
          simp [Subscriptions.accepts]
  · obtain ⟨notAdd, notMod⟩ := not_or.mp registers
    refine .refused .einval ?_ ?_
    · simp [ffEpollCtl, deletes, notAdd, notMod]
    · simp [Subscriptions.accepts, deletes, notAdd, notMod]

/-- After such a call the filters are again as prescribed. -/
theorem Armed.step_ctl (outcome : CtlOutcome watch files op fd event) :
    Armed (watch.step (files, .ctl op fd event)) := by
  intro fd' filter
  have wider : watch.oneshot fd' = true →
      (watch.oneshot fd' || asksOneshot fd' (files, .ctl op fd event)) = true := by
    intro asked
    rw [asked, Bool.true_or]
  cases outcome with
  | refused error ends refuses =>
    simp only [Watch.step, Epoll.step, Subscriptions.step, ends, refuses]
    exact (armed fd' filter).of_knotes wider rfl
  | accepted kq ends accepts own others =>
    simp only [Watch.step, Epoll.step, Subscriptions.step, ends, accepts, if_true]
    rcases eq_or_ne fd' fd with rfl | different
    · rw [update_self]
      exact own filter
    · rw [update_of_ne different]
      exact (armed fd' filter).of_knotes wider
        (others _ (key_ne different filter))

end

/-- What a wait leaves of the knotes of a filter. -/
theorem Backs.wait (files : Files) (events : Option (Nat → EpollEvent)) (maxevents timeout : Int)
    (backs : Backs filter sub asked fd kq)
    (quiet : fd ∈ kq.reports (files, .wait events maxevents timeout) → asked = false) :
    Backs filter sub asked fd (ffEpollWait files events maxevents timeout kq).1 := by
  cases events with
  | none => exact backs
  | some events =>
    rw [Kqueue.reports] at quiet
    rw [ffEpollWait]
    split_ifs at quiet ⊢
    · exact backs
    · have fades := (kqueueScan_spec files kq.head maxevents.toNat { kq with head := [] }).1
      cases sub with
      | none =>
        cases found : (kqueueEvents files maxevents.toNat kq).1.knotes
            (fd.signExtend 64, filter) with
        | none => exact found
        | some kn' =>
          obtain ⟨kn, before, -⟩ := fades _ kn' found
          exact absurd (before.symm.trans backs) nofun
      | some sub =>
        obtain ⟨fresh, asks, holds⟩ := backs
        refine ⟨fresh, asks, kqueueScan_keeps kq.head maxevents.toNat holds fun kev member own =>
          quiet (List.mem_map.mpr ⟨kev, member, ?_⟩)⟩
        rw [show kev.ident = fd.signExtend 64 from congrArg Prod.fst own, setWidth_signExtend]

variable (armed : Armed watch)

include armed

/-- So they are after a wait that reports no one-shot descriptor. -/
theorem Armed.step_wait {events : Option (Nat → EpollEvent)} {maxevents timeout : Int}
    (untroubled : Untroubled watch (files, .wait events maxevents timeout)) :
    Armed (watch.step (files, .wait events maxevents timeout)) := by
  intro fd filter
  have quiet : fd ∈ watch.epoll.kq.reports (files, .wait events maxevents timeout) →
      watch.oneshot fd = false := untroubled fd
  have backs := (armed fd filter).wait files events maxevents timeout quiet
  simp only [Watch.step, Subscriptions.step, asksOneshot, Bool.or_false]
  cases sub : watch.subs fd with
  | none =>
    rw [sub] at backs
    exact backs
  | some sub' =>
    rw [sub] at backs
    -- A one-shot registration that reports would have been asked for.
    have unspent : (has sub'.events epolloneshot && List.contains
        (watch.epoll.kq.reports (files, .wait events maxevents timeout)) fd) = false := by
      by_contra spent
      simp only [Bool.not_eq_false, Bool.and_eq_true, List.contains_iff_mem] at spent
      exact absurd (backs.2.1 spent.1) (Bool.eq_false_iff.mp (quiet spent.2))
    simp only [map_some, unspent]
    exact backs

/-- A wake-up changes no filter. -/
theorem Armed.step_wakeup (files : Files) (key : Key) :
    Armed (watch.step (files, .wakeup key)) := by
  intro fd filter
  have backs := armed fd filter
  simp only [Watch.step, Epoll.step, Subscriptions.step, asksOneshot, Bool.or_false]
  rcases eq_or_ne (fd.signExtend 64, filter) key with rfl | different
  · cases sub : watch.subs fd with
    | none =>
      rw [sub] at backs
      have absent : watch.epoll.kq.knotes (fd.signExtend 64, filter) = none := backs
      unfold knote
      rw [absent]
      exact absent
    | some sub' =>
      rw [sub] at backs
      obtain ⟨fresh, asks, kn, found, disabled, tame⟩ := backs
      have tame' := tame.fEvent (files.event (fd.signExtend 64, filter))
      have same := (fEvent_disabled kn (files.event (fd.signExtend 64, filter))).trans disabled
      refine ⟨fresh, asks, ?_⟩
      unfold knote
      rw [found]
      dsimp only
      split_ifs
      · exact ⟨_, put_self, same, tame'.drop, tame'.dispatch, tame'.oneshot⟩
      · exact ⟨_, update_self .., same, tame'⟩
  · refine backs.of_knotes id ?_
    unfold knote
    cases watch.epoll.kq.knotes key with
    | none => rfl
    | some kn =>
      dsimp only
      split_ifs
      · exact put_of_ne different
      · exact update_of_ne different ..

/-- The filters of a closed descriptor are gone. -/
theorem Armed.step_close (files : Files) (fd : BitVec 32) :
    Armed (watch.step (files, .close fd)) := by
  intro fd' filter
  simp only [Watch.step, Epoll.step, Subscriptions.step, asksOneshot, Bool.or_false, knoteFdclose]
  rcases eq_or_ne fd' fd with rfl | different
  · rw [update_self]
    cases filter with
    | read => exact (knoteDrop_of_ne (by simp)).trans knoteDrop_self
    | write => exact knoteDrop_self
  · rw [update_of_ne different]
    refine (armed fd' filter).of_knotes id ?_
    rw [knoteDrop_of_ne (key_ne different _ _), knoteDrop_of_ne (key_ne different _ _)]

theorem Armed.step {now : Files × EpollCall} (untroubled : Untroubled watch now) :
    Armed (watch.step now) := by
  obtain ⟨files, call⟩ := now
  cases call with
  | ctl op fd event => exact armed.step_ctl (armed.ctl untroubled)
  | wait events maxevents timeout => exact armed.step_wait untroubled
  | wakeup key => exact armed.step_wakeup files key
  | close fd => exact armed.step_close files fd

end Steps

section Histories

/-- As long as no descriptor for which `EPOLLONESHOT` was asked for reports, and a write
filter can be attached wherever a read filter can, `ff_epoll_ctl` arms what epoll
prescribes, fails where epoll does and then changes nothing. -/
theorem asPrescribed_of_untroubled (history : List (Files × EpollCall))
    (untroubled : Along Watch.step Untroubled .created history) :
    Along Watch.step AsPrescribed .created history := by
  refine untroubled.imp Armed (fun watch now armed quiet => ⟨⟨(armed.step quiet).agrees, ?_, ?_⟩,
    armed.step quiet⟩) fun _ _ => rfl
  · rintro files op fd event rfl
    have outcome : CtlOutcome watch files op fd event := armed.ctl quiet
    cases outcome with
    | refused error ends refuses => simp [ends, refuses]
    | accepted kq ends accepts => simp [ends, accepts]
  · rintro files op fd event rfl fails
    have outcome : CtlOutcome watch files op fd event := armed.ctl quiet
    cases outcome with
    | refused error ends refuses => rw [ends]
    | accepted kq ends accepts => exact absurd (congrArg Applied.error ends) fails

/-- Descriptor 5 is added edge-triggered, modified while it is ready, and deleted. -/
theorem asPrescribed_edgeTriggered :
    Along Watch.step AsPrescribed .created
      [(ready, .ctl epollCtlAdd 5 (some ⟨epollin ||| epollet, 5⟩)),
        (ready, .wait (some fun _ => ⟨0, 0⟩) 8 0),
        (ready, .ctl epollCtlMod 5 (some ⟨epollin ||| epollout ||| epollet, 5⟩)),
        (ready, .wait (some fun _ => ⟨0, 0⟩) 8 0),
        (ready, .ctl epollCtlDel 5 none)] :=
  asPrescribed_of_untroubled _ (by decide)

/-- Files that are all writable, and not readable. -/
def writable : Files := { ready with event := fun key => ⟨key.2 = .write, 1, none⟩ }

/-- A one-shot registration that has reported is not armed again by a modification; and
where only its write filter has reported, `EPOLL_CTL_DEL` fails with the read filter
deleted. -/
theorem not_asPrescribed_oneshot :
    ¬ Along Watch.step AsPrescribed .created
        [(ready, .ctl epollCtlAdd 5 (some ⟨epollin ||| epolloneshot, 5⟩)),
          (ready, .wait (some fun _ => ⟨0, 0⟩) 8 0),
          (ready, .ctl epollCtlMod 5 (some ⟨epollin ||| epolloneshot, 5⟩))] ∧
      ¬ Along Watch.step AsPrescribed .created
        [(writable, .ctl epollCtlAdd 5 (some ⟨epollout ||| epolloneshot, 5⟩)),
          (writable, .wait (some fun _ => ⟨0, 0⟩) 8 0),
          (writable, .ctl epollCtlDel 5 none)] := by
  constructor
  · rintro ⟨-, -, modified, -⟩
    have enabled := modified.agrees.enabled 5 .read
    exact absurd enabled (by decide)
  · rintro ⟨-, -, deleted, -⟩
    have unchanged := deleted.unchanged _ _ _ _ rfl (by decide)
    have knotes := congrArg (fun kq => (kq.knotes (5, .read)).isSome) unchanged
    exact absurd knotes (by decide)

end Histories

end FStack.Event
