import FStack.Std.CText

/-!
# The descriptors of nginx

The functions that nginx calls in place of those of the C library. The application sees a descriptor
of F-Stack as its number plus `ngx_max_sockets`, so that it can be told from one of Linux; a hook
takes the number off again. `kevent` takes it off the descriptors of a change list, in the memory of
the caller, and leaves the events as F-Stack reports them; `kqueue` adds nothing to the descriptor it
returns.
-/

namespace FStack.Nginx

open CText

/-- `ngx_max_sockets`, and `inited` of the thread. -/
structure Module where
  maxSockets : Int
  inited : Bool
deriving DecidableEq, Repr

/-- Where a hook ends up. -/
inductive Target (call : Type) where
  | fstack (name : call) (sockfd : Int)
  | linux (name : call) (sockfd : Int)
deriving DecidableEq, Repr

/-- The hooked functions that get a descriptor. -/
inductive Hook where
  | bind
  | connect
  | getpeername
  | getsockname
  | send
  | sendto
  | sendmsg
  | recvmsg
  | recv
  | recvChk
  | listen
  | getsockopt
  | setsockopt
  | accept
  | accept4
  | close
  | shutdown
  | writev
  | readv
  | read
  | write
  | ioctl
deriving DecidableEq, Repr

/-- The function a hook calls for a descriptor of F-Stack. -/
def Hook.inStack : Hook → Hook
  | .accept4 => .accept
  | .recvChk => .recv
  | hook => hook

/-- That for a descriptor of Linux. -/
def Hook.inKernel : Hook → Hook
  | .recvChk => .recv
  | hook => hook

/-- The hooks that give the application a descriptor of F-Stack. -/
inductive Opening where
  | socket
  | accept
  | accept4
  | kqueue
deriving DecidableEq, Repr

/-- The filters `kevent` looks at. -/
inductive Filter where
  | read
  | write
  | vnode
  | aio
  | proc
  | signal
  | timer
  | user
  | other
deriving DecidableEq, Repr

/-- The filters whose events are about a descriptor. -/
def Filter.ofDescriptor : Filter → Bool
  | read | write | vnode => true
  | aio | proc | signal | timer | user | other => false

/-- `struct kevent`, as far as the hook looks at it. -/
structure Kevent where
  ident : Nat
  filter : Filter
deriving DecidableEq, Repr

/-- An event about a descriptor. -/
def Kevent.Names (event : Kevent) (sockfd : Int) : Prop :=
  event.filter.ofDescriptor = true ∧ (event.ident : Int) = sockfd

instance (event : Kevent) (sockfd : Int) : Decidable (event.Names sockfd) :=
  inferInstanceAs (Decidable (_ ∧ _))

/-- An `int` stored into an `uintptr_t`. -/
def toUintptr (number : Int) : Nat := (number % 18446744073709551616).toNat

namespace Module

/-- `convert_fstack_fd`. -/
def convertFstackFd (ngx : Module) (sockfd : Int) : Int := toInt (sockfd + ngx.maxSockets)

/-- `restore_fstack_fd`. -/
def restoreFstackFd (ngx : Module) (sockfd : Int) : Int :=
  if sockfd ≤ ngx.maxSockets then sockfd else toInt (sockfd - ngx.maxSockets)

/-- `is_fstack_fd`. -/
def isFstackFd (ngx : Module) (sockfd : Int) : Bool :=
  ngx.inited && decide (ngx.maxSockets ≤ sockfd)

/-- `ff_mod_init`, with what `ff_init` and `ff_getmaxfd` answer. A failure for the range of the
descriptors leaves `inited` set. -/
def ffModInit (ngx : Module) (ffInit ffGetmaxfd : Int) : Int × Module :=
  if ffInit = 0 then
    (if intMax < ngx.maxSockets + ffGetmaxfd % 4294967296 then -1 else 0,
      { ngx with inited := true })
  else (ffInit, ngx)

/-- The body of every hook that gets a descriptor. -/
def hooked (ngx : Module) (hook : Hook) (sockfd : Int) : Target Hook :=
  if ngx.isFstackFd sockfd then .fstack hook.inStack (ngx.restoreFstackFd sockfd)
  else .linux hook.inKernel sockfd

/-- What a hook returns for the answer of `ff_socket`, `ff_accept` or `ff_kqueue`. -/
def opened (ngx : Module) (sockfd : Int) : Opening → Int
  | .socket | .accept | .accept4 => if sockfd = -1 then -1 else ngx.convertFstackFd sockfd
  | .kqueue => sockfd

/-- What `kevent` makes of a change. -/
def restoreChange (ngx : Module) (change : Kevent) : Kevent :=
  if change.filter.ofDescriptor then
    { change with ident := toUintptr (ngx.restoreFstackFd (toInt change.ident)) }
  else change

/-- `kevent`, with the events that `ff_kevent` reports: the change list, as it is handed to
`ff_kevent` and as it is left to the caller, and the event list. -/
def kevent (ngx : Module) (changelist reported : List Kevent) : List Kevent × List Kevent :=
  (changelist.map ngx.restoreChange, reported)

/-- The changes that reach F-Stack when a change list is passed once more after some calls. -/
def passed (ngx : Module) (changelist : List Kevent) (before : Nat) : List Kevent :=
  ((fun changes => (ngx.kevent changes []).1)^[before + 1]) changelist

end Module

open Nginx.Module

/-- The hook from which the application has got each descriptor of F-Stack; one that it has not got
counts as from `socket`. -/
abbrev Openings := Int → Opening

/-- The number of a descriptor for the application. -/
def Module.number (ngx : Module) (openings : Openings) (sockfd : Int) : Int :=
  ngx.opened sockfd (openings sockfd)

/-- The two name spaces for a descriptor of F-Stack and one of Linux, with a change list that is
passed again some times and events that F-Stack reports. -/
structure Numbered (ngx : Module) (openings : Openings) (sockfd kernel : Int)
    (changelist : List Kevent) (again : Nat) (reported : List Kevent) : Prop where
  recognised : ngx.isFstackFd (ngx.number openings sockfd) = true
  calls : ∀ hook, ngx.hooked hook (ngx.number openings sockfd) = .fstack hook.inStack sockfd
  changes : ∀ (index : Nat) (change : Kevent), changelist[index]? = some change →
    change.Names (ngx.number openings sockfd) →
    ∀ before ≤ again, ∃ change' : Kevent, (ngx.passed changelist before)[index]? = some change' ∧
      change'.filter = change.filter ∧ change'.Names sockfd
  distinct : ∀ other, 0 ≤ other → ngx.maxSockets + other ≤ intMax →
    ngx.number openings sockfd = ngx.number openings other → sockfd = other
  kernelCalls : ngx.isFstackFd kernel = false ∧
    ∀ hook, ngx.hooked hook kernel = .linux hook.inKernel kernel
  kernelChanges : ∀ (index : Nat) (change : Kevent), changelist[index]? = some change →
    change.Names kernel → (ngx.passed changelist 0)[index]? = none
  events : ∀ (index : Nat) (event : Kevent), reported[index]? = some event →
    event.filter.ofDescriptor = true →
    ∃ event' : Kevent, (ngx.kevent changelist reported).2[index]? = some event' ∧
      event'.Names (ngx.number openings event.ident)

/-- A descriptor whose number is its own: not the first one, and not that of a kqueue; or that of a
kqueue with the number of the first one. -/
def Own (maxSockets : Int) (openings : Openings) (sockfd : Int) : Prop :=
  if openings sockfd = .kqueue then sockfd = maxSockets ∧ openings 0 = .kqueue
  else 0 < sockfd ∧ (openings (sockfd + maxSockets) = .kqueue →
    intMax < maxSockets + (sockfd + maxSockets))

/-- What the numbers are good for: descriptors of their own, in change lists that are passed once
if they name a descriptor above `ngx_max_sockets` and never name one of Linux, and in events about
nothing but kqueues. -/
structure Numberable (ngx : Module) (openings : Openings) (sockfd kernel : Int)
    (changelist : List Kevent) (again : Nat) (reported : List Kevent) : Prop where
  own : Own ngx.maxSockets openings sockfd
  once : (∃ change ∈ changelist, change.Names (ngx.number openings sockfd)) →
    again = 0 ∨ sockfd ≤ ngx.maxSockets
  foreign : ∀ change ∈ changelist, ¬ change.Names kernel
  events : ∀ event ∈ reported, event.filter.ofDescriptor = true → openings event.ident = .kqueue

section Numbers

variable {ngx : Module} {openings : Openings} {sockfd number : Int} {change : Kevent}

/-- A small number is kept, so that it may be restored again. -/
theorem restoreFstackFd_below (small : sockfd ≤ ngx.maxSockets) :
    ngx.restoreFstackFd sockfd = sockfd := if_pos small

theorem isFstackFd_kernel (below : sockfd < ngx.maxSockets) : ngx.isFstackFd sockfd = false := by
  unfold isFstackFd
  rw [decide_eq_false (by omega), Bool.and_false]

theorem isFstackFd_iff (ready : ngx.inited = true) :
    ngx.isFstackFd sockfd = true ↔ ngx.maxSockets ≤ sockfd := by
  rw [isFstackFd, ready, Bool.true_and, decide_eq_true_eq]

/-- A number that is no error is kept as it is. -/
theorem toUintptr_eq (nonneg : 0 ≤ number) (small : number ≤ intMax) :
    (toUintptr number : Int) = number := by
  unfold toUintptr
  unfold intMax at small
  omega

theorem Kevent.Names.unique (names : change.Names sockfd) (names' : change.Names number) :
    sockfd = number := names.2.symm.trans names'.2

section

variable (start : 0 < ngx.maxSockets)

include start

/-- A number above the limit is that of F-Stack, shifted. -/
theorem restoreFstackFd_above (above : ngx.maxSockets < number) (small : number ≤ intMax) :
    ngx.restoreFstackFd number = number - ngx.maxSockets := by
  unfold intMax at small
  obtain ⟨rest, same⟩ := Int.eq_ofNat_of_zero_le (a := number - ngx.maxSockets) (by omega)
  rw [restoreFstackFd, if_neg (by omega), same, toInt_small (by omega)]

/-- Restoring does not overflow. -/
theorem restoreFstackFd_range (nonneg : 0 ≤ number) (small : number ≤ intMax) :
    0 ≤ ngx.restoreFstackFd number ∧ ngx.restoreFstackFd number ≤ intMax := by
  rcases Int.lt_or_le ngx.maxSockets number with above | below
  · rw [restoreFstackFd_above start above small]
    omega
  · rw [restoreFstackFd_below below]
    exact ⟨nonneg, small⟩

/-- A change is restored with its number. -/
theorem restoreChange_names (nonneg : 0 ≤ number) (small : number ≤ intMax)
    (names : change.Names number) : (ngx.restoreChange change).filter = change.filter ∧
      (ngx.restoreChange change).Names (ngx.restoreFstackFd number) := by
  obtain ⟨descriptor, same⟩ := names
  have whole : toInt change.ident = number := by
    rw [toInt_small (by unfold intMax at small; omega), same]
  obtain ⟨nonneg', small'⟩ := restoreFstackFd_range start nonneg small
  unfold restoreChange
  rw [if_pos descriptor, whole]
  exact ⟨rfl, descriptor, toUintptr_eq nonneg' small'⟩

/-- Restoring many times acts on the number alone. -/
theorem iterate_restoreChange_names (nonneg : 0 ≤ number) (small : number ≤ intMax)
    (names : change.Names number) (times : Nat) :
    (ngx.restoreChange^[times] change).filter = change.filter ∧
      (ngx.restoreChange^[times] change).Names (ngx.restoreFstackFd^[times] number) := by
  induction times generalizing change number with
  | zero => exact ⟨rfl, names⟩
  | succ times ih =>
    obtain ⟨filter, restored⟩ := restoreChange_names start nonneg small names
    obtain ⟨nonneg', small'⟩ := restoreFstackFd_range start nonneg small
    rw [Function.iterate_succ_apply, Function.iterate_succ_apply]
    exact ⟨(ih nonneg' small' restored).1.trans filter, (ih nonneg' small' restored).2⟩

omit start in
/-- Descriptors other than kqueues are converted when they are opened. -/
theorem number_converted (made : 0 ≤ sockfd) (converted : openings sockfd ≠ .kqueue) :
    ngx.number openings sockfd = ngx.convertFstackFd sockfd := by
  unfold Module.number opened
  split
  · exact if_neg (by omega)
  · exact if_neg (by omega)
  · exact if_neg (by omega)
  · exact absurd ‹_› converted

variable (fits : ngx.maxSockets + sockfd ≤ intMax)

include fits

/-- A number that does not overflow is converted by adding. -/
theorem number_eq (made : 0 ≤ sockfd) (converted : openings sockfd ≠ .kqueue) :
    ngx.number openings sockfd = sockfd + ngx.maxSockets := by
  unfold intMax at fits
  obtain ⟨number, same⟩ := Int.eq_ofNat_of_zero_le (a := sockfd + ngx.maxSockets) (by omega)
  rw [number_converted made converted, convertFstackFd, same, toInt_small (by omega)]

/-- The number of a descriptor is one of the C type. -/
theorem number_range (openings : Openings) (made : 0 ≤ sockfd) :
    0 ≤ ngx.number openings sockfd ∧ ngx.number openings sockfd ≤ intMax := by
  by_cases kqueue : openings sockfd = .kqueue
  · rw [Module.number, kqueue]
    exact ⟨made, by change sockfd ≤ intMax; omega⟩
  · rw [number_eq start fits made kqueue]
    omega

end

theorem number_kqueue (kqueue : openings sockfd = .kqueue) : ngx.number openings sockfd = sockfd := by
  rw [Module.number, kqueue]
  rfl

/-- Each pass restores every change once more. -/
theorem passed_eq (ngx : Module) (changelist : List Kevent) (before : Nat) :
    ngx.passed changelist before = changelist.map (ngx.restoreChange^[before + 1]) := by
  induction before with
  | zero => rfl
  | succ before ih =>
    have step : ngx.passed changelist (before + 1) =
        (ngx.passed changelist before).map ngx.restoreChange :=
      Function.iterate_succ_apply' _ _ _
    rw [step, ih, List.map_map, ← Function.iterate_succ']

end Numbers

section Parts

variable {ngx : Module} {openings : Openings} {sockfd kernel : Int} {changelist reported : List Kevent}
  {again : Nat} (start : 0 < ngx.maxSockets) (made : 0 ≤ sockfd)
  (fits : ngx.maxSockets + sockfd ≤ intMax)

include start made fits

/-- A number reaches its descriptor and no other one. -/
theorem own_iff (openings : Openings) (ready : ngx.inited = true) :
    (ngx.isFstackFd (ngx.number openings sockfd) = true ∧
      ngx.restoreFstackFd (ngx.number openings sockfd) = sockfd ∧
      ∀ other, 0 ≤ other → ngx.maxSockets + other ≤ intMax →
        ngx.number openings sockfd = ngx.number openings other → sockfd = other) ↔
    Own ngx.maxSockets openings sockfd := by
  rw [isFstackFd_iff ready, Own]
  have zero : ngx.maxSockets + 0 ≤ intMax := by omega
  split_ifs with kqueue
  · rw [number_kqueue kqueue]
    constructor
    · rintro ⟨above, reaches, distinct⟩
      have same : sockfd = ngx.maxSockets := by
        by_contra different
        rw [restoreFstackFd_above start (by omega) (by omega)] at reaches
        omega
      refine ⟨same, not_not.mp fun converted => ?_⟩
      have first := distinct 0 (Int.le_refl 0) zero
        (by rw [number_eq start zero (Int.le_refl 0) converted]; omega)
      omega
    · rintro ⟨rfl, first⟩
      refine ⟨Int.le_refl _, restoreFstackFd_below (Int.le_refl _), fun other made' fits' same => ?_⟩
      by_cases kqueue' : openings other = .kqueue
      · rwa [number_kqueue kqueue'] at same
      · rw [number_eq start fits' made' kqueue'] at same
        obtain rfl : other = 0 := by omega
        exact absurd first kqueue'
  · rw [number_eq start fits made kqueue]
    constructor
    · rintro ⟨-, reaches, distinct⟩
      refine ⟨?_, fun other => ?_⟩
      · by_contra first
        rw [restoreFstackFd_below (by omega)] at reaches
        omega
      · by_contra inside
        have same := distinct (sockfd + ngx.maxSockets) (by omega) (by omega)
          (number_kqueue other).symm
        omega
    · rintro ⟨positive, apart⟩
      refine ⟨by omega, ?_, fun other made' fits' same => ?_⟩
      · rw [restoreFstackFd_above start (by omega) (by omega)]
        omega
      · by_cases kqueue' : openings other = .kqueue
        · rw [number_kqueue kqueue'] at same
          subst same
          exact absurd (apart kqueue') (by omega)
        · rw [number_eq start fits' made' kqueue'] at same
          omega

/-- A change list that names a descriptor above `ngx_max_sockets` is good for one call. -/
theorem once_iff (reaches : ngx.restoreFstackFd (ngx.number openings sockfd) = sockfd) :
    (∀ (index : Nat) (change : Kevent), changelist[index]? = some change →
      change.Names (ngx.number openings sockfd) →
      ∀ before ≤ again, ∃ change' : Kevent, (ngx.passed changelist before)[index]? = some change' ∧
        change'.filter = change.filter ∧ change'.Names sockfd) ↔
    ((∃ change ∈ changelist, change.Names (ngx.number openings sockfd)) →
      again = 0 ∨ sockfd ≤ ngx.maxSockets) := by
  obtain ⟨nonneg, small⟩ := number_range start fits openings made
  have restored {change : Kevent} (names : change.Names (ngx.number openings sockfd))
      (before : Nat) := iterate_restoreChange_names start nonneg small names (before + 1)
  simp only [Function.iterate_succ_apply ngx.restoreFstackFd, reaches] at restored
  constructor
  · rintro changes ⟨change, member, names⟩
    obtain ⟨index, there⟩ := List.mem_iff_getElem?.mp member
    by_contra above
    obtain ⟨change', there', -, names'⟩ := changes index change there names 1 (by omega)
    rw [passed_eq, List.getElem?_map, there] at there'
    cases there'
    have twice := names'.unique (restored names 1).2
    rw [Function.iterate_one, restoreFstackFd_above start (by omega) (by omega)] at twice
    omega
  · intro once index change there names before some
    refine ⟨ngx.restoreChange^[before + 1] change, ?_, ?_⟩
    · rw [passed_eq, List.getElem?_map, there]
      rfl
    · have same : ngx.restoreFstackFd^[before] sockfd = sockfd := by
        rcases once ⟨change, List.mem_of_getElem? there, names⟩ with rfl | below
        · rw [Nat.le_zero.mp some]
          rfl
        · exact Function.iterate_fixed (restoreFstackFd_below below) before
      have here := restored names before
      rwa [same] at here

omit made in
/-- An event has the number of F-Stack, which is that of the application for a kqueue only. -/
theorem names_number_iff (made : 0 ≤ sockfd) {event : Kevent}
    (descriptor : event.filter.ofDescriptor = true) :
    event.Names (ngx.number openings event.ident) ↔ openings event.ident = .kqueue := by
  constructor
  · rintro ⟨-, same⟩
    by_contra converted
    rw [number_converted (Int.natCast_nonneg _) converted, convertFstackFd, toInt] at same
    have wraps := Int.bmod_def (event.ident + ngx.maxSockets) (2 ^ 32)
    unfold intMax at fits
    omega
  · intro kqueue
    exact ⟨descriptor, (number_kqueue kqueue).symm⟩

end Parts

/-- After `ff_mod_init` the module is ready. -/
theorem ffModInit_ready {before ngx : Module} {ffInit ffGetmaxfd : Int}
    (ready : before.ffModInit ffInit ffGetmaxfd = (0, ngx)) :
    ngx.maxSockets = before.maxSockets ∧ ngx.inited = true := by
  unfold ffModInit at ready
  split_ifs at ready with started
  · obtain ⟨⟩ := congrArg Prod.fst ready
  · obtain rfl := congrArg Prod.snd ready
    exact ⟨rfl, rfl⟩
  · exact absurd (congrArg Prod.fst ready) started

/-- The numbers of the application stand for the descriptors exactly where they are good for it. -/
theorem numbered_iff {before ngx : Module} {ffInit ffGetmaxfd : Int}
    (positive : 0 < before.maxSockets)
    (ready : before.ffModInit ffInit ffGetmaxfd = (0, ngx)) (openings : Openings)
    {sockfd kernel : Int} (made : 0 ≤ sockfd) (fits : before.maxSockets + sockfd ≤ intMax)
    (below : kernel < before.maxSockets) (changelist : List Kevent) (again : Nat)
    (reported : List Kevent) :
    Numbered ngx openings sockfd kernel changelist again reported ↔
      Numberable ngx openings sockfd kernel changelist again reported := by
  obtain ⟨max, inited⟩ := ffModInit_ready ready
  rw [← max] at positive fits below
  have own := own_iff positive made fits openings inited
  constructor
  · intro numbered
    have reaches : ngx.restoreFstackFd (ngx.number openings sockfd) = sockfd := by
      have call := numbered.calls .bind
      rw [hooked, if_pos numbered.recognised] at call
      exact (Target.fstack.inj call).2
    refine ⟨own.mp ⟨numbered.recognised, reaches, numbered.distinct⟩,
      (once_iff positive made fits reaches).mp numbered.changes, ?_, ?_⟩
    · intro change member names
      obtain ⟨index, there⟩ := List.mem_iff_getElem?.mp member
      have kept := numbered.kernelChanges index change there names
      rw [passed_eq, List.getElem?_map, there] at kept
      cases kept
    · intro event member descriptor
      obtain ⟨index, there⟩ := List.mem_iff_getElem?.mp member
      obtain ⟨event', there', names⟩ := numbered.events index event there descriptor
      obtain rfl : event' = event := Option.some.inj (there'.symm.trans there)
      exact (names_number_iff positive fits made descriptor).mp names
  · intro numberable
    obtain ⟨recognised, reaches, distinct⟩ := own.mpr numberable.own
    have outside := isFstackFd_kernel below
    refine ⟨recognised, fun hook => ?_, (once_iff positive made fits reaches).mpr numberable.once,
      distinct, ⟨outside, fun hook => ?_⟩, fun index change there names => ?_,
      fun index event there descriptor => ?_⟩
    · rw [hooked, if_pos recognised, reaches]
    · rw [hooked, outside]
      rfl
    · exact absurd names (numberable.foreign change (List.mem_of_getElem? there))
    · exact ⟨event, there, (names_number_iff positive fits made descriptor).mpr
        (numberable.events event (List.mem_of_getElem? there) descriptor)⟩

/-- With 1024 descriptors of Linux. -/
def started : Module := ⟨1024, true⟩

/-- Descriptor 4 is a kqueue, which F-Stack reports as readable. -/
def fourth : Openings := fun sockfd => if sockfd = 4 then .kqueue else .socket

/-- The fifth socket, with a timer among the changes and a kqueue among the events. -/
theorem numbered_fifth :
    Numbered started fourth 5 3 [⟨1029, .read⟩, ⟨7, .timer⟩, ⟨1029, .write⟩] 9
      [⟨7, .timer⟩, ⟨4, .read⟩] := by
  refine (@numbered_iff ⟨1024, false⟩ started 0 65536 (by decide) (by decide +kernel) fourth 5 3
    (by decide) (by decide +kernel) (by decide) _ 9 _).mpr ⟨?_, ?_, ?_, ?_⟩
  · unfold Own
    decide +kernel
  · exact fun _ => .inr (by decide)
  · decide +kernel
  · decide +kernel

/-- The number of the first descriptor is not restored; a number above 1024 is restored once more
when its change list is passed again; a change for a descriptor of Linux reaches F-Stack; an event
has the number of F-Stack; and so has a kqueue. -/
theorem not_numbered :
    ¬ Numbered started (fun _ => .socket) 0 3 [] 0 [] ∧
    ¬ Numbered started (fun _ => .socket) 1025 3 [⟨2049, .read⟩] 1 [] ∧
    ¬ Numbered started (fun _ => .socket) 5 3 [⟨3, .read⟩] 0 [] ∧
    ¬ Numbered started (fun _ => .socket) 5 3 [] 0 [⟨5, .read⟩] ∧
    ¬ Numbered started fourth 4 3 [] 0 [] := by
  refine ⟨fun numbered => ?_, fun numbered => ?_, fun numbered => ?_, fun numbered => ?_,
    fun numbered => ?_⟩
  · have reached : started.hooked .connect (started.number (fun _ => .socket) 0) =
        .fstack .connect 1024 := by
      decide +kernel
    rw [numbered.calls .connect] at reached
    exact absurd reached (by decide)
  · have second : started.passed [⟨2049, .read⟩] 1 = [⟨1, .read⟩] := by decide +kernel
    obtain ⟨change, there, -, names⟩ :=
      numbered.changes 0 ⟨2049, .read⟩ rfl (by decide +kernel) 1 (Nat.le_refl 1)
    rw [second] at there
    cases there
    exact absurd names (by decide)
  · have kept := numbered.kernelChanges 0 ⟨3, .read⟩ rfl (by decide)
    exact absurd kept (by decide +kernel)
  · obtain ⟨event, there, names⟩ := numbered.events 0 ⟨5, .read⟩ rfl rfl
    cases there
    exact absurd names (by decide +kernel)
  · exact absurd numbered.recognised (by decide +kernel)

end FStack.Nginx
