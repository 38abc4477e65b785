import FStack.Event.Kqueue
import FStack.Std.Maps

/-!
# What calls do to knotes

Only a change that adds or modifies a knote sets its user data or enables it.
`Fades` is what everything else does: knotes may go and may become disabled. The
queue never lists a knote twice, so that a scan reports every descriptor and
filter at most once.
-/

namespace FStack.Event

open Function List

/-- The queue of a kqueue. -/
structure WellQueued (kq : Kqueue) : Prop where
  nodup : kq.head.Nodup
  backed : ∀ key ∈ kq.head, (kq.knotes key).isSome = true

/-- A knote keeps its user data, and is not enabled. -/
def Knote.Fades (kn kn' : Knote) : Prop :=
  kn'.udata = kn.udata ∧ (kn'.disabled = false → kn.disabled = false)

/-- Every knote of `kq'` is one of `kq` that has kept its user data and has not been
enabled. -/
def Fades (kq kq' : Kqueue) : Prop :=
  ∀ key kn', kq'.knotes key = some kn' → ∃ kn, kq.knotes key = some kn ∧ kn.Fades kn'

variable {files : Files} {key : Key} {kn kn' : Knote} {kq kq' kq'' : Kqueue} {kev : Kevent}

section Fields

@[simp] theorem put_self : (kq.put key kn).knotes key = some kn := update_self ..

@[simp] theorem put_of_ne {other : Key} (different : other ≠ key) :
    (kq.put key kn).knotes other = kq.knotes other :=
  update_of_ne different ..

@[simp] theorem knoteDrop_self : (knoteDrop key kq).knotes key = none := update_self ..

@[simp] theorem knoteDrop_of_ne {other : Key} (different : other ≠ key) :
    (knoteDrop key kq).knotes other = kq.knotes other :=
  update_of_ne different ..

end Fields

section Fading

theorem Knote.Fades.refl (kn : Knote) : kn.Fades kn := ⟨rfl, id⟩

theorem Fades.refl (kq : Kqueue) : Fades kq kq := fun _ kn' found => ⟨kn', found, .refl kn'⟩

theorem Fades.trans (first : Fades kq kq') (second : Fades kq' kq'') : Fades kq kq'' := by
  intro key kn'' found
  obtain ⟨kn', found', same, weaker⟩ := second key kn'' found
  obtain ⟨kn, found, same', weaker'⟩ := first key kn' found'
  exact ⟨kn, found, same.trans same', fun enabled => weaker' (weaker enabled)⟩

theorem Knote.fEvent_fades (kn : Knote) (report : Report) : kn.Fades (kn.fEvent report) := by
  unfold fEvent
  split <;> exact ⟨rfl, id⟩

theorem Fades.update (found : kq.knotes key = some kn) (fades : kn.Fades kn')
    (knotes : kq'.knotes = update kq.knotes key (some kn')) : Fades kq kq' := by
  intro other kn'' found'
  rw [knotes] at found'
  rcases Maps.update_some_iff.mp found' with ⟨rfl, rfl⟩ | ⟨-, found'⟩
  · exact ⟨kn, found, fades⟩
  · exact ⟨kn'', found', .refl kn''⟩

theorem Fades.drop (key : Key) : Fades kq (knoteDrop key kq) := by
  intro other kn' found
  rcases eq_or_ne other key with rfl | different
  · rw [knoteDrop_self] at found
    cases found
  · rw [knoteDrop_of_ne different] at found
    exact ⟨kn', found, .refl kn'⟩

/-- A wake-up adds no knote and enables none. -/
theorem Fades.knote (files : Files) (key : Key) : Fades kq (knote files key kq) := by
  unfold Event.knote
  cases found : kq.knotes key with
  | none => exact .refl kq
  | some kn =>
    have fades := kn.fEvent_fades (files.event key)
    have activated : kn.Fades { kn.fEvent (files.event key) with active := true } := fades
    dsimp only
    split
    · exact .update found activated rfl
    · exact .update found fades rfl

end Fading

section Queue

variable (queued : WellQueued kq)

include queued

/-- A knote is queued at most once. -/
theorem WellQueued.put : WellQueued (kq.put key kn) := by
  have backed (other : Key) (member : other ∈ kq.head ∨ other = key) :
      ((kq.put key kn).knotes other).isSome = true := by
    rcases eq_or_ne other key with rfl | different
    · rw [put_self]
      rfl
    · rw [put_of_ne different]
      exact queued.backed other (member.resolve_right different)
  by_cases enqueued : (kn.active && !kn.disabled && !kq.head.contains key) = true
  · have head : (kq.put key kn).head = kq.head ++ [key] := if_pos enqueued
    have absent : key ∉ kq.head := by
      simp only [Bool.and_eq_true, Bool.not_eq_true', contains_eq_mem,
        decide_eq_false_iff_not] at enqueued
      exact enqueued.2
    refine ⟨?_, fun other member => backed other ?_⟩
    · rw [head, ← concat_eq_append]
      exact queued.nodup.concat absent
    · rw [head] at member
      simpa using member
  · have head : (kq.put key kn).head = kq.head := if_neg enqueued
    exact ⟨head ▸ queued.nodup, fun other member => backed other (.inl (head ▸ member))⟩

theorem WellQueued.drop : WellQueued (knoteDrop key kq) where
  nodup := queued.nodup.erase key
  backed other member := by
    obtain ⟨different, member⟩ := (queued.nodup.mem_erase_iff).mp member
    rw [knoteDrop_of_ne different]
    exact queued.backed other member

theorem WellQueued.update (head : kq'.head = kq.head)
    (knotes : kq'.knotes = update kq.knotes key (some kn)) : WellQueued kq' where
  nodup := head ▸ queued.nodup
  backed other member := by
    rw [knotes]
    rcases eq_or_ne other key with rfl | different
    · rw [update_self]
      rfl
    · rw [update_of_ne different]
      exact queued.backed other (head ▸ member)

theorem WellQueued.knote : WellQueued (knote files key kq) := by
  unfold Event.knote
  split
  · exact queued
  · dsimp only
    split
    · exact queued.put
    · exact queued.update rfl rfl

end Queue

section Registering

/-- What an accepted change does: only its own knote changes, takes the user data of the
change, and is not left enabled by one that disables. -/
structure Registers (kev : Kevent) (kq kq' : Kqueue) : Prop where
  others : ∀ key, key ≠ kev.key → kq'.knotes key = kq.knotes key
  own : ∀ kn, kq'.knotes kev.key = some kn →
    kn.udata = kev.udata ∧ (kn.disabled = false → has kev.flags evDisable = false)
  deleted : has kev.flags evDelete = true → has kev.flags evAdd = false →
    kq'.knotes kev.key = none
  queued : WellQueued kq → WellQueued kq'

/-- An accepted change does to its own knote what it says. -/
theorem doneEvAdd_registers (consistent : (has kev.flags evEnable && has kev.flags evDisable) = false)
    (keeps : has kev.flags evDelete = true → has kev.flags evAdd = true)
    (udata : kn.udata = kev.udata) : Registers kev kq (doneEvAdd files kev kn kq) := by
  have stored (kn' : Knote) (udata' : kn'.udata = kev.udata)
      (disables : kn'.disabled = false → has kev.flags evDisable = false) :
      Registers kev kq (kq.put kev.key kn') := by
    refine ⟨fun key different => put_of_ne different, fun kn'' found => ?_,
      fun delete notAdd => absurd (keeps delete) (Bool.eq_false_iff.mp notAdd),
      fun queued => queued.put⟩
    rw [put_self] at found
    cases found
    exact ⟨udata', disables⟩
  have disables (enabled : (if has kev.flags evEnable = true then false
      else if has kev.flags evDisable = true then true else kn.disabled) = false) :
      has kev.flags evDisable = false := by
    cases enable : has kev.flags evEnable with
    | true => simpa [enable] using consistent
    | false =>
      by_contra disable
      simp [enable, disable] at enabled
  unfold doneEvAdd
  generalize (if has kev.flags evEnable = true then false
    else if has kev.flags evDisable = true then true else kn.disabled) = disabled at disables ⊢
  cases disabled with
  | true => exact stored _ udata nofun
  | false => exact stored _ ((Knote.fEvent_fades _ _).1.trans udata) fun _ => disables rfl

/-- `kqueue_register` changes nothing when it fails. -/
theorem kqueueRegister_cases (files : Files) (kev : Kevent) (kq : Kqueue) :
    (∃ error, kqueueRegister files kev kq = (kq, some error)) ∨
      ∃ kq', kqueueRegister files kev kq = (kq', none) ∧ Registers kev kq kq' := by
  rw [kqueueRegister]
  by_cases both : (has kev.flags evEnable && has kev.flags evDisable) = true
  · exact .inl ⟨_, if_pos both⟩
  by_cases invalid : (decide (0x7fffffff < kev.ident) || !files.fget kev.ident) = true
  · exact .inl ⟨_, (if_neg both).trans (if_pos invalid)⟩
  by_cases own : files.isKqueue kev.ident = true
  · exact .inl ⟨_, (if_neg both).trans ((if_neg invalid).trans (if_pos own))⟩
  have consistent := Bool.eq_false_iff.mpr both
  cases found : kq.knotes kev.key with
  | none =>
    dsimp only
    split_ifs with add
    · cases files.attach kev.key with
      | some error => exact .inl ⟨error, rfl⟩
      | none => exact .inr ⟨_, rfl, doneEvAdd_registers consistent (fun _ => add) rfl⟩
    · exact .inl ⟨_, rfl⟩
  | some kn =>
    dsimp only
    split_ifs with delete
    · refine .inr ⟨_, rfl, fun key different => knoteDrop_of_ne different, fun kn found => ?_,
        fun _ _ => knoteDrop_self, fun queued => queued.drop⟩
      rw [knoteDrop_self] at found
      cases found
    · -- The knote has been stored once before.
      have done := @doneEvAdd_registers files
        { kn with flags := kn.flags ||| evOneshot, active := true, udata := kev.udata }
        (knoteActivate kev.key { kn with flags := kn.flags ||| evOneshot } kq) kev consistent
        (fun deletes => absurd deletes delete) rfl
      exact .inr ⟨_, rfl, fun key different =>
        (done.others key different).trans (put_of_ne different), done.own, done.deleted,
        fun queued => done.queued queued.put⟩
    · exact .inr ⟨_, rfl, doneEvAdd_registers consistent (fun deletes => absurd deletes delete) rfl⟩

/-- How far two changes get. -/
theorem kqueueChanges_pair (files : Files) (first second : Kevent)
    (noReceipt : has first.masked.flags evReceipt = false) (kq : Kqueue) :
    (∃ error, kqueueChanges files [first, second] kq = ⟨kq, 0, some error⟩) ∨
      (∃ kq' error, Registers first.masked kq kq' ∧
        kqueueChanges files [first, second] kq = ⟨kq', 1, some error⟩) ∨
      ∃ kq' kq'', Registers first.masked kq kq' ∧ Registers second.masked kq' kq'' ∧
        kqueueChanges files [first, second] kq = ⟨kq'', 2, none⟩ := by
  rcases kqueueRegister_cases files first.masked kq with
    ⟨error, refused⟩ | ⟨kq', accepted, registers⟩
  · left
    exact ⟨error, by simp only [kqueueChanges, refused]⟩
  right
  rcases kqueueRegister_cases files second.masked kq' with
    ⟨error, refused⟩ | ⟨kq'', accepted', registers'⟩
  · left
    exact ⟨kq', error, registers, by simp [kqueueChanges, accepted, noReceipt, refused]⟩
  · right
    exact ⟨kq', kq'', registers, registers', by
      simp [kqueueChanges, accepted, noReceipt, accepted']⟩

end Registering

section Scanning

/-- A kevent comes from a knote that is enabled, with its user data. -/
def Delivered (kq : Kqueue) (kev : Kevent) : Prop :=
  ∃ kn, kq.knotes kev.key = some kn ∧ kn.disabled = false ∧ kev.udata = kn.udata

theorem Delivered.of_fades (delivered : Delivered kq' kev) (fades : Fades kq kq') :
    Delivered kq kev := by
  obtain ⟨kn', found', enabled, udata⟩ := delivered
  obtain ⟨kn, found, same, weaker⟩ := fades _ kn' found'
  exact ⟨kn, found, weaker enabled, udata.trans same⟩

/-- What a scan does with one knote of the queue; `queue` is what is left of it. -/
structure ScanStep (key : Key) (kq kq' : Kqueue) (reported : Option Kevent) : Prop where
  fades : Fades kq kq'
  delivered : ∀ kev, reported = some kev → kev.key = key ∧ Delivered kq kev
  queued : ∀ queue, WellQueued { kq with head := key :: queue ++ kq.head } →
    WellQueued { kq' with head := queue ++ kq'.head }

theorem WellQueued.taken {queue : List Key}
    (queued : WellQueued { kq with head := key :: queue ++ kq.head }) :
    key ∉ queue ++ kq.head ∧ WellQueued { kq with head := queue ++ kq.head } := by
  obtain ⟨absent, nodup⟩ := nodup_cons.mp queued.nodup
  exact ⟨absent, nodup, fun other member => queued.backed other (mem_cons_of_mem _ member)⟩

variable {reported : Option Kevent}

theorem ScanStep.drop (delivered : ∀ kev, reported = some kev → kev.key = key ∧ Delivered kq kev) :
    ScanStep key kq (knoteDrop key kq) reported := by
  refine ⟨.drop key, delivered, fun queue queued => ?_⟩
  obtain ⟨absent, rest⟩ := queued.taken
  have head : (knoteDrop key kq).head = kq.head :=
    erase_of_not_mem fun member => absent (mem_append_right _ member)
  refine ⟨by rw [head]; exact rest.nodup, fun other member => ?_⟩
  rw [head] at member
  have different : other ≠ key := fun same => absent (same ▸ member)
  exact (congrArg Option.isSome (knoteDrop_of_ne different)).trans (rest.backed other member)

section

variable (found : kq.knotes key = some kn) (fades : kn.Fades kn')
  (delivered : ∀ kev, reported = some kev → kev.key = key ∧ Delivered kq kev)

include found fades delivered

theorem ScanStep.update :
    ScanStep key kq { kq with knotes := update kq.knotes key (some kn') } reported :=
  ⟨.update found fades rfl, delivered, fun _ queued => queued.taken.2.update rfl rfl⟩

/-- A knote that stays ready goes to the end of the queue. -/
theorem ScanStep.requeue :
    ScanStep key kq
      { knotes := Function.update kq.knotes key (some kn'), head := kq.head ++ [key] } reported := by
  refine ⟨.update found fades rfl, delivered, fun queue queued => ?_⟩
  have moved : (queue ++ (kq.head ++ [key])).Perm (key :: queue ++ kq.head) := by
    rw [← append_assoc]
    exact perm_append_singleton key (queue ++ kq.head)
  have same : WellQueued { kq with head := queue ++ (kq.head ++ [key]) } :=
    ⟨moved.nodup_iff.mpr queued.nodup, fun other member =>
      queued.backed other (moved.mem_iff.mp member)⟩
  exact same.update rfl rfl

end

/-- What a scan reports of a knote is what was registered for it. -/
theorem scanKnote_step (files : Files) (key : Key) (kq : Kqueue) :
    ScanStep key kq (scanKnote files key kq).1 (scanKnote files key kq).2 := by
  unfold scanKnote
  cases found : kq.knotes key with
  | none => exact ⟨.refl kq, nofun, fun _ queued => queued.taken.2⟩
  | some kn =>
    have fades := kn.fEvent_fades (files.event key)
    cases disabled : kn.disabled with
    | true =>
      simp only [disabled]
      exact ⟨.refl kq, nofun, fun _ queued => queued.taken.2⟩
    | false =>
      have delivered (kn' : Knote) (same : kn'.udata = kn.udata) (kev : Kevent)
          (reported : some (kn'.kevent key) = some kev) : kev.key = key ∧ Delivered kq kev := by
        cases reported
        exact ⟨rfl, kn, found, disabled, same⟩
      simp only [disabled, Bool.false_eq_true, if_false]
      split_ifs
      · exact .drop nofun
      · exact .drop (delivered kn rfl)
      · exact .update found ⟨fades.1, fades.2⟩ nofun
      · exact .update found ⟨fades.1, fun _ => disabled⟩ (delivered _ fades.1)
      · exact .update found ⟨fades.1, fun _ => disabled⟩ (delivered _ fades.1)
      · exact .requeue found fades (delivered _ fades.1)

/-- A scan reports knotes that are enabled, in the order of the queue and none twice. -/
theorem kqueueScan_spec (files : Files) (queue : List Key) (count : Nat) (kq : Kqueue) :
    Fades kq (kqueueScan files queue count kq).1 ∧
      ((kqueueScan files queue count kq).2.map Kevent.key).Sublist queue ∧
      (kqueueScan files queue count kq).2.length ≤ count ∧
      (∀ kev ∈ (kqueueScan files queue count kq).2, Delivered kq kev) ∧
      (WellQueued { kq with head := queue ++ kq.head } →
        WellQueued (kqueueScan files queue count kq).1) := by
  induction queue generalizing count kq with
  | nil => exact ⟨.refl kq, Sublist.slnil, Nat.zero_le _, nofun, id⟩
  | cons key queue ih =>
    cases count with
    | zero => exact ⟨.refl kq, nil_sublist _, le_rfl, nofun, id⟩
    | succ count =>
      have step := scanKnote_step files key kq
      rw [kqueueScan]
      generalize scanKnote files key kq = next at step
      obtain ⟨kq', reported⟩ := next
      cases reported with
      | none =>
        obtain ⟨fades, keys, room, delivered, queued⟩ := ih (count + 1) kq'
        exact ⟨step.fades.trans fades, keys.cons key, room,
          fun kev member => (delivered kev member).of_fades step.fades,
          fun start => queued (step.queued queue start)⟩
      | some kev =>
        obtain ⟨fades, keys, room, delivered, queued⟩ := ih count kq'
        obtain ⟨own, first⟩ := step.delivered kev rfl
        refine ⟨step.fades.trans fades, ?_, Nat.succ_le_succ room, ?_,
          fun start => queued (step.queued queue start)⟩
        · rw [map_cons, own]
          exact keys.cons_cons key
        · rintro kev' (_ | ⟨_, member⟩)
          · exact first
          · exact (delivered kev' member).of_fades step.fades

/-- So does `kqueue_scan`. -/
theorem kqueueEvents_spec (files : Files) (maxevents : Nat) (queued : WellQueued kq) :
    Fades kq (kqueueEvents files maxevents kq).1 ∧
      ((kqueueEvents files maxevents kq).2.map Kevent.key).Nodup ∧
      (kqueueEvents files maxevents kq).2.length ≤ maxevents ∧
      (∀ kev ∈ (kqueueEvents files maxevents kq).2, Delivered kq kev) ∧
      WellQueued (kqueueEvents files maxevents kq).1 := by
  obtain ⟨fades, keys, room, delivered, queued'⟩ :=
    kqueueScan_spec files kq.head maxevents { kq with head := [] }
  refine ⟨fades, keys.nodup queued.nodup, room, delivered, queued' ?_⟩
  rw [append_nil]
  exact queued

end Scanning

end FStack.Event
