import FStack.Micro.Sessions
import Mathlib.Data.List.Nodup

/-!
# Sessions do not mix

Two invariants carry the isolation of sessions. The hash has the actions that are registered, each
under a number of its own. And an action that is registered has the connection of its session, or
that connection is in the pool, where it has no notification object: nothing is put into it.
-/

namespace FStack.Micro.SessionWorld

open Function (update update_apply update_idem update_of_ne update_self)
open List Steps

/-- The hash has the actions that are registered, each under a number of its own. -/
structure Hashed (world : SessionWorld) : Prop where
  objects : world.objects.Nodup
  bucket : ∀ {index idx}, index ∈ world.buckets idx ↔ index ∈ world.objects ∧
    (world.actions index).sessionFlag = true ∧ idx = bucketOf (world.actions index).sessionId
  chains : ∀ idx, (world.buckets idx).Nodup
  hash : ∀ {index}, index ∈ world.objects → (world.actions index).hashValue =
    if (world.actions index).sessionFlag then (world.actions index).sessionId else 0
  numbers : ∀ {index other}, index ∈ world.objects → other ∈ world.objects →
    (world.actions index).sessionFlag = true → (world.actions other).sessionFlag = true →
    (world.actions index).sessionId = (world.actions other).sessionId → index = other

/-- A connection is with one action or in the pool, and an action that is registered has the
connection of its session, or that is in the pool. The last is said of the actions that are
settled. -/
structure Pooled (world : SessionWorld) (Settled : Nat → Prop) : Prop where
  owned : ∀ {index conn}, index ∈ world.objects → (world.actions index).conn = some conn →
    conn ∉ world.udpSessionQueue ∧ ∃ state, world.conns conn = some state ∧ state.action = some index
  pool : ∀ {conn}, conn ∈ world.udpSessionQueue →
    ∃ state, world.conns conn = some state ∧ state.ntfyObj = false
  queue : world.udpSessionQueue.Nodup
  session : ∀ {index}, index ∈ world.objects → Settled index →
    (world.actions index).sessionFlag = true → ∃ conn, (world.actions index).connection = some conn ∧
      ((world.actions index).conn = some conn ∨
        (world.actions index).conn = none ∧ conn ∈ world.udpSessionQueue)

/-- Both, with every action settled. -/
structure Sound (world : SessionWorld) : Prop where
  hashed : world.Hashed
  pooled : world.Pooled fun _ => True

/-- When an action is initialised, it is not registered, and no action that is registered has the
number that is given next. -/
def Fresh (world : SessionWorld) : SessionEvent → Prop
  | .init index _ _ _ _ => (world.actions index).sessionFlag = false ∧
      ∀ other ∈ world.objects, (world.actions other).sessionFlag = true →
        (world.actions other).sessionId ≠ world.nextSession
  | _ => True

instance (world : SessionWorld) : DecidablePred world.Fresh
  | .init .. => inferInstanceAs (Decidable (_ ∧ _))
  | .create _ | .reset _ | .destroy _ | .input _ => inferInstanceAs (Decidable True)

theorem Orderly.fresh {world : SessionWorld} {event : SessionEvent}
    (orderly : world.Orderly event) : world.Fresh event := by
  cases event with
  | init => exact ⟨orderly.1, fun other there on => (orderly.2 other there on).2⟩
  | create | reset | destroy | input => trivial

/-- At the start there are no actions. -/
theorem start_sound : start.Sound where
  hashed :=
    { objects := nodup_nil
      bucket := iff_of_false not_mem_nil fun both => not_mem_nil both.1
      chains := fun _ => nodup_nil
      hash := fun there => absurd there not_mem_nil
      numbers := fun there => absurd there not_mem_nil }
  pooled :=
    { owned := fun there => absurd there not_mem_nil
      pool := fun there => absurd there not_mem_nil
      queue := nodup_nil
      session := fun there => absurd there not_mem_nil }

variable {world : SessionWorld} {Settled : Nat → Prop} {index address : Nat}

@[simp] theorem setAction_actions (action : MtAction) :
    (world.setAction index action).actions index = action :=
  update_self ..

theorem setAction_actions_of_ne {other : Nat} (ne : other ≠ index) (action : MtAction) :
    (world.setAction index action).actions other = world.actions other :=
  update_of_ne ne ..

@[simp] theorem setConn_conns (conn : Option UdpSessionConn) :
    (world.setConn address conn).conns address = conn :=
  update_self ..

theorem setConn_conns_of_ne {other : Nat} (ne : other ≠ address) (conn : Option UdpSessionConn) :
    (world.setConn address conn).conns other = world.conns other :=
  update_of_ne ne ..

/-- An action that is registered is not the one that has just been written. -/
theorem ne_of_registered {action : MtAction} {entry : Nat}
    (on : ((world.setAction index action).actions entry).sessionFlag = true)
    (off : action.sessionFlag = false) : entry ≠ index := by
  rintro rfl
  rw [setAction_actions, off] at on
  cases on

/-- Only connections and the pool are written to. -/
theorem allocConn_same : (world.allocConn address).1.objects = world.objects ∧
    (world.allocConn address).1.actions = world.actions ∧
    (world.allocConn address).1.buckets = world.buckets ∧
    (world.allocConn address).1.currSession = world.currSession := by
  unfold allocConn
  split <;> exact ⟨rfl, rfl, rfl, rfl⟩

/-- Freeing a connection changes neither actions nor hash. -/
theorem freeConnection_same : (world.freeConnection address).objects = world.objects ∧
    (world.freeConnection address).actions = world.actions ∧
    (world.freeConnection address).buckets = world.buckets := by
  unfold freeConnection
  split_ifs <;> exact ⟨rfl, rfl, rfl⟩

/-- A reset leaves the sessions as they are. -/
theorem resetAction_same : (world.resetAction index).objects = world.objects ∧
    (world.resetAction index).buckets = world.buckets ∧
    ∀ other, ((world.resetAction index).actions other).sessionFlag =
        (world.actions other).sessionFlag ∧
      ((world.resetAction index).actions other).sessionId = (world.actions other).sessionId ∧
      ((world.resetAction index).actions other).hashValue = (world.actions other).hashValue := by
  unfold resetAction
  split
  · exact ⟨rfl, rfl, fun _ => ⟨rfl, rfl, rfl⟩⟩
  next conn _ =>
    obtain ⟨objects, actions, buckets⟩ := @freeConnection_same world conn
    refine ⟨objects, buckets, fun other => ?_⟩
    by_cases same : other = index
    · rw [same, setAction_actions]
      exact ⟨rfl, rfl, rfl⟩
    · rw [setAction_actions_of_ne same, actions]
      exact ⟨rfl, rfl, rfl⟩

/-- A datagram is put where its session says. -/
theorem delivery_cases {datagram : SessionDatagram} {conn : Nat}
    (put : world.delivery datagram = some conn) :
    ∃ index state, world.findSession datagram.session = some index ∧
      (world.actions index).connection = some conn ∧ world.conns conn = some state ∧
      state.ntfyObj = true := by
  unfold delivery at put
  split at put
  · cases put
  next index found =>
    split at put
    next thread conn' _ connection =>
      split at put
      next state memory =>
        split_ifs at put with ntfy
        cases put
        exact ⟨index, state, found, connection, memory, ntfy⟩
      · cases put
    · cases put

/-- An unregistered action gets the next number and its place in the hash. -/
theorem insertSession_eq (off : (world.actions index).sessionFlag = false)
    (hash : (world.actions index).hashValue = 0) :
    world.insertSession index =
      { world.setAction index { world.actions index with
          sessionFlag := true, hashValue := (world.actions index).sessionId } with
        buckets := update world.buckets (bucketOf (world.actions index).sessionId)
          (index :: world.buckets (bucketOf (world.actions index).sessionId)) } := by
  unfold insertSession hashInsert
  rw [if_neg (by rw [off]; rintro ⟨⟩), setAction_actions, if_neg (not_not.mpr hash)]
  simp only [setAction, update_idem]

theorem removeSession_objects {id : BitVec 32} :
    (world.removeSession id).objects = world.objects := by
  unfold removeSession
  split <;> rfl

/-- A destroyed action is gone. -/
theorem destroyAction_objects :
    (world.destroyAction index).objects = world.objects.erase index := by
  unfold destroyAction
  dsimp only
  split_ifs
  · rw [removeSession_objects, resetAction_same.1]
  · rw [resetAction_same.1]

/-- The action is registered afterwards. -/
theorem insertSession_registers : (world.insertSession index).objects = world.objects ∧
    ((world.insertSession index).actions index).sessionFlag = true := by
  unfold insertSession hashInsert
  dsimp only
  split_ifs with on
  · exact ⟨rfl, on⟩
  all_goals
    simp [setAction]

/-! ### The hash -/

namespace Hashed

variable (hashed : world.Hashed)

include hashed

/-- What `FindSession` finds is registered under the number. -/
theorem found {id : BitVec 32} (found : world.findSession id = some index) :
    index ∈ world.objects ∧ (world.actions index).sessionFlag = true ∧
      (world.actions index).sessionId = id := by
  obtain ⟨there, flag, -⟩ := hashed.bucket.mp (mem_of_find?_eq_some found)
  have same := find?_some found
  unfold hashMatches at same
  rw [Bool.and_eq_true, beq_iff_eq, beq_iff_eq] at same
  exact ⟨there, flag, same.2⟩

section

variable (there : index ∈ world.objects) (flag : (world.actions index).sessionFlag = true)

include there flag

theorem matches_self : world.hashMatches (world.actions index).sessionId index = true := by
  have hash := hashed.hash there
  rw [if_pos flag] at hash
  unfold hashMatches
  rw [hash]
  simp

/-- A registered action is found under its number. -/
theorem findSession_eq : world.findSession (world.actions index).sessionId = some index := by
  cases result : world.findSession (world.actions index).sessionId with
  | none =>
    exact absurd (hashed.matches_self there flag)
      (find?_eq_none.mp result index (hashed.bucket.mpr ⟨there, flag, rfl⟩))
  | some other =>
    obtain ⟨there', flag', same⟩ := hashed.found result
    rw [hashed.numbers there' there flag' flag same]

end

/-- Connections do not matter to the hash, nor does the number of an action that is not
registered. -/
theorem of_same {after : SessionWorld} (objects : after.objects = world.objects)
    (buckets : after.buckets = world.buckets)
    (flag : ∀ index, (after.actions index).sessionFlag = (world.actions index).sessionFlag)
    (id : ∀ index, (world.actions index).sessionFlag = true →
      (after.actions index).sessionId = (world.actions index).sessionId)
    (hash : ∀ index, (after.actions index).hashValue = (world.actions index).hashValue) :
    after.Hashed := by
  constructor
  · rw [objects]
    exact hashed.objects
  · intro index idx
    rw [objects, buckets, flag, hashed.bucket]
    refine and_congr_right fun _ => and_congr_right fun on => ?_
    rw [id index on]
  · rw [buckets]
    exact hashed.chains
  · intro index there
    rw [flag, hash, hashed.hash (objects ▸ there)]
    split_ifs with on
    · rw [id index on]
    · rfl
  · intro index other there there' on on' same
    rw [flag] at on on'
    rw [id index on, id other on'] at same
    exact hashed.numbers (objects ▸ there) (objects ▸ there') on on' same

/-- Fields other than session and hash value do not matter to the hash. -/
theorem setAction (action : MtAction)
    (flag : action.sessionFlag = (world.actions index).sessionFlag)
    (id : (world.actions index).sessionFlag = true →
      action.sessionId = (world.actions index).sessionId)
    (hash : action.hashValue = (world.actions index).hashValue) :
    (world.setAction index action).Hashed := by
  refine hashed.of_same rfl rfl (fun other => ?_) (fun other => ?_) fun other => ?_ <;>
    by_cases same : other = index
  any_goals rw [setAction_actions_of_ne same]
  · rw [same, setAction_actions, flag]
  · rw [same, setAction_actions]
    exact id
  · exact fun _ => rfl
  · rw [same, setAction_actions, hash]

theorem setConn (conn : Option UdpSessionConn) : (world.setConn address conn).Hashed :=
  hashed.of_same rfl rfl (fun _ => rfl) (fun _ _ => rfl) fun _ => rfl

/-- An action that is reset gives its connection back, if the pool has room. -/
theorem resetAction : (world.resetAction index).Hashed := by
  obtain ⟨objects, buckets, same⟩ := @resetAction_same world index
  exact hashed.of_same objects buckets (fun other => (same other).1)
    (fun other _ => (same other).2.1) fun other => (same other).2.2

/-- A new action is not registered. -/
theorem create (absent : index ∉ world.objects) :
    Hashed { world.setAction index .new with objects := index :: world.objects } := by
  constructor
  · exact nodup_cons.mpr ⟨absent, hashed.objects⟩
  · intro entry idx
    by_cases same : entry = index
    · subst same
      exact iff_of_false (fun there => absent (hashed.bucket.mp there).1) fun new =>
        ne_of_registered new.2.1 rfl rfl
    · rw [setAction_actions_of_ne same, mem_cons, or_iff_right same]
      exact hashed.bucket
  · exact hashed.chains
  · intro entry there
    by_cases same : entry = index
    · subst same
      rw [setAction_actions]
      rfl
    · rw [setAction_actions_of_ne same]
      exact hashed.hash (mem_of_ne_of_mem same there)
  · intro one two there there' flag flag'
    have ne := ne_of_registered flag rfl
    have ne' := ne_of_registered flag' rfl
    rw [setAction_actions_of_ne ne] at flag ⊢
    rw [setAction_actions_of_ne ne'] at flag' ⊢
    exact hashed.numbers (mem_of_ne_of_mem ne there) (mem_of_ne_of_mem ne' there')
      flag flag'

section

variable (there : index ∈ world.objects)

include there

/-- An action is entered that is not registered, under a number that no other has. -/
theorem insertSession (off : (world.actions index).sessionFlag = false)
    (fresh : ∀ other ∈ world.objects, (world.actions other).sessionFlag = true →
      (world.actions other).sessionId ≠ (world.actions index).sessionId) :
    (world.insertSession index).Hashed := by
  have hash := hashed.hash there
  rw [if_neg (by rw [off]; rintro ⟨⟩)] at hash
  have absent : ∀ idx, index ∉ world.buckets idx := fun idx member => by
    have on := (hashed.bucket.mp member).2.1
    rw [off] at on
    cases on
  rw [insertSession_eq off hash]
  generalize idx_eq : bucketOf (world.actions index).sessionId = idx
  have chain : ∀ idx', update world.buckets idx (index :: world.buckets idx) idx' =
      if idx' = idx then index :: world.buckets idx' else world.buckets idx' := fun idx' => by
    rw [update_apply]
    split_ifs with same
    · rw [same]
    · rfl
  constructor
  · exact hashed.objects
  · intro entry idx'
    dsimp only
    rw [chain]
    by_cases same : entry = index
    · subst same
      rw [setAction_actions, idx_eq]
      split_ifs with here
      · exact iff_of_true mem_cons_self ⟨there, rfl, here⟩
      · exact iff_of_false (absent idx') fun both => here both.2.2
    · rw [setAction_actions_of_ne same]
      split_ifs
      · rw [mem_cons, or_iff_right same]
        exact hashed.bucket
      · exact hashed.bucket
  · intro idx'
    dsimp only
    rw [chain]
    split_ifs
    · exact nodup_cons.mpr ⟨absent idx', hashed.chains idx'⟩
    · exact hashed.chains idx'
  · intro entry there'
    by_cases same : entry = index
    · rw [same, setAction_actions]
      rfl
    · rw [setAction_actions_of_ne same]
      exact hashed.hash there'
  · intro one two there₁ there₂ on₁ on₂ equal
    by_cases same₁ : one = index <;> by_cases same₂ : two = index
    · rw [same₁, same₂]
    · rw [same₁, setAction_actions, setAction_actions_of_ne same₂] at equal
      rw [setAction_actions_of_ne same₂] at on₂
      exact absurd equal.symm (fresh two there₂ on₂)
    · rw [same₂, setAction_actions, setAction_actions_of_ne same₁] at equal
      rw [setAction_actions_of_ne same₁] at on₁
      exact absurd equal (fresh one there₁ on₁)
    · rw [setAction_actions_of_ne same₁] at on₁ equal
      rw [setAction_actions_of_ne same₂] at on₂ equal
      exact hashed.numbers there₁ there₂ on₁ on₂ equal

/-- The last part of `InitConnEnv`: the action is entered under the next number. -/
theorem register {action : MtAction} (before : world.actions index = action)
    (off : action.sessionFlag = false) {id : BitVec 32}
    (fresh : ∀ other ∈ world.objects, (world.actions other).sessionFlag = true →
      (world.actions other).sessionId ≠ id) (thread conn : Nat) :
    (({ world.setAction index { action with
      thread := some thread, connection := some conn, sessionId := id } with
        currSession := id }).insertSession index).Hashed := by
  subst before
  generalize entry_eq : ({ world.actions index with
      thread := some thread, connection := some conn, sessionId := id } : MtAction) = entry
  have entry_off : entry.sessionFlag = false := entry_eq ▸ off
  have set : (world.setAction index entry).Hashed := by
    subst entry_eq
    exact hashed.setAction _ rfl (fun on => absurd (off.symm.trans on) (by decide)) rfl
  have here : ({ world.setAction index entry with currSession := id } : SessionWorld).actions index =
      entry := setAction_actions entry
  have numbered : Hashed { world.setAction index entry with currSession := id } :=
    set.of_same rfl rfl (fun _ => rfl) (fun _ _ => rfl) fun _ => rfl
  refine numbered.insertSession there ((congrArg MtAction.sessionFlag here).trans entry_off)
    fun other there' on => ?_
  have ne : other ≠ index := ne_of_registered on entry_off
  rw [here]
  dsimp only at on ⊢
  rw [setAction_actions_of_ne ne] at on ⊢
  subst entry_eq
  exact fresh other there' on

/-- An action gets a session whose number no other one has. -/
theorem initConnEnv (off : (world.actions index).sessionFlag = false)
    (fresh : ∀ other ∈ world.objects, (world.actions other).sessionFlag = true →
      (world.actions other).sessionId ≠ world.nextSession) (thread : Nat) (buffer ntfy : Bool) :
    (world.initConnEnv index thread address buffer ntfy).Hashed := by
  unfold SessionWorld.initConnEnv
  split
  · exact hashed
  obtain ⟨objects, actions, buckets, currSession⟩ := @allocConn_same world address
  generalize world.allocConn address = taken at *
  obtain ⟨taken, conn⟩ := taken
  have taken_hashed : taken.Hashed := by
    refine hashed.of_same objects buckets (fun _ => ?_) (fun _ _ => ?_) fun _ => ?_ <;>
      rw [actions]
  have owner := taken_hashed.setAction { taken.actions index with conn := some conn } rfl
    (fun _ => rfl) rfl
  split_ifs
  · exact owner.setConn _
  · exact (owner.setConn _).setConn _
  refine (((owner.setConn _).setConn _).setConn _).register (objects ▸ there)
    (setAction_actions _) (actions ▸ off) (fun other there' on => ?_) thread conn
  have next : taken.nextSession = world.nextSession := by
    unfold nextSession
    rw [currSession]
  have ne : other ≠ index := ne_of_registered on (actions ▸ off)
  have same : ((taken.setAction index { taken.actions index with conn := some conn }).actions other) =
      world.actions other := by rw [setAction_actions_of_ne ne, actions]
  have other_fresh := fresh other (objects ▸ there') (same ▸ on)
  rw [← same, ← next] at other_fresh
  exact other_fresh

end

/-- An action that is not registered can be forgotten. -/
theorem erase (off : (world.actions index).sessionFlag = false) :
    Hashed { world with objects := world.objects.erase index } where
  objects := hashed.objects.erase index
  bucket := by
    intro entry idx
    rw [hashed.bucket, hashed.objects.mem_erase_iff]
    refine ⟨fun both => ⟨⟨?_, both.1⟩, both.2⟩, fun both => ⟨both.1.2, both.2⟩⟩
    rintro rfl
    have on := both.2.1
    rw [off] at on
    cases on
  chains := hashed.chains
  hash there := hashed.hash (mem_of_mem_erase there)
  numbers there there' :=
    hashed.numbers (mem_of_mem_erase there) (mem_of_mem_erase there')

variable (there : index ∈ world.objects) (on : (world.actions index).sessionFlag = true)

include there on

/-- What `RemoveSession` takes out of the chain is the action itself. -/
theorem mem_eraseP {entry : Nat} :
    entry ∈ (world.buckets (bucketOf (world.actions index).sessionId)).eraseP
        (world.hashMatches (world.actions index).sessionId) ↔
      entry ∈ world.buckets (bucketOf (world.actions index).sessionId) ∧ entry ≠ index := by
  have member : index ∈ world.buckets (bucketOf (world.actions index).sessionId) :=
    hashed.bucket.mpr ⟨there, on, rfl⟩
  obtain ⟨gone, left, right, -, hit, whole, rest⟩ :=
    exists_of_eraseP member (hashed.matches_self there on)
  have single := hashed.chains (bucketOf (world.actions index).sessionId)
  have gone_eq : gone = index := by
    obtain ⟨there', on', -⟩ := hashed.bucket.mp
      (show gone ∈ world.buckets _ from whole ▸ mem_append_right left mem_cons_self)
    unfold hashMatches at hit
    rw [Bool.and_eq_true, beq_iff_eq, beq_iff_eq] at hit
    exact hashed.numbers there' there on' on hit.2
  rw [whole, gone_eq, nodup_middle, nodup_cons] at single
  rw [rest, whole, gone_eq, mem_append, mem_append, mem_cons]
  refine ⟨fun member' => ⟨member'.imp_right Or.inr, ?_⟩, fun both => ?_⟩
  · rintro rfl
    exact single.1 (mem_append.mpr member')
  · exact both.1.imp_right fun here => here.resolve_left both.2

/-- An action that is registered is taken out of the hash and goes. -/
theorem removeSession :
    Hashed { world.removeSession (world.actions index).sessionId with
      objects := world.objects.erase index } := by
  unfold SessionWorld.removeSession
  rw [hashed.findSession_eq there on]
  constructor
  · exact hashed.objects.erase index
  · intro entry idx
    dsimp only
    rw [hashed.objects.mem_erase_iff]
    by_cases same : entry = index
    · subst same
      refine iff_of_false (fun member => ?_) fun both => both.1.1 rfl
      rw [update_apply] at member
      split_ifs at member with here
      · exact ((hashed.mem_eraseP there on).mp member).2 rfl
      · exact here (hashed.bucket.mp member).2.2
    · rw [setAction_actions_of_ne same, and_iff_right same, ← hashed.bucket, update_apply]
      split_ifs with here
      · rw [hashed.mem_eraseP there on, here, and_iff_left same]
      · rfl
  · intro idx
    dsimp only
    rw [update_apply]
    split_ifs
    · exact (hashed.chains _).sublist (eraseP_sublist)
    · exact hashed.chains idx
  · intro entry there'
    rw [hashed.objects.mem_erase_iff] at there'
    rw [setAction_actions_of_ne there'.1]
    exact hashed.hash there'.2
  · intro one two there₁ there₂
    rw [hashed.objects.mem_erase_iff] at there₁ there₂
    rw [setAction_actions_of_ne there₁.1, setAction_actions_of_ne there₂.1]
    exact hashed.numbers there₁.2 there₂.2

omit on in
/-- A destroyed action leaves the hash. -/
theorem destroyAction : (world.destroyAction index).Hashed := by
  have reset : (world.resetAction index).Hashed := hashed.resetAction
  have there' : index ∈ (world.resetAction index).objects := by rwa [resetAction_same.1]
  unfold SessionWorld.destroyAction
  generalize world.resetAction index = after at *
  dsimp only
  split_ifs with on
  · rw [removeSession_objects]
    exact reset.removeSession there' on
  · exact reset.erase (Bool.not_eq_true _ ▸ on)

omit there on in
/-- Every event with fresh numbers keeps the hash. -/
theorem step (event : SessionEvent) (fresh : world.Fresh event) : (world.step event).Hashed := by
  unfold SessionWorld.step
  cases event with
  | create index =>
    dsimp only
    split_ifs with there
    · exact hashed
    · exact hashed.create there
  | init index thread address buffer ntfy =>
    dsimp only
    split_ifs with there used
    · exact hashed
    · exact hashed.initConnEnv there fresh.1 fresh.2 thread buffer ntfy
    · exact hashed
  | reset index =>
    dsimp only
    split_ifs
    · exact hashed.resetAction
    · exact hashed
  | destroy index =>
    dsimp only
    split_ifs with there
    · exact hashed.destroyAction there
    · exact hashed
  | input datagram =>
    unfold inputNotify
    dsimp only
    split
    · exact hashed
    · exact hashed.setConn _

end Hashed

/-! ### The pool -/

namespace Pooled

section

variable (pooled : world.Pooled Settled)

include pooled

/-- The connection of a session is in memory, and with a notification object it is with the
action. -/
theorem inMemory (there : index ∈ world.objects) (settled : Settled index)
    (on : (world.actions index).sessionFlag = true) {conn : Nat}
    (connection : (world.actions index).connection = some conn) :
    ∃ state, world.conns conn = some state ∧ (state.ntfyObj = true →
      (world.actions index).conn = some conn ∧ state.action = some index) := by
  obtain ⟨_, connection', has | ⟨-, idle⟩⟩ := pooled.session there settled on <;>
    cases connection.symm.trans connection'
  · obtain ⟨-, state, memory, owner⟩ := pooled.owned there has
    exact ⟨state, memory, fun _ => ⟨has, owner⟩⟩
  · obtain ⟨state, memory, off⟩ := pooled.pool idle
    refine ⟨state, memory, fun ntfy => ?_⟩
    rw [off] at ntfy
    cases ntfy

/-- The hash does not matter to the pool. -/
theorem of_same {after : SessionWorld} (objects : after.objects = world.objects)
    (conns : after.conns = world.conns) (queue : after.udpSessionQueue = world.udpSessionQueue)
    (same : ∀ index, (after.actions index).conn = (world.actions index).conn ∧
      (after.actions index).sessionFlag = (world.actions index).sessionFlag ∧
      (after.actions index).connection = (world.actions index).connection) :
    after.Pooled Settled := by
  constructor
  · intro index conn there has
    rw [queue, conns]
    exact pooled.owned (objects ▸ there) ((same index).1 ▸ has)
  · rw [queue, conns]
    exact pooled.pool
  · rw [queue]
    exact pooled.queue
  · intro index there settled
    rw [(same index).1, (same index).2.1, (same index).2.2, queue]
    exact pooled.session (objects ▸ there) settled

/-- A write that keeps the action, and in the pool the notification object. -/
theorem updateConn {write : UdpSessionConn → UdpSessionConn}
    (action : ∀ state, (write state).action = state.action)
    (ntfy : address ∈ world.udpSessionQueue → ∀ state, (write state).ntfyObj = state.ntfyObj) :
    (world.updateConn address write).Pooled Settled where
  owned := by
    intro index conn there has
    obtain ⟨free, state, memory, owner⟩ := pooled.owned there has
    refine ⟨free, ?_⟩
    unfold SessionWorld.updateConn
    by_cases same : conn = address
    · subst same
      rw [setConn_conns, memory]
      exact ⟨_, rfl, (action state).trans owner⟩
    · rw [setConn_conns_of_ne same]
      exact ⟨state, memory, owner⟩
  pool := by
    intro conn idle
    obtain ⟨state, memory, off⟩ := pooled.pool idle
    unfold SessionWorld.updateConn
    by_cases same : conn = address
    · subst same
      rw [setConn_conns, memory]
      exact ⟨_, rfl, (ntfy idle state).trans off⟩
    · rw [setConn_conns_of_ne same]
      exact ⟨state, memory, off⟩
  queue := pooled.queue
  session := pooled.session

/-- A new action has no connection. -/
theorem create :
    Pooled { world.setAction index .new with objects := index :: world.objects } Settled where
  owned := by
    intro entry conn there has
    by_cases same : entry = index
    · rw [same, setAction_actions] at has
      cases has
    · rw [setAction_actions_of_ne same] at has
      exact pooled.owned (mem_of_ne_of_mem same there) has
  pool := pooled.pool
  queue := pooled.queue
  session := by
    intro entry there settled on
    by_cases same : entry = index
    · rw [same, setAction_actions] at on
      cases on
    · rw [setAction_actions_of_ne same] at on ⊢
      exact pooled.session (mem_of_ne_of_mem same there) settled on

/-- The hash does not matter to the pool. -/
theorem removeSession {id : BitVec 32} : (world.removeSession id).Pooled Settled := by
  unfold SessionWorld.removeSession
  split
  · exact pooled
  next found _ =>
    refine pooled.of_same rfl rfl rfl fun other => ?_
    by_cases same : other = found
    · rw [same, setAction_actions]
      exact ⟨rfl, rfl, rfl⟩
    · rw [setAction_actions_of_ne same]
      exact ⟨rfl, rfl, rfl⟩

end

/-- The pool does not depend on an action that is gone. -/
theorem erase (pooled : world.Pooled (· ≠ index)) (objects : world.objects.Nodup) :
    Pooled { world with objects := world.objects.erase index } fun _ => True where
  owned there := pooled.owned (mem_of_mem_erase there)
  pool := pooled.pool
  queue := pooled.queue
  session there _ := by
    rw [objects.mem_erase_iff] at there
    exact pooled.session there.2 there.1

variable (pooled : world.Pooled Settled)

include pooled

/-- A reset gives the connection of the action to the pool, which may delete it. Another action does
not have it. -/
theorem resetAction (there : index ∈ world.objects) :
    (world.resetAction index).Pooled fun entry => Settled entry ∧
      (entry = index → world.udpSessionQueue.length < poolMaxFree) := by
  have weaker : world.Pooled fun entry => Settled entry ∧
      (entry = index → world.udpSessionQueue.length < poolMaxFree) :=
    { pooled with session := fun there settled => pooled.session there settled.1 }
  unfold SessionWorld.resetAction
  split
  · exact weaker
  next conn has =>
  obtain ⟨free, state, memory, owner⟩ := pooled.owned there has
  have other : ∀ {entry conn'}, entry ∈ world.objects → entry ≠ index →
      (world.actions entry).conn = some conn' → conn' ≠ conn := by
    rintro entry conn' there' ne has' rfl
    obtain ⟨-, state', memory', owner'⟩ := pooled.owned there' has'
    cases memory.symm.trans memory'
    cases owner.symm.trans owner'
    exact ne rfl
  have idle : ∀ {conn'}, conn' ∈ world.udpSessionQueue → conn' ≠ conn := by
    rintro conn' idle rfl
    exact free idle
  unfold freeConnection
  split_ifs with full
  · constructor
    · intro entry conn' there' has'
      by_cases same : entry = index
      · rw [same, setAction_actions] at has'
        cases has'
      · rw [setAction_actions_of_ne same] at has'
        refine (pooled.owned there' has').imp_right fun memory' => ?_
        exact (setConn_conns_of_ne (other there' same has') none).symm ▸ memory'
    · intro conn' idle'
      exact (setConn_conns_of_ne (idle idle') none).symm ▸ pooled.pool idle'
    · exact pooled.queue
    · intro entry there' settled on
      have ne : entry ≠ index := fun same => absurd (settled.2 same) (Nat.not_lt.mpr full)
      rw [setAction_actions_of_ne ne] at on ⊢
      exact pooled.session there' settled.1 on
  · constructor
    · intro entry conn' there' has'
      by_cases same : entry = index
      · rw [same, setAction_actions] at has'
        cases has'
      · rw [setAction_actions_of_ne same] at has'
        have ne := other there' same has'
        obtain ⟨free', memory'⟩ := pooled.owned there' has'
        refine ⟨?_, (setConn_conns_of_ne ne _).symm ▸ memory'⟩
        exact not_mem_append free' (mem_singleton.not.mpr ne)
    · intro conn' idle'
      rcases mem_append.mp idle' with idle' | here
      · exact (setConn_conns_of_ne (idle idle') _).symm ▸ pooled.pool idle'
      · exact ⟨⟨none, false, none⟩, mem_singleton.mp here ▸ setConn_conns _, rfl⟩
    · exact nodup_append'.mpr ⟨pooled.queue, nodup_singleton conn,
        disjoint_singleton.mpr free⟩
    · intro entry there' settled on
      by_cases same : entry = index
      · subst same
        rw [setAction_actions] at on ⊢
        obtain ⟨_, connection, has' | ⟨none, -⟩⟩ := pooled.session there' settled.1 on
        · cases has.symm.trans has'
          exact ⟨conn, connection, .inr ⟨rfl, mem_append_right _ mem_cons_self⟩⟩
        · cases has.symm.trans none
      · rw [setAction_actions_of_ne same] at on ⊢
        obtain ⟨conn', connection, has'⟩ := pooled.session there' settled.1 on
        exact ⟨conn', connection,
          has'.imp_right (And.imp_right (mem_append_left _))⟩

/-- A connection for an action: no action has it, and it is in memory. It may be the one of a
session, but only of one that has been reset. -/
theorem allocConn (new : world.udpSessionQueue = [] → world.conns address = none)
    (held : ∀ other ∈ world.objects, Settled other → (world.actions other).sessionFlag = true →
      (world.actions other).conn ≠ none) :
    (world.allocConn address).1.Pooled Settled ∧
      (world.allocConn address).2 ∉ (world.allocConn address).1.udpSessionQueue ∧
      (∃ state, (world.allocConn address).1.conns (world.allocConn address).2 = some state) ∧
      ∀ other ∈ world.objects, (world.actions other).conn ≠ some (world.allocConn address).2 := by
  have session : ∀ {queue : List Nat} {entry}, entry ∈ world.objects → Settled entry →
      (world.actions entry).sessionFlag = true → ∃ conn, (world.actions entry).connection = some conn ∧
        ((world.actions entry).conn = some conn ∨
          (world.actions entry).conn = none ∧ conn ∈ queue) := by
    intro queue entry there settled on
    obtain ⟨conn, connection, has | ⟨none, -⟩⟩ := pooled.session there settled on
    · exact ⟨conn, connection, .inl has⟩
    · exact absurd none (held entry there settled on)
  unfold SessionWorld.allocConn
  split
  next first rest queue =>
    have single := pooled.queue
    rw [queue, nodup_cons] at single
    have inside : ∀ {conn}, conn ∈ rest → conn ∈ world.udpSessionQueue := fun member =>
      queue ▸ mem_cons_of_mem first member
    have first_mem : first ∈ world.udpSessionQueue := queue ▸ mem_cons_self
    refine ⟨⟨fun there has => ?_, fun idle => pooled.pool (inside idle), single.2, session⟩,
      single.1, ?_, fun other there has => (pooled.owned there has).1 first_mem⟩
    · exact (pooled.owned there has).imp_left fun free idle => free (inside idle)
    · obtain ⟨state, memory, -⟩ := pooled.pool first_mem
      exact ⟨state, memory⟩
  next queue =>
    have none_eq := new queue
    have unowned : ∀ other ∈ world.objects, (world.actions other).conn ≠ some address := by
      intro other there has
      obtain ⟨-, state, memory, -⟩ := pooled.owned there has
      rw [none_eq] at memory
      cases memory
    have empty : ∀ {conn}, conn ∉ world.udpSessionQueue := fun idle => by
      rw [queue] at idle
      exact not_mem_nil idle
    refine ⟨⟨?_, fun idle => absurd idle empty, pooled.queue, session⟩,
      empty, ⟨_, setConn_conns _⟩, unowned⟩
    intro entry conn there has
    have ne : conn ≠ address := fun same => unowned entry there (same ▸ has)
    exact ⟨empty, (setConn_conns_of_ne ne _).symm ▸ (pooled.owned there has).2⟩

/-- The connection is given to an action that has none and is not registered. -/
theorem setOwner (off : Settled index → (world.actions index).sessionFlag = false) {conn : Nat}
    (free : conn ∉ world.udpSessionQueue) (memory : ∃ state, world.conns conn = some state)
    (unowned : ∀ other ∈ world.objects, (world.actions other).conn ≠ some conn) :
    ((world.setAction index { world.actions index with conn := some conn }).updateConn conn
      ({ · with action := some index })).Pooled Settled where
  owned := by
    intro entry conn' there has
    by_cases same : entry = index
    · subst same
      have equal : conn = conn' := Option.some.inj ((congrArg MtAction.conn (setAction_actions _)).symm.trans has)
      subst equal
      obtain ⟨state, memory⟩ := memory
      refine ⟨free, { state with action := some entry }, ?_, rfl⟩
      exact (setConn_conns _).trans (congrArg (Option.map _) memory)
    · have has' : (world.actions entry).conn = some conn' :=
        (congrArg MtAction.conn (setAction_actions_of_ne same _)).symm.trans has
      have ne : conn' ≠ conn := fun equal => unowned entry there (equal ▸ has')
      exact (setConn_conns_of_ne ne _).symm ▸ pooled.owned there has'
  pool := by
    intro conn' idle
    have ne : conn' ≠ conn := by
      rintro rfl
      exact free idle
    exact (setConn_conns_of_ne ne _).symm ▸ pooled.pool idle
  queue := pooled.queue
  session := by
    intro entry there settled on
    unfold SessionWorld.updateConn at on ⊢
    dsimp only [setConn] at on ⊢
    have ne : entry ≠ index := fun same => ne_of_registered on (off (same ▸ settled)) same
    rw [setAction_actions_of_ne ne] at on ⊢
    exact pooled.session there settled on

/-- The session of an action is the connection that it has. -/
theorem setSession (action : MtAction) (conn : action.conn = (world.actions index).conn) (session :
      action.sessionFlag = true → ∃ conn, action.connection = some conn ∧ action.conn = some conn) :
    (world.setAction index action).Pooled Settled where
  owned := by
    intro entry conn' there has
    refine pooled.owned there ?_
    by_cases same : entry = index
    · rw [same, setAction_actions, conn] at has
      exact same ▸ has
    · rwa [setAction_actions_of_ne same] at has
  pool := pooled.pool
  queue := pooled.queue
  session := by
    intro entry there settled on
    by_cases same : entry = index
    · rw [same, setAction_actions] at on ⊢
      obtain ⟨conn', connection, has⟩ := session on
      exact ⟨conn', connection, .inl has⟩
    · rw [setAction_actions_of_ne same] at on ⊢
      exact pooled.session there settled on

/-- An action that has its connection can be registered. -/
theorem insertSession (off : (world.actions index).sessionFlag = false)
    (hash : (world.actions index).hashValue = 0) (conn : Nat)
    (connection : (world.actions index).connection = some conn)
    (has : (world.actions index).conn = some conn) : (world.insertSession index).Pooled Settled := by
  rw [insertSession_eq off hash]
  exact (pooled.setSession { world.actions index with sessionFlag := true, hashValue := _ } rfl
    fun _ => ⟨conn, connection, has⟩).of_same rfl rfl rfl fun _ => ⟨rfl, rfl, rfl⟩

/-- The last part of `InitConnEnv`. -/
theorem register {action : MtAction} (before : world.actions index = action)
    (off : action.sessionFlag = false) (hash : action.hashValue = 0) {conn : Nat}
    (has : action.conn = some conn) (id : BitVec 32) (thread : Nat) :
    (({ world.setAction index { action with
      thread := some thread, connection := some conn, sessionId := id } with
        currSession := id }).insertSession index).Pooled Settled := by
  have session := pooled.setSession { action with
    thread := some thread, connection := some conn, sessionId := id } (by rw [before])
      fun _ => ⟨conn, rfl, has⟩
  have numbered : Pooled { world.setAction index { action with
      thread := some thread, connection := some conn, sessionId := id } with currSession := id }
        Settled := session.of_same rfl rfl rfl fun _ => ⟨rfl, rfl, rfl⟩
  refine numbered.insertSession ?_ ?_ conn ?_ ?_ <;> dsimp only <;> rw [setAction_actions]
  · exact off
  · exact hash
  · exact has

end Pooled

/-! ### Every event -/

namespace Sound

variable (sound : world.Sound)

include sound

section

variable (there : index ∈ world.objects)

include there

/-- The connection that the action takes was in the pool, or is new. -/
theorem initConnEnv (new : world.udpSessionQueue = [] → world.conns address = none)
    (off : (world.actions index).sessionFlag = false)
    (held : ∀ other ∈ world.objects, (world.actions other).sessionFlag = true →
      (world.actions other).conn ≠ none) (thread : Nat) (buffer ntfy : Bool) :
    (world.initConnEnv index thread address buffer ntfy).Pooled fun _ => True := by
  have hash := sound.hashed.hash there
  rw [if_neg (by rw [off]; rintro ⟨⟩)] at hash
  unfold SessionWorld.initConnEnv
  split
  · exact sound.pooled
  obtain ⟨pooled, free, memory, unowned⟩ :=
    sound.pooled.allocConn new fun other there _ => held other there
  obtain ⟨objects, actions, -, -⟩ := @allocConn_same world address
  generalize world.allocConn address = taken at *
  obtain ⟨taken, conn⟩ := taken
  have owner : ((taken.setAction index { taken.actions index with conn := some conn }).updateConn conn
      ({ · with action := some index })).Pooled fun _ => True := by
    refine pooled.setOwner (fun _ => actions ▸ off) free memory fun other => ?_
    rw [objects, actions]
    exact unowned other
  have sends := @Pooled.updateConn _ _ conn owner ({ · with msgBuff := some .send })
    (fun _ => rfl) fun _ _ => rfl
  split_ifs
  · exact owner
  · exact sends
  refine Pooled.register (@Pooled.updateConn _ _ conn sends ({ · with ntfyObj := true })
    (fun _ => rfl) fun idle => absurd idle free) (setAction_actions _) ?_ ?_ rfl _ thread
  · exact actions ▸ off
  · exact actions ▸ hash

theorem resetAction
    (room : (world.actions index).sessionFlag = true → world.udpSessionQueue.length < poolMaxFree) :
    (world.resetAction index).Pooled fun _ => True := by
  obtain ⟨-, -, same⟩ := @resetAction_same world index
  have pooled := sound.pooled.resetAction there
  refine { pooled with session := fun {entry} there' _ on => ?_ }
  refine pooled.session there' ⟨trivial, ?_⟩ on
  rintro rfl
  exact room ((same entry).1 ▸ on)

/-- The connection of an action that goes may be deleted: its session goes too. -/
theorem destroyAction : (world.destroyAction index).Pooled fun _ => True := by
  have hashed : (world.resetAction index).Hashed := sound.hashed.resetAction
  have pooled : (world.resetAction index).Pooled (· ≠ index) :=
    { sound.pooled.resetAction there with
      session := fun there' ne =>
        (sound.pooled.resetAction there).session there' ⟨trivial, fun same => absurd same ne⟩ }
  unfold SessionWorld.destroyAction
  dsimp only
  split_ifs
  · refine pooled.removeSession.erase ?_
    rw [removeSession_objects]
    exact hashed.objects
  · exact pooled.erase hashed.objects

end

/-- An orderly event keeps hash and pool. -/
theorem step (event : SessionEvent) (orderly : world.Orderly event) : (world.step event).Sound := by
  refine ⟨sound.hashed.step event orderly.fresh, ?_⟩
  unfold SessionWorld.step
  cases event with
  | create index =>
    dsimp only
    split_ifs
    · exact sound.pooled
    · exact sound.pooled.create
  | init index thread address buffer ntfy =>
    dsimp only
    split_ifs with there used
    · exact sound.pooled
    · refine sound.initConnEnv there (fun empty => ?_) orderly.1
        (fun other there on => (orderly.2 other there on).1) thread buffer ntfy
      exact not_not.mp fun inUse => used ⟨empty, inUse⟩
    · exact sound.pooled
  | reset index =>
    dsimp only
    split_ifs with there
    · exact sound.resetAction there orderly
    · exact sound.pooled
  | destroy index =>
    dsimp only
    split_ifs with there
    · exact sound.destroyAction there
    · exact sound.pooled
  | input datagram =>
    unfold inputNotify
    dsimp only
    split
    · exact sound.pooled
    · exact sound.pooled.updateConn (fun _ => rfl) fun _ _ => rfl

/-- A datagram is put to the connection of its own session only. -/
theorem isolated (event : SessionEvent) : world.Isolated event := by
  cases event with
  | input datagram =>
    refine ⟨fun conn put => ?_, fun index found conn connection => ?_⟩
    · obtain ⟨index, state, found, connection, memory, ntfy⟩ := delivery_cases put
      obtain ⟨there, on, -⟩ := sound.hashed.found found
      obtain ⟨state', memory', owner⟩ := sound.pooled.inMemory there trivial on connection
      cases memory.symm.trans memory'
      obtain ⟨has, action⟩ := owner ntfy
      exact ⟨index, found, has, state, memory, action⟩
    · obtain ⟨there, on, -⟩ := sound.hashed.found found
      obtain ⟨state, memory, -⟩ := sound.pooled.inMemory there trivial on connection
      rw [memory]
      rintro ⟨⟩
  | create | init | reset | destroy => trivial

end Sound

/-- In every run in which an action that has been reset is destroyed before another one is
initialised, a datagram is put only into the connection that the action registered under its number
has at the time. -/
theorem isolated_of_orderly (events : List SessionEvent)
    (orderly : Along step Orderly start events) : Along step Isolated start events :=
  Along.imp Sound (fun _ event sound orderly => ⟨sound.isolated event, sound.step event orderly⟩)
    start_sound orderly

/-- The connection of an action that is reset and destroyed goes to the next one. A datagram of the
old session is put nowhere before and after that, one of the new session where it belongs. -/
theorem isolated_lateDatagram :
    Along step Isolated start [.create 1, .init 1 7 100 true true, .reset 1, .input ⟨1, 40⟩,
      .destroy 1, .create 2, .init 2 8 101 true true, .input ⟨1, 41⟩, .input ⟨2, 42⟩] ∧
    ([.create 1, .init 1 7 100 true true, .reset 1, .input ⟨1, 40⟩, .destroy 1, .create 2,
      .init 2 8 101 true true, .input ⟨1, 41⟩, .input ⟨2, 42⟩].foldl step start).conns 100 =
        some ⟨some 2, true, some (.recv ⟨2, 42⟩)⟩ :=
  ⟨isolated_of_orderly _ (by decide +kernel), by decide +kernel⟩

/-- Of the pool alone: no action is settled. -/
abbrev Owned (world : SessionWorld) : Prop := world.Pooled fun _ => False

namespace Owned

variable (owned : world.Owned)

include owned

/-- Sessions do not matter to who has a connection. -/
theorem of_same {after : SessionWorld} (objects : after.objects = world.objects)
    (conns : after.conns = world.conns) (queue : after.udpSessionQueue = world.udpSessionQueue)
    (same : ∀ index, (after.actions index).conn = (world.actions index).conn) : after.Owned where
  owned there has := by
    rw [queue, conns]
    exact owned.owned (objects ▸ there) (same _ ▸ has)
  pool := by
    rw [queue, conns]
    exact owned.pool
  queue := queue ▸ owned.queue
  session _ := False.elim

/-- Only the connection of an action matters to the pool. -/
theorem setAction (action : MtAction) (conn : action.conn = (world.actions index).conn) :
    (world.setAction index action).Owned := by
  refine owned.of_same rfl rfl rfl fun entry => ?_
  by_cases same : entry = index
  · rw [same, setAction_actions, conn]
  · rw [setAction_actions_of_ne same]

theorem hashInsert : (world.hashInsert index).Owned := by
  unfold SessionWorld.hashInsert
  dsimp only
  split_ifs
  · exact owned
  · exact (@setAction _ index owned { world.actions index with
      hashValue := (world.actions index).sessionId } rfl).of_same rfl rfl rfl fun _ => rfl

/-- A session does not matter to who has a connection. -/
theorem insertSession : (world.insertSession index).Owned := by
  unfold SessionWorld.insertSession
  dsimp only
  split_ifs
  · exact owned
  · exact hashInsert (owned.setAction _ rfl)

/-- The connection that an action takes was nobody's. -/
theorem initConnEnv (new : world.udpSessionQueue = [] → world.conns address = none)
    (thread : Nat) (buffer ntfy : Bool) :
    (world.initConnEnv index thread address buffer ntfy).Owned := by
  unfold SessionWorld.initConnEnv
  split
  · exact owned
  obtain ⟨pooled, free, memory, unowned⟩ := owned.allocConn new fun _ _ never => never.elim
  obtain ⟨objects, actions, -, -⟩ := @allocConn_same world address
  generalize world.allocConn address = taken at *
  obtain ⟨taken, conn⟩ := taken
  have owner : ((taken.setAction index { taken.actions index with conn := some conn }).updateConn conn
      ({ · with action := some index })).Owned := by
    refine pooled.setOwner False.elim free memory fun other => ?_
    rw [objects, actions]
    exact unowned other
  have sends := @Pooled.updateConn _ _ conn owner ({ · with msgBuff := some .send })
    (fun _ => rfl) fun _ _ => rfl
  split_ifs
  · exact owner
  · exact sends
  have notified := @Pooled.updateConn _ _ conn sends ({ · with ntfyObj := true })
    (fun _ => rfl) fun idle => absurd idle free
  refine insertSession (Owned.of_same (Owned.setAction notified _ ?_) rfl rfl rfl fun _ => rfl)
  change some conn =
    ((taken.setAction index { taken.actions index with conn := some conn }).actions index).conn
  rw [setAction_actions]

theorem resetAction (there : index ∈ world.objects) : (world.resetAction index).Owned :=
  { Pooled.resetAction owned there with session := fun _ => False.elim }

/-- The connection of a destroyed action goes back to the pool. -/
theorem destroyAction (there : index ∈ world.objects) : (world.destroyAction index).Owned := by
  have gone {world : SessionWorld} (owned : world.Owned) :
      Owned { world with objects := world.objects.erase index } :=
    { owned with
      owned := fun there => owned.owned (mem_of_mem_erase there)
      session := fun _ => False.elim }
  unfold SessionWorld.destroyAction
  dsimp only
  split_ifs
  · exact gone (owned.resetAction there).removeSession
  · exact gone (owned.resetAction there)

/-- No event gives one connection to two actions. -/
theorem step (event : SessionEvent) : (world.step event).Owned := by
  unfold SessionWorld.step
  cases event with
  | create index =>
    dsimp only
    split_ifs
    · exact owned
    · exact owned.create
  | init index thread address buffer ntfy =>
    dsimp only
    split_ifs with there used
    · exact owned
    · refine owned.initConnEnv (fun empty => ?_) thread buffer ntfy
      exact not_not.mp fun inUse => used ⟨empty, inUse⟩
    · exact owned
  | reset index =>
    dsimp only
    split_ifs with there
    · exact owned.resetAction there
    · exact owned
  | destroy index =>
    dsimp only
    split_ifs with there
    · exact owned.destroyAction there
    · exact owned
  | input datagram =>
    unfold inputNotify
    dsimp only
    split
    · exact owned
    · exact owned.updateConn (fun _ => rfl) fun _ _ => rfl

end Owned

/-- With the action still registered, the datagram of the old session is put into the connection
that another action has been given. -/
theorem not_isolated_reused :
    ¬ Along step Isolated start [.create 1, .init 1 7 100 true true, .reset 1, .create 2,
      .init 2 8 101 true true, .input ⟨1, 41⟩] := by
  rintro ⟨-, -, -, -, -, late, -⟩
  obtain ⟨index, found, has, -⟩ := late.1 100 (by decide +kernel)
  have one : index = 1 := Option.some.inj (found.symm.trans (by decide +kernel))
  subst one
  exact absurd has (by decide +kernel)

/-- An action that has got a session is found under its number, and one that is destroyed is in no
chain of the hash. -/
def Registered (world : SessionWorld) (event : SessionEvent) : Prop :=
  match event with
  | .init index _ address true true => index ∈ world.objects → (world.actions index).conn = none →
      (world.udpSessionQueue = [] → world.conns address = none) →
        (world.step event).findSession ((world.step event).actions index).sessionId = some index
  | .destroy index => ∀ idx, index ∉ (world.step event).buckets idx
  | _ => True

/-- A session is found under its number, and a destroyed action is in no chain. -/
theorem Hashed.registered (hashed : world.Hashed) (event : SessionEvent)
    (fresh : world.Fresh event) : world.Registered event := by
  have after := hashed.step event fresh
  unfold Registered
  split
  next index thread address =>
    intro there none new
    obtain ⟨before, objects, stepped⟩ :
        ∃ before : SessionWorld, before.objects = (world.allocConn address).1.objects ∧
          world.step (.init index thread address true true) = before.insertSession index := by
      unfold SessionWorld.step SessionWorld.initConnEnv
      dsimp only
      rw [if_neg (not_not.mpr there), if_neg fun both => both.2 (new both.1),
        if_neg (not_not.mpr none)]
      refine ⟨_, ?_, rfl⟩
      rfl
    rw [stepped] at after ⊢
    refine after.findSession_eq ?_ insertSession_registers.2
    rwa [insertSession_registers.1, objects, allocConn_same.1]
  next index =>
    intro idx member
    have still : index ∈ (world.step (.destroy index)).objects := (after.bucket.mp member).1
    unfold SessionWorld.step at still
    dsimp only at still
    split_ifs at still with there
    · rw [destroyAction_objects, hashed.objects.mem_erase_iff] at still
      exact still.1 rfl
    · exact there still
  next => trivial

/-- If an action is initialised only before it has got a session, and under a number that no other
one has, it is found under its number, and after it is destroyed no longer. -/
theorem registered_of_fresh (events : List SessionEvent)
    (fresh : Along step Fresh start events) : Along step Registered start events :=
  Along.imp Hashed (fun _ event hashed fresh =>
    ⟨hashed.registered event fresh, hashed.step event fresh⟩) start_sound.hashed fresh

/-- A session is given back, and another action gets one. -/
theorem registered_twoActions :
    Along step Registered start [.create 1, .init 1 7 100 true true, .reset 1, .create 2,
      .init 2 8 101 true true, .destroy 1] :=
  registered_of_fresh _ (by decide +kernel)

/-- An action that is initialised again is not found under its new number. -/
theorem not_registered_again :
    ¬ Along step Registered start [.create 1, .init 1 7 100 true true, .reset 1,
      .init 1 7 100 true true] := by
  rintro ⟨-, -, -, again, -⟩
  exact absurd (again (by decide +kernel) (by decide +kernel) (by decide +kernel))
    (by decide +kernel)

end FStack.Micro.SessionWorld
