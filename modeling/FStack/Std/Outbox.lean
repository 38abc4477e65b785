import Mathlib.Data.List.Basic

/-!
# Messages on a shared stream

Messages are queued for a stream that takes any number of symbols at a time: `write` gives it
the first symbols of what is left of the messages, and those that are complete leave the queue.
A message may also leave before that. If it does so only as long as none of it has been
written, the stream is made of complete messages, in the order of their submission, and of the
beginning of the first one in the queue (`Orderly`).
-/

namespace FStack

open List

/-- A message: what has been written of it, and the rest. -/
structure Queued (α : Type) where
  id : Nat
  sent : List α
  rest : List α

structure Outbox (α : Type) where
  queue : List (Queued α)
  stream : List α
  submitted : List (List α)

namespace Outbox

variable {α : Type} {box : Outbox α} {queue : List (Queued α)} {item : Queued α}

def message (item : Queued α) : List α := item.sent ++ item.rest

/-- What is left of the messages. -/
def rests (queue : List (Queued α)) : List α := queue.flatMap (·.rest)

@[simp] theorem rests_nil : rests ([] : List (Queued α)) = [] := rfl

@[simp] theorem rests_cons (item : Queued α) (queue : List (Queued α)) :
    rests (item :: queue) = item.rest ++ rests queue := flatMap_cons

@[simp] theorem rests_append (first second : List (Queued α)) :
    rests (first ++ second) = rests first ++ rests second := flatMap_append

/-- So many symbols are taken from the front. -/
def advance : List (Queued α) → Nat → List (Queued α)
  | [], _ => []
  | item :: rest, count =>
    if item.rest.length ≤ count then advance rest (count - item.rest.length)
    else { item with sent := item.sent ++ item.rest.take count, rest := item.rest.drop count } ::
      rest

@[simp] theorem advance_nil (count : Nat) : advance ([] : List (Queued α)) count = [] := rfl

theorem advance_whole {count : Nat} (whole : item.rest.length ≤ count) :
    advance (item :: queue) count = advance queue (count - item.rest.length) := if_pos whole

theorem advance_part {count : Nat} (part : count < item.rest.length) :
    advance (item :: queue) count =
      ⟨item.id, item.sent ++ item.rest.take count, item.rest.drop count⟩ :: queue :=
  if_neg (Nat.not_le.mpr part)

theorem advance_zero (some : ∀ item ∈ queue, item.rest ≠ []) : advance queue 0 = queue := by
  cases queue with
  | nil => rfl
  | cons item rest =>
    rw [advance_part (length_pos_of_ne_nil (some item mem_cons_self)), take_zero,
      append_nil, drop_zero]

def submit (box : Outbox α) (id : Nat) (message : List α) : Outbox α :=
  { box with
    queue := box.queue ++ [⟨id, [], message⟩]
    submitted := box.submitted ++ [message] }

def write (box : Outbox α) (count : Nat) : Outbox α :=
  { box with
    queue := advance box.queue count
    stream := box.stream ++ (rests box.queue).take count }

def leave (box : Outbox α) (id : Nat) : Outbox α :=
  { box with queue := box.queue.filter (·.id ≠ id) }

/-- What has been written of the first message. -/
def begun (queue : List (Queued α)) : List α := (queue.head?.map (·.sent)).getD []

/-- Only the first message has been begun, and none is complete. -/
structure Waiting (queue : List (Queued α)) : Prop where
  unsent : ∀ item ∈ queue.tail, item.sent = []
  incomplete : ∀ item ∈ queue, item.rest ≠ []

/-- The stream has complete messages, and the beginning of the first one that waits. -/
structure Orderly (box : Outbox α) : Prop where
  waiting : Waiting box.queue
  stream : ∃ complete, box.stream = complete.flatten ++ begun box.queue ∧
    Sublist (complete ++ box.queue.map message) box.submitted

section Queue

theorem Waiting.tail (waiting : Waiting (item :: queue)) : Waiting queue :=
  ⟨fun other member => waiting.unsent other (mem_of_mem_tail member),
    fun other member => waiting.incomplete other (mem_cons_of_mem _ member)⟩

theorem Waiting.begun_tail (waiting : Waiting (item :: queue)) : begun queue = [] := by
  cases queue with
  | nil => rfl
  | cons next rest => exact waiting.unsent next mem_cons_self

section

variable (waiting : Waiting queue)

include waiting

/-- After some bytes are sent, again only the first message has been begun. -/
theorem Waiting.advance (count : Nat) : Waiting (Outbox.advance queue count) := by
  induction queue generalizing count with
  | nil => exact waiting
  | cons item rest ih =>
    rcases Nat.lt_or_ge count item.rest.length with part | whole
    · rw [advance_part part]
      refine ⟨waiting.unsent, fun other member => ?_⟩
      rcases mem_cons.mp member with rfl | later
      · exact ne_nil_of_length_pos (by rw [length_drop]; omega)
      · exact waiting.incomplete other (mem_cons_of_mem _ later)
    · rw [advance_whole whole]
      exact ih waiting.tail _

/-- A new message waits behind the others. -/
theorem Waiting.snoc (item : Queued α) (unsent : item.sent = []) (some : item.rest ≠ []) :
    Waiting (queue ++ [item]) ∧ begun (queue ++ [item]) = begun queue := by
  cases queue with
  | nil => exact ⟨⟨forall_mem_nil _, forall_mem_singleton.mpr some⟩, unsent⟩
  | cons first rest =>
    refine ⟨⟨fun other member => ?_, fun other member => ?_⟩, rfl⟩
    · rcases mem_append.mp member with old | new
      · exact waiting.unsent other old
      · exact mem_singleton.mp new ▸ unsent
    · rcases mem_append.mp member with old | new
      · exact waiting.incomplete other old
      · exact mem_singleton.mp new ▸ some

/-- Messages leave of which nothing has been written. -/
theorem Waiting.filter (stays : Queued α → Bool)
    (untouched : ∀ item ∈ queue, stays item = false → item.sent = []) :
    Waiting (queue.filter stays) ∧ begun (queue.filter stays) = begun queue := by
  have incomplete : ∀ item ∈ queue.filter stays, item.rest ≠ [] := fun item member =>
    waiting.incomplete item (mem_filter.mp member).1
  cases queue with
  | nil => exact ⟨waiting, rfl⟩
  | cons first rest =>
    have unsent : ∀ item ∈ rest.filter stays, item.sent = [] := fun item member =>
      waiting.unsent item (mem_filter.mp member).1
    cases there : stays first with
    | true =>
      rw [filter_cons_of_pos there] at incomplete ⊢
      exact ⟨⟨unsent, incomplete⟩, rfl⟩
    | false =>
      rw [filter_cons_of_neg (by rw [there]; decide)] at incomplete ⊢
      refine ⟨⟨fun item member => unsent item (mem_of_mem_tail member), incomplete⟩, ?_⟩
      have none : begun (first :: rest) = [] := untouched first mem_cons_self there
      rw [none]
      cases others : rest.filter stays with
      | nil => rfl
      | cons next more => exact unsent next (others ▸ mem_cons_self)

/-- The messages that become complete, and what is written of the next one. -/
theorem advance_spec (count : Nat) :
    ∃ complete, begun queue ++ (rests queue).take count =
        complete.flatten ++ begun (advance queue count) ∧
      complete ++ (advance queue count).map message = queue.map message := by
  induction queue generalizing count with
  | nil => exact ⟨[], by simp [begun], rfl⟩
  | cons item rest ih =>
    rcases Nat.lt_or_ge count item.rest.length with part | whole
    · rw [advance_part part]
      refine ⟨[], ?_, ?_⟩
      · rw [rests_cons, take_append_of_le_length (Nat.le_of_lt part)]
        rfl
      · simp [message]
    · rw [advance_whole whole]
      obtain ⟨complete, written, messages⟩ := ih waiting.tail (count - item.rest.length)
      rw [waiting.begun_tail] at written
      refine ⟨message item :: complete, ?_, by rw [cons_append, messages]; rfl⟩
      rw [rests_cons, take_append, take_of_length_le whole, flatten_cons, append_assoc, ← written]
      exact (append_assoc ..).symm

end

/-- A message behind the others is reached when they are complete. -/
theorem advance_snoc (queue : List (Queued α)) (some : item.rest ≠ []) (count : Nat) :
    advance (queue ++ [item]) count =
      advance queue count ++ advance [item] (count - (rests queue).length) := by
  induction queue generalizing count with
  | nil => rfl
  | cons first rest ih =>
    rw [cons_append, rests_cons, length_append]
    rcases Nat.lt_or_ge count first.rest.length with part | whole
    · have behind : count - (first.rest.length + (rests rest).length) = 0 := by omega
      rw [advance_part part, advance_part part, behind,
        advance_zero (forall_mem_singleton.mpr some)]
      rfl
    · rw [advance_whole whole, advance_whole whole, ih, Nat.sub_sub]

end Queue

section Orderly

theorem orderly_empty : Orderly (⟨[], [], []⟩ : Outbox α) :=
  ⟨⟨forall_mem_nil _, forall_mem_nil _⟩, [], rfl, Sublist.slnil⟩

variable (orderly : box.Orderly)

include orderly

/-- A message that is submitted waits behind the others. -/
theorem Orderly.submit (id : Nat) {text : List α} (some : text ≠ []) :
    (box.submit id text).Orderly := by
  obtain ⟨complete, stream, order⟩ := orderly.stream
  obtain ⟨waiting, same⟩ := orderly.waiting.snoc ⟨id, [], text⟩ rfl some
  refine ⟨waiting, complete, ?_, ?_⟩
  · dsimp only [Outbox.submit]
    rw [same, stream]
  · dsimp only [Outbox.submit]
    rw [map_append, ← append_assoc]
    exact order.append (Sublist.refl _)

/-- A message that does not get into the queue. -/
theorem Orderly.drop (text : List α) :
    Orderly ⟨box.queue, box.stream, box.submitted ++ [text]⟩ := by
  obtain ⟨complete, stream, order⟩ := orderly.stream
  exact ⟨orderly.waiting, complete, stream, order.trans (sublist_append_left ..)⟩

/-- Writing goes on with the first message. -/
theorem Orderly.write (count : Nat) : (box.write count).Orderly := by
  obtain ⟨complete, stream, order⟩ := orderly.stream
  obtain ⟨more, written, messages⟩ := advance_spec orderly.waiting count
  refine ⟨orderly.waiting.advance count, complete ++ more, ?_, ?_⟩
  · dsimp only [Outbox.write]
    rw [stream, append_assoc, written, flatten_append, append_assoc]
  · dsimp only [Outbox.write]
    rw [append_assoc, messages]
    exact order

/-- A message leaves of which nothing has been written. -/
theorem Orderly.leave (id : Nat) (untouched : ∀ item ∈ box.queue, item.id = id → item.sent = []) :
    (box.leave id).Orderly := by
  obtain ⟨complete, stream, order⟩ := orderly.stream
  obtain ⟨waiting, same⟩ := orderly.waiting.filter (fun item => item.id ≠ id)
    fun item member goes => untouched item member (by simpa using goes)
  refine ⟨waiting, complete, ?_, ?_⟩
  · dsimp only [Outbox.leave]
    rw [same, stream]
  · exact ((Sublist.refl _).append (filter_sublist.map _)).trans order

end Orderly

end Outbox

end FStack
