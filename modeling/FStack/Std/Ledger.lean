import Mathlib.Data.List.Basic
import Mathlib.Data.List.Count

/-!
# Ledgers of acquired and released keys

A log of events in which some events acquire a key and some release one. `OnceEach` says
that every key owned from the start or acquired along the way is released exactly once:
nothing leaks and nothing is released twice.
-/

namespace FStack.Ledger

open List

variable {Event Key : Type}

/-- How events touch keys. -/
structure Book (Event Key : Type) where
  acquired : Event → Option Key
  released : Event → Option Key

namespace Book

variable (book : Book Event Key)

/-- Keys acquired by a log, in order. -/
def acquisitions (log : List Event) : List Key := log.filterMap book.acquired

/-- Keys released by a log, in order. -/
def releases (log : List Event) : List Key := log.filterMap book.released

/-- Every key owned at the start or acquired by the log is released exactly once. -/
def OnceEach [DecidableEq Key] (owned : List Key) (log : List Event) : Prop :=
  ∀ key ∈ owned ++ book.acquisitions log, (book.releases log).count key = 1

/-- Every key the log touches satisfies `keys`. -/
def Confined (keys : Key → Prop) (log : List Event) : Prop :=
  (∀ key ∈ book.acquisitions log, keys key) ∧ ∀ key ∈ book.releases log, keys key

@[simp] theorem acquisitions_nil : book.acquisitions [] = [] := rfl

@[simp] theorem releases_nil : book.releases [] = [] := rfl

@[simp] theorem acquisitions_append (first second : List Event) :
    book.acquisitions (first ++ second) = book.acquisitions first ++ book.acquisitions second :=
  filterMap_append

@[simp] theorem releases_append (first second : List Event) :
    book.releases (first ++ second) = book.releases first ++ book.releases second :=
  filterMap_append

variable {book}

@[simp] theorem onceEach_nil [DecidableEq Key] : book.OnceEach [] [] := by
  simp [OnceEach]

@[simp] theorem confined_nil (keys : Key → Prop) : book.Confined keys [] := by
  simp [Confined]

variable {keys keys' : Key → Prop} {first second : List Event}

theorem Confined.mono {log : List Event} (confined : book.Confined keys log)
    (wider : ∀ key, keys key → keys' key) : book.Confined keys' log :=
  ⟨fun key member => wider key (confined.1 key member),
    fun key member => wider key (confined.2 key member)⟩

theorem Confined.append (left : book.Confined keys first) (right : book.Confined keys second) :
    book.Confined keys (first ++ second) := by
  constructor <;> intro key member
  · rw [acquisitions_append, mem_append] at member
    exact member.elim (left.1 key) (right.1 key)
  · rw [releases_append, mem_append] at member
    exact member.elim (left.2 key) (right.2 key)

theorem confined_flatMap {Index : Type} {indices : List Index} {part : Index → List Event}
    (confined : ∀ i ∈ indices, book.Confined keys (part i)) :
    book.Confined keys (indices.flatMap part) := by
  induction indices with
  | nil => exact confined_nil keys
  | cons i rest ih =>
    exact (confined i mem_cons_self).append
      (ih fun j member => confined j (mem_cons_of_mem _ member))

/-- A key outside the keys a log is confined to is never released by it. -/
theorem Confined.count_eq_zero [DecidableEq Key] {log : List Event}
    (confined : book.Confined keys log) {key : Key} (outside : ¬ keys key) :
    (book.releases log).count key = 0 :=
  count_eq_zero_of_not_mem fun member => outside (confined.2 key member)

section

variable [DecidableEq Key] {owned owned' : List Key} (disjoint : ∀ key, keys key → ¬ keys' key)
  (left : book.Confined keys first) (right : book.Confined keys' second)

include disjoint left right

/-- Logs that touch disjoint keys settle their own keys independently. -/
theorem onceEach_append_iff (own : ∀ key ∈ owned, keys key) (own' : ∀ key ∈ owned', keys' key) :
    book.OnceEach (owned ++ owned') (first ++ second) ↔
      book.OnceEach owned first ∧ book.OnceEach owned' second := by
  have inFirst : ∀ key ∈ owned ++ book.acquisitions first, keys key := by
    intro key member
    exact (mem_append.mp member).elim (own key) (left.1 key)
  have inSecond : ∀ key ∈ owned' ++ book.acquisitions second, keys' key := by
    intro key member
    exact (mem_append.mp member).elim (own' key) (right.1 key)
  have countFirst : ∀ key, keys key →
      (book.releases (first ++ second)).count key = (book.releases first).count key := by
    intro key inside
    rw [releases_append, count_append, right.count_eq_zero (disjoint key inside), Nat.add_zero]
  have countSecond : ∀ key, keys' key →
      (book.releases (first ++ second)).count key = (book.releases second).count key := by
    intro key inside
    have outside : ¬ keys key := fun both => disjoint key both inside
    rw [releases_append, count_append, left.count_eq_zero outside, Nat.zero_add]
  have split : ∀ key, key ∈ owned ++ owned' ++ book.acquisitions (first ++ second) ↔
      key ∈ owned ++ book.acquisitions first ∨ key ∈ owned' ++ book.acquisitions second := by
    intro key
    simp only [acquisitions_append, mem_append]
    tauto
  constructor
  · intro once
    refine ⟨fun key member => ?_, fun key member => ?_⟩
    · rw [← countFirst key (inFirst key member)]
      exact once key ((split key).mpr (.inl member))
    · rw [← countSecond key (inSecond key member)]
      exact once key ((split key).mpr (.inr member))
  · rintro ⟨onceFirst, onceSecond⟩ key member
    rcases (split key).mp member with member | member
    · rw [countFirst key (inFirst key member)]
      exact onceFirst key member
    · rw [countSecond key (inSecond key member)]
      exact onceSecond key member

/-- A log that settles only keys of its own can stand in front of another one. -/
theorem onceEach_append_of_fresh (once : book.OnceEach [] first)
    (once' : book.OnceEach owned second) (own : ∀ key ∈ owned, keys' key) :
    book.OnceEach owned (first ++ second) :=
  (onceEach_append_iff disjoint left right (by simp) own).mpr ⟨once, once'⟩

end

/-- A family of logs over pairwise disjoint keys settles in any number. -/
theorem onceEach_flatMap [DecidableEq Key] {Index : Type} {indices : List Index}
    {keys : Index → Key → Prop} {part : Index → List Event} (distinct : indices.Nodup)
    (disjoint : ∀ i j key, keys i key → keys j key → i = j)
    (confined : ∀ i, book.Confined (keys i) (part i))
    (once : ∀ i, book.OnceEach [] (part i)) :
    book.OnceEach [] (indices.flatMap part) := by
  induction indices with
  | nil => exact onceEach_nil
  | cons i rest ih =>
    obtain ⟨fresh, distinctRest⟩ := nodup_cons.mp distinct
    have others : book.Confined (fun key => ∃ j ∈ rest, keys j key) (rest.flatMap part) :=
      confined_flatMap fun j member =>
        (confined j).mono fun key inside => ⟨j, member, inside⟩
    refine onceEach_append_of_fresh ?_ (confined i) others (once i) (ih distinctRest) (by simp)
    rintro key inside ⟨j, member, inside'⟩
    exact fresh (disjoint i j key inside inside' ▸ member)

end Book

end FStack.Ledger
