import DdsRouter.Types.Containers

/-!
# `ParticipantsDatabase`: the participant registry

`ParticipantsDatabase.hpp` declares the registry, its map `participants_` and its operations;
their implementation is not among the sources. Every operation is therefore modelled from the
specification of the registry, on the map the header declares. Locking is not modelled: each
operation is one step on the map.

## Main results

- `popAll_size`: popping `size` times returns every participant once and empties the registry.
-/

namespace DdsRouter

/-- The `InconsistencyException` that `add_participant_` throws on a duplicated id. -/
inductive InconsistencyException
  | duplicatedId
  deriving DecidableEq

/-- A `ParticipantsDatabase`: participant handles `P` indexed by their ids `κ`. -/
structure ParticipantsDatabase (κ P : Type) [LinearOrder κ] where
  participants : OrderedMap κ P

namespace ParticipantsDatabase

variable {κ P : Type} [LinearOrder κ]

/-- Modelled from the spec: `get_participant`, with `none` for the null pointer of an absent id. -/
def getParticipant (db : ParticipantsDatabase κ P) (id : κ) : Option P :=
  db.participants.find? id

/-- Modelled from the spec: `get_participants_ids`. -/
def getParticipantsIds (db : ParticipantsDatabase κ P) : OrderedSet κ :=
  ⟨db.participants.entries.map Prod.fst, db.participants.sorted⟩

/-- Modelled from the spec: `get_rtps_participants_ids`, the ids of the participants whose kind
rides RTPS (`IParticipant::is_rtps_kind`). -/
def getRtpsParticipantsIds (isRtpsKind : P → Bool) (db : ParticipantsDatabase κ P) :
    OrderedSet κ :=
  ⟨(db.participants.entries.filter (isRtpsKind ·.2)).map Prod.fst,
    db.participants.sorted.sublist ((List.filter_sublist _).map _)⟩

/-- Modelled from the spec: `empty`. -/
def empty (db : ParticipantsDatabase κ P) : Bool := db.participants.entries.isEmpty

/-- Modelled from the spec: `size`. -/
def size (db : ParticipantsDatabase κ P) : ℕ := db.participants.size

/-- Modelled from the spec: `add_participant_`, which throws on an id already registered. -/
def addParticipant (db : ParticipantsDatabase κ P) (id : κ) (participant : P) :
    Except InconsistencyException Unit × ParticipantsDatabase κ P :=
  if (db.participants.find? id).isSome then (.error .duplicatedId, db)
  else (.ok (), ⟨db.participants.emplace id participant⟩)

/-- Modelled from the spec: `pop_(id)`, which removes and returns the participant of `id`, or
returns `none` when there is none. -/
def pop (db : ParticipantsDatabase κ P) (id : κ) : Option P × ParticipantsDatabase κ P :=
  (db.participants.find? id, ⟨db.participants.erase id⟩)

/-- Modelled from the spec: `pop_()`, which pops an arbitrary registered id; here the first in
iteration order. -/
def popAny (db : ParticipantsDatabase κ P) : Option P × ParticipantsDatabase κ P :=
  match db.participants.entries with
  | [] => (none, db)
  | (id, _) :: _ => db.pop id

/-- Modelled from the spec: the teardown, which calls `pop_()` `n` times and collects what it
returns. -/
def popAll : ℕ → ParticipantsDatabase κ P → List P × ParticipantsDatabase κ P
  | 0, db => ([], db)
  | n + 1, db =>
    let rest := popAll n db.popAny.2
    (db.popAny.1.toList ++ rest.1, rest.2)

theorem popAny_of_cons {db : ParticipantsDatabase κ P} {id : κ} {participant : P}
    {rest : List (κ × P)} (h : db.participants.entries = (id, participant) :: rest) :
    db.popAny.1 = some participant ∧ db.popAny.2.participants.entries = rest := by
  have hfind : db.participants.find? id = some participant :=
    (OrderedMap.find?_eq_some_iff _ _ _).2 (h ▸ List.mem_cons_self _ _)
  simp only [popAny, h, pop, hfind, true_and]
  exact OrderedMap.entries_erase_head h

theorem popAll_length {es : List (κ × P)} {db : ParticipantsDatabase κ P}
    (h : db.participants.entries = es) :
    db.popAll es.length = (es.map Prod.snd, ⟨OrderedMap.empty⟩) := by
  induction es generalizing db with
  | nil =>
    have : db = ⟨OrderedMap.empty⟩ := by cases db; congr; exact OrderedMap.ext h
    simp [popAll, this]
  | cons e es ih =>
    obtain ⟨h₁, h₂⟩ := popAny_of_cons h
    simp only [List.length_cons, popAll, h₁, ih h₂, Option.toList_some, List.map_cons,
      List.singleton_append]

/-- **Teardown.** Popping as many times as there are participants returns each registered
participant exactly once and leaves the registry empty. -/
theorem popAll_size (db : ParticipantsDatabase κ P) :
    (db.popAll db.size).1.Perm (db.participants.entries.map Prod.snd) ∧
    (db.popAll db.size).2.empty = true := by
  rw [size, OrderedMap.size, popAll_length rfl]
  exact ⟨List.Perm.refl _, rfl⟩

end ParticipantsDatabase

end DdsRouter
