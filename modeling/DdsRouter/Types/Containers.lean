import Mathlib.Data.List.Sort

/-!
# The standard containers of the router core

The router core keeps its filters in `std::set<std::shared_ptr<DdsFilterTopic>>` and its
endpoints in `std::map<DdsTopic, std::shared_ptr<IWriter>>`. Both iterate in the strict order
of their keys, and the loops of `AllowedTopicList` and `BaseParticipant` stop at the first
element of that order that passes a test, so the model keeps each container as the list of its
elements in iteration order, with the order as a field. `OrderedSet` is the set, `OrderedMap`
the map; both are read through membership and `find?`, never through positions.
-/

namespace DdsRouter

/-- A `std::set`: its elements in iteration order, which is the strict order of the element type
(for a set of `std::shared_ptr`, the order of the addresses). -/
structure OrderedSet (α : Type) [LinearOrder α] where
  elems : List α
  sorted : elems.Sorted (· < ·)

namespace OrderedSet

variable {α : Type} [LinearOrder α]

instance : Membership α (OrderedSet α) := ⟨fun s a => a ∈ s.elems⟩

@[simp] theorem mem_elems {a : α} {s : OrderedSet α} : a ∈ s.elems ↔ a ∈ s := Iff.rfl

instance (a : α) (s : OrderedSet α) : Decidable (a ∈ s) := inferInstanceAs (Decidable (a ∈ s.elems))

instance decidableBAll (p : α → Prop) [DecidablePred p] (s : OrderedSet α) :
    Decidable (∀ a ∈ s, p a) :=
  inferInstanceAs (Decidable (∀ a ∈ s.elems, p a))

theorem nodup (s : OrderedSet α) : s.elems.Nodup := s.sorted.nodup

/-- Two sets with the same members are the same set: iteration order is fixed by the members. -/
@[ext] theorem ext {s t : OrderedSet α} (h : ∀ a, a ∈ s ↔ a ∈ t) : s = t := by
  obtain ⟨l, hl⟩ := s
  obtain ⟨m, hm⟩ := t
  congr
  exact List.eq_of_perm_of_sorted ((List.perm_ext_iff_of_nodup hl.nodup hm.nodup).2 h) hl hm

/-- The empty set. -/
def empty : OrderedSet α := ⟨[], List.sorted_nil⟩

@[simp] theorem not_mem_empty (a : α) : a ∉ (empty : OrderedSet α) := List.not_mem_nil a

theorem sorted_orderedInsert {a : α} {l : List α} (ha : a ∉ l) (hl : l.Sorted (· < ·)) :
    (l.orderedInsert (· ≤ ·) a).Sorted (· < ·) :=
  (hl.le_of_lt.orderedInsert a l).lt_of_le
    ((List.perm_orderedInsert _ a l).nodup_iff.2 (hl.nodup.cons ha))

/-- `std::set::insert`: an element already present leaves the set as it is. -/
def insert (a : α) (s : OrderedSet α) : OrderedSet α :=
  if h : a ∈ s.elems then s else ⟨s.elems.orderedInsert (· ≤ ·) a, sorted_orderedInsert h s.sorted⟩

/-- `std::set::erase` of one element. -/
def erase (a : α) (s : OrderedSet α) : OrderedSet α :=
  ⟨s.elems.erase a, s.sorted.sublist (List.erase_sublist a _)⟩

@[simp] theorem mem_insert {a b : α} {s : OrderedSet α} : b ∈ s.insert a ↔ b = a ∨ b ∈ s := by
  unfold insert
  split
  · exact ⟨Or.inr, by rintro (rfl | h) <;> assumption⟩
  · exact List.mem_orderedInsert _

@[simp] theorem mem_erase {a b : α} {s : OrderedSet α} : b ∈ s.erase a ↔ b ≠ a ∧ b ∈ s :=
  s.nodup.mem_erase_iff

/-- Erasing the elements of `rs` one after the other. -/
theorem mem_foldl_erase (rs : List α) (s : OrderedSet α) (x : α) :
    x ∈ rs.foldl (fun acc r => acc.erase r) s ↔ x ∈ s ∧ x ∉ rs := by
  induction rs generalizing s with
  | nil => simp
  | cons r rs ih => simp [ih, and_comm, and_left_comm, and_assoc]

theorem isEmpty_iff {s : OrderedSet α} : s.elems.isEmpty = true ↔ ∀ a, a ∉ s := by
  simp [List.isEmpty_iff, List.eq_nil_iff_forall_not_mem]

/-- A search over a set in iteration order, like a range-for that stops at the first element
passing its test, finds the least such element. -/
theorem find?_elems_eq_some {s : OrderedSet α} {p : α → Bool} {a : α} (ha : a ∈ s)
    (hp : p a = true) (hmin : ∀ b ∈ s, b < a → p b = false) : s.elems.find? p = some a := by
  obtain ⟨l, hl⟩ := s
  change a ∈ l at ha
  change ∀ b ∈ l, b < a → p b = false at hmin
  induction l with
  | nil => cases ha
  | cons x xs ih =>
    rcases List.mem_cons.1 ha with rfl | ha
    · simp [hp]
    · have hx : p x = false := hmin x (List.mem_cons_self _ _) (List.rel_of_sorted_cons hl a ha)
      rw [List.find?_cons, hx]
      exact ih hl.of_cons ha fun b hb => hmin b (List.mem_cons_of_mem _ hb)

end OrderedSet

/-- A `std::map`: its entries in iteration order, keys strictly increasing. -/
structure OrderedMap (κ β : Type) [LinearOrder κ] where
  entries : List (κ × β)
  sorted : (entries.map Prod.fst).Sorted (· < ·)

namespace OrderedMap

variable {κ β : Type} [LinearOrder κ]

/-- The empty map. -/
def empty : OrderedMap κ β := ⟨[], List.sorted_nil⟩

/-- `std::map::find`, as the value stored under `k`. -/
def find? (m : OrderedMap κ β) (k : κ) : Option β := m.entries.lookup k

/-- The entries with `(k, v)` put before the first key not below `k`. -/
def insertEntry (k : κ) (v : β) : List (κ × β) → List (κ × β)
  | [] => [(k, v)]
  | e :: es => if k ≤ e.1 then (k, v) :: e :: es else e :: insertEntry k v es

theorem map_fst_insertEntry (k : κ) (v : β) (es : List (κ × β)) :
    (insertEntry k v es).map Prod.fst = (es.map Prod.fst).orderedInsert (· ≤ ·) k := by
  induction es with
  | nil => rfl
  | cons e es ih => by_cases h : k ≤ e.1 <;> simp [insertEntry, h, ih]

/-- `std::map::emplace`: a key already present leaves the map as it is. -/
def emplace (k : κ) (v : β) (m : OrderedMap κ β) : OrderedMap κ β :=
  if h : k ∈ m.entries.map Prod.fst then m
  else ⟨insertEntry k v m.entries, by
    rw [map_fst_insertEntry]; exact OrderedSet.sorted_orderedInsert h m.sorted⟩

/-- `std::map::erase` of one key. -/
def erase (k : κ) (m : OrderedMap κ β) : OrderedMap κ β :=
  ⟨m.entries.filter (·.1 != k), m.sorted.sublist ((List.filter_sublist _).map _)⟩

/-- In a map, the first key does not come back later. -/
theorem head_key_not_mem {k : κ} {v : β} {es : List (κ × β)}
    (hs : (((k, v) :: es).map Prod.fst).Sorted (· < ·)) : k ∉ es.map Prod.fst :=
  fun h => lt_irrefl k ((List.sorted_cons.1 hs).1 k h)

/-- Filtering out an absent key keeps every entry. -/
theorem filter_key_ne_eq_self {k : κ} {es : List (κ × β)} (h : k ∉ es.map Prod.fst) :
    es.filter (·.1 != k) = es :=
  List.filter_eq_self.2 fun e he => by
    simpa using fun hek : e.1 = k => h (hek ▸ List.mem_map_of_mem Prod.fst he)

theorem lookup_cons_eq (k a : κ) (b : β) (es : List (κ × β)) :
    ((k, b) :: es).lookup a = if a = k then some b else es.lookup a := by
  rw [List.lookup_cons]
  split <;> simp_all

theorem lookup_insertEntry (k a : κ) (v : β) (es : List (κ × β)) :
    (insertEntry k v es).lookup a = if a = k then some v else es.lookup a := by
  induction es with
  | nil => simp [insertEntry, lookup_cons_eq]
  | cons e es ih =>
    obtain ⟨k', v'⟩ := e
    by_cases hk : k ≤ k'
    · simp [insertEntry, hk, lookup_cons_eq]
    · have hne : k' ≠ k := fun h => hk (h ▸ le_rfl)
      by_cases ha : a = k' <;> simp [insertEntry, hk, lookup_cons_eq, ih, ha, hne]

theorem lookup_filter_ne (k a : κ) (es : List (κ × β)) :
    (es.filter (·.1 != k)).lookup a = if a = k then none else es.lookup a := by
  induction es with
  | nil => simp
  | cons e es ih =>
    obtain ⟨k', v'⟩ := e
    by_cases hk : k' = k
    · subst hk
      rw [List.filter_cons_of_neg (by simp), ih, lookup_cons_eq]
      by_cases ha : a = k' <;> simp [ha]
    · rw [List.filter_cons_of_pos (by simpa using hk), lookup_cons_eq, lookup_cons_eq, ih]
      by_cases ha : a = k' <;> simp [ha, hk]

@[simp] theorem find?_empty (k : κ) : (empty : OrderedMap κ β).find? k = none := rfl

@[simp] theorem find?_erase (m : OrderedMap κ β) (k a : κ) :
    (m.erase k).find? a = if a = k then none else m.find? a :=
  lookup_filter_ne k a m.entries

theorem not_mem_keys_iff (m : OrderedMap κ β) (k : κ) :
    k ∉ m.entries.map Prod.fst ↔ m.find? k = none := by
  simp only [find?, List.lookup_eq_none_iff, List.mem_map, not_exists, not_and, bne_iff_ne, ne_eq]
  exact ⟨fun h p hp e => h p hp e.symm, fun h p hp e => h p hp e.symm⟩

/-- Emplacing under an absent key stores exactly that entry. -/
theorem find?_emplace (m : OrderedMap κ β) {k : κ} (hk : m.find? k = none) (v : β) (a : κ) :
    (m.emplace k v).find? a = if a = k then some v else m.find? a := by
  have h : k ∉ m.entries.map Prod.fst := (not_mem_keys_iff m k).2 hk
  simp only [emplace, h, dite_false]
  exact lookup_insertEntry k a v m.entries

theorem find?_eq_some_iff (m : OrderedMap κ β) (k : κ) (v : β) :
    m.find? k = some v ↔ (k, v) ∈ m.entries := by
  obtain ⟨es, hs⟩ := m
  simp only [find?]
  induction es with
  | nil => simp
  | cons e es ih =>
    obtain ⟨k', v'⟩ := e
    by_cases hk : k = k'
    · subst hk
      have : (k, v) ∉ es := fun h => head_key_not_mem hs (List.mem_map_of_mem Prod.fst h)
      simp [lookup_cons_eq, this, eq_comm]
    · simp [lookup_cons_eq, hk, ih (List.sorted_cons.1 hs).2]

/-- The first key, in iteration order, whose entry holds `v`. -/
def findValue [DecidableEq β] (m : OrderedMap κ β) (v : β) : Option κ :=
  (m.entries.find? (·.2 == v)).map Prod.fst

theorem find?_of_findValue_eq_some [DecidableEq β] {m : OrderedMap κ β} {v : β} {k : κ}
    (h : m.findValue v = some k) : m.find? k = some v := by
  obtain ⟨⟨k', v'⟩, he, rfl⟩ := Option.map_eq_some'.1 h
  have hv : v' = v := by simpa using List.find?_some he
  exact (find?_eq_some_iff m _ _).2 (hv ▸ List.mem_of_find?_eq_some he)

theorem find?_ne_of_findValue_eq_none [DecidableEq β] {m : OrderedMap κ β} {v : β}
    (h : m.findValue v = none) (k : κ) : m.find? k ≠ some v := by
  rw [ne_eq, find?_eq_some_iff]
  intro hk
  simp only [findValue, Option.map_eq_none', List.find?_eq_none] at h
  simpa using h _ hk

@[ext] theorem ext {m m' : OrderedMap κ β} (h : m.entries = m'.entries) : m = m' := by
  cases m; cases m'; congr

/-- `std::map::size`. -/
def size (m : OrderedMap κ β) : ℕ := m.entries.length

/-- Erasing the first key drops the first entry. -/
theorem entries_erase_head {m : OrderedMap κ β} {k : κ} {v : β} {rest : List (κ × β)}
    (hm : m.entries = (k, v) :: rest) : (m.erase k).entries = rest := by
  have hs := m.sorted
  rw [hm] at hs
  simp only [erase, hm, List.filter_cons, bne_self_eq_false, Bool.false_eq_true, if_false]
  exact filter_key_ne_eq_self (head_key_not_mem hs)

/-- The value of the first entry is found under the first key. -/
theorem findValue_head [DecidableEq β] {m : OrderedMap κ β} {k : κ} {v : β}
    {rest : List (κ × β)} (hm : m.entries = (k, v) :: rest) : m.findValue v = some k := by
  simp [findValue, hm]

end OrderedMap

end DdsRouter
