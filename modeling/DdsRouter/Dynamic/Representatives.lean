import DdsRouter.Dynamic.Reduction

/-!
# Which filter the reduction keeps

Of filters that contain each other, `get_topic_list_without_repetition_` keeps the one it meets
first, which in a `std::set` of pointers is the one at the lowest address: a later candidate is
stopped by the stored filter that contains it before it can remove that filter. This file makes
the choice exact. With no assumption on `contains`, a filter that contains every filter
containing it is kept when no filter enumerated before it contains it; when `contains` is a
preorder on the list, these are exactly the filters kept.

## Main results

- `mem_getTopicListWithoutRepetition_of_first`: the sufficient condition, with no assumption.
- `mem_getTopicListWithoutRepetition_iff_first`: the whole output, for a preorder.
-/

namespace DdsRouter

variable {α τ : Type} [LinearOrder α] (F : DdsFilterTopic α τ)

/-- Passes over further candidates keep only what was stored and those candidates. -/
theorem mem_of_mem_foldl_addWithoutRepetition {S : OrderedSet α} {l : List α} {x : α}
    (hx : x ∈ l.foldl (addWithoutRepetition F) S) : x ∈ S ∨ x ∈ l := by
  induction l generalizing S with
  | nil => exact .inl hx
  | cons n l ih =>
    rcases ih hx with h | h
    · rcases mem_of_mem_addWithoutRepetition F h with rfl | h
      exacts [.inr (List.mem_cons_self _ _), .inl h]
    · exact .inr (List.mem_cons_of_mem _ h)

/-- A candidate that contains every filter containing it, and that no earlier candidate
contains, is inserted when its turn comes and survives every later pass: a later candidate that
contains it is stopped by it first. -/
theorem mem_withoutRepetition_of_first {l : List α} (hl : l.Sorted (· < ·)) {f : α} (hf : f ∈ l)
    (hmax : ∀ g ∈ l, F.contains g f = true → F.contains f g = true)
    (hfirst : ∀ g ∈ l, g < f → F.contains g f = false) : f ∈ withoutRepetition F l := by
  induction l using List.reverseRecOn with
  | nil => simp at hf
  | append_singleton l n ih =>
    replace hl := List.pairwise_append.1 hl
    rw [withoutRepetition_concat]
    rcases List.mem_append.1 hf with hf | hf
    · have hstored := ih hl.1 hf (fun g hg => hmax g (by simp [hg]))
        (fun g hg => hfirst g (by simp [hg]))
      cases hnf : F.contains n f
      · exact mem_addWithoutRepetition_of_not_contains F hstored hnf
      · exact mem_addWithoutRepetition_of_contains F hstored (hmax n (by simp) hnf)
    · obtain rfl : f = n := by simpa using hf
      refine (mem_addWithoutRepetition_of_free F (fun s hs => ?_) f).2 (.inl rfl)
      have hsl := mem_of_mem_withoutRepetition F hs
      exact hfirst s (by simp [hsl]) (hl.2.2 s hsl f (List.mem_singleton_self f))

/-- A candidate is dropped for good when a filter kept from the candidates before it contains
it. -/
theorem not_mem_withoutRepetition_of_blocked {as bs : List α} {f : α}
    (hnd : (as ++ f :: bs).Nodup) (hblock : ∃ s ∈ withoutRepetition F as, F.contains s f = true) :
    f ∉ withoutRepetition F (as ++ f :: bs) := by
  have hf : f ∉ as ++ bs := (List.nodup_cons.1 (List.nodup_middle.1 hnd)).1
  intro hmem
  rw [withoutRepetition, List.foldl_append, List.foldl_cons] at hmem
  rcases mem_of_mem_foldl_addWithoutRepetition F hmem with h | h
  · exact hf (List.mem_append_left _
      (mem_of_mem_withoutRepetition F (mem_of_mem_addWithoutRepetition_of_blocked F hblock h)))
  · exact hf (List.mem_append_right _ h)

/-- Under a preorder, a kept filter contains every filter of the list that contains it. -/
theorem isMaximal_of_mem_getTopicListWithoutRepetition {list : OrderedSet α}
    (hc : Covering F (· ∈ list) (fun f g => F.contains f g = true)) {s : α}
    (hs : s ∈ getTopicListWithoutRepetition F list) : IsMaximal F list s := by
  intro g hg hgs
  obtain ⟨s', hs', hs'g⟩ := hc.withoutRepetition (fun _ => id) g hg
  have hs's : F.contains s' s = true := hc.trans s' g s (mem_of_mem_withoutRepetition F hs') hg
    (mem_of_mem_withoutRepetition F hs) hs'g hgs
  obtain rfl : s' = s := by
    by_contra hne
    simp [withoutRepetition_nonContaining F _ s' hs' s hs hne] at hs's
  exact hs'g

/-- **The first of its class is kept.** With no assumption on `contains`, a filter that contains
every filter containing it, and that no filter before it in iteration order contains, is in the
reduced list. -/
theorem mem_getTopicListWithoutRepetition_of_first (list : OrderedSet α) {f : α} (hf : f ∈ list)
    (hmax : IsMaximal F list f) (hfirst : ∀ g ∈ list, g < f → F.contains g f = false) :
    f ∈ getTopicListWithoutRepetition F list :=
  mem_withoutRepetition_of_first F list.sorted hf hmax hfirst

theorem mem_getTopicListWithoutRepetition_of_first_halves :
    2 ∈ halvesList ∧ IsMaximal halvesFilter halvesList 2 ∧
    (∀ g ∈ halvesList, g < 2 → halvesFilter.contains g 2 = false) ∧
    2 ∈ getTopicListWithoutRepetition halvesFilter halvesList :=
  have h2 : 2 ∈ halvesList := by decide
  have hmax : IsMaximal halvesFilter halvesList 2 := by unfold IsMaximal; decide
  have hfirst : ∀ g ∈ halvesList, g < 2 → halvesFilter.contains g 2 = false := by decide
  ⟨h2, hmax, hfirst, mem_getTopicListWithoutRepetition_of_first halvesFilter halvesList h2 hmax
    hfirst⟩

/-- **The reduced list of a preorder.** When `contains` is reflexive and transitive on the list,
the reduction keeps exactly the filters that contain every filter containing them and that no
earlier filter contains: of each maximal class, the first in iteration order. -/
theorem mem_getTopicListWithoutRepetition_iff_first (list : OrderedSet α)
    (hrefl : ∀ f ∈ list, F.contains f f = true)
    (htrans : ∀ f ∈ list, ∀ g ∈ list, ∀ h ∈ list,
      F.contains f g = true → F.contains g h = true → F.contains f h = true) (f : α) :
    f ∈ getTopicListWithoutRepetition F list ↔
      f ∈ list ∧ IsMaximal F list f ∧ ∀ g ∈ list, g < f → F.contains g f = false := by
  have hc : Covering F (· ∈ list) (fun f g => F.contains f g = true) :=
    ⟨hrefl, fun f g h hf hg hh => htrans f hf g hg h hh, fun _ _ _ _ => id⟩
  refine ⟨fun hs => ⟨mem_of_mem_withoutRepetition F hs,
    isMaximal_of_mem_getTopicListWithoutRepetition F hc hs,
    fun g hg hgf => Bool.eq_false_iff.2 fun hgf' => ?_⟩,
    fun ⟨hf, hmax, hfirst⟩ => mem_withoutRepetition_of_first F list.sorted hf hmax hfirst⟩
  obtain ⟨as, bs, hab⟩ := List.append_of_mem (mem_of_mem_withoutRepetition F hs)
  have hsorted := List.pairwise_append.1 (hab ▸ list.sorted)
  -- `g` comes before `f`, so a filter kept from the candidates before `f` contains it
  have hga : g ∈ as := by
    rcases List.mem_append.1 (hab ▸ (OrderedSet.mem_elems.2 hg)) with h | h
    · exact h
    · rcases List.mem_cons.1 h with rfl | h
      exacts [absurd hgf (lt_irrefl g),
        absurd hgf (not_lt.2 (List.rel_of_pairwise_cons hsorted.2.1 h).le)]
  have hlist : ∀ x ∈ as, x ∈ list := fun x hx =>
    OrderedSet.mem_elems.1 (hab ▸ List.mem_append_left _ hx)
  obtain ⟨s, hs', hsg⟩ := hc.withoutRepetition hlist g hga
  have hsf := htrans s (hlist s (mem_of_mem_withoutRepetition F hs')) g hg f
    (mem_of_mem_withoutRepetition F hs) hsg hgf'
  have hnd : (as ++ f :: bs).Nodup := hab ▸ list.nodup
  exact not_mem_withoutRepetition_of_blocked F hnd ⟨s, hs', hsf⟩
    (by rw [← hab]; exact hs)

theorem mem_getTopicListWithoutRepetition_iff_first_halves :
    (∀ f ∈ halvesList, halvesFilter.contains f f = true) ∧
    (∀ f ∈ halvesList, ∀ g ∈ halvesList, ∀ h ∈ halvesList, halvesFilter.contains f g = true →
      halvesFilter.contains g h = true → halvesFilter.contains f h = true) ∧
    ∀ f, f ∈ getTopicListWithoutRepetition halvesFilter halvesList ↔
      f ∈ halvesList ∧ IsMaximal halvesFilter halvesList f ∧
        ∀ g ∈ halvesList, g < f → halvesFilter.contains g f = false :=
  have hrefl : ∀ f ∈ halvesList, halvesFilter.contains f f = true := by decide
  have htrans : ∀ f ∈ halvesList, ∀ g ∈ halvesList, ∀ h ∈ halvesList,
      halvesFilter.contains f g = true → halvesFilter.contains g h = true →
        halvesFilter.contains f h = true := by decide
  ⟨hrefl, htrans, mem_getTopicListWithoutRepetition_iff_first halvesFilter halvesList hrefl htrans⟩

/-- Of the class `{2, 3}`, the filter met first is kept. -/
example : (getTopicListWithoutRepetition halvesFilter halvesList).elems = [2] := by decide

end DdsRouter
