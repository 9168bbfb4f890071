import DdsRouter.Dynamic.AllowedTopicList

/-!
# The filter reduction

What `get_topic_list_without_repetition_` computes, for every input set and every enumeration
order. One pass of the outer loop is described once, by `mem_addWithoutRepetition`, and every
other fact about a pass is read off it; the facts about the whole loop follow by induction on
the enumerated candidates, one pass at a time (`withoutRepetition_concat`).

## Main results

- `getTopicListWithoutRepetition_reduction_laws`: with no assumption on `contains`, the output
  is a non-empty-iff-non-empty subset of the input, no output filter contains another, and
  every filter that no other one contains is kept.
- `Covering.withoutRepetition`: when `contains` stands below a preorder, every input filter is
  below some output filter. This is the invariant behind both results that follow.
- `getTopicListWithoutRepetition_maximal_classes`: for a reflexive and transitive `contains`,
  the output holds exactly one filter of each maximal mutual-containment class.
-/

namespace DdsRouter

-- ════════════════════════════════════════════════════════════════════════
-- One pass of the outer loop
-- ════════════════════════════════════════════════════════════════════════

section Pass
variable {α τ : Type} [LinearOrder α] (F : DdsFilterTopic α τ)

/-- The scan runs to the end exactly when no stored filter contains the candidate. -/
theorem scanStored_fst (n : α) (l : List α) (r : OrderedSet α) :
    (scanStored F n l r).1 = l.all (fun s => !F.contains s n) := by
  induction l generalizing r with
  | nil => rfl
  | cons s l ih =>
    by_cases h₁ : F.contains s n <;> by_cases h₂ : F.contains n s <;> simp [scanStored, h₁, h₂, ih]

/-- The repeated filters are those before the stopping point that the candidate contains. -/
theorem mem_scanStored_snd (n x : α) (l : List α) (r : OrderedSet α) :
    x ∈ (scanStored F n l r).2 ↔
      x ∈ r ∨ x ∈ l.takeWhile (fun s => !F.contains s n) ∧ F.contains n x = true := by
  induction l generalizing r with
  | nil => simp [scanStored]
  | cons s l ih =>
    by_cases hx : x = s
    · subst hx
      by_cases h₁ : F.contains x n <;> by_cases h₂ : F.contains n x <;>
        simp [scanStored, h₁, h₂, ih, List.takeWhile_cons]
    · by_cases h₁ : F.contains s n <;> by_cases h₂ : F.contains n s <;>
        simp [scanStored, h₁, h₂, ih, List.takeWhile_cons, hx]

theorem all_not_contains_iff (S : OrderedSet α) (n : α) :
    S.elems.all (fun s => !F.contains s n) = true ↔ ∀ s ∈ S, F.contains s n = false := by
  simp [List.all_eq_true]

/-- What one pass keeps: the candidate when no stored filter contains it, and every stored
filter except those before the stopping point that the candidate contains. -/
theorem mem_addWithoutRepetition (S : OrderedSet α) (n x : α) :
    x ∈ addWithoutRepetition F S n ↔
      ((∀ s ∈ S, F.contains s n = false) ∧ x = n) ∨
      (x ∈ S ∧ ¬(x ∈ S.elems.takeWhile (fun s => !F.contains s n) ∧ F.contains n x = true)) := by
  unfold addWithoutRepetition
  rw [← all_not_contains_iff]
  simp only [scanStored_fst]
  split <;> simp_all [OrderedSet.mem_foldl_erase, mem_scanStored_snd]

/-- With no stored filter containing the candidate, the pass inserts it and drops exactly the
stored filters it contains. -/
theorem mem_addWithoutRepetition_of_free {S : OrderedSet α} {n : α}
    (h : ∀ s ∈ S, F.contains s n = false) (x : α) :
    x ∈ addWithoutRepetition F S n ↔ x = n ∨ x ∈ S ∧ F.contains n x = false := by
  have htw : S.elems.takeWhile (fun s => !F.contains s n) = S.elems :=
    List.takeWhile_eq_self_iff.2 (by simpa using h)
  rw [mem_addWithoutRepetition, htw]
  simp only [iff_true_intro h, true_and, not_and, Bool.not_eq_true]
  tauto

/-- A candidate contained by a stored filter is not inserted. -/
theorem mem_of_mem_addWithoutRepetition_of_blocked {S : OrderedSet α} {n x : α}
    (h : ∃ s ∈ S, F.contains s n = true) (hx : x ∈ addWithoutRepetition F S n) : x ∈ S := by
  rcases (mem_addWithoutRepetition F S n x).1 hx with ⟨hfree, -⟩ | ⟨hxS, -⟩
  · obtain ⟨s, hs, hsn⟩ := h
    simp [hfree s hs] at hsn
  · exact hxS

/-- A pass adds nothing but the candidate. -/
theorem mem_of_mem_addWithoutRepetition {S : OrderedSet α} {n x : α}
    (hx : x ∈ addWithoutRepetition F S n) : x = n ∨ x ∈ S := by
  rcases (mem_addWithoutRepetition F S n x).1 hx with ⟨-, rfl⟩ | ⟨hxS, -⟩
  exacts [.inl rfl, .inr hxS]

/-- A stored filter containing the candidate survives the pass. -/
theorem mem_addWithoutRepetition_of_contains {S : OrderedSet α} {n s : α} (hs : s ∈ S)
    (h : F.contains s n = true) : s ∈ addWithoutRepetition F S n := by
  refine (mem_addWithoutRepetition F S n s).2 (.inr ⟨hs, fun ⟨htw, _⟩ => ?_⟩)
  simpa [h] using List.mem_takeWhile_imp htw

/-- A stored filter the candidate does not contain survives the pass. -/
theorem mem_addWithoutRepetition_of_not_contains {S : OrderedSet α} {n x : α} (hx : x ∈ S)
    (h : F.contains n x = false) : x ∈ addWithoutRepetition F S n :=
  (mem_addWithoutRepetition F S n x).2 (.inr ⟨hx, by simp [h]⟩)

/-- The candidate is kept, or a stored filter containing it is. -/
theorem addWithoutRepetition_covers_new (S : OrderedSet α) (n : α) :
    n ∈ addWithoutRepetition F S n ∨
      ∃ s ∈ addWithoutRepetition F S n, F.contains s n = true := by
  by_cases h : ∀ s ∈ S, F.contains s n = false
  · exact .inl ((mem_addWithoutRepetition_of_free F h n).2 (.inl rfl))
  · push_neg at h
    obtain ⟨s, hs, hsn⟩ := h
    exact .inr ⟨s, mem_addWithoutRepetition_of_contains F hs (by simpa using hsn),
      by simpa using hsn⟩

end Pass

-- ════════════════════════════════════════════════════════════════════════
-- The whole loop
-- ════════════════════════════════════════════════════════════════════════

/-- The invariant of a reduced filter set: no filter of it contains another one. -/
def NonContaining {α τ : Type} [LinearOrder α] (F : DdsFilterTopic α τ) (S : OrderedSet α) : Prop :=
  ∀ f ∈ S, ∀ g ∈ S, f ≠ g → F.contains f g = false

section Loop

variable {α τ : Type} [LinearOrder α] (F : DdsFilterTopic α τ)

@[simp] theorem withoutRepetition_nil : withoutRepetition F [] = OrderedSet.empty := rfl

theorem withoutRepetition_concat (l : List α) (n : α) :
    withoutRepetition F (l ++ [n]) = addWithoutRepetition F (withoutRepetition F l) n :=
  List.foldl_concat _ _ _ _

/-- The reduction keeps only candidates. -/
theorem mem_of_mem_withoutRepetition {l : List α} {x : α} (hx : x ∈ withoutRepetition F l) :
    x ∈ l := by
  induction l using List.reverseRecOn with
  | nil => simp at hx
  | append_singleton l n ih =>
    rw [withoutRepetition_concat] at hx
    rcases mem_of_mem_addWithoutRepetition F hx with rfl | h
    · simp
    · simp [ih h]

/-- The reduction of a list is empty exactly when the list is. -/
theorem withoutRepetition_eq_empty_iff (l : List α) :
    (∀ x, x ∉ withoutRepetition F l) ↔ l = [] := by
  refine ⟨fun h => ?_, fun h x => by simp [h]⟩
  induction l using List.reverseRecOn with
  | nil => rfl
  | append_singleton l n _ =>
    rw [withoutRepetition_concat] at h
    rcases addWithoutRepetition_covers_new F (withoutRepetition F l) n with hn | ⟨s, hs, -⟩
    exacts [(h n hn).elim, (h s hs).elim]

/-- One pass keeps a set non-containing. -/
theorem NonContaining.addWithoutRepetition {S : OrderedSet α} (hS : NonContaining F S) (n : α) :
    NonContaining F (addWithoutRepetition F S n) := by
  by_cases hfree : ∀ s ∈ S, F.contains s n = false
  · intro f hf g hg hfg
    rw [mem_addWithoutRepetition_of_free F hfree] at hf hg
    rcases hf with rfl | ⟨hf, -⟩ <;> rcases hg with rfl | ⟨hg, hng⟩
    · exact absurd rfl hfg
    · exact hng
    · exact hfree f hf
    · exact hS f hf g hg hfg
  · push_neg at hfree
    have hb : ∃ s ∈ S, F.contains s n = true := by simpa using hfree
    intro f hf g hg
    exact hS f (mem_of_mem_addWithoutRepetition_of_blocked F hb hf) g
      (mem_of_mem_addWithoutRepetition_of_blocked F hb hg)

/-- No filter of the reduction contains another one. -/
theorem withoutRepetition_nonContaining (l : List α) : NonContaining F (withoutRepetition F l) := by
  induction l using List.reverseRecOn with
  | nil => intro f hf; simp at hf
  | append_singleton l n ih =>
    rw [withoutRepetition_concat]
    exact ih.addWithoutRepetition F n

/-- A candidate that no other candidate contains is kept. -/
theorem mem_withoutRepetition_of_uncontained {l : List α} (hl : l.Nodup) {f : α} (hf : f ∈ l)
    (hmax : ∀ g ∈ l, g ≠ f → F.contains g f = false) : f ∈ withoutRepetition F l := by
  induction l using List.reverseRecOn with
  | nil => simp at hf
  | append_singleton l n ih =>
    rw [withoutRepetition_concat]
    have hnl : n ∉ l := by simpa using (List.nodup_append.1 hl).2.2
    by_cases hfn : f = n
    · subst hfn
      refine (mem_addWithoutRepetition_of_free F (fun s hs => ?_) f).2 (.inl rfl)
      have hsl := mem_of_mem_withoutRepetition F hs
      exact hmax s (by simp [hsl]) (fun h => hnl (h ▸ hsl))
    · have hfl : f ∈ l := by simpa [hfn] using hf
      exact mem_addWithoutRepetition_of_not_contains F
        (ih (List.nodup_append.1 hl).1 hfl (fun g hg => hmax g (by simp [hg])))
        (hmax n (by simp) (Ne.symm hfn))

end Loop

-- ════════════════════════════════════════════════════════════════════════
-- Coverage
-- ════════════════════════════════════════════════════════════════════════

/-- The assumptions under which `contains` stands below a preorder `R` on the filters `U`: every
filter the reduction drops is then `R`-below one it keeps. -/
structure Covering {α τ : Type} (F : DdsFilterTopic α τ) (U : α → Prop) (R : α → α → Prop) :
    Prop where
  refl : ∀ f, U f → R f f
  trans : ∀ f g h, U f → U g → U h → R f g → R g h → R f h
  sub : ∀ f g, U f → U g → F.contains f g = true → R f g

namespace Covering

variable {α τ : Type} [LinearOrder α] {F : DdsFilterTopic α τ} {U : α → Prop}
  {R : α → α → Prop}

theorem mem_addWithoutRepetition_U {S : OrderedSet α} {n x : α} (hS : ∀ x ∈ S, U x) (hn : U n)
    (hx : x ∈ addWithoutRepetition F S n) : U x :=
  (mem_of_mem_addWithoutRepetition F hx).elim (fun h => h ▸ hn) (hS x)

/-- After a pass the candidate is below a kept filter. -/
theorem addWithoutRepetition_new (hc : Covering F U R) {S : OrderedSet α} {n : α}
    (hS : ∀ x ∈ S, U x) (hn : U n) : ∃ s ∈ addWithoutRepetition F S n, R s n := by
  rcases addWithoutRepetition_covers_new F S n with hn' | ⟨s₀, hs₀, hs₀n⟩
  · exact ⟨n, hn', hc.refl n hn⟩
  · exact ⟨s₀, hs₀, hc.sub s₀ n (mem_addWithoutRepetition_U hS hn hs₀) hn hs₀n⟩

/-- What a stored filter covers is still covered after a pass: a dropped filter is contained by
the candidate, and the candidate is kept or contained by a kept filter. -/
theorem addWithoutRepetition_stored (hc : Covering F U R) {S : OrderedSet α} {n f s : α}
    (hS : ∀ x ∈ S, U x) (hn : U n) (hf : U f) (hs : s ∈ S) (hsf : R s f) :
    ∃ s' ∈ addWithoutRepetition F S n, R s' f := by
  by_cases hkeep : s ∈ addWithoutRepetition F S n
  · exact ⟨s, hkeep, hsf⟩
  have hns : F.contains n s = true := by
    by_contra h
    exact hkeep (mem_addWithoutRepetition_of_not_contains F hs (by simpa using h))
  have hnf : R n f := hc.trans n s f hn (hS s hs) hf (hc.sub n s hn (hS s hs) hns) hsf
  obtain ⟨s₀, hs₀, hs₀n⟩ := hc.addWithoutRepetition_new hS hn
  exact ⟨s₀, hs₀, hc.trans s₀ n f (mem_addWithoutRepetition_U hS hn hs₀) hn hf hs₀n hnf⟩

/-- **Coverage.** Every candidate is below some filter of the reduction. -/
theorem withoutRepetition (hc : Covering F U R) {l : List α} (hl : ∀ x ∈ l, U x) :
    ∀ f ∈ l, ∃ s ∈ DdsRouter.withoutRepetition F l, R s f := by
  induction l using List.reverseRecOn with
  | nil => simp
  | append_singleton l n ih =>
    have hl' : ∀ x ∈ l, U x := fun x hx => hl x (by simp [hx])
    have hn : U n := hl n (by simp)
    have hS : ∀ x ∈ DdsRouter.withoutRepetition F l, U x :=
      fun x hx => hl' x (mem_of_mem_withoutRepetition F hx)
    intro f hf
    rw [withoutRepetition_concat]
    rcases List.mem_append.1 hf with hf | hf
    · obtain ⟨s, hs, hsf⟩ := ih hl' f hf
      exact hc.addWithoutRepetition_stored hS hn (hl' f hf) hs hsf
    · obtain rfl : f = n := by simpa using hf
      exact hc.addWithoutRepetition_new hS hn

end Covering

-- ════════════════════════════════════════════════════════════════════════
-- The reduction of a filter set
-- ════════════════════════════════════════════════════════════════════════

section Reduction

variable {α τ : Type} [LinearOrder α] (F : DdsFilterTopic α τ)

/-- The reduction never turns a non-empty list into the empty, default-allow one. -/
theorem getTopicListWithoutRepetition_isEmpty (list : OrderedSet α) :
    (getTopicListWithoutRepetition F list).elems.isEmpty = list.elems.isEmpty := by
  rw [Bool.eq_iff_iff, OrderedSet.isEmpty_iff, List.isEmpty_iff]
  exact withoutRepetition_eq_empty_iff F list.elems

/-- The reduction is the identity exactly on non-containing sets. -/
theorem getTopicListWithoutRepetition_eq_self_iff (list : OrderedSet α) :
    getTopicListWithoutRepetition F list = list ↔ NonContaining F list := by
  refine ⟨fun h => h ▸ withoutRepetition_nonContaining F _, fun h => ?_⟩
  ext x
  exact ⟨mem_of_mem_withoutRepetition F, fun hx =>
    mem_withoutRepetition_of_uncontained F list.nodup hx (fun g hg hgx => h g hg x hx hgx)⟩

/-- **What the reduction guarantees with no assumption on `contains`.** -/
theorem getTopicListWithoutRepetition_reduction_laws (list : OrderedSet α) :
    (∀ f ∈ getTopicListWithoutRepetition F list, f ∈ list) ∧
    (getTopicListWithoutRepetition F list).elems.isEmpty = list.elems.isEmpty ∧
    (∀ f ∈ getTopicListWithoutRepetition F list, ∀ g ∈ getTopicListWithoutRepetition F list,
      f ≠ g → F.contains f g = false) ∧
    (∀ f ∈ list, (∀ g ∈ list, g ≠ f → F.contains g f = false) →
      f ∈ getTopicListWithoutRepetition F list) ∧
    (getTopicListWithoutRepetition F list = list ↔
      ∀ f ∈ list, ∀ g ∈ list, f ≠ g → F.contains f g = false) ∧
    getTopicListWithoutRepetition F (getTopicListWithoutRepetition F list) =
      getTopicListWithoutRepetition F list :=
  ⟨fun _ => mem_of_mem_withoutRepetition F, getTopicListWithoutRepetition_isEmpty F list,
    withoutRepetition_nonContaining F _,
    fun _ hf hmax => mem_withoutRepetition_of_uncontained F list.nodup hf hmax,
    getTopicListWithoutRepetition_eq_self_iff F list,
    (getTopicListWithoutRepetition_eq_self_iff F _).2 (withoutRepetition_nonContaining F _)⟩

/-- `f` lies in a maximal mutual-containment class of `list`: every filter of `list` that
contains `f` is contained by it. -/
def IsMaximal (list : OrderedSet α) (f : α) : Prop :=
  ∀ g ∈ list, F.contains g f = true → F.contains f g = true

/-- **Maximal classes.** For a reflexive and transitive `contains`, the reduction keeps one
filter of each maximal mutual-containment class and nothing else. -/
theorem getTopicListWithoutRepetition_maximal_classes (list : OrderedSet α)
    (hrefl : ∀ f ∈ list, F.contains f f = true)
    (htrans : ∀ f ∈ list, ∀ g ∈ list, ∀ h ∈ list,
      F.contains f g = true → F.contains g h = true → F.contains f h = true) :
    (∀ s ∈ getTopicListWithoutRepetition F list, s ∈ list ∧ IsMaximal F list s) ∧
    (∀ f ∈ list, IsMaximal F list f → ∃ s ∈ getTopicListWithoutRepetition F list,
      F.contains s f = true ∧ F.contains f s = true) ∧
    (∀ s₁ ∈ getTopicListWithoutRepetition F list, ∀ s₂ ∈ getTopicListWithoutRepetition F list,
      F.contains s₁ s₂ = true → F.contains s₂ s₁ = true → s₁ = s₂) ∧
    ((∀ f ∈ list, ∀ g ∈ list, F.contains f g = true → F.contains g f = true → f = g) →
      ∀ f, f ∈ getTopicListWithoutRepetition F list ↔
        f ∈ list ∧ ∀ g ∈ list, g ≠ f → F.contains g f = false) := by
  have hc : Covering F (· ∈ list) (fun f g => F.contains f g = true) :=
    ⟨hrefl, fun f g h hf hg hh => htrans f hf g hg h hh, fun _ _ _ _ => id⟩
  have hcover := hc.withoutRepetition (fun _ => id)
  have hnc := withoutRepetition_nonContaining F list.elems
  have hunique : ∀ s₁ ∈ getTopicListWithoutRepetition F list,
      ∀ s₂ ∈ getTopicListWithoutRepetition F list,
      F.contains s₁ s₂ = true → F.contains s₂ s₁ = true → s₁ = s₂ := by
    intro s₁ h₁ s₂ h₂ h₁₂ _
    by_contra hne
    simp [hnc s₁ h₁ s₂ h₂ hne] at h₁₂
  have hmaximal : ∀ s ∈ getTopicListWithoutRepetition F list, s ∈ list ∧ IsMaximal F list s := by
    intro s hs
    have hsl := mem_of_mem_withoutRepetition F hs
    refine ⟨hsl, fun g hg hgs => ?_⟩
    obtain ⟨s', hs', hs'g⟩ := hcover g hg
    have hs's : F.contains s' s = true :=
      htrans s' (mem_of_mem_withoutRepetition F hs') g hg s hsl hs'g hgs
    obtain rfl : s' = s := by
      by_contra hne
      simp [hnc s' hs' s hs hne] at hs's
    exact hs'g
  refine ⟨hmaximal, fun f hf hmax => ?_, hunique, fun hanti f => ⟨fun hs => ?_, fun ⟨hf, hmax⟩ =>
    mem_withoutRepetition_of_uncontained F list.nodup hf hmax⟩⟩
  · obtain ⟨s, hs, hsf⟩ := hcover f hf
    exact ⟨s, hs, hsf, hmax s (mem_of_mem_withoutRepetition F hs) hsf⟩
  · obtain ⟨hfl, hfmax⟩ := hmaximal f hs
    refine ⟨hfl, fun g hg hgf => ?_⟩
    by_contra hc
    exact hgf (hanti g hg f hfl (by simpa using hc) (hfmax g hg (by simpa using hc)))

/-- Filters on naturals that contain every number of at most their own half: `2` and `3`
contain each other, and both contain `1`. -/
def halvesFilter : DdsFilterTopic ℕ ℕ :=
  ⟨fun f g => decide (g / 2 ≤ f / 2), fun f t => decide (t / 2 ≤ f / 2)⟩

/-- The filter set `{1, 2, 3}`. -/
def halvesList : OrderedSet ℕ := ⟨[1, 2, 3], by decide⟩

theorem getTopicListWithoutRepetition_maximal_classes_halves :
    (∀ f ∈ halvesList, halvesFilter.contains f f = true) ∧
    (∀ f ∈ halvesList, ∀ g ∈ halvesList, ∀ h ∈ halvesList, halvesFilter.contains f g = true →
      halvesFilter.contains g h = true → halvesFilter.contains f h = true) ∧
    ((∀ s ∈ getTopicListWithoutRepetition halvesFilter halvesList,
        s ∈ halvesList ∧ IsMaximal halvesFilter halvesList s) ∧
      (∀ f ∈ halvesList, IsMaximal halvesFilter halvesList f →
        ∃ s ∈ getTopicListWithoutRepetition halvesFilter halvesList,
          halvesFilter.contains s f = true ∧ halvesFilter.contains f s = true) ∧
      (∀ s₁ ∈ getTopicListWithoutRepetition halvesFilter halvesList,
        ∀ s₂ ∈ getTopicListWithoutRepetition halvesFilter halvesList,
          halvesFilter.contains s₁ s₂ = true → halvesFilter.contains s₂ s₁ = true → s₁ = s₂) ∧
      ((∀ f ∈ halvesList, ∀ g ∈ halvesList, halvesFilter.contains f g = true →
          halvesFilter.contains g f = true → f = g) →
        ∀ f, f ∈ getTopicListWithoutRepetition halvesFilter halvesList ↔
          f ∈ halvesList ∧ ∀ g ∈ halvesList, g ≠ f → halvesFilter.contains g f = false)) :=
  ⟨by decide, by decide,
    getTopicListWithoutRepetition_maximal_classes halvesFilter halvesList (by decide) (by decide)⟩

end Reduction

end DdsRouter
