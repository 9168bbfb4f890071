import DdsRouter.Dynamic.Reduction

/-!
# Routing decisions of `AllowedTopicList`

The constructor reduces both lists before `is_topic_allowed` ever reads them. This file shows
that the reduction is invisible to routing: whenever `contains` is sound for `matches`, the
decision on the reduced lists is the decision the specification states on the configured
ones, for topics and for RPC services alike.

## Main results

- `isTopicAllowed_new_eq_unreducedDecision`: under a sound `contains`, the constructed list
  decides every topic and service as the configured lists would.
- `isTopicAllowed_new_passes_allowlist`: with no assumption, an allowed topic passes the
  configured allowlist.
- `isTopicAllowed_new_one_sided`: soundness on the blocklist alone gives safety, soundness on
  the allowlist alone gives liveness.
-/

namespace DdsRouter

variable {α τ : Type} [LinearOrder α] (F : DdsFilterTopic α τ)

/-- `contains` is sound for `matches` on the filters of `list`: a filter matches every topic
that a filter it contains matches. -/
def ContainsSound (list : OrderedSet α) : Prop :=
  ∀ f ∈ list, ∀ g ∈ list, F.contains f g = true →
    ∀ t, F.matchesTopic g t = true → F.matchesTopic f t = true

/-- The routing decision as the specification states it, on the configured lists: the allowlist
is empty or one of its filters matches, and no filter of the blocklist matches. -/
def unreducedDecision (allowlist blocklist : OrderedSet α) (topic : τ) : Bool :=
  (allowlist.elems.isEmpty || allowlist.elems.any (F.matchesTopic · topic)) &&
    !blocklist.elems.any (F.matchesTopic · topic)

/-- Under a sound `contains`, some filter of the reduction matches a topic exactly when some
configured filter does. -/
theorem any_getTopicListWithoutRepetition {list : OrderedSet α} (h : ContainsSound F list)
    (t : τ) :
    (getTopicListWithoutRepetition F list).elems.any (F.matchesTopic · t) =
      list.elems.any (F.matchesTopic · t) := by
  have hc : Covering F (· ∈ list)
      (fun f g => ∀ t, F.matchesTopic g t = true → F.matchesTopic f t = true) :=
    ⟨fun _ _ _ => id, fun _ _ _ _ _ _ hfg hgh t ht => hfg t (hgh t ht),
      fun f g hf hg => h f hf g hg⟩
  rw [Bool.eq_iff_iff]
  simp only [List.any_eq_true, OrderedSet.mem_elems]
  constructor
  · rintro ⟨s, hs, hst⟩
    exact ⟨s, mem_of_mem_withoutRepetition F hs, hst⟩
  · rintro ⟨f, hf, hft⟩
    obtain ⟨s, hs, hsf⟩ := hc.withoutRepetition (fun _ => id) f hf
    exact ⟨s, hs, hsf t hft⟩

/-- `is_topic_allowed` computes the allowlist-first decision on whatever lists it holds. -/
theorem isTopicAllowed_eq (l : AllowedTopicList α) (t : τ) :
    AllowedTopicList.isTopicAllowed F l t = unreducedDecision F l.allowlist l.blocklist t := by
  simp only [AllowedTopicList.isTopicAllowed, unreducedDecision]
  cases l.allowlist.elems.isEmpty || l.allowlist.elems.any (F.matchesTopic · t) <;> rfl

/-- **Reduction never changes a routing decision.** -/
theorem isTopicAllowed_new_eq_unreducedDecision (A B : OrderedSet α) (hA : ContainsSound F A)
    (hB : ContainsSound F B) :
    (∀ t, AllowedTopicList.isTopicAllowed F (AllowedTopicList.new F A B) t =
      unreducedDecision F A B t) ∧
    ∀ rpc : RPCTopic τ, AllowedTopicList.isServiceAllowed F (AllowedTopicList.new F A B) rpc =
      (unreducedDecision F A B rpc.requestTopic && unreducedDecision F A B rpc.replyTopic) := by
  have htopic : ∀ t, AllowedTopicList.isTopicAllowed F (AllowedTopicList.new F A B) t =
      unreducedDecision F A B t := fun t => by
    rw [isTopicAllowed_eq]
    simp only [unreducedDecision, AllowedTopicList.new, getTopicListWithoutRepetition_isEmpty,
      any_getTopicListWithoutRepetition F hA, any_getTopicListWithoutRepetition F hB]
  exact ⟨htopic, fun rpc => by simp only [AllowedTopicList.isServiceAllowed, htopic]⟩

/-- **The allowlist side needs no assumption.** Whatever `contains` does, the reduction never lets
through a topic that the configured allowlist rejects. -/
theorem isTopicAllowed_new_passes_allowlist (A B : OrderedSet α) (t : τ)
    (h : AllowedTopicList.isTopicAllowed F (AllowedTopicList.new F A B) t = true) :
    A.elems.isEmpty = true ∨ ∃ a ∈ A, F.matchesTopic a t = true := by
  rw [isTopicAllowed_eq, unreducedDecision, Bool.and_eq_true, Bool.or_eq_true] at h
  rcases h.1 with hA | hany
  · exact .inl ((getTopicListWithoutRepetition_isEmpty F A) ▸ hA)
  · obtain ⟨a, ha, hat⟩ := List.any_eq_true.1 hany
    exact .inr ⟨a, mem_of_mem_withoutRepetition F ha, hat⟩

/-- A filter of the reduction that matches a topic is a configured filter that matches it. -/
theorem any_of_any_getTopicListWithoutRepetition {list : OrderedSet α} {t : τ}
    (h : (getTopicListWithoutRepetition F list).elems.any (F.matchesTopic · t) = true) :
    list.elems.any (F.matchesTopic · t) = true := by
  obtain ⟨a, ha, hat⟩ := List.any_eq_true.1 h
  exact List.any_eq_true.2 ⟨a, mem_of_mem_withoutRepetition F ha, hat⟩

/-- **What each assumption buys.** A sound `contains` on the blocklist alone makes the
constructed list safe: it lets through no topic that the configured lists reject. A sound
`contains` on the allowlist alone makes it live: it rejects no topic that the configured lists
accept. -/
theorem isTopicAllowed_new_one_sided (A B : OrderedSet α) :
    (ContainsSound F B → ∀ t, AllowedTopicList.isTopicAllowed F (AllowedTopicList.new F A B) t =
      true → unreducedDecision F A B t = true) ∧
    (ContainsSound F A → ∀ t, unreducedDecision F A B t = true →
      AllowedTopicList.isTopicAllowed F (AllowedTopicList.new F A B) t = true) := by
  refine ⟨fun hB t h => ?_, fun hA t h => ?_⟩
  · rw [isTopicAllowed_eq] at h
    simp only [unreducedDecision, AllowedTopicList.new, getTopicListWithoutRepetition_isEmpty,
      any_getTopicListWithoutRepetition F hB, Bool.and_eq_true, Bool.or_eq_true] at h ⊢
    exact ⟨h.1.imp_right (any_of_any_getTopicListWithoutRepetition F), h.2⟩
  · rw [isTopicAllowed_eq]
    simp only [unreducedDecision, AllowedTopicList.new, getTopicListWithoutRepetition_isEmpty,
      any_getTopicListWithoutRepetition F hA, Bool.and_eq_true] at h ⊢
    refine ⟨h.1, ?_⟩
    -- the reduced blocklist is part of the configured one, so it blocks no more
    cases hb : (getTopicListWithoutRepetition F B).elems.any (F.matchesTopic · t)
    · rfl
    · simp [any_of_any_getTopicListWithoutRepetition F hb] at h

/-- Filters on naturals that claim to contain every smaller filter but match only their own
value: a `contains` sound on one filter and unsound on two. -/
def exactFilter : DdsFilterTopic ℕ ℕ := ⟨fun f g => decide (g ≤ f), fun f t => decide (t = f)⟩

theorem isTopicAllowed_new_one_sided_exact :
    -- sound on the blocklist alone: nothing the configured lists reject passes, but topic `1`,
    -- which they accept, is rejected once `2` has absorbed `1`
    (ContainsSound exactFilter ⟨[3], by decide⟩ ∧ ¬ContainsSound exactFilter ⟨[1, 2], by decide⟩ ∧
      (∀ t, AllowedTopicList.isTopicAllowed exactFilter
          (AllowedTopicList.new exactFilter ⟨[1, 2], by decide⟩ ⟨[3], by decide⟩) t = true →
        unreducedDecision exactFilter ⟨[1, 2], by decide⟩ ⟨[3], by decide⟩ t = true) ∧
      unreducedDecision exactFilter ⟨[1, 2], by decide⟩ ⟨[3], by decide⟩ 1 = true ∧
      AllowedTopicList.isTopicAllowed exactFilter
        (AllowedTopicList.new exactFilter ⟨[1, 2], by decide⟩ ⟨[3], by decide⟩) 1 = false) ∧
    -- sound on the allowlist alone: nothing the configured lists accept is rejected, but topic
    -- `1`, which they block, passes once `2` has absorbed `1`
    (ContainsSound exactFilter ⟨[1], by decide⟩ ∧ ¬ContainsSound exactFilter ⟨[1, 2], by decide⟩ ∧
      (∀ t, unreducedDecision exactFilter ⟨[1], by decide⟩ ⟨[1, 2], by decide⟩ t = true →
        AllowedTopicList.isTopicAllowed exactFilter
          (AllowedTopicList.new exactFilter ⟨[1], by decide⟩ ⟨[1, 2], by decide⟩) t = true) ∧
      unreducedDecision exactFilter ⟨[1], by decide⟩ ⟨[1, 2], by decide⟩ 1 = false ∧
      AllowedTopicList.isTopicAllowed exactFilter
        (AllowedTopicList.new exactFilter ⟨[1], by decide⟩ ⟨[1, 2], by decide⟩) 1 = true) := by
  have hsingle : ∀ a : ℕ, ContainsSound exactFilter ⟨[a], List.sorted_singleton a⟩ :=
    fun a f hf g hg _ t ht => by
      obtain rfl := List.mem_singleton.1 hf
      obtain rfl := List.mem_singleton.1 hg
      exact ht
  have hpair : ¬ContainsSound exactFilter ⟨[1, 2], by decide⟩ := fun h =>
    absurd (h 2 (by decide) 1 (by decide) rfl 1 rfl) (by decide)
  exact ⟨⟨hsingle 3, hpair, (isTopicAllowed_new_one_sided exactFilter _ _).1 (hsingle 3),
      by decide, by decide⟩,
    ⟨hsingle 1, hpair, (isTopicAllowed_new_one_sided exactFilter _ _).2 (hsingle 1),
      by decide, by decide⟩⟩

/-- Filters on naturals matching every topic up to their own value. -/
def prefixFilter : DdsFilterTopic ℕ ℕ := ⟨fun f g => decide (g ≤ f), fun f t => decide (t ≤ f)⟩

theorem isTopicAllowed_new_eq_unreducedDecision_prefix :
    ContainsSound prefixFilter ⟨[1, 3], by decide⟩ ∧ ContainsSound prefixFilter ⟨[2], by decide⟩ ∧
    ((∀ t, AllowedTopicList.isTopicAllowed prefixFilter
        (AllowedTopicList.new prefixFilter ⟨[1, 3], by decide⟩ ⟨[2], by decide⟩) t =
      unreducedDecision prefixFilter ⟨[1, 3], by decide⟩ ⟨[2], by decide⟩ t) ∧
    ∀ rpc : RPCTopic ℕ, AllowedTopicList.isServiceAllowed prefixFilter
        (AllowedTopicList.new prefixFilter ⟨[1, 3], by decide⟩ ⟨[2], by decide⟩) rpc =
      (unreducedDecision prefixFilter ⟨[1, 3], by decide⟩ ⟨[2], by decide⟩ rpc.requestTopic &&
        unreducedDecision prefixFilter ⟨[1, 3], by decide⟩ ⟨[2], by decide⟩ rpc.replyTopic)) := by
  have hsound : ∀ l : OrderedSet ℕ, ContainsSound prefixFilter l := fun _ _ _ _ _ h t ht => by
    simp only [prefixFilter, decide_eq_true_eq] at h ht ⊢
    omega
  exact ⟨hsound _, hsound _, isTopicAllowed_new_eq_unreducedDecision prefixFilter _ _
    (hsound _) (hsound _)⟩

theorem isTopicAllowed_new_passes_allowlist_prefix :
    AllowedTopicList.isTopicAllowed prefixFilter
      (AllowedTopicList.new prefixFilter ⟨[1, 3], by decide⟩ ⟨[2], by decide⟩) 3 = true ∧
    ((⟨[1, 3], by decide⟩ : OrderedSet ℕ).elems.isEmpty = true ∨
      ∃ a ∈ (⟨[1, 3], by decide⟩ : OrderedSet ℕ), prefixFilter.matchesTopic a 3 = true) :=
  have h : AllowedTopicList.isTopicAllowed prefixFilter
      (AllowedTopicList.new prefixFilter ⟨[1, 3], by decide⟩ ⟨[2], by decide⟩) 3 = true := by
    decide
  ⟨h, isTopicAllowed_new_passes_allowlist prefixFilter _ _ 3 h⟩

end DdsRouter
