import DdsRouter.Participant.BaseParticipant

/-!
# Endpoint lifecycle over whole runs

The contracts of the four endpoint operations of `BaseParticipant`, and the invariant that keeps
them exact along every run: no endpoint handle is stored under two topics. The invariant needs
one assumption on the environment, that a creation hook never returns a handle it has returned
before; a `Session` records those handles so that the assumption can be stated.

## Main results

- `createEndpoint_contract`, `deleteEndpoint_contract`: one call, on any participant.
- `Session.Reachable.inv`: the invariant holds in every reachable session.
- `reachable_endpoint_contracts`: in every reachable session the maps share no handle and all
  four operations meet their contracts.
- `createWriter_after_deleteWriter`: deleting a writer frees its topic for a new one.
- `destroy_quiet_after_deleting_endpoints`: deleting every endpoint before destruction leaves
  the destructor nothing to report.
-/

namespace DdsRouter

open BaseParticipant

section Contracts

variable {ι τ W R β γ ε : Type} [LinearOrder τ]

/-- No endpoint is stored under two topics. -/
def NoSharedHandle (m : OrderedMap τ β) : Prop :=
  ∀ t₁ t₂ e, m.find? t₁ = some e → m.find? t₂ = some e → t₁ = t₂

/-- The contract of one `create_writer` (or `create_reader`) call `out` on `p`, for the endpoint
map `endpoints` it writes, the map `other` it must leave alone, the hook call `hook`, and what the
hook answers if the call reaches it. -/
structure CreateContract (endpoints : BaseParticipant ι τ W R → OrderedMap τ β)
    (other : BaseParticipant ι τ W R → OrderedMap τ γ) (p : BaseParticipant ι τ W R) (topic : τ)
    (answer : Except ε β) (out : Outcome ι τ W R (Except (CreateException ε) β))
    (hook : HookCall τ W R) : Prop where
  /-- The other map is untouched. -/
  other_eq : other out.participant = other p
  /-- A success adds exactly the entry of the returned endpoint, under a topic that had none. -/
  ok : ∀ e, out.result = .ok e → (endpoints p).find? topic = none ∧
    (endpoints out.participant).find? = Function.update (endpoints p).find? topic (some e)
  /-- A throw leaves the participant exactly as it was. -/
  error : ∀ x, out.result = .error x → out.participant = p
  /-- A topic with an endpoint already makes the call throw without reaching the hook. -/
  present : ((endpoints p).find? topic).isSome →
    out.hooks = [] ∧ ∃ message, out.result = .error (.initializationException message)
  /-- A topic without an endpoint reaches the hook once, and the call returns what the hook
  answers, its exception propagated as it is. -/
  free : (endpoints p).find? topic = none →
    out.hooks = [hook] ∧ out.result = answer.mapError .hookException

/-- A call that returns an endpoint returns what the hook answered. -/
theorem CreateContract.answer_of_ok {endpoints : BaseParticipant ι τ W R → OrderedMap τ β}
    {other : BaseParticipant ι τ W R → OrderedMap τ γ} {p : BaseParticipant ι τ W R} {topic : τ}
    {answer : Except ε β} {out : Outcome ι τ W R (Except (CreateException ε) β)}
    {hook : HookCall τ W R} (c : CreateContract endpoints other p topic answer out hook) {e : β}
    (h : out.result = .ok e) : answer = .ok e := by
  have hres := (c.free (c.ok e h).1).2
  cases answer <;> simp_all [Except.mapError]

/-- The contract of one `delete_writer` (or `delete_reader`) call `out` on `p` for `endpoint`. -/
structure DeleteContract [DecidableEq β] (endpoints : BaseParticipant ι τ W R → OrderedMap τ β)
    (other : BaseParticipant ι τ W R → OrderedMap τ γ) (p : BaseParticipant ι τ W R)
    (endpoint : β) (out : Outcome ι τ W R Unit) (hook : HookCall τ W R) : Prop where
  /-- The other map is untouched. -/
  other_eq : other out.participant = other p
  /-- A stored endpoint loses exactly its entry, and the hook is called once. -/
  found : ∀ t, (endpoints p).find? t = some endpoint →
    (endpoints out.participant).find? =
      (fun k => if (endpoints p).find? k = some endpoint then none else (endpoints p).find? k) ∧
    out.hooks = [hook]
  /-- An endpoint that is not stored changes nothing and calls no hook. -/
  not_found : (∀ t, (endpoints p).find? t ≠ some endpoint) → out.participant = p ∧ out.hooks = []

/-- After a delete, every stored entry was stored before. -/
theorem DeleteContract.find?_of_find? [DecidableEq β]
    {endpoints : BaseParticipant ι τ W R → OrderedMap τ β}
    {other : BaseParticipant ι τ W R → OrderedMap τ γ} {p : BaseParticipant ι τ W R}
    {endpoint : β} {out : Outcome ι τ W R Unit} {hook : HookCall τ W R}
    (c : DeleteContract endpoints other p endpoint out hook) {k : τ} {e : β}
    (hk : (endpoints out.participant).find? k = some e) : (endpoints p).find? k = some e := by
  by_cases hfound : ∃ t, (endpoints p).find? t = some endpoint
  · obtain ⟨t, ht⟩ := hfound
    rw [(c.found t ht).1] at hk
    dsimp only at hk
    split at hk
    · cases hk
    · exact hk
  · push_neg at hfound
    rwa [(c.not_found hfound).1] at hk

variable (endpoints : BaseParticipant ι τ W R → OrderedMap τ β)
  (update : BaseParticipant ι τ W R → OrderedMap τ β → BaseParticipant ι τ W R)
  (other : BaseParticipant ι τ W R → OrderedMap τ γ)

/-- **`create_writer` and `create_reader`.** -/
theorem createEndpoint_contract (hget : ∀ p m, endpoints (update p m) = m)
    (hother : ∀ p m, other (update p m) = other p) (alreadyExists : String)
    (hook : τ → HookCall τ W R) (p : BaseParticipant ι τ W R) (topic : τ) (answer : Except ε β) :
    CreateContract endpoints other p topic answer
      (createEndpoint endpoints update alreadyExists hook p topic answer) (hook topic) := by
  unfold createEndpoint
  split
  · next h =>
    exact ⟨rfl, by simp, fun _ _ => rfl, fun _ => ⟨rfl, _, rfl⟩, fun hn => by simp [hn] at h⟩
  · next h =>
    have hnone : (endpoints p).find? topic = none := by simpa using h
    cases answer with
    | error e => exact ⟨rfl, by simp, fun _ _ => rfl, fun h' => absurd h' h, fun _ => ⟨rfl, rfl⟩⟩
    | ok e =>
      refine ⟨hother _ _, fun e' he' => ⟨hnone, ?_⟩, by simp, fun h' => absurd h' h,
        fun _ => ⟨rfl, rfl⟩⟩
      obtain rfl : e = e' := by simpa using he'
      funext k
      rw [hget, OrderedMap.find?_emplace _ hnone, Function.update_apply]

/-- **`delete_writer` and `delete_reader`**, on a map that shares no handle. -/
theorem deleteEndpoint_contract [DecidableEq β] (hget : ∀ p m, endpoints (update p m) = m)
    (hother : ∀ p m, other (update p m) = other p) (hook : β → HookCall τ W R)
    (p : BaseParticipant ι τ W R) (endpoint : β) (hshared : NoSharedHandle (endpoints p)) :
    DeleteContract endpoints other p endpoint
      (deleteEndpoint endpoints update hook p endpoint) (hook endpoint) := by
  unfold deleteEndpoint
  split
  · next h =>
    exact ⟨rfl, fun t ht => absurd ht (OrderedMap.find?_ne_of_findValue_eq_none h t),
      fun _ => ⟨rfl, rfl⟩⟩
  · next topic h =>
    have htopic := OrderedMap.find?_of_findValue_eq_some h
    refine ⟨hother _ _, fun _ _ => ⟨?_, rfl⟩, fun hn => absurd htopic (hn topic)⟩
    funext k
    rw [hget, OrderedMap.find?_erase]
    by_cases hk : k = topic
    · simp [hk, htopic]
    · have : (endpoints p).find? k ≠ some endpoint := fun hke => hk (hshared k topic _ hke htopic)
      simp [hk, this]

/-- Deleting the endpoint of the first entry drops that entry and leaves the other map alone:
the first entry holding a value is the one the search finds. -/
theorem deleteEndpoint_head [DecidableEq β] (hget : ∀ p m, endpoints (update p m) = m)
    (hother : ∀ p m, other (update p m) = other p) (hook : β → HookCall τ W R)
    {p : BaseParticipant ι τ W R} {t : τ} {e : β} {rest : List (τ × β)}
    (h : (endpoints p).entries = (t, e) :: rest) :
    (endpoints (deleteEndpoint endpoints update hook p e).participant).entries = rest ∧
    other (deleteEndpoint endpoints update hook p e).participant = other p := by
  simp only [deleteEndpoint, OrderedMap.findValue_head h, hget, hother, and_true]
  exact OrderedMap.entries_erase_head h

/-- Deleting the endpoints of a map one after another, in iteration order, empties it and leaves
the other map alone. -/
theorem foldl_deleteEndpoint [DecidableEq β] (hget : ∀ p m, endpoints (update p m) = m)
    (hother : ∀ p m, other (update p m) = other p) (hook : β → HookCall τ W R) :
    ∀ (es : List (τ × β)) (p : BaseParticipant ι τ W R), (endpoints p).entries = es →
      (endpoints (es.foldl (fun q e => (deleteEndpoint endpoints update hook q e.2).participant)
        p)).entries = [] ∧
      other (es.foldl (fun q e => (deleteEndpoint endpoints update hook q e.2).participant) p) =
        other p
  | [], _, h => ⟨h, rfl⟩
  | (_, _) :: es, _, h =>
    have hd := deleteEndpoint_head endpoints update other hget hother hook h
    have ih := foldl_deleteEndpoint hget hother hook es _ hd.1
    ⟨ih.1, ih.2.trans hd.2⟩

end Contracts

section Members

variable {ι τ W R ε : Type} [LinearOrder τ]

theorem createWriter_contract [ToString ι] [ToString τ] (p : BaseParticipant ι τ W R) (topic : τ)
    (answer : Except ε W) :
    CreateContract (·.writers) (·.readers) p topic answer (p.createWriter topic answer)
      (.createWriter_ topic) :=
  createEndpoint_contract (·.writers) (fun p writers => { p with writers }) (·.readers)
    (fun _ _ => rfl) (fun _ _ => rfl) _ _ p topic answer

theorem createReader_contract [ToString ι] [ToString τ] (p : BaseParticipant ι τ W R) (topic : τ)
    (answer : Except ε R) :
    CreateContract (·.readers) (·.writers) p topic answer (p.createReader topic answer)
      (.createReader_ topic) :=
  createEndpoint_contract (·.readers) (fun p readers => { p with readers }) (·.writers)
    (fun _ _ => rfl) (fun _ _ => rfl) _ _ p topic answer

theorem deleteWriter_contract [DecidableEq W] (p : BaseParticipant ι τ W R) (writer : W)
    (h : NoSharedHandle p.writers) :
    DeleteContract (·.writers) (·.readers) p writer (p.deleteWriter writer)
      (.deleteWriter_ writer) :=
  deleteEndpoint_contract (·.writers) (fun p writers => { p with writers }) (·.readers)
    (fun _ _ => rfl) (fun _ _ => rfl) _ p writer h

theorem deleteReader_contract [DecidableEq R] (p : BaseParticipant ι τ W R) (reader : R)
    (h : NoSharedHandle p.readers) :
    DeleteContract (·.readers) (·.writers) p reader (p.deleteReader reader)
      (.deleteReader_ reader) :=
  deleteEndpoint_contract (·.readers) (fun p readers => { p with readers }) (·.writers)
    (fun _ _ => rfl) (fun _ _ => rfl) _ p reader h

-- ════════════════════════════════════════════════════════════════════════
-- Destruction
-- ════════════════════════════════════════════════════════════════════════

variable [ToString ι]

/-- The destructor leaves both endpoint maps empty. -/
theorem destroy_cleared (p : BaseParticipant ι τ W R) :
    p.destroy.2.writers.entries = [] ∧ p.destroy.2.readers.entries = [] := by
  unfold destroy
  cases hw : p.writers.entries <;> cases hr : p.readers.entries <;> simp [hw, hr, OrderedMap.empty]

/-- The destructor logs no error exactly when the participant has no endpoint left. -/
theorem destroy_quiet_iff (p : BaseParticipant ι τ W R) :
    p.destroy.1 = [] ↔ p.writers.entries = [] ∧ p.readers.entries = [] := by
  unfold destroy
  cases p.writers.entries <;> cases p.readers.entries <;> simp

/-- **Deleting every endpoint silences the destructor.** Deleting the writers of a participant,
then its readers, each in iteration order, leaves nothing for `~BaseParticipant` to report. -/
theorem destroy_quiet_after_deleting_endpoints [DecidableEq W] [DecidableEq R]
    (p : BaseParticipant ι τ W R) :
    (p.readers.entries.foldl (fun q e => (q.deleteReader e.2).participant)
      (p.writers.entries.foldl (fun q e => (q.deleteWriter e.2).participant) p)).destroy.1 =
      [] := by
  have hw := foldl_deleteEndpoint (fun q : BaseParticipant ι τ W R => q.writers)
    (fun p writers => { p with writers }) (·.readers) (fun _ _ => rfl) (fun _ _ => rfl)
    .deleteWriter_ _ p rfl
  have hr := foldl_deleteEndpoint (fun q : BaseParticipant ι τ W R => q.readers)
    (fun p readers => { p with readers }) (·.writers) (fun _ _ => rfl) (fun _ _ => rfl)
    .deleteReader_ _ _ (congrArg OrderedMap.entries hw.2)
  exact (destroy_quiet_iff _).2 ⟨(congrArg OrderedMap.entries hr.2).trans hw.1, hr.1⟩

end Members

-- ════════════════════════════════════════════════════════════════════════
-- Runs
-- ════════════════════════════════════════════════════════════════════════

/-- A call on a participant, with what its kind-specific hook answers if the call reaches it. -/
inductive Operation (τ W R ε : Type)
  | createWriter (topic : τ) (answer : Except ε W)
  | createReader (topic : τ) (answer : Except ε R)
  | deleteWriter (writer : W)
  | deleteReader (reader : R)

/-- A participant, with every handle its creation hooks have returned so far. -/
structure Session (ι τ W R : Type) [LinearOrder τ] where
  participant : BaseParticipant ι τ W R
  writersReturned : List W
  readersReturned : List R

/-- One side of the invariant: no handle is stored twice, and every stored handle was returned
by a hook. -/
def SideInv {τ β : Type} [LinearOrder τ] (m : OrderedMap τ β) (returned : List β) : Prop :=
  NoSharedHandle m ∧ ∀ t e, m.find? t = some e → e ∈ returned

section SideInv

variable {τ β : Type} [LinearOrder τ] {m m' : OrderedMap τ β} {returned : List β}

/-- Storing a fresh handle keeps the side invariant. -/
theorem SideInv.add (h : SideInv m returned) {t : τ} {e : β} (he : e ∉ returned)
    (hm : m'.find? = Function.update m.find? t (some e)) :
    SideInv m' (returned ++ [e]) := by
  have hfresh : ∀ k, m.find? k ≠ some e := fun k hk => he (h.2 k e hk)
  refine ⟨fun t₁ t₂ e' h₁ h₂ => ?_, fun k e' hk => ?_⟩
  · rw [hm] at h₁ h₂
    by_cases h₁t : t₁ = t <;> by_cases h₂t : t₂ = t <;>
      simp only [Function.update_apply, h₁t, h₂t, if_true, if_false] at h₁ h₂
    · exact h₁t.trans h₂t.symm
    · exact absurd (h₁ ▸ h₂) (hfresh t₂)
    · exact absurd (h₂ ▸ h₁) (hfresh t₁)
    · exact h.1 t₁ t₂ e' h₁ h₂
  · rw [hm, Function.update_apply] at hk
    split at hk
    · simp_all
    · exact List.mem_append_left _ (h.2 k e' hk)

/-- The empty map meets the side invariant. -/
theorem SideInv.empty : SideInv (OrderedMap.empty : OrderedMap τ β) [] :=
  ⟨fun _ _ _ h => (by cases h), fun _ _ h => (by cases h)⟩

/-- Dropping entries keeps the side invariant. -/
theorem SideInv.remove (h : SideInv m returned)
    (hm : ∀ k e, m'.find? k = some e → m.find? k = some e) : SideInv m' returned :=
  ⟨fun t₁ t₂ e h₁ h₂ => h.1 t₁ t₂ e (hm _ _ h₁) (hm _ _ h₂), fun k e hk => h.2 k e (hm _ _ hk)⟩

end SideInv

namespace Session

variable {ι τ W R ε : Type} [LinearOrder τ]

/-- The endpoint a creation returned, if it returned one. -/
def returnedBy {β : Type} : Except (CreateException ε) β → List β
  | .ok e => [e]
  | .error _ => []

/-- A creation keeps the side invariant of the map it writes, its result counted as returned,
when the endpoint it returns is fresh. -/
theorem sideInv_create {β γ : Type} {endpoints : BaseParticipant ι τ W R → OrderedMap τ β}
    {other : BaseParticipant ι τ W R → OrderedMap τ γ} {p : BaseParticipant ι τ W R} {topic : τ}
    {answer : Except ε β} {out : Outcome ι τ W R (Except (CreateException ε) β)}
    {hook : HookCall τ W R} {returned : List β}
    (c : CreateContract endpoints other p topic answer out hook)
    (h : SideInv (endpoints p) returned)
    (hf : ∀ e, out.result = .ok e → (endpoints p).find? topic = none → e ∉ returned) :
    SideInv (endpoints out.participant) (returned ++ returnedBy out.result) := by
  cases hres : out.result with
  | error x =>
    simp only [returnedBy, List.append_nil, c.error x hres]
    exact h
  | ok e =>
    obtain ⟨hnone, hm⟩ := c.ok e hres
    exact h.add (hf e hres hnone) hm

variable [ToString ι] [ToString τ] [DecidableEq W] [DecidableEq R]

/-- One operation on a session. -/
def step (s : Session ι τ W R) : Operation τ W R ε → Session ι τ W R
  | .createWriter topic answer =>
    let out := s.participant.createWriter topic answer
    ⟨out.participant, s.writersReturned ++ returnedBy out.result, s.readersReturned⟩
  | .createReader topic answer =>
    let out := s.participant.createReader topic answer
    ⟨out.participant, s.writersReturned, s.readersReturned ++ returnedBy out.result⟩
  | .deleteWriter writer =>
    { s with participant := (s.participant.deleteWriter writer).participant }
  | .deleteReader reader =>
    { s with participant := (s.participant.deleteReader reader).participant }

/-- The hook answers with a handle it has not returned before, whenever the call reaches it. -/
def Fresh (s : Session ι τ W R) : Operation τ W R ε → Prop
  | .createWriter topic (.ok writer) =>
    s.participant.writers.find? topic = none → writer ∉ s.writersReturned
  | .createReader topic (.ok reader) =>
    s.participant.readers.find? topic = none → reader ∉ s.readersReturned
  | _ => True

/-- The sessions that runs of operations with fresh hook answers reach from a new participant. -/
inductive Reachable (ε : Type) : Session ι τ W R → Prop
  | new (id : ι) : Reachable ε ⟨BaseParticipant.new id, [], []⟩
  | step {s : Session ι τ W R} {op : Operation τ W R ε} :
    Reachable ε s → s.Fresh op → Reachable ε (s.step op)

/-- The invariant of reachable sessions. -/
structure Inv (s : Session ι τ W R) : Prop where
  writers : SideInv s.participant.writers s.writersReturned
  readers : SideInv s.participant.readers s.readersReturned

/-- **Step lemma.** An operation with a fresh hook answer keeps the invariant. -/
theorem Inv.step {s : Session ι τ W R} (h : s.Inv) {op : Operation τ W R ε} (hf : s.Fresh op) :
    (s.step op).Inv := by
  cases op with
  | createWriter topic answer =>
    have c := createWriter_contract s.participant topic answer
    have hr : (s.participant.createWriter topic answer).participant.readers =
      s.participant.readers := c.other_eq
    refine ⟨sideInv_create c h.writers fun e he hnone => ?_, hr ▸ h.readers⟩
    obtain rfl := c.answer_of_ok he
    exact hf hnone
  | createReader topic answer =>
    have c := createReader_contract s.participant topic answer
    have hw : (s.participant.createReader topic answer).participant.writers =
      s.participant.writers := c.other_eq
    refine ⟨hw ▸ h.writers, sideInv_create c h.readers fun e he hnone => ?_⟩
    obtain rfl := c.answer_of_ok he
    exact hf hnone
  | deleteWriter writer =>
    have c := deleteWriter_contract s.participant writer h.writers.1
    have hr : (s.participant.deleteWriter writer).participant.readers = s.participant.readers :=
      c.other_eq
    exact ⟨h.writers.remove fun _ _ hk => c.find?_of_find? hk, hr ▸ h.readers⟩
  | deleteReader reader =>
    have c := deleteReader_contract s.participant reader h.readers.1
    have hw : (s.participant.deleteReader reader).participant.writers = s.participant.writers :=
      c.other_eq
    exact ⟨hw ▸ h.writers, h.readers.remove fun _ _ hk => c.find?_of_find? hk⟩

/-- **Run lemma.** Every reachable session satisfies the invariant. -/
theorem Reachable.inv {s : Session ι τ W R} (hs : Reachable ε s) : s.Inv := by
  induction hs with
  | new id => exact ⟨.empty, .empty⟩
  | step _ hf ih => exact ih.step hf

end Session

/-- **The endpoint maps along every run.** In every reachable session no handle is stored under
two topics, and all four endpoint operations meet their contracts. -/
theorem reachable_endpoint_contracts {ι τ W R ε : Type} [LinearOrder τ] [ToString ι] [ToString τ]
    [DecidableEq W] [DecidableEq R] {s : Session ι τ W R} (hs : Session.Reachable ε s) :
    NoSharedHandle s.participant.writers ∧ NoSharedHandle s.participant.readers ∧
    (∀ topic (answer : Except ε W), CreateContract (·.writers) (·.readers) s.participant topic
      answer (s.participant.createWriter topic answer) (.createWriter_ topic)) ∧
    (∀ topic (answer : Except ε R), CreateContract (·.readers) (·.writers) s.participant topic
      answer (s.participant.createReader topic answer) (.createReader_ topic)) ∧
    (∀ writer, DeleteContract (·.writers) (·.readers) s.participant writer
      (s.participant.deleteWriter writer) (.deleteWriter_ writer)) ∧
    (∀ reader, DeleteContract (·.readers) (·.writers) s.participant reader
      (s.participant.deleteReader reader) (.deleteReader_ reader)) :=
  have h := hs.inv
  ⟨h.writers.1, h.readers.1, createWriter_contract s.participant,
    createReader_contract s.participant,
    fun w => deleteWriter_contract s.participant w h.writers.1,
    fun r => deleteReader_contract s.participant r h.readers.1⟩

/-- The participant `P1` after creating the writer `10` for topic `1`. -/
def oneWriterSession : Session String ℕ ℕ ℕ :=
  (⟨BaseParticipant.new "P1", [], []⟩ : Session String ℕ ℕ ℕ).step
    (Operation.createWriter 1 (.ok 10) : Operation ℕ ℕ ℕ Unit)

theorem oneWriterSession_reachable : Session.Reachable Unit oneWriterSession :=
  .step (.new "P1") (fun _ => List.not_mem_nil 10)

/-- **Deleting a writer frees its topic.** In a reachable session, once the writer stored under
`topic` is deleted, a new `create_writer` for `topic` succeeds whenever its hook does. -/
theorem createWriter_after_deleteWriter {ι τ W R ε : Type} [LinearOrder τ] [ToString ι]
    [ToString τ] [DecidableEq W] [DecidableEq R] {s : Session ι τ W R} (hs : Session.Reachable ε s)
    {topic : τ} {writer : W} (h : s.participant.writers.find? topic = some writer) (w : W) :
    ((s.participant.deleteWriter writer).participant.createWriter topic
      (.ok w : Except ε W)).result = .ok w := by
  have hfree : (s.participant.deleteWriter writer).participant.writers.find? topic = none := by
    have := congrFun ((deleteWriter_contract s.participant writer hs.inv.writers.1).found topic h).1
      topic
    simpa [h] using this
  exact ((createWriter_contract _ topic (.ok w)).free hfree).2

theorem createWriter_after_deleteWriter_oneWriter :
    Session.Reachable Unit oneWriterSession ∧
    oneWriterSession.participant.writers.find? 1 = some 10 ∧
    ((oneWriterSession.participant.deleteWriter 10).participant.createWriter 1
      (.ok 11 : Except Unit ℕ)).result = .ok 11 :=
  have h : oneWriterSession.participant.writers.find? 1 = some 10 := rfl
  ⟨oneWriterSession_reachable, h, createWriter_after_deleteWriter oneWriterSession_reachable h 11⟩

end DdsRouter
