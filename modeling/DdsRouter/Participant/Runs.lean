import DdsRouter.Participant.Lifecycle

/-!
# Runs of endpoint calls

A participant serialises its endpoint calls with its mutex, so what concurrent callers see is a
run: one call after the other. `BaseParticipant.run` records each call with what it returned
and the hooks it called. Two facts hold over every run.

The writer side and the reader side do not interfere: in any interleaving, each writer call
returns what it returns, and calls the hooks it calls, in the run of the writer calls alone, and
likewise for readers; the maps at the end are those of the two separate runs.

The endpoint maps refine an abstract view of the participant, the set of live handles: those a
creation returned and no deletion has removed since. A deletion reaches its hook exactly when
its handle is live. Both need the assumption of `Session`, here stated on the run itself: no two
calls return the same handle. Such a run ends in a reachable session (`reachable_run`), so the
contracts of `Lifecycle` hold after it.

## Main results

- `run_interleaving`: writer and reader calls are independent.
- `run_endpoint_contracts`: after every such run the maps share no handle and all four
  operations meet their contracts.
- `stored_iff_live`: the endpoint maps hold exactly the live handles.
- `delete_hooks_eq`: the hook of a deletion runs exactly for a live handle.
-/

namespace DdsRouter

/-- Whether a call works on the writer map. -/
def Operation.onWriters {τ W R ε : Type} : Operation τ W R ε → Bool
  | .createWriter _ _ | .deleteWriter _ => true
  | .createReader _ _ | .deleteReader _ => false

/-- The writer a call deletes, if it deletes one. -/
def Operation.deletedWriter {τ W R ε : Type} : Operation τ W R ε → Option W
  | .deleteWriter writer => some writer
  | _ => none

/-- The reader a call deletes, if it deletes one. -/
def Operation.deletedReader {τ W R ε : Type} : Operation τ W R ε → Option R
  | .deleteReader reader => some reader
  | _ => none

/-- What a call returned: the endpoint or the exception of a creation, nothing for a
deletion. -/
inductive Returned (W R ε : Type)
  | writer (result : Except (CreateException ε) W)
  | reader (result : Except (CreateException ε) R)
  | void

/-- The writer a call created, if it created one. -/
def Returned.createdWriter {W R ε : Type} : Returned W R ε → Option W
  | .writer result => result.toOption
  | _ => none

/-- The reader a call created, if it created one. -/
def Returned.createdReader {W R ε : Type} : Returned W R ε → Option R
  | .reader result => result.toOption
  | _ => none

/-- A call of a run, with what it returned and the hooks it called. -/
structure Event (τ W R ε : Type) where
  op : Operation τ W R ε
  returned : Returned W R ε
  hooks : List (HookCall τ W R)

namespace BaseParticipant

variable {ι τ W R ε : Type} [LinearOrder τ] [ToString ι] [ToString τ] [DecidableEq W]
  [DecidableEq R]

/-- One call, as the participant executes it. -/
def call (p : BaseParticipant ι τ W R) : Operation τ W R ε → Outcome ι τ W R (Returned W R ε)
  | .createWriter topic answer =>
    let out := p.createWriter topic answer
    ⟨.writer out.result, out.participant, out.hooks⟩
  | .createReader topic answer =>
    let out := p.createReader topic answer
    ⟨.reader out.result, out.participant, out.hooks⟩
  | .deleteWriter writer =>
    let out := p.deleteWriter writer
    ⟨.void, out.participant, out.hooks⟩
  | .deleteReader reader =>
    let out := p.deleteReader reader
    ⟨.void, out.participant, out.hooks⟩

/-- A run of calls: the events, in order, and the participant at the end. -/
def run (p : BaseParticipant ι τ W R) :
    List (Operation τ W R ε) → List (Event τ W R ε) × BaseParticipant ι τ W R
  | [] => ([], p)
  | op :: ops =>
    let out := call p op
    let rest := run out.participant ops
    (⟨op, out.result, out.hooks⟩ :: rest.1, rest.2)

/-- A run extended by one call. -/
theorem run_append_singleton (p : BaseParticipant ι τ W R) (ops : List (Operation τ W R ε))
    (op : Operation τ W R ε) :
    run p (ops ++ [op]) =
      ((run p ops).1 ++ [⟨op, (call (run p ops).2 op).result, (call (run p ops).2 op).hooks⟩],
        (call (run p ops).2 op).participant) := by
  induction ops generalizing p with
  | nil => rfl
  | cons op' ops ih => simp only [List.cons_append, run, List.append_eq, ih]

-- ════════════════════════════════════════════════════════════════════════
-- Independence of the two sides
-- ════════════════════════════════════════════════════════════════════════

/-- A writer call leaves the reader map and the id alone. -/
theorem call_participant_of_onWriters (p : BaseParticipant ι τ W R) {op : Operation τ W R ε}
    (h : op.onWriters = true) : ∃ writers, (call p op).participant = { p with writers } := by
  cases op with
  | createWriter topic answer =>
    simp only [call, createWriter, createEndpoint]
    split
    · exact ⟨_, rfl⟩
    · cases answer <;> exact ⟨_, rfl⟩
  | deleteWriter writer =>
    simp only [call, deleteWriter, deleteEndpoint]
    split <;> exact ⟨_, rfl⟩
  | createReader => cases h
  | deleteReader => cases h

/-- A reader call leaves the writer map and the id alone. -/
theorem call_participant_of_onReaders (p : BaseParticipant ι τ W R) {op : Operation τ W R ε}
    (h : op.onWriters = false) : ∃ readers, (call p op).participant = { p with readers } := by
  cases op with
  | createReader topic answer =>
    simp only [call, createReader, createEndpoint]
    split
    · exact ⟨_, rfl⟩
    · cases answer <;> exact ⟨_, rfl⟩
  | deleteReader reader =>
    simp only [call, deleteReader, deleteEndpoint]
    split <;> exact ⟨_, rfl⟩
  | createWriter => cases h
  | deleteWriter => cases h

/-- A writer call does not read the reader map. -/
theorem call_withReaders (p : BaseParticipant ι τ W R) (readers : OrderedMap τ R)
    {op : Operation τ W R ε} (h : op.onWriters = true) :
    call { p with readers } op =
      ⟨(call p op).result, { (call p op).participant with readers }, (call p op).hooks⟩ := by
  cases op with
  | createWriter topic answer =>
    by_cases hc : (p.writers.find? topic).isSome <;> cases answer <;>
      simp [call, createWriter, createEndpoint, hc]
  | deleteWriter writer =>
    cases hv : p.writers.findValue writer <;> simp [call, deleteWriter, deleteEndpoint, hv]
  | createReader => cases h
  | deleteReader => cases h

/-- A reader call does not read the writer map. -/
theorem call_withWriters (p : BaseParticipant ι τ W R) (writers : OrderedMap τ W)
    {op : Operation τ W R ε} (h : op.onWriters = false) :
    call { p with writers } op =
      ⟨(call p op).result, { (call p op).participant with writers }, (call p op).hooks⟩ := by
  cases op with
  | createReader topic answer =>
    by_cases hc : (p.readers.find? topic).isSome <;> cases answer <;>
      simp [call, createReader, createEndpoint, hc]
  | deleteReader reader =>
    cases hv : p.readers.findValue reader <;> simp [call, deleteReader, deleteEndpoint, hv]
  | createWriter => cases h
  | deleteWriter => cases h

/-- A run of writer calls does not read the reader map. -/
theorem run_withReaders (p : BaseParticipant ι τ W R) (readers : OrderedMap τ R)
    {ops : List (Operation τ W R ε)} (h : ∀ op ∈ ops, op.onWriters = true) :
    run { p with readers } ops = ((run p ops).1, { (run p ops).2 with readers }) := by
  induction ops generalizing p with
  | nil => rfl
  | cons op ops ih =>
    simp only [run, call_withReaders p readers (h op (List.mem_cons_self _ _)),
      ih _ fun o ho => h o (List.mem_cons_of_mem _ ho)]

/-- A run of reader calls does not read the writer map. -/
theorem run_withWriters (p : BaseParticipant ι τ W R) (writers : OrderedMap τ W)
    {ops : List (Operation τ W R ε)} (h : ∀ op ∈ ops, op.onWriters = false) :
    run { p with writers } ops = ((run p ops).1, { (run p ops).2 with writers }) := by
  induction ops generalizing p with
  | nil => rfl
  | cons op ops ih =>
    simp only [run, call_withWriters p writers (h op (List.mem_cons_self _ _)),
      ih _ fun o ho => h o (List.mem_cons_of_mem _ ho)]

/-- **Writer and reader calls do not interfere.** In every run, the writer calls return what
they return, and call the hooks they call, in the run of the writer calls alone, and so do the
reader calls; the participant ends with the writer map of the one and the reader map of the
other. -/
theorem run_interleaving (p : BaseParticipant ι τ W R) (ops : List (Operation τ W R ε)) :
    (run p ops).1.filter (·.op.onWriters) = (run p (ops.filter (·.onWriters))).1 ∧
    (run p ops).1.filter (!·.op.onWriters) = (run p (ops.filter (!·.onWriters))).1 ∧
    (run p ops).2 = ⟨p.id, (run p (ops.filter (·.onWriters))).2.writers,
      (run p (ops.filter (!·.onWriters))).2.readers⟩ := by
  induction ops generalizing p with
  | nil => exact ⟨rfl, rfl, rfl⟩
  | cons op ops ih =>
    obtain ⟨ihw, ihr, ihp⟩ := ih (call p op).participant
    have hw : ∀ o ∈ ops.filter (·.onWriters), o.onWriters = true :=
      fun o ho => (List.mem_filter.1 ho).2
    have hr : ∀ o ∈ ops.filter (!·.onWriters), o.onWriters = false :=
      fun o ho => by simpa using (List.mem_filter.1 ho).2
    cases hop : op.onWriters
    · -- a reader call: the writer calls after it start from the same writer map
      obtain ⟨readers, hq⟩ := call_participant_of_onReaders p hop
      rw [hq] at ihw ihr ihp
      rw [run_withReaders p readers hw] at ihw ihp
      simp only [run, List.filter_cons, hop, Bool.not_false, if_true, Bool.false_eq_true,
        if_false, hq]
      exact ⟨ihw, congrArg _ ihr, ihp⟩
    · -- a writer call: the reader calls after it start from the same reader map
      obtain ⟨writers, hq⟩ := call_participant_of_onWriters p hop
      rw [hq] at ihw ihr ihp
      rw [run_withWriters p writers hr] at ihr ihp
      simp only [run, List.filter_cons, hop, Bool.not_true, if_true, Bool.false_eq_true,
        if_false, hq]
      exact ⟨congrArg _ ihw, ihr, ihp⟩

end BaseParticipant

-- ════════════════════════════════════════════════════════════════════════
-- The abstract view: live handles
-- ════════════════════════════════════════════════════════════════════════

section AbstractView

variable {τ β : Type} [LinearOrder τ]

/-- An endpoint map refines the live set `live`: it holds exactly the live handles, holds none
twice, and holds only handles among those created so far. -/
structure Refines (m : OrderedMap τ β) (created live : List β) : Prop where
  side : SideInv m created
  stored_iff : ∀ x, (∃ t, m.find? t = some x) ↔ x ∈ live

theorem Refines.empty : Refines (OrderedMap.empty : OrderedMap τ β) [] [] :=
  ⟨SideInv.empty, fun x => by simp⟩

variable [DecidableEq β]

/-- What one call does to one endpoint map, given the handle it created there and the handle it
asked to delete there: it adds an entry for the created handle under a topic that had none, it
drops the entries holding the deleted handle, or it leaves the map as it is. -/
def MapEffect (m m' : OrderedMap τ β) : Option β → Option β → Prop
  | some x, none => ∃ t, m.find? t = none ∧ m'.find? = Function.update m.find? t (some x)
  | none, some x => m'.find? = fun k => if m.find? k = some x then none else m.find? k
  | none, none => m'.find? = m.find?
  | some _, some _ => False

/-- One call on the abstract view: the deleted handle leaves the live set, the created one
joins it. -/
def liveStep (live : List β) (created deleted : Option β) : List β :=
  live.filter (fun x => deleted != some x) ++ created.toList

/-- **Step lemma.** A call that creates a fresh handle keeps the refinement, the abstract view
taking the same step. -/
theorem Refines.step {m m' : OrderedMap τ β} {created live : List β} {c d : Option β}
    (h : Refines m created live) (he : MapEffect m m' c d) (hfresh : ∀ x ∈ c, x ∉ created) :
    Refines m' (created ++ c.toList) (liveStep live c d) := by
  match c, d, he with
  | none, none, he =>
    simp only [MapEffect] at he
    refine ⟨by simpa using h.side.remove fun k e hk => he ▸ hk, fun x => ?_⟩
    simp [liveStep, he, h.stored_iff]
  | none, some y, he =>
    simp only [MapEffect] at he
    have hsub : ∀ k e, m'.find? k = some e → m.find? k = some e := fun k e hk => by
      simp only [he] at hk
      split_ifs at hk
      exact hk
    refine ⟨by simpa using h.side.remove hsub, fun x => ?_⟩
    simp only [liveStep, Option.toList_none, List.append_nil, List.mem_filter, ← h.stored_iff,
      bne_iff_ne, ne_eq, Option.some.injEq]
    constructor
    · rintro ⟨t, ht⟩
      have hne : m.find? t ≠ some y := fun hy => by simp [he, hy] at ht
      exact ⟨⟨t, hsub t x ht⟩, fun hyx => hne (hyx ▸ hsub t x ht)⟩
    · rintro ⟨⟨t, ht⟩, hyx⟩
      exact ⟨t, by simp [he, ht, Ne.symm hyx]⟩
  | some y, none, ⟨t, ht, he⟩ =>
    refine ⟨h.side.add (hfresh y rfl) he, fun x => ?_⟩
    simp only [liveStep, Option.toList_some, List.mem_append, List.mem_filter, ← h.stored_iff,
      List.mem_singleton, he, Function.update_apply]
    constructor
    · rintro ⟨k, hk⟩
      split at hk
      exacts [.inr (Option.some.inj hk).symm, .inl ⟨⟨k, hk⟩, rfl⟩]
    · rintro (⟨⟨k, hk⟩, -⟩ | rfl)
      exacts [⟨k, by rw [if_neg (fun hkt => by simp [hkt, ht] at hk)]; exact hk⟩, ⟨t, if_pos rfl⟩]

variable {ι W R ε γ : Type}

/-- What a creation does to the two maps. -/
theorem CreateContract.mapEffect {endpoints : BaseParticipant ι τ W R → OrderedMap τ β}
    {other : BaseParticipant ι τ W R → OrderedMap τ γ} {p : BaseParticipant ι τ W R} {topic : τ}
    {answer : Except ε β} {out : BaseParticipant.Outcome ι τ W R (Except (CreateException ε) β)}
    {hook : HookCall τ W R} (c : CreateContract endpoints other p topic answer out hook) :
    MapEffect (endpoints p) (endpoints out.participant) out.result.toOption none ∧
    (other out.participant).find? = (other p).find? := by
  refine ⟨?_, congrArg OrderedMap.find? c.other_eq⟩
  cases hres : out.result with
  | error x => exact congrArg (fun q => (endpoints q).find?) (c.error x hres)
  | ok e => exact ⟨topic, c.ok e hres⟩

/-- What a deletion does to the two maps. -/
theorem DeleteContract.mapEffect {endpoints : BaseParticipant ι τ W R → OrderedMap τ β}
    {other : BaseParticipant ι τ W R → OrderedMap τ γ} {p : BaseParticipant ι τ W R}
    {endpoint : β} {out : BaseParticipant.Outcome ι τ W R Unit} {hook : HookCall τ W R}
    (c : DeleteContract endpoints other p endpoint out hook) :
    MapEffect (endpoints p) (endpoints out.participant) none (some endpoint) ∧
    (other out.participant).find? = (other p).find? := by
  refine ⟨?_, congrArg OrderedMap.find? c.other_eq⟩
  by_cases hfound : ∃ t, (endpoints p).find? t = some endpoint
  · obtain ⟨t, ht⟩ := hfound
    exact (c.found t ht).1
  · push_neg at hfound
    simp [MapEffect, (c.not_found hfound).1, hfound]

/-- A deletion calls its hook exactly when its handle is live. -/
theorem DeleteContract.hooks_eq {endpoints : BaseParticipant ι τ W R → OrderedMap τ β}
    {other : BaseParticipant ι τ W R → OrderedMap τ γ} {p : BaseParticipant ι τ W R}
    {endpoint : β} {out : BaseParticipant.Outcome ι τ W R Unit} {hook : HookCall τ W R}
    (c : DeleteContract endpoints other p endpoint out hook) {created live : List β}
    (h : Refines (endpoints p) created live) :
    out.hooks = if endpoint ∈ live then [hook] else [] := by
  by_cases hl : endpoint ∈ live
  · obtain ⟨t, ht⟩ := (h.stored_iff endpoint).2 hl
    rw [if_pos hl, (c.found t ht).2]
  · rw [if_neg hl, (c.not_found fun t ht => hl ((h.stored_iff endpoint).1 ⟨t, ht⟩)).2]

end AbstractView

/-- The writers the calls of a run created, in order. -/
def createdWriters {τ W R ε : Type} (events : List (Event τ W R ε)) : List W :=
  events.filterMap (·.returned.createdWriter)

/-- The readers the calls of a run created, in order. -/
def createdReaders {τ W R ε : Type} (events : List (Event τ W R ε)) : List R :=
  events.filterMap (·.returned.createdReader)

/-- The abstract writer side after a run: the writers created and not deleted since. -/
def liveWriters {τ W R ε : Type} [DecidableEq W] (events : List (Event τ W R ε)) : List W :=
  events.foldl (fun live e => liveStep live e.returned.createdWriter e.op.deletedWriter) []

/-- The abstract reader side after a run: the readers created and not deleted since. -/
def liveReaders {τ W R ε : Type} [DecidableEq R] (events : List (Event τ W R ε)) : List R :=
  events.foldl (fun live e => liveStep live e.returned.createdReader e.op.deletedReader) []

section Views

variable {τ W R ε : Type}

theorem createdWriters_append_singleton (events : List (Event τ W R ε)) (e : Event τ W R ε) :
    createdWriters (events ++ [e]) = createdWriters events ++ e.returned.createdWriter.toList := by
  cases h : e.returned.createdWriter <;> simp [createdWriters, h]

theorem createdReaders_append_singleton (events : List (Event τ W R ε)) (e : Event τ W R ε) :
    createdReaders (events ++ [e]) = createdReaders events ++ e.returned.createdReader.toList := by
  cases h : e.returned.createdReader <;> simp [createdReaders, h]

theorem liveWriters_append_singleton [DecidableEq W] (events : List (Event τ W R ε))
    (e : Event τ W R ε) :
    liveWriters (events ++ [e]) =
      liveStep (liveWriters events) e.returned.createdWriter e.op.deletedWriter :=
  List.foldl_concat _ _ _ _

theorem liveReaders_append_singleton [DecidableEq R] (events : List (Event τ W R ε))
    (e : Event τ W R ε) :
    liveReaders (events ++ [e]) =
      liveStep (liveReaders events) e.returned.createdReader e.op.deletedReader :=
  List.foldl_concat _ _ _ _

theorem Session.returnedBy_eq_toList {β : Type} (r : Except (CreateException ε) β) :
    Session.returnedBy r = r.toOption.toList := by
  cases r <;> rfl

end Views

namespace BaseParticipant

variable {ι τ W R ε : Type} [LinearOrder τ] [ToString ι] [ToString τ] [DecidableEq W]
  [DecidableEq R]

/-- What one call does to the writer map and to the reader map. -/
theorem call_mapEffect (p : BaseParticipant ι τ W R) (op : Operation τ W R ε)
    (hw : NoSharedHandle p.writers) (hr : NoSharedHandle p.readers) :
    MapEffect p.writers (call p op).participant.writers (call p op).result.createdWriter
      op.deletedWriter ∧
    MapEffect p.readers (call p op).participant.readers (call p op).result.createdReader
      op.deletedReader := by
  cases op with
  | createWriter topic answer => exact (createWriter_contract p topic answer).mapEffect
  | createReader topic answer => exact (createReader_contract p topic answer).mapEffect.symm
  | deleteWriter writer => exact (deleteWriter_contract p writer hw).mapEffect
  | deleteReader reader => exact (deleteReader_contract p reader hr).mapEffect.symm

/-- **Run lemma.** Along every run from a new participant in which no two calls create the same
handle, each endpoint map refines its live set. -/
theorem refines_run (id : ι) (ops : List (Operation τ W R ε))
    (hw : (createdWriters (run (new id) ops).1).Nodup)
    (hr : (createdReaders (run (new id) ops).1).Nodup) :
    Refines (run (new id) ops).2.writers (createdWriters (run (new id) ops).1)
      (liveWriters (run (new id) ops).1) ∧
    Refines (run (new id) ops).2.readers (createdReaders (run (new id) ops).1)
      (liveReaders (run (new id) ops).1) := by
  induction ops using List.reverseRecOn with
  | nil => exact ⟨Refines.empty, Refines.empty⟩
  | append_singleton ops op ih =>
    rw [run_append_singleton, createdWriters_append_singleton, List.nodup_append] at hw
    rw [run_append_singleton, createdReaders_append_singleton, List.nodup_append] at hr
    obtain ⟨ihw, ihr⟩ := ih hw.1 hr.1
    obtain ⟨ew, er⟩ := call_mapEffect (run (new id) ops).2 op ihw.side.1 ihr.side.1
    rw [run_append_singleton, createdWriters_append_singleton, createdReaders_append_singleton,
      liveWriters_append_singleton, liveReaders_append_singleton]
    exact ⟨ihw.step ew fun x hx hxc => hw.2.2 hxc (Option.mem_toList.2 hx),
      ihr.step er fun x hx hxc => hr.2.2 hxc (Option.mem_toList.2 hx)⟩

/-- A step of the session model is a call, its ghost lists growing by what the call created. -/
theorem step_eq_call (s : Session ι τ W R) (op : Operation τ W R ε) :
    s.step op = ⟨(call s.participant op).participant,
      s.writersReturned ++ (call s.participant op).result.createdWriter.toList,
      s.readersReturned ++ (call s.participant op).result.createdReader.toList⟩ := by
  cases op <;> simp [Session.step, call, Session.returnedBy_eq_toList, Returned.createdWriter,
    Returned.createdReader]

/-- **The run and the session model agree.** A run from a new participant in which no two calls
create the same handle ends in a reachable session, whose ghost lists are the handles the run
created: the hook answers of such a run are fresh in the sense of `Session.Fresh`. -/
theorem reachable_run (id : ι) (ops : List (Operation τ W R ε))
    (hw : (createdWriters (run (new id) ops).1).Nodup)
    (hr : (createdReaders (run (new id) ops).1).Nodup) :
    Session.Reachable ε ⟨(run (new id) ops).2, createdWriters (run (new id) ops).1,
      createdReaders (run (new id) ops).1⟩ := by
  induction ops using List.reverseRecOn with
  | nil => exact .new id
  | append_singleton ops op ih =>
    rw [run_append_singleton, createdWriters_append_singleton, List.nodup_append] at hw
    rw [run_append_singleton, createdReaders_append_singleton, List.nodup_append] at hr
    set q := (run (new id) ops).2
    have hfresh : Session.Fresh ⟨q, createdWriters (run (new id) ops).1,
        createdReaders (run (new id) ops).1⟩ op := by
      -- a hook reached on a free topic returns its answer, which the run counts as created
      rcases op with ⟨topic, _ | writer⟩ | ⟨topic, _ | reader⟩ | _ | _
      case createWriter.ok =>
        exact fun hnone hmem => hw.2.2 hmem
          (by simp [call, createWriter, createEndpoint, hnone, Returned.createdWriter, Except.toOption])
      case createReader.ok =>
        exact fun hnone hmem => hr.2.2 hmem
          (by simp [call, createReader, createEndpoint, hnone, Returned.createdReader, Except.toOption])
      all_goals trivial
    have hnext := (ih hw.1 hr.1).step hfresh
    rw [step_eq_call] at hnext
    rw [run_append_singleton, createdWriters_append_singleton, createdReaders_append_singleton]
    exact hnext

/-- **The endpoint maps along every run.** Along every run from a new participant in which no two
creation hooks return the same handle, no handle is stored under two topics, and each of the four
endpoint operations, called next, meets its contract. -/
theorem run_endpoint_contracts (id : ι) (ops : List (Operation τ W R ε))
    (hw : (createdWriters (run (new id) ops).1).Nodup)
    (hr : (createdReaders (run (new id) ops).1).Nodup) :
    NoSharedHandle (run (new id) ops).2.writers ∧ NoSharedHandle (run (new id) ops).2.readers ∧
    (∀ topic (answer : Except ε W), CreateContract (·.writers) (·.readers) (run (new id) ops).2
      topic answer ((run (new id) ops).2.createWriter topic answer) (.createWriter_ topic)) ∧
    (∀ topic (answer : Except ε R), CreateContract (·.readers) (·.writers) (run (new id) ops).2
      topic answer ((run (new id) ops).2.createReader topic answer) (.createReader_ topic)) ∧
    (∀ writer, DeleteContract (·.writers) (·.readers) (run (new id) ops).2 writer
      ((run (new id) ops).2.deleteWriter writer) (.deleteWriter_ writer)) ∧
    (∀ reader, DeleteContract (·.readers) (·.writers) (run (new id) ops).2 reader
      ((run (new id) ops).2.deleteReader reader) (.deleteReader_ reader)) :=
  reachable_endpoint_contracts (reachable_run id ops hw hr)

/-- **The endpoint maps hold exactly the live handles.** Along every run from a new participant
in which no two calls create the same handle, a handle is stored in an endpoint map exactly when
a creation returned it and no deletion has removed it since. -/
theorem stored_iff_live (id : ι) (ops : List (Operation τ W R ε))
    (hw : (createdWriters (run (new id) ops).1).Nodup)
    (hr : (createdReaders (run (new id) ops).1).Nodup) :
    (∀ writer, (∃ topic, (run (new id) ops).2.writers.find? topic = some writer) ↔
      writer ∈ liveWriters (run (new id) ops).1) ∧
    ∀ reader, (∃ topic, (run (new id) ops).2.readers.find? topic = some reader) ↔
      reader ∈ liveReaders (run (new id) ops).1 :=
  have h := refines_run id ops hw hr
  ⟨h.1.stored_iff, h.2.stored_iff⟩

/-- **A deletion reaches its hook exactly for a live handle.** After every such run,
`delete_writer` calls `delete_writer_` once when its writer is live and not at all otherwise, and
likewise for readers: no hook runs twice for one handle, nor for a handle never created. -/
theorem delete_hooks_eq (id : ι) (ops : List (Operation τ W R ε))
    (hw : (createdWriters (run (new id) ops).1).Nodup)
    (hr : (createdReaders (run (new id) ops).1).Nodup) (writer : W) (reader : R) :
    (call (run (new id) ops).2 (.deleteWriter writer : Operation τ W R ε)).hooks =
      (if writer ∈ liveWriters (run (new id) ops).1 then [.deleteWriter_ writer] else []) ∧
    (call (run (new id) ops).2 (.deleteReader reader : Operation τ W R ε)).hooks =
      (if reader ∈ liveReaders (run (new id) ops).1 then [.deleteReader_ reader] else []) :=
  have h := refines_run id ops hw hr
  ⟨(deleteWriter_contract _ writer h.1.side.1).hooks_eq h.1,
    (deleteReader_contract _ reader h.2.side.1).hooks_eq h.2⟩

end BaseParticipant

/-- Participant `P1` creates writer `10` and reader `20` on topic `1`, fails to create a second
writer there, deletes writer `10`, and creates writer `12` on topic `1`. -/
def sampleRun : List (Event ℕ ℕ ℕ Unit) × BaseParticipant String ℕ ℕ ℕ :=
  BaseParticipant.run (BaseParticipant.new "P1")
    [.createWriter 1 (.ok 10), .createReader 1 (.ok 20), .createWriter 1 (.ok 11),
      .deleteWriter 10, .createWriter 1 (.ok 12)]

theorem run_endpoint_contracts_sample :
    (createdWriters sampleRun.1).Nodup ∧ (createdReaders sampleRun.1).Nodup ∧
    (NoSharedHandle sampleRun.2.writers ∧ NoSharedHandle sampleRun.2.readers ∧
      (∀ topic (answer : Except Unit ℕ), CreateContract (·.writers) (·.readers) sampleRun.2 topic
        answer (sampleRun.2.createWriter topic answer) (.createWriter_ topic)) ∧
      (∀ topic (answer : Except Unit ℕ), CreateContract (·.readers) (·.writers) sampleRun.2 topic
        answer (sampleRun.2.createReader topic answer) (.createReader_ topic)) ∧
      (∀ writer, DeleteContract (·.writers) (·.readers) sampleRun.2 writer
        (sampleRun.2.deleteWriter writer) (.deleteWriter_ writer)) ∧
      (∀ reader, DeleteContract (·.readers) (·.writers) sampleRun.2 reader
        (sampleRun.2.deleteReader reader) (.deleteReader_ reader))) :=
  have hw : (createdWriters sampleRun.1).Nodup := by decide
  have hr : (createdReaders sampleRun.1).Nodup := by decide
  ⟨hw, hr, BaseParticipant.run_endpoint_contracts "P1" _ hw hr⟩

theorem stored_iff_live_sample :
    (createdWriters sampleRun.1).Nodup ∧ (createdReaders sampleRun.1).Nodup ∧
    ((∀ writer, (∃ topic, sampleRun.2.writers.find? topic = some writer) ↔
        writer ∈ liveWriters sampleRun.1) ∧
      ∀ reader, (∃ topic, sampleRun.2.readers.find? topic = some reader) ↔
        reader ∈ liveReaders sampleRun.1) :=
  have hw : (createdWriters sampleRun.1).Nodup := by decide
  have hr : (createdReaders sampleRun.1).Nodup := by decide
  ⟨hw, hr, BaseParticipant.stored_iff_live "P1" _ hw hr⟩

theorem delete_hooks_eq_sample :
    (createdWriters sampleRun.1).Nodup ∧ (createdReaders sampleRun.1).Nodup ∧
    ((BaseParticipant.call sampleRun.2 (.deleteWriter 10 : Operation ℕ ℕ ℕ Unit)).hooks =
        (if 10 ∈ liveWriters sampleRun.1 then [.deleteWriter_ 10] else []) ∧
      (BaseParticipant.call sampleRun.2 (.deleteReader 20 : Operation ℕ ℕ ℕ Unit)).hooks =
        (if 20 ∈ liveReaders sampleRun.1 then [.deleteReader_ 20] else [])) :=
  have hw : (createdWriters sampleRun.1).Nodup := by decide
  have hr : (createdReaders sampleRun.1).Nodup := by decide
  ⟨hw, hr, BaseParticipant.delete_hooks_eq "P1" _ hw hr 10 20⟩

/-- Writer `10` was deleted, so only writer `12` and reader `20` are live. -/
example : liveWriters sampleRun.1 = [12] ∧ liveReaders sampleRun.1 = [20] := by decide

end DdsRouter
