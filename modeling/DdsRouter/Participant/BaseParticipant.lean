import DdsRouter.Types.Containers

/-!
# `BaseParticipant`: the endpoint maps

The model of the endpoint bookkeeping in `BaseParticipant.cpp`. A participant keeps one writer
and one reader per topic in `writers_` and `readers_`; the endpoints themselves come from the
kind-specific hooks `create_writer_`, `create_reader_`, `delete_writer_` and
`delete_reader_`, which the derived participants override.

## Design notes

A hook is external code: the model takes what `create_writer_` would answer as an argument of
`createWriter`, and every call returns the hooks it actually called, so that a statement can say
when a hook is reached and when it is not. An exception leaves the participant as the call found
it at the point of the throw, so a thrown call still returns a participant.

The writer and reader operations share one body each (`createEndpoint`, `deleteEndpoint`),
applied to their own map, hook and message; the two messages differ in more than the word.
-/

namespace DdsRouter

/-- What `create_writer` and `create_reader` throw: the base class's `InitializationException`
with its message, or the hook's exception, propagated unchanged. -/
inductive CreateException (ε : Type)
  | initializationException (message : String)
  | hookException (e : ε)
  deriving DecidableEq

/-- A call of a kind-specific hook. -/
inductive HookCall (τ W R : Type)
  | createWriter_ (topic : τ)
  | createReader_ (topic : τ)
  | deleteWriter_ (writer : W)
  | deleteReader_ (reader : R)
  deriving DecidableEq

/-- `types::ParticipantKind`, as far as `is_rtps_kind` tells kinds apart: the four kinds it names,
and the rest, which its `default` branch treats alike. -/
inductive ParticipantKind
  | simpleRtps
  | localDiscoveryServer
  | wanDiscoveryServer
  | wanInitialPeers
  | other
  deriving DecidableEq

/-- `BaseParticipant::is_rtps_kind`, on the kind that `kind()` reads from the configuration. -/
def ParticipantKind.isRtpsKind : ParticipantKind → Bool
  | .simpleRtps | .localDiscoveryServer | .wanDiscoveryServer | .wanInitialPeers => true
  | .other => false

/-- The state of a `BaseParticipant` that its endpoint operations read and write: the id from its
configuration, and the two endpoint maps. -/
structure BaseParticipant (ι τ W R : Type) [LinearOrder τ] where
  id : ι
  writers : OrderedMap τ W
  readers : OrderedMap τ R

namespace BaseParticipant

variable {ι τ W R β ε : Type} [LinearOrder τ]

/-- The constructor: no endpoint yet. -/
def new (id : ι) : BaseParticipant ι τ W R := ⟨id, OrderedMap.empty, OrderedMap.empty⟩

/-- One call on a participant: what it returned or threw, the participant after it, and the
hooks it called, in order. -/
structure Outcome (ι τ W R α : Type) [LinearOrder τ] where
  result : α
  participant : BaseParticipant ι τ W R
  hooks : List (HookCall τ W R)

/-- The body of `create_writer` and `create_reader`, on the endpoint map that `endpoints` reads
and `update` writes back: throw `alreadyExists` without calling the hook when `topic` has an
endpoint, otherwise call the hook and store what it returns. -/
def createEndpoint (endpoints : BaseParticipant ι τ W R → OrderedMap τ β)
    (update : BaseParticipant ι τ W R → OrderedMap τ β → BaseParticipant ι τ W R)
    (alreadyExists : String) (hook : τ → HookCall τ W R) (p : BaseParticipant ι τ W R)
    (topic : τ) (answer : Except ε β) : Outcome ι τ W R (Except (CreateException ε) β) :=
  if ((endpoints p).find? topic).isSome then
    ⟨.error (.initializationException alreadyExists), p, []⟩
  else
    match answer with
    | .error e => ⟨.error (.hookException e), p, [hook topic]⟩
    | .ok endpoint => ⟨.ok endpoint, update p ((endpoints p).emplace topic endpoint), [hook topic]⟩

/-- The body of `delete_writer` and `delete_reader`: erase the first entry, in iteration order,
holding `endpoint`, then call the hook; nothing when no entry holds it. -/
def deleteEndpoint [DecidableEq β] (endpoints : BaseParticipant ι τ W R → OrderedMap τ β)
    (update : BaseParticipant ι τ W R → OrderedMap τ β → BaseParticipant ι τ W R)
    (hook : β → HookCall τ W R) (p : BaseParticipant ι τ W R) (endpoint : β) :
    Outcome ι τ W R Unit :=
  match (endpoints p).findValue endpoint with
  | none => ⟨(), p, []⟩
  | some topic => ⟨(), update p ((endpoints p).erase topic), [hook endpoint]⟩

/-- `BaseParticipant::create_writer`, with the answer `create_writer_` gives if it is called. -/
def createWriter [ToString ι] [ToString τ] (p : BaseParticipant ι τ W R) (topic : τ)
    (createWriter_ : Except ε W) : Outcome ι τ W R (Except (CreateException ε) W) :=
  createEndpoint (·.writers) (fun p writers => { p with writers })
    ("Error creating writer for topic " ++ toString topic ++ " in participant " ++ toString p.id ++
      ". Writer already exists.")
    .createWriter_ p topic createWriter_

/-- `BaseParticipant::create_reader`, with the answer `create_reader_` gives if it is called. -/
def createReader [ToString ι] [ToString τ] (p : BaseParticipant ι τ W R) (topic : τ)
    (createReader_ : Except ε R) : Outcome ι τ W R (Except (CreateException ε) R) :=
  createEndpoint (·.readers) (fun p readers => { p with readers })
    ("Error creating Reader for topic " ++ toString topic ++ " in participant " ++ toString p.id ++
      ". Reader already exists.")
    .createReader_ p topic createReader_

/-- `BaseParticipant::delete_writer`. -/
def deleteWriter [DecidableEq W] (p : BaseParticipant ι τ W R) (writer : W) :
    Outcome ι τ W R Unit :=
  deleteEndpoint (·.writers) (fun p writers => { p with writers }) .deleteWriter_ p writer

/-- `BaseParticipant::delete_reader`. -/
def deleteReader [DecidableEq R] (p : BaseParticipant ι τ W R) (reader : R) :
    Outcome ι τ W R Unit :=
  deleteEndpoint (·.readers) (fun p readers => { p with readers }) .deleteReader_ p reader

/-- `BaseParticipant::~BaseParticipant`: the errors it logs, in order, and the participant after
it clears each endpoint map it finds not empty. -/
def destroy [ToString ι] (p : BaseParticipant ι τ W R) : List String × BaseParticipant ι τ W R :=
  let (writersLog, writers) := if p.writers.entries.isEmpty then ([], p.writers) else
    (["Deleting Participant " ++ toString p.id ++ " with still alive writers"], OrderedMap.empty)
  let (readersLog, readers) := if p.readers.entries.isEmpty then ([], p.readers) else
    (["Deleting Participant " ++ toString p.id ++ " with still alive readers"], OrderedMap.empty)
  (writersLog ++ readersLog, ⟨p.id, writers, readers⟩)

end BaseParticipant

end DdsRouter
