import DdsRouter.Types.Containers

/-!
# `AllowedTopicList`: the routing filter

The model of `AllowedTopicList.cpp`. The constructor reduces the configured allowlist and
blocklist with `get_topic_list_without_repetition_`, which drops every filter contained in
another one, and `is_topic_allowed` then evaluates the reduced lists allowlist first.

## Design notes

Filters are `std::shared_ptr<DdsFilterTopic>`: the model keeps them as handles `α`, ordered as
the sets order them, and reads the two virtual methods of the filter through
`DdsFilterTopic`. Nothing is assumed of either method here; the results that need an
assumption state it.
-/

namespace DdsRouter

/-- The two virtual methods of `DdsFilterTopic` that the filter lists call, on filter handles
`α` and topics `τ`: `contains` between two filters, and `matches` of a topic (`matchesTopic`
here, since `matches` is a Lean keyword). -/
structure DdsFilterTopic (α τ : Type) where
  contains : α → α → Bool
  matchesTopic : α → τ → Bool

/-- An RPC service by its two data topics, `RPCTopic::request_topic()` and
`RPCTopic::reply_topic()`. -/
structure RPCTopic (τ : Type) where
  requestTopic : τ
  replyTopic : τ

section Reduction

variable {α τ : Type} [LinearOrder α] (F : DdsFilterTopic α τ)

/-- The inner loop of `get_topic_list_without_repetition_` for the candidate `newTopic`: it walks
the stored filters in order, marks as `repeated` those the candidate contains, and stops with
`add_it = false` at the first stored filter that contains the candidate. -/
def scanStored (newTopic : α) : List α → OrderedSet α → Bool × OrderedSet α
  | [], repeated => (true, repeated)
  | topicStored :: rest, repeated =>
    if F.contains topicStored newTopic then (false, repeated)
    else if F.contains newTopic topicStored then
      scanStored newTopic rest (repeated.insert topicStored)
    else scanStored newTopic rest repeated

/-- One pass of the outer loop: scan the stored filters, erase the repeated ones, and insert the
candidate unless a stored filter contains it. The repeated filters are erased also when the
scan stopped early. -/
def addWithoutRepetition (nonRepeatedList : OrderedSet α) (newTopic : α) : OrderedSet α :=
  let scan := scanStored F newTopic nonRepeatedList.elems OrderedSet.empty
  let pruned := scan.2.elems.foldl (fun acc topicRepeated => acc.erase topicRepeated)
    nonRepeatedList
  if scan.1 then pruned.insert newTopic else pruned

/-- The outer loop of `get_topic_list_without_repetition_`, over the candidates in the order they
are enumerated. -/
def withoutRepetition (candidates : List α) : OrderedSet α :=
  candidates.foldl (addWithoutRepetition F) OrderedSet.empty

/-- `AllowedTopicList::get_topic_list_without_repetition_`. -/
def getTopicListWithoutRepetition (list : OrderedSet α) : OrderedSet α :=
  withoutRepetition F list.elems

end Reduction

/-- The state of an `AllowedTopicList`: its reduced allowlist and blocklist. -/
structure AllowedTopicList (α : Type) [LinearOrder α] where
  allowlist : OrderedSet α
  blocklist : OrderedSet α

namespace AllowedTopicList

variable {α τ : Type} [LinearOrder α] (F : DdsFilterTopic α τ)

/-- The constructor `AllowedTopicList(allowlist, blocklist)`. -/
def new (allowlist blocklist : OrderedSet α) : AllowedTopicList α :=
  ⟨getTopicListWithoutRepetition F allowlist, getTopicListWithoutRepetition F blocklist⟩

/-- `AllowedTopicList::clear`. -/
def clear (_ : AllowedTopicList α) : AllowedTopicList α :=
  ⟨OrderedSet.empty, OrderedSet.empty⟩

/-- `AllowedTopicList::is_topic_allowed`: a topic passes the allowlist when it is empty or one of
its filters matches, and only then is the blocklist consulted. -/
def isTopicAllowed (l : AllowedTopicList α) (topic : τ) : Bool :=
  let accepted := l.allowlist.elems.isEmpty || l.allowlist.elems.any (F.matchesTopic · topic)
  if !accepted then false
  else !l.blocklist.elems.any (F.matchesTopic · topic)

/-- `AllowedTopicList::is_service_allowed`. -/
def isServiceAllowed (l : AllowedTopicList α) (topic : RPCTopic τ) : Bool :=
  isTopicAllowed F l topic.requestTopic && isTopicAllowed F l topic.replyTopic

end AllowedTopicList

end DdsRouter
