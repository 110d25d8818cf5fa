import RmwDps.Discovery.PeerView

/-!
# The grammar of discovery strings

A string of a payload says something by the keyword it starts with; any other
string says nothing.  The parser instead looks for its six keywords anywhere, in
a fixed order, and reads the types of a topic even where none are announced.
This module states the grammar and finds the strings that the parser reads by it.
-/

namespace RmwDps
namespace Discovery

open Serialization

/-! ## The grammar -/

/-- The keywords of discovery strings, in the order in which they are tried. -/
inductive Keyword where
  | namespace_
  | name
  | subscriber
  | publisher
  | service
  | client
  deriving DecidableEq, Repr

def Keyword.text : Keyword → StdString
  | namespace_ => dpsNamespacePrefix
  | name => dpsNamePrefix
  | subscriber => dpsSubscriberPrefix
  | publisher => dpsPublisherPrefix
  | service => dpsServicePrefix
  | client => dpsClientPrefix

/-- Whether a topic and its types are behind the keyword. -/
def Keyword.IsTopic (keyword : Keyword) : Prop := keyword ≠ namespace_ ∧ keyword ≠ name

instance : DecidablePred Keyword.IsTopic := fun keyword =>
  inferInstanceAs (Decidable (keyword ≠ .namespace_ ∧ keyword ≠ .name))

/-- The topic up to the first `&types=`, and the types behind it; no types where
there is no `&types=`. -/
def Topic.ofText (text : StdString) : Topic :=
  match ByteString.find typesKeyword text with
  | some endPos =>
      { topic := text.take endPos
        types := (text.drop (endPos + typesKeyword.length)).splitOn typesSeparator }
  | none => { topic := text, types := [] }

/-- The node once the text behind a keyword is taken in. -/
def Keyword.accept (keyword : Keyword) (text : StdString) (node : Node) : Node :=
  match keyword with
  | namespace_ => { node with namespace_ := text }
  | name => { node with name := text }
  | subscriber => { node with subscribers := node.subscribers ++ [Topic.ofText text] }
  | publisher => { node with publishers := node.publishers ++ [Topic.ofText text] }
  | service => { node with services := node.services ++ [Topic.ofText text] }
  | client => { node with clients := node.clients ++ [Topic.ofText text] }

/-- How a string is to be treated: by the keyword it starts with, and without a
keyword in front not at all. -/
inductive Node.Accepts (node : Node) : StdString → Node → Prop
  | keyword (keyword : Keyword) (text : StdString) :
      Accepts node (keyword.text ++ text) (keyword.accept text node)
  | ignored {s : StdString} (hNone : ∀ keyword : Keyword, ¬ keyword.text <+: s) :
      Accepts node s node

/-! ## The parser by keywords -/

/-- The keyword that decides what the parser makes of a string: the first in the
order of the tests that occurs anywhere. -/
def Keyword.deciding? (s : StdString) : Option Keyword :=
  [namespace_, name, subscriber, publisher, service, client].find? fun keyword =>
    keyword.text <:+: s

/-- What the parser reads of a topic from `pos` on. -/
def Topic.readAt (s : StdString) (pos : Nat) : Topic :=
  match ByteString.find typesKeyword s with
  | some endPos =>
      { topic := ByteString.substr s pos (sizeDifference endPos pos)
        types := (s.drop (endPos + typesKeyword.length)).splitOn typesSeparator }
  | none => { topic := s.drop pos, types := (s.drop pos).splitOn typesSeparator }

/-- What the parser makes of a string whose deciding keyword ends at `pos`. -/
def Keyword.readAt (keyword : Keyword) (s : StdString) (pos : Nat) (node : Node) : Node :=
  match keyword with
  | namespace_ => { node with namespace_ := s.drop pos }
  | name => { node with name := s.drop pos }
  | subscriber => { node with subscribers := node.subscribers ++ [Topic.readAt s pos] }
  | publisher => { node with publishers := node.publishers ++ [Topic.readAt s pos] }
  | service => { node with services := node.services ++ [Topic.readAt s pos] }
  | client => { node with clients := node.clients ++ [Topic.readAt s pos] }

/-- The strings that the parser reads by the grammar: the deciding keyword, if
there is one, stands in front, and a topic has its `&types=`. -/
def ReadByGrammar (s : StdString) : Prop :=
  ∀ keyword, Keyword.deciding? s = some keyword →
    keyword.text <+: s ∧ (keyword.IsTopic → typesKeyword <:+: s)

theorem processTopicInfo_eq (s keyword : StdString) (topics : List Topic) :
    processTopicInfo s keyword topics =
      (ByteString.find keyword s).map fun found =>
        topics ++ [Topic.readAt s (found + keyword.length)] := by
  unfold processTopicInfo Topic.readAt
  cases ByteString.find keyword s with
  | none => rfl
  | some found => cases ByteString.find typesKeyword s <;> rfl

theorem Keyword.deciding?_eq (s : StdString) :
    Keyword.deciding? s =
      [namespace_, name, subscriber, publisher, service, client].find? fun keyword =>
        (ByteString.find keyword.text s).isSome := by
  unfold deciding?
  congr 1
  funext keyword
  cases hFind : ByteString.find keyword.text s with
  | none => simpa using ByteString.find_eq_none_iff.mp hFind
  | some found =>
      have hInfix : keyword.text <:+: s := by
        by_contra hNot
        rw [ByteString.find_eq_none_of_not_infix hNot] at hFind
        exact nomatch hFind
      simpa using hInfix

/-- The six tests of the loop are one search for the deciding keyword. -/
theorem Node.processTopic_eq (node : Node) (s : StdString) :
    (Keyword.deciding? s = none ∧ node.processTopic s = node) ∨
      ∃ keyword found, Keyword.deciding? s = some keyword ∧
        ByteString.find keyword.text s = some found ∧
        node.processTopic s = keyword.readAt s (found + keyword.text.length) node := by
  rw [Keyword.deciding?_eq]
  simp only [processTopic, processTopicInfo_eq, List.find?_cons, Keyword.text, List.find?_nil]
  cases hNamespace : ByteString.find dpsNamespacePrefix s with
  | some found => exact .inr ⟨.namespace_, found, rfl, hNamespace, rfl⟩
  | none =>
    cases hName : ByteString.find dpsNamePrefix s with
    | some found => exact .inr ⟨.name, found, rfl, hName, rfl⟩
    | none =>
      cases hSubscriber : ByteString.find dpsSubscriberPrefix s with
      | some found => exact .inr ⟨.subscriber, found, rfl, hSubscriber, rfl⟩
      | none =>
        cases hPublisher : ByteString.find dpsPublisherPrefix s with
        | some found => exact .inr ⟨.publisher, found, rfl, hPublisher, rfl⟩
        | none =>
          cases hService : ByteString.find dpsServicePrefix s with
          | some found => exact .inr ⟨.service, found, rfl, hService, rfl⟩
          | none =>
            cases hClient : ByteString.find dpsClientPrefix s with
            | some found => exact .inr ⟨.client, found, rfl, hClient, rfl⟩
            | none => exact .inl ⟨rfl, rfl⟩

theorem Keyword.deciding?_none {s : StdString} (hNone : Keyword.deciding? s = none)
    (keyword : Keyword) : ¬ keyword.text <:+: s := by
  have hAll := List.find?_eq_none.mp hNone keyword
  have hMem : keyword ∈ [namespace_, name, subscriber, publisher, service, client] := by
    cases keyword <;> decide
  simpa using hAll hMem

/-! ## Where the two agree -/

/-- `&types=` cannot start inside a topic keyword. -/
theorem find_typesKeyword_topic {keyword : Keyword} (hTopic : keyword.IsTopic) (text : StdString) :
    ByteString.find typesKeyword (keyword.text ++ text) =
      (ByteString.find typesKeyword text).map (· + keyword.text.length) := by
  have hSplit : ∀ word : StdString, (0x3D : UInt8) ∉ word → ¬ bytesOf "&types" <:+ word →
      ByteString.find typesKeyword ((word ++ [0x3D]) ++ text) =
        (ByteString.find typesKeyword text).map (· + (word ++ [0x3D]).length) := by
    intro word hWord hEnd
    rw [typesKeyword_eq, List.append_assoc, List.singleton_append, List.length_append,
      List.length_singleton]
    exact ByteString.find_cons_sep (by decide) hWord hEnd text
  cases keyword with
  | namespace_ => exact absurd rfl hTopic.1
  | name => exact absurd rfl hTopic.2
  | subscriber => exact hSplit (bytesOf "subscriber&topic") (by decide) (by decide)
  | publisher => exact hSplit (bytesOf "publisher&topic") (by decide) (by decide)
  | service => exact hSplit (bytesOf "service&topic") (by decide) (by decide)
  | client => exact hSplit (bytesOf "client&topic") (by decide) (by decide)

theorem Topic.readAt_eq_ofText {keyword : Keyword} (hTopic : keyword.IsTopic) {text : StdString}
    (hSized : (keyword.text ++ text).length < 2 ^ 64)
    (hTypes : typesKeyword <:+: keyword.text ++ text) :
    Topic.readAt (keyword.text ++ text) keyword.text.length = Topic.ofText text := by
  have hFound := find_typesKeyword_topic hTopic text
  unfold readAt ofText
  cases hFind : ByteString.find typesKeyword text with
  | none =>
      rw [hFind] at hFound
      exact absurd hTypes (ByteString.find_eq_none_iff.mp hFound)
  | some endPos =>
      obtain ⟨hEnd, -, -⟩ := ByteString.find_eq_some_iff.mp hFind
      rw [List.length_append] at hSized
      have hCount : sizeDifference (endPos + keyword.text.length) keyword.text.length = endPos := by
        unfold sizeDifference
        omega
      have hDrop : endPos + keyword.text.length + typesKeyword.length =
          keyword.text.length + (endPos + typesKeyword.length) := by omega
      rw [hFound, hFind]
      simp only [Option.map_some, ByteString.substr, hCount, List.drop_left, hDrop,
        List.drop_length_add_append]

theorem Keyword.readAt_eq_accept (keyword : Keyword) {text : StdString}
    (hSized : (keyword.text ++ text).length < 2 ^ 64)
    (hTypes : keyword.IsTopic → typesKeyword <:+: keyword.text ++ text) (node : Node) :
    keyword.readAt (keyword.text ++ text) keyword.text.length node = keyword.accept text node := by
  by_cases hTopic : keyword.IsTopic
  · have hRead := Topic.readAt_eq_ofText hTopic hSized (hTypes hTopic)
    cases keyword <;> simp only [readAt, accept, hRead, List.drop_left]
  · cases keyword with
    | namespace_ => simp only [readAt, accept, List.drop_left]
    | name => simp only [readAt, accept, List.drop_left]
    | _ => exact absurd (by decide) hTopic

theorem Node.accepts_processTopic {s : StdString} (hSized : s.length < 2 ^ 64)
    (hGrammar : ReadByGrammar s) (node : Node) : node.Accepts s (node.processTopic s) := by
  rcases node.processTopic_eq s with
    ⟨hNone, hProcess⟩ | ⟨keyword, found, hDeciding, hFind, hProcess⟩
  · rw [hProcess]
    exact .ignored fun keyword hPrefix => Keyword.deciding?_none hNone keyword hPrefix.isInfix
  · obtain ⟨hPrefix, hTypes⟩ := hGrammar keyword hDeciding
    obtain rfl : found = 0 := by
      rw [ByteString.find_eq_zero_of_prefix hPrefix] at hFind
      simpa using hFind.symm
    obtain ⟨text, rfl⟩ := hPrefix
    rw [hProcess, Nat.zero_add, keyword.readAt_eq_accept hSized hTypes]
    exact .keyword keyword text

/-! ## Where the two differ -/

/-- The field of a node that a keyword is about. -/
def Keyword.field (keyword : Keyword) (node : Node) : StdString ⊕ List Topic :=
  match keyword with
  | namespace_ => .inl node.namespace_
  | name => .inl node.name
  | subscriber => .inr node.subscribers
  | publisher => .inr node.publishers
  | service => .inr node.services
  | client => .inr node.clients

theorem Keyword.field_accept_of_ne {keyword other : Keyword} (hOther : keyword ≠ other)
    (text : StdString) (node : Node) :
    keyword.field (other.accept text node) = keyword.field node := by
  cases keyword <;> cases other <;> first | rfl | exact absurd rfl hOther

/-- Whatever the parser reads by a keyword, it changes the keyword's field of some
node. -/
theorem Keyword.exists_field_readAt_ne (keyword : Keyword) (s : StdString) (pos : Nat) :
    ∃ node, keyword.field (keyword.readAt s pos node) ≠ keyword.field node := by
  cases keyword with
  | namespace_ => exact ⟨{ namespace_ := 0 :: s.drop pos }, by simp [field, readAt]⟩
  | name => exact ⟨{ name := 0 :: s.drop pos }, by simp [field, readAt]⟩
  | _ => exact ⟨{}, by simp [field, readAt]⟩

/-- Without `&types=` the parser splits the topic into types, where the grammar
has none. -/
theorem Topic.readAt_ne_ofText {s text : StdString} {pos : Nat} (hSuffix : text <:+ s)
    (hTypes : ¬ typesKeyword <:+: s) : Topic.readAt s pos ≠ Topic.ofText text := by
  have hBehind : ¬ typesKeyword <:+: text := fun h => hTypes (h.trans hSuffix.isInfix)
  unfold readAt ofText
  rw [ByteString.find_eq_none_of_not_infix hTypes, ByteString.find_eq_none_of_not_infix hBehind]
  intro hEqual
  exact List.splitOnP_ne_nil _ _ (congrArg Topic.types hEqual)

theorem Keyword.readAt_ne_accept {keyword : Keyword} (hTopic : keyword.IsTopic)
    {s text : StdString} {pos : Nat} (hSuffix : text <:+ s) (hTypes : ¬ typesKeyword <:+: s)
    (node : Node) : keyword.readAt s pos node ≠ keyword.accept text node := by
  have hTopicNe : Topic.readAt s pos ≠ Topic.ofText text := Topic.readAt_ne_ofText hSuffix hTypes
  intro hEqual
  have hField := congrArg keyword.field hEqual
  cases keyword with
  | namespace_ => exact hTopic.1 rfl
  | name => exact hTopic.2 rfl
  | _ => exact hTopicNe (by simpa [field, readAt, accept] using hField)

theorem Node.Accepts.field_or {node node' : Node} {s : StdString} (hAccepts : node.Accepts s node')
    (keyword : Keyword) :
    keyword.field node' = keyword.field node ∨
      ∃ text, s = keyword.text ++ text ∧ node' = keyword.accept text node := by
  cases hAccepts with
  | ignored hNone => exact .inl rfl
  | keyword other text =>
      by_cases hOther : keyword = other
      · subst hOther
        exact .inr ⟨text, rfl, rfl⟩
      · exact .inl (Keyword.field_accept_of_ne hOther text node)

theorem readByGrammar_of_accepts {s : StdString}
    (hAccepts : ∀ node : Node, node.Accepts s (node.processTopic s)) : ReadByGrammar s := by
  intro keyword hDeciding
  have hRead : ∀ node : Node, node.processTopic s =
      keyword.readAt s ((ByteString.find keyword.text s).getD 0 + keyword.text.length) node := by
    intro node
    rcases node.processTopic_eq s with ⟨hNone, -⟩ | ⟨other, found, hOther, hFind, hProcess⟩
    · rw [hNone] at hDeciding
      exact nomatch hDeciding
    · obtain rfl : keyword = other := by simpa [hDeciding] using hOther
      rw [hProcess, hFind, Option.getD_some]
  -- A node whose field the parser changes is accepted by the same keyword.
  obtain ⟨node, hField⟩ := keyword.exists_field_readAt_ne s
    ((ByteString.find keyword.text s).getD 0 + keyword.text.length)
  have hNode := hAccepts node
  rw [hRead] at hNode
  obtain hSame | ⟨text, hText, hAccept⟩ := hNode.field_or keyword
  · exact absurd hSame hField
  · refine ⟨⟨text, hText.symm⟩, fun hTopic => ?_⟩
    by_contra hTypes
    exact Keyword.readAt_ne_accept hTopic ⟨keyword.text, hText.symm⟩ hTypes node hAccept

/-- The parser reads a string by the grammar if and only if the first keyword that
it finds anywhere stands in front, with `&types=` behind it in the case of a
topic. -/
theorem accepts_processTopic_iff {s : StdString} (hSized : s.length < 2 ^ 64) :
    (∀ node : Node, node.Accepts s (node.processTopic s)) ↔ ReadByGrammar s :=
  ⟨readByGrammar_of_accepts, fun hGrammar node => node.accepts_processTopic hSized hGrammar⟩

/-- What a talker announces: the keyword in front, and the type behind `&types=`. -/
theorem chatter_accepts_processTopic :
    (∀ node : Node, node.Accepts (bytesOf "publisher&topic=/chatter&types=String_")
      (node.processTopic (bytesOf "publisher&topic=/chatter&types=String_"))) ∧
    ({} : Node).processTopic (bytesOf "publisher&topic=/chatter&types=String_") =
      { publishers := [{ topic := bytesOf "/chatter", types := [bytesOf "String_"] }] } := by
  have hGrammar : ReadByGrammar (bytesOf "publisher&topic=/chatter&types=String_") := by
    intro keyword hDeciding
    have hPublisher : Keyword.deciding? (bytesOf "publisher&topic=/chatter&types=String_") =
        some .publisher := by decide +kernel
    rw [hPublisher, Option.some_inj] at hDeciding
    subst hDeciding
    exact ⟨by decide, fun _ => by decide +kernel⟩
  exact ⟨(accepts_processTopic_iff (by decide)).mpr hGrammar, by decide +kernel⟩

/-- A keyword inside a string names the node, and a topic without types gets one. -/
theorem hostname_not_accepts_processTopic :
    (({} : Node).processTopic (bytesOf "hostname=x") = { name := bytesOf "x" } ∧
      ¬ ∀ node : Node, node.Accepts (bytesOf "hostname=x")
        (node.processTopic (bytesOf "hostname=x"))) ∧
    (({} : Node).processTopic (bytesOf "client&topic=/t") =
        { clients := [{ topic := bytesOf "/t", types := [bytesOf "/t"] }] } ∧
      ¬ ∀ node : Node, node.Accepts (bytesOf "client&topic=/t")
        (node.processTopic (bytesOf "client&topic=/t"))) := by
  refine ⟨⟨by decide +kernel, fun hAccepts => ?_⟩, by decide +kernel, fun hAccepts => ?_⟩
  · have hPrefix := (readByGrammar_of_accepts hAccepts .name (by decide +kernel)).1
    exact absurd hPrefix (by decide)
  · have hTypes := (readByGrammar_of_accepts hAccepts .client (by decide +kernel)).2
    exact absurd (hTypes (by decide)) (by decide +kernel)

/-! ## Payloads -/

/-- The strings of a payload treated one after the other. -/
inductive Node.AcceptsAll : Node → List StdString → Node → Prop
  | nil (node : Node) : AcceptsAll node [] node
  | cons {node next last : Node} {s : StdString} {topics : List StdString}
      (hFirst : node.Accepts s next) (hRest : AcceptsAll next topics last) :
      AcceptsAll node (s :: topics) last

theorem Node.acceptsAll_foldl {topics : List StdString}
    (hSized : ∀ s ∈ topics, s.length < 2 ^ 64) (hGrammar : ∀ s ∈ topics, ReadByGrammar s)
    (node : Node) : node.AcceptsAll topics (topics.foldl Node.processTopic node) := by
  induction topics generalizing node with
  | nil => exact .nil node
  | cons s topics ih =>
      obtain ⟨hSizedFirst, hSizedRest⟩ := List.forall_mem_cons.mp hSized
      obtain ⟨hGrammarFirst, hGrammarRest⟩ := List.forall_mem_cons.mp hGrammar
      rw [List.foldl_cons]
      exact .cons (node.accepts_processTopic hSizedFirst hGrammarFirst)
        (ih hSizedRest hGrammarRest _)

/-- A payload of such strings gives the node that the grammar gives. -/
theorem decodePayload_acceptsAll [DpsCbor] {payload : List UInt8} {topics : List StdString}
    (hPayload : payload ≠ []) (hDecode : decodeTopics payload = .ok topics)
    (hSized : ∀ s ∈ topics, s.length < 2 ^ 64) (hGrammar : ∀ s ∈ topics, ReadByGrammar s) :
    ∃ node, decodePayload payload = .ok (some node) ∧ Node.AcceptsAll {} topics node := by
  refine ⟨Node.ofTopics topics, ?_, Node.acceptsAll_foldl hSized hGrammar {}⟩
  have hNonempty : payload.isEmpty = false := List.isEmpty_eq_false_iff.mpr hPayload
  unfold decodePayload
  rw [hNonempty, hDecode]
  rfl

end Discovery
end RmwDps
